import LocalePages.Proofs.FileChanges
import LocalePages.Proofs.LocaleNames
import LocalePages.Proofs.Repetition

/-!
# What making one variant reads and writes

The variant of a page is a file beside it, under a name that is told by the name of the page and the locale
(`Locale.localizedPath_eq`). Making it reads and writes nothing but this file: what comes of it is told by what is under the
name (`Synthesizer.synthesize_congr`), and nothing else is changed (`Synthesizer.agreesOff_synthesize`). Variants for locales that
are written differently have different names (`Locale.web_eq_of_variantName`).
-/

namespace LocalePages

open Disk

/-! ## The names of variants -/

namespace Path

/-- The path of the folder that a path with another name in place of its last component leads to. -/
def beside (path : Text) : Text :=
  match fileName? path with
  | some _ => (parent? path).getD []
  | none => path

/-- A path with another name is that of an entry of the same folder. -/
theorem withFileName_eq (path name : Text) : withFileName path name = join (beside path) name := by
  unfold withFileName beside
  cases fileName? path <;> rfl

/-- Beside the path of an entry is what is in its folder. -/
theorem beside_join {directory name : Text} (h : IsTidy directory) (hname : IsName name) : beside (join directory name) = directory := by
  rw [beside, fileName?_join directory hname, parent?_join h hname]
  rfl

end Path

namespace Locale

variable {l l' : Locale} {source : Text}

/-- The name of the variant of a page. -/
def variantName (l : Locale) (source : Text) : Text := l.localizedName ((Path.fileName? source).getD [])

/-- The variant of a page is beside it. -/
theorem localizedPath_eq (l : Locale) (source : Text) : l.localizedPath source = Path.join (Path.beside source) (l.variantName source) :=
  Path.withFileName_eq source _

/-- The name of the variant of an entry is told by the name of the entry. -/
theorem variantName_join (directory : Text) {name : Text} (hname : Path.IsName name) (l : Locale) :
    l.variantName (Path.join directory name) = l.localizedName name := by
  rw [variantName, Path.fileName?_join directory hname, Option.getD_some]

/-- The name of a variant is a proper one. -/
theorem IsPlain.isName_variantName (h : l.IsPlain) (source : Text) : Path.IsName (l.variantName source) := by
  refine h.isName_localized ?_
  cases hname : Path.fileName? source with
  | none => simp
  | some name => exact (Path.isName_of_fileName? hname).1

/-- Variants of one page with the same name are for locales that are written alike. -/
theorem web_eq_of_variantName (h : l.variantName source = l'.variantName source) : l.web = l'.web := by
  unfold variantName localizedName at h
  split at h
  · simpa using h
  · simpa using h

end Locale

/-! ## Making a variant -/

namespace Synthesizer

variable {s : Synthesizer} {source : Text} {l : Locale} {d d' : Disk} {p : Place} {changed : Place → Prop}

/-- What comes of making a variant, and what it makes of the disk, does not depend on what was logged. -/
theorem synthesize_log_congr (s : Synthesizer) (source : Text) (l : Locale) (d : Disk) (log log' : Log) :
    (s.synthesize source l d log).1 = (s.synthesize source l d log').1 ∧
      (s.synthesize source l d log).2.1 = (s.synthesize source l d log').2.1 := by
  unfold synthesize
  dsimp only
  split
  · exact ⟨rfl, rfl⟩
  · split
    · exact ⟨rfl, rfl⟩
    · rename_i page made _
      rw [(s.localized_congr l page (log.info (report (l.localizedPath source) l made))
        (log'.info (report (l.localizedPath source) l made))).1]
      split <;> exact ⟨rfl, rfl⟩

/-- Making a variant writes one file, the variant, or nothing. -/
theorem write_synthesize (s : Synthesizer) (source : Text) (l : Locale) (d : Disk) (log : Log) :
    (s.synthesize source l d log).2.1 = d ∨
      ∃ content, d.write (l.localizedPath source) content = .ok (s.synthesize source l d log).2.1 := by
  unfold synthesize
  dsimp only
  split
  · exact Or.inl rfl
  · split
    · exact Or.inl rfl
    · split
      · rename_i hsave
        exact Or.inr ⟨_, Document.save_eq_ok_iff.1 hsave⟩
      · exact Or.inl rfl

/-- Nothing is made in a folder that cannot be opened. -/
theorem synthesize_of_not_opens (h : ∀ p, ¬d.Opens (Path.beside source) p) (hl : l.IsPlain) (log : Log) :
    (s.synthesize source l d log).2.1 = d := by
  refine (s.write_synthesize source l d log).resolve_right ?_
  rintro ⟨content, hwrite⟩
  obtain ⟨e, he⟩ := (write_of_not_opens h (hl.isName_variantName source)).2 content
  rw [Locale.localizedPath_eq, he] at hwrite
  cases hwrite

/-- Making a variant changes nothing but the file under its name, and nothing at all where its path cannot lead anywhere. -/
theorem agreesOff_synthesize (h : d.Opens (Path.beside source) p) (hl : l.IsPlain)
    (hchanged : fault? (l.localizedPath source) = none → changed (p ++ [l.variantName source])) (log : Log) :
    AgreesOff changed d (s.synthesize source l d log).2.1 := by
  obtain hsame | ⟨content, hwrite⟩ := s.write_synthesize source l d log
  · rw [hsame]
    exact .refl changed d
  · rw [Locale.localizedPath_eq] at hchanged hwrite
    exact agreesOff_write h (hl.isName_variantName source) hchanged hwrite

/-- Whether two steps have left their disks as they were, or have put the same at a place. -/
def PutAlike (q : Place) (d d' e e' : Disk) : Prop := (e = d ∧ e' = d') ∨ ∃ entry, e = d.put q entry ∧ e' = d'.put q entry

/-- After the same was put, or nothing, the same is at the place where it was before. -/
theorem PutAlike.entry? {q : Place} {e e' : Disk} (hput : PutAlike q d d' e e') (hq : q ≠ []) (hentry : d'.entry? q = d.entry? q) :
    e'.entry? q = e.entry? q := by
  obtain ⟨rfl, rfl⟩ | ⟨entry, rfl, rfl⟩ := hput
  · exact hentry
  · rw [entry?_put d _ q hq, entry?_put d' _ q hq, if_pos rfl, if_pos rfl]

/-- What comes of making a variant is told by what is under its name. -/
theorem synthesize_congr (h : d.Opens (Path.beside source) p) (h' : d'.Opens (Path.beside source) p) (hl : l.IsPlain)
    (hentry : d'.entry? (p ++ [l.variantName source]) = d.entry? (p ++ [l.variantName source])) (log log' : Log) :
    (s.synthesize source l d' log').1 = (s.synthesize source l d log).1 ∧
      PutAlike (p ++ [l.variantName source]) d d' (s.synthesize source l d log).2.1 (s.synthesize source l d' log').2.1 := by
  have hname := hl.isName_variantName source
  have hexisting : existing? d' (l.localizedPath source) = existing? d (l.localizedPath source) := by
    rw [Locale.localizedPath_eq, existing?, existing?, has_congr_of_entry h h' hname hentry, Document.load, Document.load, readText,
      readText, read_congr_of_entry h h' hname hentry]
  rw [(s.synthesize_log_congr source l d' log' log).1, (s.synthesize_log_congr source l d' log' log).2]
  unfold synthesize
  dsimp only
  rw [hexisting]
  split
  · exact ⟨rfl, Or.inl ⟨rfl, rfl⟩⟩
  · split
    · exact ⟨rfl, Or.inl ⟨rfl, rfl⟩⟩
    · rename_i page made _
      generalize s.localized l page _ = written
      rw [Locale.localizedPath_eq, Document.save, Document.save]
      obtain ⟨e, hd, hd'⟩ | ⟨executable, hd, hd'⟩ := write_congr h h' hname hentry (.text written.1.toHtml)
      · rw [hd, hd']
        exact ⟨rfl, Or.inl ⟨rfl, rfl⟩⟩
      · rw [hd, hd']
        exact ⟨rfl, Or.inr ⟨_, rfl, rfl⟩⟩

/-- Making a variant on two disks makes no new difference. -/
theorem synthesize_agreesOff (s : Synthesizer) (h : d.Opens (Path.beside source) p) (hl : l.IsPlain) (hagrees : AgreesOff changed d d')
    (log log' : Log) : AgreesOff changed (s.synthesize source l d log).2.1 (s.synthesize source l d' log').2.1 := by
  have h' := hagrees.opens h
  by_cases hchanged : changed (p ++ [l.variantName source])
  · have hown := agreesOff_synthesize (s := s) h hl (fun _ => hchanged) log
    have hown' := agreesOff_synthesize (s := s) h' hl (fun _ => hchanged) log'
    exact (hown.symm.trans hagrees).trans hown'
  · obtain ⟨-, hput⟩ := synthesize_congr (s := s) h h' hl (hagrees.entries _ hchanged) log log'
    obtain ⟨hd, hd'⟩ | ⟨entry, hd, hd'⟩ := hput
    · rw [hd, hd']
      exact hagrees
    · rw [hd, hd']
      exact hagrees.put_both (by simp) entry

end Synthesizer

end LocalePages
