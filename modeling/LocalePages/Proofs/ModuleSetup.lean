import LocalePages.Project.CatalogModule
import LocalePages.Proofs.FileChanges
import LocalePages.Proofs.ReadLocales

/-!
# Making a module ready

What a module needs is checked before anything is written, so that a check that fails leaves the disk as it was
(`CatalogModule.setup_of_fault`). Only files that are missing are written, in the locale folder (`CatalogModule.makeFiles_spec`). The
locales of the module are those of the project, those that its list names and the one of source pages, each once
(`CatalogModule.allLocales_eq`). A module that was made ready is ready: to make it so again changes nothing
(`CatalogModule.setup_spec`).
-/

namespace LocalePages

open Disk

/-! ## Locales in order -/

namespace Locales

/-- Whether a locale is named as another one. -/
def alike (l t : Locale) : Bool := t.posix == l.posix

theorem addNew_eq (tags : List Locale) (l : Locale) : addNew tags l = if tags.any (alike l) then tags else tags ++ [l] := rfl

/-- The locales of a list that are named as none of those that are there, each name once. -/
def newOf (tags listed : List Locale) : List Locale := (listed.filter fun l => !tags.any (alike l)).eraseDupsBy alike

/-- Those of a list that are new come after the locales that are there. -/
theorem foldl_addNew_eq (tags listed : List Locale) : listed.foldl addNew tags = tags ++ newOf tags listed := by
  unfold newOf
  induction listed generalizing tags with
  | nil => exact (List.append_nil tags).symm
  | cons l listed ih =>
    rw [List.foldl_cons, ih, addNew_eq]
    by_cases hl : tags.any (alike l) = true
    · rw [if_pos hl, List.filter_cons_of_neg (by simp [hl])]
    · -- what comes later is named neither as one of the others nor as this one
      have hlater : (listed.filter fun b => !(tags ++ [l]).any (alike b)) =
          (listed.filter fun b => !tags.any (alike b)).filter fun b => decide (alike b l = false) := by
        rw [List.filter_filter]
        refine List.filter_congr fun b _ => ?_
        cases hb : alike b l <;> simp [hb]
      rw [if_neg hl, List.filter_cons_of_pos (by simpa using hl), List.eraseDupsBy_cons, hlater, List.append_assoc]
      rfl

/-- Locales with different short names are added as they are. -/
theorem foldl_addNew_of_nodup {tags : List Locale} (h : (tags.map Locale.posix).Nodup) : tags.foldl addNew [] = tags := by
  induction tags using List.reverseRecOn with
  | nil => rfl
  | append_singleton tags l ih =>
    rw [List.map_append, List.nodup_append] at h
    obtain ⟨htags, -, hnew⟩ := h
    have hl : ¬tags.any (alike l) = true := by
      rw [List.any_eq_true]
      rintro ⟨t, ht, hsame⟩
      exact hnew t.posix (List.mem_map_of_mem ht) l.posix (List.mem_singleton_self _) (eq_of_beq hsame)
    rw [List.foldl_concat, ih htags, addNew_eq, if_neg hl]

end Locales

/-! ## What paths find -/

namespace Disk

variable {d d' : Disk} {directory name : Text} {p : Place} {changed : Place → Prop}

/-- A path that finds a folder opens it. -/
theorem exists_opens_of_find? {writable : Bool} (h : d.find? directory = some (.folder writable)) :
    ∃ p, d.place directory = .ok p ∧ d.entry? p = some (.folder writable) ∧ d.Opens directory p := by
  unfold find? at h
  split at h
  · rename_i p hplace
    exact ⟨p, hplace, h, (spells_of_place hplace).2, by rw [isFolderAt, h]⟩
  · cases h

/-- A path finds the same folder when files have come to places where nothing was. -/
theorem AgreesOff.find?_folder (h : AgreesOff changed d d') (hnew : ∀ q, changed q → d.entry? q = none) {writable : Bool}
    (hfind : d.find? directory = some (.folder writable)) : d'.find? directory = some (.folder writable) := by
  obtain ⟨p, hplace, hentry, hopens⟩ := exists_opens_of_find? hfind
  have hkept : ¬changed p := by
    intro hp
    rw [hnew p hp] at hentry
    cases hentry
  rw [find?_of_spells (ne_nil_of_place hplace) (h.opens hopens).spells, (spells_of_place hplace).1, h.entries p hkept]
  exact hentry

/-- Something is under a name in a folder when its path can lead somewhere and something is at its place. -/
theorem has_join_iff (h : d.Opens directory p) (hname : Path.IsName name) :
    d.has (Path.join directory name) = true ↔ fault? (Path.join directory name) = none ∧ d.entry? (p ++ [name]) ≠ none := by
  rw [has, find?_join hname h.spells h.folder]
  cases fault? (Path.join directory name) with
  | some e => simp
  | none => simp [Option.isSome_iff_ne_none]

end Disk

namespace CatalogModule

variable {d d' : Disk} {path name directory content : Text} {p : Place} {supported : Locales} {tools : List Text}
  {hasTool : Text → Bool}

/-! ## The locales of a module -/

/-- The locales that names are read as, where they can be read. -/
def readable (ids : List Text) : List Locale := ids.filterMap fun id => (Locale.parse id).toOption

/-- Names that cannot be read are left out. -/
theorem readIds_fst (path : Text) (ids : List Text) (log : Log) : (readIds path ids log).1 = readable ids := by
  induction ids using List.reverseRecOn with
  | nil => rfl
  | append_singleton ids id ih =>
    rw [readable, List.filterMap_append, ← readable, ← ih, readIds, List.foldl_concat, ← readIds]
    generalize readIds path ids log = result
    dsimp only [List.filterMap_cons, List.filterMap_nil]
    cases Locale.parse id with
    | error e => exact (List.append_nil _).symm
    | ok l => rfl

/-- The locales of a module are those of the project, then those that its list adds, and then the one of source pages if it is not
among them. -/
theorem allLocales_eq (h : (supported.tags.map Locale.posix).Nodup) (listed : List Locale) :
    let new := Locales.newOf supported.tags listed
    allLocales supported listed = supported.tags ++ new ++
      if (supported.tags ++ new).any (Locales.alike supported.default) then [] else [supported.default] := by
  intro new
  rw [allLocales, List.foldl_append, List.foldl_append, Locales.foldl_addNew_of_nodup h,
    Locales.foldl_addNew_eq supported.tags listed, List.foldl_cons, List.foldl_nil, Locales.addNew_eq]
  split
  · exact (List.append_nil _).symm
  · rfl

/-! ## The files of a module -/

/-- A file that is missing is written where nothing is. After that something is there. -/
theorem writeMissing_spec (h : d.Opens directory p) (hname : Path.IsName name)
    (hmade : writeMissing d (Path.join directory name) content = .ok d') :
    d'.has (Path.join directory name) = true ∧ AgreesOff (fun q => d.entry? q = none ∧ q = p ++ [name]) d d' := by
  unfold writeMissing at hmade
  split at hmade
  · rename_i hthere
    cases hmade
    exact ⟨hthere, .refl _ d⟩
  · rename_i hnothing
    split at hmade
    · rename_i hwrite
      cases hmade
      refine ⟨has_write hwrite, agreesOff_write h hname (fun hfault => ⟨?_, rfl⟩) hwrite⟩
      rw [has_join_iff h hname, not_and, not_not] at hnothing
      exact hnothing hfault
    · cases hmade

/-- The place of a file that a module can get: nothing is there, and it is that of the template or of the list of locales. -/
def IsNew (d : Disk) (p q : Place) : Prop := d.entry? q = none ∧ (q = p ++ [templateName] ∨ q = p ++ [localeListName])

/-- The files of a module are made where nothing is. After that both are there. -/
theorem makeFiles_spec (h : d.Opens directory p) (hmade : makeFiles d directory supported = .ok d') :
    d'.has (Path.join directory templateName) = true ∧ d'.has (Path.join directory localeListName) = true ∧
      AgreesOff (IsNew d p) d d' := by
  unfold makeFiles at hmade
  split at hmade
  · cases hmade
  · rename_i between hfirst
    obtain ⟨htemplate, hagrees⟩ := writeMissing_spec h (by decide) hfirst
    have hopens := hagrees.opens h
    obtain ⟨hlist, hagrees'⟩ := writeMissing_spec hopens (by decide) hmade
    have hnone : ∀ q, between.entry? q = none → d.entry? q = none := by
      intro q hq
      by_cases hnew : d.entry? q = none ∧ q = p ++ [templateName]
      · exact hnew.1
      · rwa [← hagrees.entries q hnew]
    refine ⟨?_, hlist, (hagrees.mono fun q hq => ⟨hq.1, Or.inl hq.2⟩).trans
      (hagrees'.mono fun q hq => ⟨hnone q hq.1, Or.inr hq.2⟩)⟩
    -- the list of locales is not written in the place of the template
    have hother : p ++ [templateName] ≠ p ++ [localeListName] := by
      rw [Ne, List.append_cancel_left_eq]
      decide
    rw [has_join_iff hopens (by decide)] at htemplate
    rw [has_join_iff (hagrees'.opens hopens) (by decide), hagrees'.entries _ fun hq => hother hq.2]
    exact htemplate

/-- Files that are there are not made. -/
theorem makeFiles_of_has (htemplate : d.has (Path.join directory templateName) = true)
    (hlist : d.has (Path.join directory localeListName) = true) : makeFiles d directory supported = .ok d := by
  rw [makeFiles, writeMissing, if_pos htemplate]
  exact if_pos hlist

/-! ## Making a module ready -/

/-- Nothing keeps a module from being made ready that has its folders and tools. -/
theorem fault?_eq_none_iff : fault? d hasTool path tools = none ↔
    d.isFolder path = true ∧ d.find? (Path.join path localeFolderName) = some (.folder true) ∧
      ∀ tool ∈ tools, hasTool tool = true := by
  unfold fault?
  dsimp only
  cases d.isFolder path with
  | false => simp
  | true =>
    rw [Bool.not_true, if_neg Bool.false_ne_true]
    split
    · rename_i hfind
      simp [hfind]
    · rename_i hfind
      simp [hfind]
    · rename_i hno _
      simp only [reduceCtorEq, false_iff, not_and]
      exact fun _ htrue => absurd htrue hno

/-- A module that lacks a folder or a tool is not made ready. -/
theorem exists_fault? (h : d.isFolder path = false ∨ d.isFolder (Path.join path localeFolderName) = false ∨
    ∃ tool ∈ tools, hasTool tool = false) : ∃ e, fault? d hasTool path tools = some e := by
  cases hfault : fault? d hasTool path tools with
  | some e => exact ⟨e, rfl⟩
  | none =>
    obtain ⟨hfolder, hlocale, htools⟩ := fault?_eq_none_iff.1 hfault
    obtain hno | hno | ⟨tool, hin, hno⟩ := h
    · rw [hfolder] at hno
      cases hno
    · rw [isFolder, hlocale] at hno
      cases hno
    · rw [htools tool hin] at hno
      cases hno

/-- What keeps a module from being made ready leaves everything as it was. -/
theorem setup_of_fault {e : SetupError} (h : fault? d hasTool path tools = some e) (name : Text) (supported : Locales) (log : Log) :
    setup d hasTool path name supported tools log = (.error e, d, log) := by
  unfold setup
  rw [h]

/-- A module that is ready, with the locales that its list names. -/
def ready (path name : Text) (supported : Locales) (listed : List Locale) : CatalogModule :=
  ⟨name, path, Path.join path localeFolderName, Path.join (Path.join path localeFolderName) templateName, allLocales supported listed⟩

/-- A module that nothing keeps from being made ready gets its files, and then the list of its locales is read. -/
theorem setup_of_makeFiles {t : Text} (hfault : fault? d hasTool path tools = none)
    (hfiles : makeFiles d (Path.join path localeFolderName) supported = .ok d')
    (hread : d'.readText (Path.join (Path.join path localeFolderName) localeListName) = .ok t) (name : Text) (log : Log) :
    ∃ log', setup d hasTool path name supported tools log = (.ok (ready path name supported (readable (listedIds t))), d', log') := by
  refine ⟨(readIds (Path.join (Path.join path localeFolderName) localeListName) (listedIds t) log).2, ?_⟩
  rw [← readIds_fst (Path.join (Path.join path localeFolderName) localeListName) (listedIds t) log]
  simp only [setup, hfault, hfiles, hread, ready]

/-- Making a module ready ends before anything is done, or after its files were made: because the list of its locales cannot be read,
or with the module. -/
theorem setup_cases (d : Disk) (hasTool : Text → Bool) (path name : Text) (supported : Locales) (tools : List Text) (log : Log) :
    (∃ e, setup d hasTool path name supported tools log = (.error e, d, log)) ∨
      ∃ d', fault? d hasTool path tools = none ∧ makeFiles d (Path.join path localeFolderName) supported = .ok d' ∧
        ((∃ e, setup d hasTool path name supported tools log = (.error e, d', log)) ∨
          ∃ t log', d'.readText (Path.join (Path.join path localeFolderName) localeListName) = .ok t ∧
            setup d hasTool path name supported tools log =
              (.ok (ready path name supported (readable (listedIds t))), d', log')) := by
  cases hfault : fault? d hasTool path tools with
  | some e => exact Or.inl ⟨e, setup_of_fault hfault name supported log⟩
  | none =>
    cases hfiles : makeFiles d (Path.join path localeFolderName) supported with
    | error e => exact Or.inl ⟨e, by simp only [setup, hfault, hfiles]⟩
    | ok d' =>
      refine Or.inr ⟨d', rfl, rfl, ?_⟩
      cases hread : d'.readText (Path.join (Path.join path localeFolderName) localeListName) with
      | error e => exact Or.inl ⟨_, by simp only [setup, hfault, hfiles, hread]; rfl⟩
      | ok t =>
        obtain ⟨log', hsetup⟩ := setup_of_makeFiles hfault hfiles hread name log
        exact Or.inr ⟨t, log', rfl, hsetup⟩

/-- What is there stays as it is, and nothing new comes but the template and the list of locales. -/
theorem entry?_setup (d : Disk) (hasTool : Text → Bool) (path name : Text) (supported : Locales) (tools : List Text) (log : Log)
    (q : Place) :
    Disk.entry? (setup d hasTool path name supported tools log).2.1 q = d.entry? q ∨
      d.entry? q = none ∧ ∃ p, d.place (Path.join path localeFolderName) = .ok p ∧
        (q = p ++ [templateName] ∨ q = p ++ [localeListName]) := by
  obtain ⟨e, hsetup⟩ | ⟨d', hfault, hfiles, hrest⟩ := setup_cases d hasTool path name supported tools log
  · exact Or.inl (by rw [hsetup])
  · have hdisk : (setup d hasTool path name supported tools log).2.1 = d' := by
      obtain ⟨e, hsetup⟩ | ⟨t, log', -, hsetup⟩ := hrest <;> rw [hsetup]
    obtain ⟨-, hlocale, -⟩ := fault?_eq_none_iff.1 hfault
    obtain ⟨p, hplace, -, hopens⟩ := exists_opens_of_find? hlocale
    obtain ⟨-, -, hagrees⟩ := makeFiles_spec hopens hfiles
    rw [hdisk]
    by_cases hq : IsNew d p q
    · exact Or.inr ⟨hq.1, p, hplace, hq.2⟩
    · exact Or.inl (hagrees.entries q hq)

/-- A module that nothing keeps from being made ready is ready after its files were made, as long as the tools stay. -/
theorem fault?_makeFiles {hasTool' : Text → Bool} (h : fault? d hasTool path tools = none)
    (hfiles : makeFiles d (Path.join path localeFolderName) supported = .ok d')
    (htools : ∀ tool ∈ tools, hasTool tool = true → hasTool' tool = true) :
    fault? d' hasTool' path tools = none ∧ makeFiles d' (Path.join path localeFolderName) supported = .ok d' := by
  obtain ⟨hfolder, hlocale, hall⟩ := fault?_eq_none_iff.1 h
  obtain ⟨p, -, -, hopens⟩ := exists_opens_of_find? hlocale
  obtain ⟨htemplate, hlist, hagrees⟩ := makeFiles_spec hopens hfiles
  have hfolder' : d'.isFolder path = true := by
    unfold isFolder at hfolder
    split at hfolder
    · rename_i hfind
      rw [isFolder, hagrees.find?_folder (fun _ hq => hq.1) hfind]
    · cases hfolder
  exact ⟨fault?_eq_none_iff.2 ⟨hfolder', hagrees.find?_folder (fun _ hq => hq.1) hlocale, fun tool hin => htools tool hin (hall tool hin)⟩,
    makeFiles_of_has htemplate hlist⟩

/-- A module that lacks a folder or a tool is not made ready, and everything stays as it is. Whatever comes of it, what is there stays as
it is, and nothing new comes but the template and the list of locales in the locale folder. A module that is made ready has the
locales of the project, then those that its list adds, then the one of source pages if it is not among them, each once by its short
name; and it is made ready again as it is, without any change. -/
theorem setup_spec {ids : List Text} {start : Locales} (hstart : Locales.ofIds ids = .ok start) (hsupported : supported.tags = start.tags)
    (d : Disk) (hasTool : Text → Bool) (path name : Text) (tools : List Text) (log : Log) :
    let localeFolder := Path.join path localeFolderName
    let done := setup d hasTool path name supported tools log
    let after := done.2.1
    (d.isFolder path = false ∨ d.isFolder localeFolder = false ∨ (∃ tool ∈ tools, hasTool tool = false) →
      ∃ e, done = (.error e, d, log)) ∧
    (∀ q, after.entry? q = d.entry? q ∨
      d.entry? q = none ∧ ∃ p, d.place localeFolder = .ok p ∧ (q = p ++ [templateName] ∨ q = p ++ [localeListName])) ∧
    ∀ m, done.1 = .ok m →
      (m.locales.map Locale.posix).Nodup ∧
      (∃ t, after.readText (Path.join localeFolder localeListName) = .ok t ∧
        let new := Locales.newOf supported.tags (readable (listedIds t))
        m.locales = supported.tags ++ new ++
          if (supported.tags ++ new).any (Locales.alike supported.default) then [] else [supported.default]) ∧
      ∀ hasTool' log', (∀ tool ∈ tools, hasTool tool = true → hasTool' tool = true) →
        ∃ log'', setup after hasTool' path name supported tools log' = (.ok m, after, log'') := by
  intro localeFolder done after
  have hnodup : (supported.tags.map Locale.posix).Nodup := hsupported ▸ (Locales.areFirst_of_ofIds hstart).nodup
  refine ⟨fun hmissing => ?_, ?_⟩
  · obtain ⟨e, hfault⟩ := exists_fault? hmissing
    exact ⟨e, setup_of_fault hfault name supported log⟩
  · refine ⟨entry?_setup d hasTool path name supported tools log, fun m hm => ?_⟩
    obtain ⟨e, hsetup⟩ | ⟨d', hfault, hfiles, ⟨e, hsetup⟩ | ⟨t, log₁, hread, hsetup⟩⟩ :=
      setup_cases d hasTool path name supported tools log
    · simp only [done, hsetup] at hm
      cases hm
    · simp only [done, hsetup] at hm
      cases hm
    · have hafter : after = d' := by simp only [after, done, hsetup]
      simp only [done, hsetup] at hm
      cases hm
      refine ⟨?_, ⟨t, hafter ▸ hread, allLocales_eq hnodup _⟩, fun hasTool' log' htools => ?_⟩
      · rw [ready, allLocales, (Locales.foldl_addNew_spec _).1]
        exact nodup_eraseDups _
      · obtain ⟨hfault', hfiles'⟩ := fault?_makeFiles hfault hfiles htools
        rw [hafter]
        exact setup_of_makeFiles hfault' hfiles' hread name log'

namespace ShopWitness

def czech : Locale := ⟨"cs", none, "CZ", [], none⟩

def slovak : Locale := ⟨"sk", none, "SK", [], none⟩

/-- The locales of the project. -/
def czechOnly : Locales := ⟨[czech], 0, Locale.standard, by decide⟩

/-- A module that lists more locales, two of them with the same short name, and has no template. -/
def disk : Disk :=
  ⟨[(["shop"], .folder true), (["shop", "locale"], .folder true),
    (["shop", "locale", "LINGUAS"], .file (.text "# more\ncs-CZ sk_SK\nnonsense sk-Latn-SK\n") false)], []⟩

end ShopWitness

open ShopWitness in
/-- A module that lists more locales gets a template, and has the Slovak locale and that of source pages besides the Czech one. It stays
as it is when it is made ready again, and is left as it is where a tool is missing. -/
theorem setup_spec_shop :
    let m : CatalogModule := ⟨"shop", "/shop", "/shop/locale", "/shop/locale/messages.pot", [czech, slovak, Locale.standard]⟩
    let done := setup disk (· == "msgfmt") "/shop" "shop" czechOnly ["msgfmt"] .empty
    Locales.ofIds ["cs_CZ"] = .ok czechOnly ∧ done.1 = .ok m ∧ (m.locales.map Locale.posix).Nodup ∧
      done.2.1.isFile "/shop/locale/messages.pot" = true ∧
      (∃ log, setup done.2.1 (· == "msgfmt") "/shop" "shop" czechOnly ["msgfmt"] .empty = (.ok m, done.2.1, log)) ∧
      ∃ e, setup disk (· == "msgfmt") "/shop" "shop" czechOnly ["msgfmt", "msgmerge"] .empty = (.error e, disk, .empty) := by
  intro m done
  have hstart : Locales.ofIds ["cs_CZ"] = .ok czechOnly := rfl
  have hdone : done.1 = .ok m := by decide +kernel
  obtain ⟨-, -, hready⟩ := setup_spec hstart rfl disk (· == "msgfmt") "/shop" "shop" ["msgfmt"] .empty
  obtain ⟨hnodup, -, hagain⟩ := hready m hdone
  obtain ⟨hmissing, -, -⟩ := setup_spec hstart rfl disk (· == "msgfmt") "/shop" "shop" ["msgfmt", "msgmerge"] .empty
  exact ⟨hstart, hdone, hnodup, by decide +kernel, hagain _ .empty fun _ _ h => h,
    hmissing (Or.inr (Or.inr ⟨"msgmerge", by decide, by decide⟩))⟩

end CatalogModule

end LocalePages
