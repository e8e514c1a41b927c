import LocalePages.Proofs.AuthoredPages
import LocalePages.Proofs.PageWork
import LocalePages.Proofs.VariantSteps

/-!
# A page that has gone bad

When one page of a module holds something else, whatever it is, compilation makes of the other pages what it would have made of
them: only the page, its variants, their variants and so on can differ (`Compilation.localizePages_withFile`). A step that makes the
variants of a page makes no new difference, since a page that is the same is made in the same way, and of a page that can differ
the variants can differ too (`Compilation.localizeFile_agreesOff`). A page that cannot be read is logged where its turn comes, and
all others are made.
-/

namespace LocalePages

open Disk

/-! ## Variants of variants -/

namespace Locale

/-- The name of the variant of an entry for a locale, of the variant of this one for the next locale, and so on. -/
def nameAlong (name : Text) (ls : List Locale) : Text := ls.foldl (fun name l => l.localizedName name) name

/-- The path of the variant of a page for a locale, of the variant of this one for the next locale, and so on. -/
def pathAlong (path : Text) (ls : List Locale) : Text := ls.foldl (fun path l => l.localizedPath path) path

/-- The variants of the variants of an entry are beside it. -/
theorem pathAlong_join {directory name : Text} {ls : List Locale} (htidy : Path.IsTidy directory) (hname : Path.IsName name)
    (hplain : ∀ l ∈ ls, l.IsPlain) :
    pathAlong (Path.join directory name) ls = Path.join directory (nameAlong name ls) ∧ Path.IsName (nameAlong name ls) := by
  induction ls generalizing name with
  | nil => exact ⟨rfl, hname⟩
  | cons l ls ih =>
    obtain ⟨hl, hplain⟩ := List.forall_mem_cons.1 hplain
    have hpath : l.localizedPath (Path.join directory name) = Path.join directory (l.localizedName name) := by
      rw [localizedPath_eq, Path.beside_join htidy hname, variantName_join directory hname]
    rw [pathAlong, List.foldl_cons, hpath]
    exact ih (hl.isName_localized hname.1) hplain

/-- Whether a place is that of an entry of a folder, or the path of one of its variants, of their variants and so on, can lead
there. -/
def ReachedFrom (ls : List Locale) (directory : Text) (folder : Place) (name : Text) (q : Place) : Prop :=
  q = folder ++ [name] ∨ ∃ along, (∀ l ∈ along, l ∈ ls) ∧ fault? (Path.join directory (nameAlong name along)) = none ∧
    q = folder ++ [nameAlong name along]

/-- What is reached from an entry goes on to its variants. -/
theorem ReachedFrom.localized {ls : List Locale} {directory name other : Text} {folder : Place} {l : Locale}
    (h : ReachedFrom ls directory folder name (folder ++ [other])) (hl : l ∈ ls)
    (hfault : fault? (Path.join directory (l.localizedName other)) = none) :
    ReachedFrom ls directory folder name (folder ++ [l.localizedName other]) := by
  rcases h with hsame | ⟨along, halong, -, hsame⟩
  · obtain rfl : other = name := by simpa using hsame
    exact Or.inr ⟨[l], List.forall_mem_singleton.2 hl, hfault, rfl⟩
  · obtain rfl : other = nameAlong name along := by simpa using hsame
    have hnext : nameAlong name (along ++ [l]) = l.localizedName (nameAlong name along) := by
      rw [nameAlong, List.foldl_concat]
      rfl
    refine Or.inr ⟨along ++ [l], List.forall_mem_append.2 ⟨halong, List.forall_mem_singleton.2 hl⟩, ?_, ?_⟩
    · rwa [hnext]
    · rw [hnext]

end Locale

open LocalePages.Locale (ReachedFrom pathAlong nameAlong)

/-- Whether the path of a page, or of one of its variants, of their variants and so on, leads to a place. -/
def Disk.Reaches (d : Disk) (ls : List Locale) (file : Text) (q : Place) : Prop :=
  ∃ along, (∀ l ∈ along, l ∈ ls) ∧ d.place (pathAlong file along) = .ok q

/-- Where a path of a variant can lead, but leads nowhere, nothing is. -/
theorem Disk.entry?_eq_none_of_not_reaches {d : Disk} {ls along : List Locale} {directory name : Text} {p : Place}
    (h : d.Opens directory p) (htidy : Path.IsTidy directory) (hname : Path.IsName name) (hplain : ∀ l ∈ ls, l.IsPlain)
    (halong : ∀ l ∈ along, l ∈ ls) (hfault : fault? (Path.join directory (nameAlong name along)) = none)
    (hnot : ¬d.Reaches ls (Path.join directory name) (p ++ [nameAlong name along])) :
    d.entry? (p ++ [nameAlong name along]) = none := by
  obtain ⟨hpath, hown⟩ := Locale.pathAlong_join htidy hname fun l hl => hplain l (halong l hl)
  have hplace := place_join hown h.spells h.folder
  by_contra hthere
  rw [hfault, if_neg (by simpa using hthere), ← hpath] at hplace
  exact hnot ⟨along, halong, hplace⟩

/-- The run with another file at a place of its disk. -/
def Run.withFile (r : Run) (p : Place) (content : FileContent) (executable : Bool) : Run :=
  { r with disk := r.disk.put p (.file content executable) }

/-! ## Catalogs stay -/

/-- Catalogs say the same on disks with the same folders and the same files of catalogs. -/
theorem ModuleSet.lookup_congr_of_agreesOff {d d' : Disk} {changed : Place → Prop} (hagrees : AgreesOff changed d d')
    (hcatalogs : ∀ q, Place.EndsIn q ".po" → d'.contentAt? q = d.contentAt? q) (modules : ModuleSet) (asked canonical : Text)
    {l : Locale} (hl : l.IsPlain) : modules.lookup d' asked canonical l = modules.lookup d asked canonical l := by
  have hread : ∀ folder, (d'.read (catalogFile folder l)).toOption = (d.read (catalogFile folder l)).toOption := by
    intro folder
    have hname := hl.isName_catalog.1
    by_cases hopens : ∃ p, d.Opens folder p
    · obtain ⟨p, h⟩ := hopens
      have h' := hagrees.opens h
      have hcontent := hcatalogs (p ++ [l.posix ++ ".po"]) (Place.endsIn_append_iff.2
        (List.isSuffixOf_iff_suffix.2 (List.suffix_append _ _)))
      rw [catalogFile, toOption_read_join hname h.spells h.folder, toOption_read_join hname h'.spells h'.folder, hcontent]
    · have h : ∀ p, ¬d.Opens folder p := fun p hp => hopens ⟨p, hp⟩
      have h' : ∀ p, ¬d'.Opens folder p := fun p hp => h p (hagrees.symm.opens hp)
      rw [catalogFile, toOption_read_of_has (write_of_not_opens h hname).1, toOption_read_of_has (write_of_not_opens h' hname).1]
  have hcatalog : modules.catalog? d' asked l = modules.catalog? d asked l := by
    unfold catalog?
    cases modules.localeFolder? asked with
    | none => rfl
    | some folder => exact Catalog.toOption_load_congr (hread folder)
  rw [lookup, lookup, hcatalog]

namespace Compilation

variable {s : RunSetting} {m : CatalogModule} {r r' : Run} {lookup : CatalogLookup} {changed : Place → Prop} {p : Place}

/-! ## One page -/

section

variable {directory name : Text} {q : Place} {y : Synthesizer} {l : Locale} (h : r.disk.Opens directory q)
  (htidy : Path.IsTidy directory) (hname : Path.IsName name)

include h htidy hname

/-- Making a variant of a page changes the variant only. -/
theorem agreesOff_localizePage (hl : l.IsPlain)
    (hchanged : fault? (Path.join directory (l.localizedName name)) = none → changed (q ++ [l.localizedName name])) :
    AgreesOff changed r.disk (localizePage y (Path.join directory name) r l).disk := by
  rw [← Path.beside_join htidy hname] at h
  rw [disk_localizePage]
  refine Synthesizer.agreesOff_synthesize h hl (fun hfault => ?_) r.log
  rw [localizedPath_join htidy hname] at hfault
  rw [Locale.variantName_join directory hname]
  exact hchanged hfault

/-- Making a variant of a page keeps its folder open. -/
theorem opens_localizePage (hl : l.IsPlain) : (localizePage y (Path.join directory name) r l).disk.Opens directory q := by
  have hfolders : AgreesOff (fun _ => True) r.disk (localizePage y (Path.join directory name) r l).disk :=
    agreesOff_localizePage h htidy hname hl fun _ => trivial
  exact hfolders.opens h

/-- Making a variant of a page on two disks makes no new difference. -/
theorem localizePage_agreesOff (hl : l.IsPlain) (hagrees : AgreesOff changed r.disk r'.disk) :
    AgreesOff changed (localizePage y (Path.join directory name) r l).disk
      (localizePage y (Path.join directory name) r' l).disk := by
  rw [← Path.beside_join htidy hname] at h
  rw [disk_localizePage, disk_localizePage]
  exact y.synthesize_agreesOff h hl hagrees r.log r'.log

variable (hplain : s.locales.ArePlain)

include hplain

/-- Making the variants of a page changes the variants only. -/
theorem agreesOff_localizeFile
    (hchanged : ∀ l ∈ s.locales.targets, fault? (Path.join directory (l.localizedName name)) = none →
      changed (q ++ [l.localizedName name])) :
    AgreesOff changed r.disk (localizeFile s m lookup r (Path.join directory name)).disk := by
  unfold localizeFile
  split
  · exact .refl changed r.disk
  · split
    · exact .refl changed r.disk
    · dsimp only
      generalize Template.build ⟨s.config.markupAttribute, true⟩ m.name _ r.log = built
      exact AgreesOff.foldl_self Run.disk (·.Opens directory q)
        (fun x l hl hx => opens_localizePage hx htidy hname (hplain.targets l hl))
        (fun x l hl hx => agreesOff_localizePage hx htidy hname (hplain.targets l hl) (hchanged l hl)) { r with log := built.2 } h

/-- Making the variants of a page on two disks makes no new difference, when the variants of a page that differs may differ. -/
theorem localizeFile_agreesOff
    (hclosed : changed (q ++ [name]) → ∀ l ∈ s.locales.targets, fault? (Path.join directory (l.localizedName name)) = none →
      changed (q ++ [l.localizedName name]))
    (hagrees : AgreesOff changed r.disk r'.disk) :
    AgreesOff changed (localizeFile s m lookup r (Path.join directory name)).disk
      (localizeFile s m lookup r' (Path.join directory name)).disk := by
  have h' := hagrees.opens h
  by_cases hpage : changed (q ++ [name])
  · have hown : AgreesOff changed r.disk (localizeFile s m lookup r (Path.join directory name)).disk :=
      agreesOff_localizeFile h htidy hname hplain (hclosed hpage)
    have hown' : AgreesOff changed r'.disk (localizeFile s m lookup r' (Path.join directory name)).disk :=
      agreesOff_localizeFile h' htidy hname hplain (hclosed hpage)
    exact (hown.symm.trans hagrees).trans hown'
  · have hload : Document.load r'.disk (Path.join directory name) = Document.load r.disk (Path.join directory name) := by
      rw [Document.load, Document.load, readText, readText, read_congr_of_entry h h' hname (hagrees.entries _ hpage)]
    unfold localizeFile
    rw [hload]
    split
    · exact hagrees
    · rename_i page _
      split
      · exact hagrees
      · -- the template does not depend on what was logged
        dsimp only
        rw [Template.build_congr ⟨s.config.markupAttribute, true⟩ m.name page r'.log r.log]
        exact AgreesOff.foldl Run.disk (·.Opens directory q)
          (fun x l hl hx => opens_localizePage hx htidy hname (hplain.targets l hl))
          (fun x x' l hl hx hsame => localizePage_agreesOff hx htidy hname (hplain.targets l hl) hsame)
          (x := { r with log := _ }) (y := { r' with log := _ }) h hagrees

end

/-! ## All pages -/

/-- Making pages makes no new difference when a page and what is reached from it may differ. -/
theorem localizeFiles_agreesOff (hplain : s.locales.ArePlain) {ways : List Place} (hreach : ReachesPages m p ways r.disk)
    {before : Place} {name : Text}
    (hagrees : AgreesOff (ReachedFrom s.locales.targets (before.foldl Path.join m.path) (p ++ before) name) r.disk r'.disk) :
    AgreesOff (ReachedFrom s.locales.targets (before.foldl Path.join m.path) (p ++ before) name)
      (ways.foldl (fun r way => localizeFile s m lookup r (way.foldl Path.join m.path)) r).disk
      (ways.foldl (fun r way => localizeFile s m lookup r (way.foldl Path.join m.path)) r').disk := by
  refine AgreesOff.foldl Run.disk (ReachesPages m p ways)
    (fun x way hway hx => hx.within (within_localizeFile_way hplain x way hway hx)) (fun x x' way hway hx hsame => ?_)
    hreach hagrees
  obtain ⟨here, own, rfl, hown, -, hlead⟩ := hx way hway
  rw [List.foldl_append]
  refine localizeFile_agreesOff hlead.opens hlead.tidy hown hplain (fun hpage l hl hfault => ?_) hsame
  -- what is reached is in the folder of the page
  obtain rfl : here = before := by
    rcases hpage with hpage | ⟨along, -, -, hpage⟩ <;>
      exact List.append_cancel_left (List.append_inj_left' hpage rfl)
  exact hpage.localized hl hfault

/-! ## The page that has gone bad -/

/-- A page that cannot be read stays so while authored pages stay. -/
theorem load_eq_of_keepsAuthored {d d' : Disk} {directory name : Text} {q : Place} (h : d.Opens directory q)
    (h' : d'.Opens directory q) (hname : Path.IsName name) (hpage : Text.endsWith name ".html" = true) (hkeeps : d.KeepsAuthored d')
    {content : FileContent} (hcontent : d.contentAt? (q ++ [name]) = some content) {e : PageError}
    (hload : Document.load d (Path.join directory name) = .error e) : Document.load d' (Path.join directory name) = .error e := by
  obtain ⟨executable, hentry⟩ := contentAt?_eq_some_iff.1 hcontent
  have hread := read_join hname h.spells h.folder
  have hread' := read_join hname h'.spells h'.folder
  cases hfault : fault? (Path.join directory name) with
  | some f =>
    rw [hfault] at hread hread'
    rw [Document.load, readText, hread] at hload
    rw [Document.load, readText, hread', ← hload]
  | none =>
    rw [hfault, hentry] at hread
    cases content with
    | text t =>
      rw [Document.load, readText, hread] at hload
      cases hload
    | bytes b =>
      have hstays := hkeeps (q ++ [name]) (.bytes b) ⟨name, List.getLast?_concat, hpage⟩ rfl hcontent
      obtain ⟨executable', hentry'⟩ := contentAt?_eq_some_iff.1 hstays
      rw [hfault, hentry'] at hread'
      rw [Document.load, readText, hread] at hload
      rw [Document.load, readText, hread', ← hload]

/-- A file that holds no text holds no page. -/
theorem exists_load_of_bytes {d : Disk} {directory name : Text} {q : Place} (h : d.Opens directory q) (hname : Path.IsName name)
    {bytes : Bytes} (hcontent : d.contentAt? (q ++ [name]) = some (.bytes bytes)) :
    ∃ reason, Document.load d (Path.join directory name) = .error (.unreadable (Path.join directory name) reason) := by
  obtain ⟨executable, hentry⟩ := contentAt?_eq_some_iff.1 hcontent
  rw [Document.load, readText, read_join hname h.spells h.folder, hentry]
  cases fault? (Path.join directory name) with
  | some f => exact ⟨f, rfl⟩
  | none => exact ⟨.notText, rfl⟩

/-- Where a page of a module is found: under a name in a folder on a way from the module. -/
structure IsFound (s : RunSetting) (m : CatalogModule) (d : Disk) (p before : Place) (name : Text) : Prop where
  module : d.Leads m.path p
  faultless : fault? m.path = none
  way : before ++ [name] ∈ s.pageWays d p

namespace IsFound

variable {d : Disk} {before : Place} {name : Text}

/-- The name of a page that is found, and its folder. -/
theorem facts (h : IsFound s m d p before name) :
    Path.IsName name ∧ Text.endsWith name ".html" = true ∧ d.Leads (before.foldl Path.join m.path) (p ++ before) := by
  obtain ⟨here, own, hway, hname, hpage, hlead⟩ := RunSetting.exists_of_mem_pageWays h.module h.way
  obtain ⟨rfl, hown⟩ := List.append_inj' hway rfl
  obtain rfl := List.singleton_inj.1 hown
  exact ⟨hname, hpage, hlead⟩

/-- A file is where a page is found. -/
theorem exists_entry (h : IsFound s m d p before name) :
    ∃ content executable, d.entry? (p ++ before ++ [name]) = some (.file content executable) := by
  rw [List.append_assoc]
  exact (h.module.tree.mem_files.1 (List.mem_filter.1 h.way).1).2

theorem isFolderAt_eq_false (h : IsFound s m d p before name) : d.isFolderAt (p ++ before ++ [name]) = false := by
  obtain ⟨content, executable, hentry⟩ := h.exists_entry
  rw [isFolderAt, hentry]

/-- The path of a page that is found spells its place. -/
theorem spells (h : IsFound s m d p before name) :
    d.Spells (Path.join (before.foldl Path.join m.path) name) (p ++ before ++ [name]) := by
  obtain ⟨hname, -, hlead⟩ := h.facts
  obtain ⟨content, executable, hentry⟩ := h.exists_entry
  exact hlead.spells.join hname hlead.folder (hentry ▸ Option.some_ne_none _)

/-- A page is found where it was when it holds something else, and so are all others. -/
theorem put (h : IsFound s m d p before name) (content : FileContent) (executable : Bool) :
    IsFound s m (d.put (p ++ before ++ [name]) (.file content executable)) p before name ∧
      s.pageWays (d.put (p ++ before ++ [name]) (.file content executable)) p = s.pageWays d p := by
  obtain ⟨hname, -, hlead⟩ := h.facts
  have htree' := h.module.tree.put (e := .file content executable) hlead.folder hname h.isFolderAt_eq_false
  have hagrees : AgreesOff (fun _ => True) d (d.put (p ++ before ++ [name]) (.file content executable)) :=
    .put trivial h.isFolderAt_eq_false content executable
  have hopens := hagrees.opens h.module.opens
  have hways : s.pageWays (d.put (p ++ before ++ [name]) (.file content executable)) p = s.pageWays d p := by
    refine filter_files_congr h.module.tree htree' fun way _ _ _ => ?_
    rw [entry?_put d _ _ (by simp)]
    split
    · rename_i hsame
      rw [← hsame]
      exact iff_of_true ⟨content, executable, rfl⟩ h.exists_entry
    · exact Iff.rfl
  exact ⟨⟨⟨htree', h.module.tidy, hopens.spells, hopens.folder⟩, h.faultless, hways ▸ h.way⟩, hways⟩

end IsFound

/-- A page that cannot be read is logged when its turn comes after some other pages. -/
theorem localizeFile_of_load {before : Place} {name : Text} (hplain : s.locales.ArePlain) (h : IsFound s m r.disk p before name)
    (lookup : CatalogLookup) {ways : List Place} (hways : ∀ way ∈ ways, way ∈ s.pageWays r.disk p) {e : PageError}
    (hload : Document.load r.disk (Path.join (before.foldl Path.join m.path) name) = .error e) :
    localizeFile s m lookup (ways.foldl (fun r way => localizeFile s m lookup r (way.foldl Path.join m.path)) r)
        (Path.join (before.foldl Path.join m.path) name) =
      (ways.foldl (fun r way => localizeFile s m lookup r (way.foldl Path.join m.path)) r).error e.message := by
  obtain ⟨hname, hpage, hlead⟩ := h.facts
  obtain ⟨content, executable, hentry⟩ := h.exists_entry
  have hreach : ReachesPages m p ways r.disk := fun way hway => RunSetting.exists_of_mem_pageWays h.module (hways way hway)
  have hwork : Within p r.disk (ways.foldl (fun r way => localizeFile s m lookup r (way.foldl Path.join m.path)) r).disk :=
    within_localizeFiles hplain hreach
  have hstep : ∀ (x : Run) (way : Place), x.disk.KeepsAuthored (localizeFile s m lookup x (way.foldl Path.join m.path)).disk :=
    fun x way => keepsAuthored_localizeFile s m lookup x (way.foldl Path.join m.path)
  have hkeeps := Disk.keepsAuthored_foldl Run.disk hstep ways r
  have hstays := load_eq_of_keepsAuthored hlead.opens (hlead.within hwork).opens hname hpage hkeeps
    (contentAt?_eq_some_iff.2 ⟨executable, hentry⟩) hload
  rw [localizeFile, hstays]

/-- A page of a module is found somewhere. -/
theorem exists_isFound (htree : r.disk.IsTree) (hcleaned : Path.cleaned m.path = m.path) {file : Text}
    (hfile : file ∈ r.filesOf s m "html") :
    ∃ p before name, IsFound s m r.disk p before name ∧ file = Path.join (before.foldl Path.join m.path) name := by
  have hfound := hfile
  unfold Run.filesOf findFiles at hfound
  obtain ⟨way, hway, rfl⟩ := List.mem_map.1 hfound
  obtain ⟨hway, hwanted⟩ := List.mem_filter.1 hway
  unfold waysIn at hway
  split at hway
  · cases hway
  · rename_i p hplace
    have hne : m.path ≠ [] := by
      rintro hempty
      rw [hempty] at hplace
      cases hplace
    split at hway
    · rename_i hfolder
      obtain ⟨hfault, hspells⟩ := spells_of_place hplace
      have hlead : r.disk.Leads m.path p := ⟨htree, hcleaned ▸ Path.isTidy_cleaned (hcleaned.symm ▸ hne), hspells, hfolder⟩
      have hmem : way ∈ s.pageWays r.disk p := List.mem_filter.2 ⟨hway, hwanted⟩
      obtain ⟨before, name, rfl, -⟩ := RunSetting.exists_of_mem_pageWays hlead hmem
      exact ⟨p, before, name, ⟨hlead, hfault, hmem⟩, by rw [List.foldl_append]; rfl⟩
    · -- the pattern of pages does not stand for a way without steps
      obtain rfl := List.mem_singleton.1 hway
      rw [isWanted, Bool.and_eq_true] at hwanted
      exact absurd (GlobPattern.covers_pages hwanted.1) (by decide)

/-- Each page of a module is found once. -/
theorem nodup_pages {d : Disk} {path : Text} (h : d.Leads path p) :
    ((s.pageWays d p).map fun way => way.foldl Path.join path).Nodup := by
  refine List.Nodup.map_on (fun way hway way' hway' hsame => ?_) ((h.tree.nodup_files p).filter _)
  have hspells : ∀ {way}, way ∈ s.pageWays d p → d.Spells (way.foldl Path.join path) (p ++ way) := by
    intro way hway
    obtain ⟨-, content, executable, hentry⟩ := h.tree.mem_files.1 (List.mem_filter.1 hway).1
    exact (h.tree.spells_way h.tidy h.spells h.folder (hentry ▸ Option.some_ne_none _)).1
  have hplaces := (hspells hway).symm.trans (hsame ▸ hspells hway')
  exact List.append_cancel_left (Except.ok.inj hplaces)

section

variable {before : Place} {name : Text} (hplain : s.locales.ArePlain) (h : IsFound s m r.disk p before name) (modules : ModuleSet)
  (content : FileContent) (executable : Bool)

include hplain h

/-- The pages of a module, one of which holds something else, are those on the same ways, made with catalogs that say the same. -/
theorem localizePages_withFile_eq :
    localizePages s modules m (r.withFile (p ++ before ++ [name]) content executable) =
      (s.pageWays r.disk p).foldl (fun r' way => localizeFile s m (modules.lookup r.disk) r' (way.foldl Path.join m.path))
        (r.withFile (p ++ before ++ [name]) content executable) := by
  obtain ⟨h', hways⟩ := h.put content executable
  obtain ⟨-, hpage, -⟩ := h.facts
  have hagrees : AgreesOff (· = p ++ before ++ [name]) r.disk (r.withFile (p ++ before ++ [name]) content executable).disk := by
    refine .put ?_ h.isFolderAt_eq_false content executable
    rfl
  have hcatalogs : ∀ q, Place.EndsIn q ".po" →
      (r.withFile (p ++ before ++ [name]) content executable).disk.contentAt? q = r.disk.contentAt? q := by
    intro q hq
    rw [Run.withFile, contentAt?_put_file r.disk content executable q (by simp), if_neg]
    rintro rfl
    rw [Place.endsIn_append_iff, Text.endsWith_of_endsWith hpage (by decide)] at hq
    exact absurd hq (by decide)
  rw [localizePages_eq s modules h'.module, h.faultless, Run.withFile, hways]
  exact List.foldl_ext _ _ _ fun r' way _ => localizeFile_lookup_congr (fun asked canonical l hl =>
    ModuleSet.lookup_congr_of_agreesOff hagrees hcatalogs modules asked canonical (hplain.targets l hl)) m r' _

/-- When a page holds something else, nothing but it and what is reached from it can differ after the pages were made. -/
theorem agreesOff_localizePages_withFile :
    AgreesOff (ReachedFrom s.locales.targets (before.foldl Path.join m.path) (p ++ before) name) (localizePages s modules m r).disk
      (localizePages s modules m (r.withFile (p ++ before ++ [name]) content executable)).disk := by
  have hreach : ReachesPages m p (s.pageWays r.disk p) r.disk := fun _ => RunSetting.exists_of_mem_pageWays h.module
  rw [localizePages_withFile_eq hplain h, localizePages_eq s modules h.module, h.faultless]
  exact localizeFiles_agreesOff hplain hreach (.put (Or.inl rfl) h.isFolderAt_eq_false content executable)

/-- What differs after the pages were made is where paths lead that are reached from the page, on one disk or the other. -/
theorem entry?_localizePages_withFile {q : Place} (hq : q ≠ p ++ before ++ [name])
    (hdone : ¬(localizePages s modules m r).disk.Reaches s.locales.targets (Path.join (before.foldl Path.join m.path) name) q)
    (hdone' : ¬(localizePages s modules m (r.withFile (p ++ before ++ [name]) content executable)).disk.Reaches s.locales.targets
      (Path.join (before.foldl Path.join m.path) name) q) :
    Disk.entry? (localizePages s modules m (r.withFile (p ++ before ++ [name]) content executable)).disk q =
      Disk.entry? (localizePages s modules m r).disk q := by
  have hagrees := agreesOff_localizePages_withFile hplain h modules content executable
  obtain ⟨hname, -, hlead⟩ := h.facts
  have hreach : ReachesPages m p (s.pageWays r.disk p) r.disk := fun _ => RunSetting.exists_of_mem_pageWays h.module
  have hopens : (localizePages s modules m r).disk.Opens (before.foldl Path.join m.path) (p ++ before) := by
    rw [localizePages_eq s modules h.module, h.faultless]
    exact (hlead.within (within_localizeFiles hplain hreach)).opens
  by_cases hreached : ReachedFrom s.locales.targets (before.foldl Path.join m.path) (p ++ before) name q
  · obtain hsame | ⟨along, halong, hfault, rfl⟩ := hreached
    · exact absurd hsame hq
    · rw [entry?_eq_none_of_not_reaches hopens hlead.tidy hname hplain.targets halong hfault hdone,
        entry?_eq_none_of_not_reaches (hagrees.opens hopens) hlead.tidy hname hplain.targets halong hfault hdone']
  · exact hagrees.entries q hreached

/-- A page that cannot be read is logged where its turn comes, and all other pages are made. -/
theorem localizePages_withFile_of_load {e : PageError}
    (hload : Document.load (r.withFile (p ++ before ++ [name]) content executable).disk
      (Path.join (before.foldl Path.join m.path) name) = .error e) :
    ∃ first last, r.filesOf s m "html" = first ++ Path.join (before.foldl Path.join m.path) name :: last ∧
      Path.join (before.foldl Path.join m.path) name ∉ first ∧ Path.join (before.foldl Path.join m.path) name ∉ last ∧
      localizePages s modules m (r.withFile (p ++ before ++ [name]) content executable) =
        last.foldl (localizeFile s m (modules.lookup r.disk)) ((first.foldl (localizeFile s m (modules.lookup r.disk))
          (r.withFile (p ++ before ++ [name]) content executable)).error e.message) := by
  obtain ⟨h', hways'⟩ := h.put content executable
  obtain ⟨waysBefore, waysAfter, hways⟩ := List.append_of_mem h.way
  have hfile : (before ++ [name]).foldl Path.join m.path = Path.join (before.foldl Path.join m.path) name := by
    rw [List.foldl_append]
    rfl
  have hfiles : r.filesOf s m "html" = (s.pageWays r.disk p).map fun way => way.foldl Path.join m.path := by
    rw [Run.filesOf, s.findFiles_pages h.module, h.faultless]
    rfl
  have hnodup := nodup_pages (s := s) h.module
  rw [hways, List.map_append, List.map_cons, hfile] at hfiles hnodup
  obtain ⟨hother, -⟩ := List.nodup_cons.1 (List.nodup_middle.1 hnodup)
  rw [List.mem_append, not_or] at hother
  refine ⟨_, _, hfiles, hother.1, hother.2, ?_⟩
  have hfound : ∀ way ∈ waysBefore, way ∈ s.pageWays (r.withFile (p ++ before ++ [name]) content executable).disk p := by
    intro way hway
    rw [Run.withFile, hways', hways]
    exact List.mem_append_left _ hway
  rw [localizePages_withFile_eq hplain h, hways, List.foldl_append, List.foldl_cons, List.foldl_map, List.foldl_map, hfile,
    localizeFile_of_load (r := r.withFile (p ++ before ++ [name]) content executable) hplain h' _ hfound hload]

end

/-- Whatever a page of a module holds, compilation makes the same of everything but the page and what is reached from it by making
variants, again and again. When the page cannot be read, one error says so where its turn comes, and all other pages are made. -/
theorem localizePages_withFile {tools : Toolbox} {config : Config} {root : Text}
    (hsetting : RunSetting.of tools config root = .ok s) (htree : r.disk.IsTree) (hcleaned : Path.cleaned m.path = m.path)
    (modules : ModuleSet) {file : Text} (hfile : file ∈ r.filesOf s m "html") {q : Place} (hspells : r.disk.Spells file q)
    (content : FileContent) (executable : Bool) :
    (∀ z, z ≠ q → ¬(localizePages s modules m r).disk.Reaches s.locales.targets file z →
      ¬(localizePages s modules m (r.withFile q content executable)).disk.Reaches s.locales.targets file z →
      Disk.entry? (localizePages s modules m (r.withFile q content executable)).disk z =
        Disk.entry? (localizePages s modules m r).disk z) ∧
    (∀ bytes, content = .bytes bytes →
      ∃ reason, Document.load (r.withFile q content executable).disk file = .error (.unreadable file reason)) ∧
    ∀ reason, Document.load (r.withFile q content executable).disk file = .error (.unreadable file reason) →
      ∃ first last, r.filesOf s m "html" = first ++ file :: last ∧ file ∉ first ∧ file ∉ last ∧
        localizePages s modules m (r.withFile q content executable) =
          last.foldl (localizeFile s m (modules.lookup r.disk))
            ((first.foldl (localizeFile s m (modules.lookup r.disk)) (r.withFile q content executable)).error
              ("Cannot read file: " ++ file ++ ": " ++ reason.message)) := by
  have hplain : s.locales.ArePlain := RunSetting.isPlain_of_mem_tags hsetting
  obtain ⟨p, before, name, h, rfl⟩ := exists_isFound htree hcleaned hfile
  obtain rfl : q = p ++ before ++ [name] := Except.ok.inj (hspells.symm.trans h.spells)
  refine ⟨fun z hz hdone hdone' => ?_, ?_, fun reason hload => ?_⟩
  · exact entry?_localizePages_withFile hplain h modules content executable hz hdone hdone'
  · rintro bytes rfl
    obtain ⟨h', -⟩ := h.put (.bytes bytes) executable
    obtain ⟨hname, -, hlead⟩ := h'.facts
    have hcontent : (r.withFile (p ++ before ++ [name]) (.bytes bytes) executable).disk.contentAt? (p ++ before ++ [name]) =
        some (.bytes bytes) := by
      rw [Run.withFile, contentAt?_put_file r.disk _ _ _ (by simp), if_pos rfl]
    exact exists_load_of_bytes hlead.opens hname hcontent
  · exact localizePages_withFile_of_load hplain h modules content executable hload

namespace InvalidPageWitness

/-- A source page. -/
def source : FileContent := .text "<meta name=\"gettext\" content=\"translate\"><p gettext=\".\">Hello</p>"

/-- A module with a page, and one more in a folder. -/
def disk : Disk :=
  ⟨[(["p"], .folder true), (["p", "blog"], .folder true), (["p", "blog", "index.html"], .file source false),
    (["p", "index.html"], .file source false), (["p", "locale"], .folder true)], ["p"]⟩

/-- The configuration of the project. -/
def config : Config := { Config.default with locales := ["cs_CZ"] }

/-- The tools of the project do nothing. -/
def tools : Toolbox := ⟨fun _ _ => true, fun d _ => (.ok ⟨some 0, [], []⟩, d)⟩

def czech : Locale := ⟨"cs", none, "CZ", [], none⟩

/-- The setting of the project. -/
def setting : RunSetting :=
  ⟨tools, config, "/p", ⟨[czech], 0, Locale.standard, by decide⟩, GlobPattern.parseAll config.excludes⟩

/-- The module. -/
def module : CatalogModule := ⟨"p", "/p", "/p/locale", "/p/locale/messages.pot", [czech]⟩

theorem setting_eq : RunSetting.of tools config "/p" = .ok setting := rfl

theorem isTree_disk : disk.IsTree := by
  refine IsTree.of_entries (by decide) ?_
  decide

/-- The start of the run. -/
def start : Run := .start disk .empty

/-- The start of the run where the first page is no text. -/
def invalid : Run := start.withFile ["p", "index.html"] (.bytes [255]) false

/-- The variant of the second page. -/
def variant : Place := ["p", "blog", "index.cs-CZ.html"]

/-- The pages are found, whatever the first one holds. -/
theorem filesOf_start : start.filesOf setting module "html" = ["/p/blog/index.html", "/p/index.html"] ∧
    invalid.filesOf setting module "html" = ["/p/blog/index.html", "/p/index.html"] := by
  unfold Run.filesOf Disk.findFiles Disk.waysIn
  rw [Disk.files_eq_insertionSort]
  decide +kernel

/-- The second page gets a variant, and the folder of the module is open then. -/
theorem localizePages_start : Disk.entry? (localizePages setting [] module start).disk variant ≠ none ∧
    Disk.Opens (localizePages setting [] module start).disk "/p" ["p"] ∧
    Disk.Opens (localizePages setting [] module invalid).disk "/p" ["p"] := by
  have hopens : ∀ {d : Disk}, d.walk (d.start "/p").1 (d.start "/p").2 = .ok ["p"] ∧ d.isFolderAt ["p"] = true → d.Opens "/p" ["p"] :=
    fun h => ⟨h.1, h.2⟩
  rw [localizePages, localizePages, filesOf_start.1, filesOf_start.2]
  refine (And.imp_right (And.imp hopens hopens)) ?_
  decide +kernel

/-- No variant of the first page is where the variant of the second one is. -/
theorem not_reaches_variant {d : Disk} (h : d.Opens "/p" ["p"]) : ¬d.Reaches setting.locales.targets "/p/index.html" variant := by
  rintro ⟨along, halong, hplace⟩
  have hplain : setting.locales.ArePlain := RunSetting.isPlain_of_mem_tags setting_eq
  have htidy : Path.IsTidy "/p" := Or.inr ⟨"p", by decide, by decide⟩
  have hindex : Path.IsName "index.html" := ⟨by decide, by decide, by decide⟩
  obtain ⟨hpath, hname⟩ := Locale.pathAlong_join htidy hindex fun l hl => hplain.targets l (halong l hl)
  have hsame : variant = [("p" : Text)] ++ [nameAlong "index.html" along] := eq_of_place_join h hname (hpath ▸ hplace)
  cases congrArg List.length hsame

end InvalidPageWitness

open InvalidPageWitness in
/-- When the first page is no text, the second one gets the same variant, and one error is logged. -/
theorem localizePages_withFile_invalid :
    RunSetting.of tools config "/p" = .ok setting ∧ start.disk.IsTree ∧ Path.cleaned module.path = module.path ∧
      ("/p/index.html" : Text) ∈ start.filesOf setting module "html" ∧ start.disk.Spells "/p/index.html" ["p", "index.html"] ∧
      Disk.entry? (localizePages setting [] module start).disk variant ≠ none ∧
      Disk.entry? (localizePages setting [] module invalid).disk variant =
        Disk.entry? (localizePages setting [] module start).disk variant ∧
      ∃ first last reason, start.filesOf setting module "html" = first ++ ("/p/index.html" : Text) :: last ∧
        localizePages setting [] module invalid =
          last.foldl (localizeFile setting module (ModuleSet.lookup [] start.disk))
            ((first.foldl (localizeFile setting module (ModuleSet.lookup [] start.disk)) invalid).error
              ("Cannot read file: " ++ "/p/index.html" ++ ": " ++ reason)) := by
  have hcleaned : Path.cleaned module.path = module.path := by decide
  have hfile : ("/p/index.html" : Text) ∈ start.filesOf setting module "html" := by
    rw [filesOf_start.1]
    decide
  have hspells : start.disk.Spells "/p/index.html" ["p", "index.html"] := by
    show Disk.walk _ _ _ = _
    decide
  obtain ⟨hmade, hopens, hopens'⟩ := localizePages_start
  obtain ⟨hsame, hbytes, hlogged⟩ :=
    localizePages_withFile setting_eq isTree_disk hcleaned [] hfile hspells (.bytes [255]) false
  obtain ⟨reason, hload⟩ := hbytes [255] rfl
  obtain ⟨first, last, hfiles, -, -, hdone⟩ := hlogged reason hload
  refine ⟨setting_eq, isTree_disk, hcleaned, hfile, hspells, hmade, ?_, first, last, _, hfiles, hdone⟩
  exact hsame variant (by decide) (not_reaches_variant hopens) (not_reaches_variant hopens')

end Compilation

end LocalePages
