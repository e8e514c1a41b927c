import LocalePages.Proofs.FileOrder
import LocalePages.Proofs.Paths
import LocalePages.Run.Compilation

/-!
# Which catalogs the pages of a module ask

A tag without a domain is one of the module's own domain, but the catalogs of a domain are found by the name of a module, and that
of a module is the name of its folder. So the pages of a module ask its own catalogs exactly when it had a locale folder as the run
started and no module with one comes before it under the same name (`Compilation.leadsTo_iff`); where two modules share a name, the
pages of the second one ask the catalogs of the first (`Compilation.run_eq_runOwn_false`). In a project whose modules have locale
folders and different names, all pages ask the catalogs of their own modules (`Compilation.run_eq_runOwn`).
-/

namespace LocalePages

/-! ## Catalogs by name -/

namespace ModuleSet

/-- The file of the catalog of a domain for a locale. -/
def catalogPath? (modules : ModuleSet) (domain : Text) (l : Locale) : Option Text :=
  (modules.localeFolder? domain).map fun folder => catalogFile folder l

/-- Whether the name of a module leads to the catalogs in its own locale folder. -/
def LeadsTo (modules : ModuleSet) (m : CatalogModule) : Prop := ∀ l, modules.catalogPath? m.name l = some (m.catalogFile l)

/-- What catalogs say when those of a module's own domain are the ones in its own locale folder. -/
def ownLookup (modules : ModuleSet) (m : CatalogModule) (d : Disk) : CatalogLookup := fun domain canonical l =>
  if domain = m.name then Catalog.answer (Catalog.load d (m.catalogFile l)).toOption canonical
  else modules.lookup d domain canonical l

/-- A module whose name leads to its own catalogs asks them. -/
theorem lookup_eq_ownLookup {modules : ModuleSet} {m : CatalogModule} (h : modules.LeadsTo m) (d : Disk) :
    modules.lookup d = modules.ownLookup m d := by
  funext domain canonical l
  unfold ownLookup
  split
  · rename_i hdomain
    subst hdomain
    obtain ⟨folder, hfolder, hpath⟩ := Option.map_eq_some_iff.1 (h l)
    rw [lookup, catalog?, hfolder, Option.bind_some, hpath]
  · rfl

/-- The locale folder of a name is that of the first path with a locale folder whose module has the name. -/
theorem localeFolder?_ofPaths (d : Disk) (paths : List Text) (name : Text) :
    (ofPaths d paths).localeFolder? name =
      (paths.find? fun path => d.isFolder (Path.join path localeFolderName) && moduleName path == name).map
        fun path => Path.join path localeFolderName := by
  rw [localeFolder?, ofPaths, List.find?_map, List.find?_filter, Option.map_map]
  simp only [Function.comp_def, Bool.decide_and, Bool.decide_eq_true]

end ModuleSet

/-! ## The paths of modules -/

/-- Adding folders keeps those that are there, and adds none but new ones. -/
theorem mem_of_mem_addFolders {folders new : List Text} {f : Text} (h : f ∈ addFolders folders new) : f ∈ folders ∨ f ∈ new := by
  induction new generalizing folders with
  | nil => exact Or.inl h
  | cons g new ih =>
    rw [addFolders, List.foldl_cons] at h
    rcases ih h with hin | hin
    · split at hin
      · exact Or.inl hin
      · rcases List.mem_append.1 hin with hin | hin
        · exact Or.inl hin
        · exact Or.inr (List.mem_cons.2 (Or.inl (List.mem_singleton.1 hin)))
    · exact Or.inr (List.mem_cons_of_mem _ hin)

/-- Each folder is added once. -/
theorem nodup_addFolders {folders : List Text} (new : List Text) (h : folders.Nodup) : (addFolders folders new).Nodup := by
  induction new generalizing folders with
  | nil => exact h
  | cons g new ih =>
    rw [addFolders, List.foldl_cons]
    refine ih ?_
    split
    · exact h
    · rename_i hnew
      refine List.nodup_append.2 ⟨h, by simp, fun f hf g' hg' => ?_⟩
      rintro rfl
      rw [List.mem_singleton] at hg'
      subst hg'
      exact hnew (List.any_eq_true.2 ⟨f, hf, by simp [Path.same]⟩)

/-- What an entry stands for are cleaned paths. -/
theorem exists_cleaned_of_mem_expandEntry {d : Disk} {root entry : Text} {log : Log} {path : Text}
    (h : path ∈ (expandEntry d root entry log).1) : ∃ p, path = Path.cleaned p := by
  unfold expandEntry at h
  dsimp only at h
  split at h
  · split at h
    · obtain ⟨p, -, rfl⟩ := List.mem_map.1 h
      exact ⟨p, rfl⟩
    · cases h
  · split at h
    · exact ⟨_, List.mem_singleton.1 h⟩
    · cases h

/-- The paths of modules are cleaned, and each of them comes once. -/
theorem discoverModules_spec (d : Disk) (root : Text) (entries : List Text) (log : Log) :
    (discoverModules d root entries log).1.Nodup ∧
      ∀ path ∈ (discoverModules d root entries log).1, ∃ p, path = Path.cleaned p := by
  unfold discoverModules
  refine List.foldlRecOn (motive := fun acc : List Text × Log => acc.1.Nodup ∧ ∀ path ∈ acc.1, ∃ p, path = Path.cleaned p) _ _
    ⟨List.nodup_nil, List.forall_mem_nil _⟩ fun acc hacc entry _ => ?_
  refine ⟨nodup_addFolders _ hacc.1, fun path hpath => ?_⟩
  exact (mem_of_mem_addFolders hpath).elim (hacc.2 path) exists_cleaned_of_mem_expandEntry

/-- A module that is made ready has the name and the path that were given, and its locale folder. -/
theorem CatalogModule.eq_of_setup {d : Disk} {hasTool : Text → Bool} {path name : Text} {supported : Locales} {tools : List Text}
    {log : Log} {m : CatalogModule} (h : (setup d hasTool path name supported tools log).1 = .ok m) :
    m.name = name ∧ m.path = path ∧ m.localeFolder = Path.join path localeFolderName := by
  unfold setup at h
  dsimp only at h
  split at h
  · cases h
  · split at h
    · cases h
    · split at h
      · cases h
      · cases h
        exact ⟨rfl, rfl, rfl⟩

/-- A module that is set up has the name and the path that were given, and its locale folder, which is there. -/
theorem Run.eq_of_setUp {s : RunSetting} {r r' : Run} {path name : Text} {tools : List Text} {m : CatalogModule}
    (h : r.setUp s path name tools = (some m, r')) :
    m.name = name ∧ m.path = path ∧ m.localeFolder = Path.join path localeFolderName := by
  unfold setUp at h
  dsimp only at h
  split at h
  · cases h
  · split at h
    · rename_i hsetup
      cases h
      exact CatalogModule.eq_of_setup hsetup
    · cases h

/-! ## Compilation with own catalogs -/

namespace Compilation

/-- Makes the variants of the pages of a module with its own catalogs. -/
def localizePagesOwn (s : RunSetting) (modules : ModuleSet) (m : CatalogModule) (r : Run) : Run :=
  (r.filesOf s m "html").foldl (localizeFile s m (modules.ownLookup m r.disk)) r

/-- Compiles a module with its own catalogs. -/
def compileModuleOwn (s : RunSetting) (modules : ModuleSet) (m : CatalogModule) (r : Run) : Run :=
  let r := r.info ("Compiling gettext strings in " ++ m.path ++ " for locales: " ++ m.localeNames)
  localizePagesOwn s modules m (m.locales.foldl (compileCatalog s m) r)

/-- Compiles the module at a path with its own catalogs, if it can be set up. -/
def compilePathOwn (s : RunSetting) (modules : ModuleSet) (progress : RunSummary × Run) (path : Text) : RunSummary × Run :=
  let (summary, r) := progress
  match r.setUp s path (moduleName path) [s.config.tools.msgfmt] with
  | (some m, r) => ({ summary with modules := summary.modules + 1 }, compileModuleOwn s modules m r)
  | (none, r) => ({ summary with skipped := summary.skipped + 1 }, r)

/-- Compiles a project, or its modules of a name, each with its own catalogs. -/
def runOwn (s : RunSetting) (only : Option Text) (r : Run) : Except SelectionError RunSummary × Run :=
  let (all, r) := r.modulePaths s
  let modules := ModuleSet.ofPaths r.disk all
  match selectModules all only with
  | .error e => (.error e, r)
  | .ok paths =>
    let (summary, r) := paths.foldl (compilePathOwn s modules) (⟨0, 0, 0⟩, r)
    let (summary, r) := paths.foldl (compileScripts s) (summary, r)
    (.ok summary, r)

/-! ## The exact condition -/

/-- The pages of a module whose name leads to its own catalogs are made with them. -/
theorem localizePages_eq_own {s : RunSetting} {modules : ModuleSet} {m : CatalogModule} (h : modules.LeadsTo m) (r : Run) :
    localizePages s modules m r = localizePagesOwn s modules m r := by
  rw [localizePages, localizePagesOwn, ModuleSet.lookup_eq_ownLookup h]

/-- The name of a module leads to its own catalogs exactly when it had a locale folder as the names were collected and no module
before it that had one has the same name. -/
theorem leadsTo_iff {s : RunSetting} {r r₁ r₂ : Run} {before after tools : List Text} {path : Text} {m : CatalogModule}
    (hpaths : (r.modulePaths s).1 = before ++ path :: after) (hsetup : r₁.setUp s path (moduleName path) tools = (some m, r₂)) :
    (ModuleSet.ofPaths r.disk (r.modulePaths s).1).LeadsTo m ↔
      r.disk.isFolder m.localeFolder = true ∧
        ∀ other ∈ before, r.disk.isFolder (Path.join other localeFolderName) = true → moduleName other ≠ m.name := by
  obtain ⟨hname, -, hfolder⟩ := Run.eq_of_setUp hsetup
  obtain ⟨hnodup, hcleaned⟩ := discoverModules_spec r.disk s.root s.config.modules r.log
  change (r.modulePaths s).1.Nodup at hnodup
  change ∀ p ∈ (r.modulePaths s).1, ∃ q, p = Path.cleaned q at hcleaned
  rw [hpaths] at hnodup hcleaned ⊢
  have hrelative : Path.isAbsolute localeFolderName = false := rfl
  constructor
  · intro hleads
    obtain ⟨folder, hfound, hfile⟩ := Option.map_eq_some_iff.1 (hleads Locale.standard)
    rw [ModuleSet.localeFolder?_ofPaths] at hfound
    obtain ⟨found, hfind, rfl⟩ := Option.map_eq_some_iff.1 hfound
    obtain ⟨hthere, earlier, later, hsplit, hearlier⟩ := List.find?_eq_some_iff_append.1 hfind
    -- the file tells the folder, and that tells the path
    have hfolders : Path.join found localeFolderName = Path.join path localeFolderName := by
      have hlead : ∀ p, Path.lead (Path.join p localeFolderName) = Path.join p localeFolderName ++ "/" := fun p =>
        Path.lead_eq_append (c := 'e') (by rw [Path.join_eq_lead_append p hrelative, List.getLast?_append]; rfl) (by decide)
      have hentry : Path.isAbsolute (Locale.standard.posix ++ ".po") = false := rfl
      rw [CatalogModule.catalogFile, hfolder, catalogFile, catalogFile, Path.join_eq_lead_append (Path.join found _) hentry,
        Path.join_eq_lead_append (Path.join path _) hentry, hlead, hlead] at hfile
      exact List.append_cancel_right (List.append_cancel_right hfile)
    have hsame : found = path := by
      obtain ⟨p, rfl⟩ := hcleaned path (by simp)
      obtain ⟨q, rfl⟩ := hcleaned found (hsplit ▸ by simp)
      exact Path.cleaned_eq_of_join_eq hrelative hfolders
    subst hsame
    obtain ⟨rfl, -⟩ : before = earlier ∧ after = later := by
      have hnotin : found ∉ before ∧ found ∉ after := by
        simp only [List.nodup_append, List.nodup_cons, List.mem_cons] at hnodup
        exact ⟨fun h => hnodup.2.2 found h found (Or.inl rfl) rfl, hnodup.2.1.1⟩
      obtain ⟨h₁, -, h₂⟩ := (List.append_cons_inj_of_notMem hnotin.1 hnotin.2).1 hsplit
      exact ⟨h₁, h₂⟩
    rw [Bool.and_eq_true] at hthere
    refine ⟨hfolder ▸ hthere.1, fun other hother hother' hsame => ?_⟩
    simpa [hother', hsame] using hearlier other hother
  · rintro ⟨hthere, hfirst⟩ l
    have hfind : (before ++ path :: after).find?
        (fun path => r.disk.isFolder (Path.join path localeFolderName) && moduleName path == m.name) = some path := by
      refine List.find?_eq_some_iff_append.2 ⟨?_, before, after, rfl, fun other hother => ?_⟩
      · rw [← hfolder, hthere, hname]
        exact beq_self_eq_true _
      · by_cases hother' : r.disk.isFolder (Path.join other localeFolderName) = true
        · simp [hfirst other hother hother']
        · simp [hother']
    rw [ModuleSet.catalogPath?, ModuleSet.localeFolder?_ofPaths, hfind, CatalogModule.catalogFile, hfolder]
    rfl

/-- The pages of a module are made with its own catalogs when the module had a locale folder as the run started and no module before
it that had one has the same name, and only then its name leads to them. -/
theorem asksOwn_iff {s : RunSetting} {r r₁ r₂ : Run} {before after tools : List Text} {path : Text} {m : CatalogModule}
    (hpaths : (r.modulePaths s).1 = before ++ path :: after) (hsetup : r₁.setUp s path (moduleName path) tools = (some m, r₂)) :
    let modules := ModuleSet.ofPaths r.disk (r.modulePaths s).1
    let first := r.disk.isFolder m.localeFolder = true ∧
      ∀ other ∈ before, r.disk.isFolder (Path.join other localeFolderName) = true → moduleName other ≠ m.name
    (modules.LeadsTo m ↔ first) ∧ (first → ∀ r', localizePages s modules m r' = localizePagesOwn s modules m r') :=
  ⟨leadsTo_iff hpaths hsetup, fun h r' => localizePages_eq_own ((leadsTo_iff hpaths hsetup).2 h) r'⟩

/-- In a project whose modules have locale folders and different names, every module is compiled with its own catalogs. -/
theorem compilePath_eq_own {s : RunSetting} {r : Run}
    (hthere : ∀ path ∈ (r.modulePaths s).1, r.disk.isFolder (Path.join path localeFolderName) = true)
    (hnames : ((r.modulePaths s).1.map moduleName).Nodup) (progress : RunSummary × Run) {path : Text}
    (hin : path ∈ (r.modulePaths s).1) :
    compilePath s (ModuleSet.ofPaths r.disk (r.modulePaths s).1) progress path =
      compilePathOwn s (ModuleSet.ofPaths r.disk (r.modulePaths s).1) progress path := by
  obtain ⟨before, after, hsplit⟩ := List.append_of_mem hin
  have hother : ∀ other ∈ before, moduleName other ≠ moduleName path := by
    intro other hother
    rw [hsplit, List.map_append, List.map_cons, List.nodup_append] at hnames
    exact hnames.2.2 _ (List.mem_map_of_mem hother) _ List.mem_cons_self
  rcases hsetup : progress.2.setUp s path (moduleName path) [s.config.tools.msgfmt] with ⟨_ | m, r₂⟩
  · simp only [compilePath, compilePathOwn, hsetup]
  · obtain ⟨hname, -, hfolder⟩ := Run.eq_of_setUp hsetup
    have hleads := (leadsTo_iff hsplit hsetup).2
      ⟨hfolder ▸ hthere path hin, fun other hin' _ => hname ▸ hother other hin'⟩
    simp only [compilePath, compilePathOwn, hsetup, compileModule, compileModuleOwn, localizePages_eq_own hleads]

/-- A run is about modules of the project. -/
theorem mem_of_mem_selectModules {all paths : List Text} {only : Option Text} (h : selectModules all only = .ok paths) :
    ∀ path ∈ paths, path ∈ all := by
  unfold selectModules at h
  cases only with
  | none =>
    cases h
    exact fun _ hp => hp
  | some name =>
    dsimp only at h
    split at h
    · cases h
    · cases h
      exact fun _ hp => (List.mem_filter.1 hp).1

/-- In a project whose modules have locale folders and different names, a run makes all pages with the catalogs of their own
modules. -/
theorem run_eq_runOwn {s : RunSetting} {r : Run} (only : Option Text)
    (hthere : ∀ path ∈ (r.modulePaths s).1, r.disk.isFolder (Path.join path localeFolderName) = true)
    (hnames : ((r.modulePaths s).1.map moduleName).Nodup) : run s only r = runOwn s only r := by
  have hdisk : (r.modulePaths s).2.disk = r.disk := rfl
  rcases hselect : selectModules (r.modulePaths s).1 only with e | paths
  · simp only [run, runOwn, hselect]
  · have hfold := List.foldl_ext _ _ (⟨0, 0, 0⟩, (r.modulePaths s).2) fun progress path hin =>
      compilePath_eq_own hthere hnames progress (mem_of_mem_selectModules hselect path hin)
    simp only [run, runOwn, hselect, hdisk, hfold]

namespace TwoShopsWitness

/-- A source page. -/
def source : FileContent := .text "<meta name=\"gettext\" content=\"translate\"><p gettext=\".\">Hello</p>"

/-- Two modules in folders of the same name, with a catalog each, the second with a page. -/
def disk : Disk :=
  ⟨[(["p"], .folder true), (["p", "a"], .folder true), (["p", "a", "shop"], .folder true),
    (["p", "a", "shop", "locale"], .folder true),
    (["p", "a", "shop", "locale", "cs_CZ.po"], .file (.text "msgid \"Hello\"\nmsgstr \"Ahoj\"\n") false),
    (["p", "b"], .folder true), (["p", "b", "shop"], .folder true), (["p", "b", "shop", "index.html"], .file source false),
    (["p", "b", "shop", "locale"], .folder true),
    (["p", "b", "shop", "locale", "cs_CZ.po"], .file (.text "msgid \"Hello\"\nmsgstr \"Nazdar\"\n") false)], ["p"]⟩

/-- The locales of the project. -/
def locales : Locales := ⟨[⟨"cs", none, "CZ", [], none⟩], 0, Locale.standard, by decide⟩

/-- A project with both modules, whose tools do nothing. -/
def setting : RunSetting :=
  ⟨⟨fun _ _ => true, fun d _ => (.ok ⟨some 0, [], []⟩, d)⟩, { Config.default with modules := ["a/shop", "b/shop"] }, "/p",
    locales, []⟩

/-- The page in Czech, as the run leaves it. -/
def czech : Text := "/p/b/shop/index.cs-CZ.html"

/-- The second module. -/
def second : CatalogModule :=
  ⟨"shop", "/p/b/shop", "/p/b/shop/locale", "/p/b/shop/locale/messages.pot", [⟨"cs", none, "CZ", [], none⟩, Locale.standard]⟩

end TwoShopsWitness

open TwoShopsWitness in
/-- The name of the second module of `TwoShopsWitness` does not lead to its own catalogs, since the first one has it too. -/
theorem asksOwn_iff_second :
    ∃ r, (Run.start disk .empty).setUp setting "/p/b/shop" "shop" [] = (some second, r) ∧
      ¬(ModuleSet.ofPaths disk ["/p/a/shop", "/p/b/shop"]).LeadsTo second := by
  have hpaths : ((Run.start disk .empty).modulePaths setting).1 =
      [("/p/a/shop" : Text)] ++ ("/p/b/shop" : Text) :: [] := by decide +kernel
  have hsome : ((Run.start disk .empty).setUp setting "/p/b/shop" (moduleName "/p/b/shop") []).1 = some second := by
    decide +kernel
  obtain ⟨r, hsetup⟩ : ∃ r, (Run.start disk .empty).setUp setting "/p/b/shop" (moduleName "/p/b/shop") [] = (some second, r) :=
    ⟨_, Prod.ext hsome rfl⟩
  refine ⟨r, hsetup, fun hleads => ?_⟩
  have hfirst := ((asksOwn_iff hpaths hsetup).1.1 (hpaths ▸ hleads)).2 "/p/a/shop" List.mem_cons_self
  exact hfirst (by decide +kernel) rfl

open TwoShopsWitness in
/-- A run does not always make the pages of a module with its own catalogs: in `TwoShopsWitness` the page of the second module gets the
translation of the first one. -/
theorem run_eq_runOwn_false : ¬∀ s only r, run s only r = runOwn s only r := by
  intro h
  have hsame := congrArg (fun result : Except SelectionError RunSummary × Run => result.2.disk.readText czech)
    (h setting none (.start disk .empty))
  unfold run runOwn at hsame
  delta compilePath compilePathOwn at hsame
  delta compileModule compileModuleOwn at hsame
  delta localizePages localizePagesOwn at hsame
  delta Run.filesOf at hsame
  delta Disk.findFiles at hsame
  delta Disk.waysIn at hsame
  rw [Disk.files_eq_insertionSort] at hsame
  revert hsame
  decide +kernel

end Compilation

end LocalePages
