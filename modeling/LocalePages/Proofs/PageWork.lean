import LocalePages.Proofs.ModuleWork

/-!
# Making the pages of a module is work in its folder

The pages of a module are found on ways from its folder, and their variants are beside them. So compiling a module writes in its
folder only (`Compilation.within_compilePath`), and what it does there is told by what is there and by the catalogs of the project
(`Compilation.alike_compilePath`): what is in other folders, what was logged and what by-products there are makes no difference.
-/

namespace LocalePages

open Disk

/-- Pages are generated for plain locales only. -/
theorem Locales.ArePlain.targets {ls : Locales} (h : ls.ArePlain) : ∀ l ∈ ls.targets, l.IsPlain :=
  fun l hl => h.1 l (List.mem_filter.1 hl).1

/-! ## The ways to the pages of a module -/

/-- The ways on which the pages of a module are found from its folder. -/
def RunSetting.pageWays (s : RunSetting) (d : Disk) (p : Place) : List Place :=
  (d.files p).filter (isWanted (GlobPattern.parseAll ["*." ++ "html"]) s.excludes)

namespace RunSetting

variable {s : RunSetting} {d d' : Disk} {p : Place} {path : Text}

/-- The pages of a folder are at the ends of their ways. -/
theorem findFiles_pages (s : RunSetting) (h : d.Leads path p) :
    d.findFiles path (GlobPattern.parseAll ["*." ++ "html"]) s.excludes =
      if (fault? path).isSome then [] else (s.pageWays d p).map fun way => way.foldl Path.join path := by
  have hplace := place_eq d h.tidy.ne_nil
  rw [h.spells] at hplace
  rw [findFiles, waysIn, hplace]
  cases fault? path with
  | some e => rfl
  | none =>
    dsimp only
    rw [if_pos h.folder, Option.isSome_none, if_neg Bool.false_ne_true, pageWays]

/-- A way on which a page is found goes through folders and ends with the name of a page. -/
theorem exists_of_mem_pageWays (h : d.Leads path p) {way : Place} (hway : way ∈ s.pageWays d p) :
    ∃ before name, way = before ++ [name] ∧ Path.IsName name ∧ Text.endsWith name ".html" = true ∧
      d.Leads (before.foldl Path.join path) (p ++ before) := by
  obtain ⟨hfile, hwanted⟩ := List.mem_filter.1 hway
  obtain ⟨hne, content, executable, hentry⟩ := h.tree.mem_files.1 hfile
  have hthere : d.entry? (p ++ way) ≠ none := by simp [hentry]
  have hnames : ∀ n ∈ way, Path.IsName n := fun n hn => h.tree.names _ hthere n (List.mem_append_right _ hn)
  obtain ⟨before, name, rfl, hpage⟩ := exists_of_isWanted (fun n hn => (hnames n hn).1) hwanted hne
  have hfolder : d.isFolderAt (p ++ before) = true := h.tree.parents (p ++ before) name (by rwa [List.append_assoc])
  obtain ⟨hspells, htidy⟩ := h.tree.spells_way h.tidy h.spells h.folder (entry?_ne_none_of_isFolderAt hfolder)
  exact ⟨before, name, rfl, hnames name (by simp), hpage, h.tree, htidy, hspells, hfolder⟩

/-- Pages are found on the same ways in alike folders. -/
theorem pageWays_congr (htree : d.IsTree) (htree' : d'.IsTree) (halike : AlikeIn p d d') : s.pageWays d' p = s.pageWays d p := by
  refine filter_files_congr htree htree' fun way hne hnames hwanted => ?_
  obtain ⟨before, name, rfl, hpage⟩ := exists_of_isWanted (fun n hn => (hnames n hn).1) hwanted hne
  have hsame : d'.entry? (p ++ (before ++ [name])) = d.entry? (p ++ (before ++ [name])) := by
    refine (halike _ (List.prefix_append p _)).1 ?_
    rw [← List.append_assoc, Place.isByproduct_append_iff, Text.isByproduct_of_page hpage]
    exact Bool.false_ne_true
  rw [hsame]

end RunSetting

/-! ## Making the pages of a module -/

namespace Compilation

variable {s : RunSetting} {m : CatalogModule} {r r' : Run} {p : Place} {lookup lookup' : CatalogLookup}

/-- Making the variant of a page for a locale asks catalogs for that locale only. -/
theorem localizePage_lookup_congr {mark domain file : Text} {template : Template} {l : Locale}
    (h : ∀ asked canonical, lookup asked canonical l = lookup' asked canonical l) (r : Run) :
    localizePage ⟨lookup, mark, domain, template⟩ file r l = localizePage ⟨lookup', mark, domain, template⟩ file r l := by
  have hlocalized : ∀ page log, Synthesizer.localized ⟨lookup, mark, domain, template⟩ l page log =
      Synthesizer.localized ⟨lookup', mark, domain, template⟩ l page log := by
    intro page log
    rw [Synthesizer.localized, Synthesizer.localized, Localization.localize_lookup_congr h]
  simp only [localizePage, Synthesizer.synthesize, hlocalized]
  rfl

/-- Making the variants of a page asks catalogs for the locales of generated pages only. -/
theorem localizeFile_lookup_congr (h : ∀ asked canonical, ∀ l ∈ s.locales.targets, lookup asked canonical l = lookup' asked canonical l)
    (m : CatalogModule) (r : Run) (file : Text) : localizeFile s m lookup r file = localizeFile s m lookup' r file := by
  unfold localizeFile
  split
  · rfl
  · split
    · rfl
    · exact List.foldl_ext _ _ _ fun r l hl => localizePage_lookup_congr (fun asked canonical => h asked canonical l hl) r

section

variable {directory name : Text} {q : Place} (hname : Path.IsName name) (hpage : Text.endsWith name ".html" = true) (hin : p <+: q)
  (hplain : s.locales.ArePlain)

include hname hpage hin hplain

/-- Making the variants of a page is work in the folder of the module. -/
theorem within_localizeFile (h : r.disk.Leads directory q) :
    Within p r.disk (localizeFile s m lookup r (Path.join directory name)).disk := by
  unfold localizeFile
  split
  · exact .refl p r.disk
  · split
    · exact .refl p r.disk
    · dsimp only
      generalize Template.build ⟨s.config.markupAttribute, true⟩ m.name _ r.log = built
      exact Within.foldl Run.disk (·.Leads directory q) (fun h hwork => h.within hwork)
        (fun r l hl h => within_localizePage hname hpage hin h (hplain.targets l hl)) { r with log := built.2 } h

/-- The variants of a page are made in the same way in alike folders. -/
theorem alike_localizeFile (h : r.disk.Leads directory q) (h' : r'.disk.Leads directory q) (halike : AlikeIn p r.disk r'.disk) :
    AlikeIn p (localizeFile s m lookup r (Path.join directory name)).disk
      (localizeFile s m lookup r' (Path.join directory name)).disk := by
  have hload : Document.load r'.disk (Path.join directory name) = Document.load r.disk (Path.join directory name) := by
    rw [Document.load, Document.load, readText, readText, read_congr h h' hin halike hname (Text.isByproduct_of_page hpage)]
  unfold localizeFile
  rw [hload]
  split
  · exact halike
  · rename_i page _
    split
    · exact halike
    · -- the template does not depend on what was logged
      dsimp only
      rw [Template.build_congr ⟨s.config.markupAttribute, true⟩ m.name page r'.log r.log]
      exact AlikeIn.foldl Run.disk (·.Leads directory q)
        (fun r l hl h => h.within (within_localizePage hname hpage hin h (hplain.targets l hl)))
        (fun r l hl h => h.within (within_localizePage hname hpage hin h (hplain.targets l hl)))
        (fun r r' l hl h h' halike => alike_localizePage hname hpage hin h h' (hplain.targets l hl) halike)
        (x := { r with log := _ }) (y := { r' with log := _ }) h h' halike

end

/-! ## Making all pages -/

/-- Making the pages of a module is going through the ways to them. -/
theorem localizePages_eq (s : RunSetting) (modules : ModuleSet) (h : r.disk.Leads m.path p) :
    localizePages s modules m r =
      if (fault? m.path).isSome then r
      else (s.pageWays r.disk p).foldl (fun r' way => localizeFile s m (modules.lookup r.disk) r' (way.foldl Path.join m.path)) r := by
  rw [localizePages, Run.filesOf, s.findFiles_pages h]
  split
  · rfl
  · rw [List.foldl_map]

/-- Whether the folders on some ways to pages are there, and each way ends with the name of a page. -/
def ReachesPages (m : CatalogModule) (p : Place) (ways : List Place) (d : Disk) : Prop :=
  ∀ way ∈ ways, ∃ before name, way = before ++ [name] ∧ Path.IsName name ∧ Text.endsWith name ".html" = true ∧
    d.Leads (before.foldl Path.join m.path) (p ++ before)

theorem ReachesPages.within {ways : List Place} {d d' : Disk} (h : ReachesPages m p ways d) (hwork : Within p d d') :
    ReachesPages m p ways d' := by
  intro way hway
  obtain ⟨before, name, rfl, hname, hpage, hlead⟩ := h way hway
  exact ⟨before, name, rfl, hname, hpage, hlead.within hwork⟩

/-- Making the page on a way is work in the folder of the module. -/
theorem within_localizeFile_way (hplain : s.locales.ArePlain) {ways : List Place} (r : Run) (way : Place) (hway : way ∈ ways)
    (h : ReachesPages m p ways r.disk) : Within p r.disk (localizeFile s m lookup r (way.foldl Path.join m.path)).disk := by
  obtain ⟨before, name, rfl, hname, hpage, hlead⟩ := h way hway
  rw [List.foldl_append]
  exact within_localizeFile hname hpage (List.prefix_append p before) hplain hlead

/-- The page on a way is made in the same way in alike folders. -/
theorem alike_localizeFile_way (hplain : s.locales.ArePlain) {ways : List Place} (r r' : Run) (way : Place) (hway : way ∈ ways)
    (h : ReachesPages m p ways r.disk) (h' : ReachesPages m p ways r'.disk) (halike : AlikeIn p r.disk r'.disk) :
    AlikeIn p (localizeFile s m lookup r (way.foldl Path.join m.path)).disk
      (localizeFile s m lookup r' (way.foldl Path.join m.path)).disk := by
  obtain ⟨before, name, rfl, hname, hpage, hlead⟩ := h way hway
  obtain ⟨before', name', hsame, -, -, hlead'⟩ := h' _ hway
  obtain ⟨rfl, -⟩ := List.append_inj' hsame rfl
  rw [List.foldl_append]
  exact alike_localizeFile hname hpage (List.prefix_append p before) hplain hlead hlead' halike

/-- Making the pages on some ways is work in the folder of the module. -/
theorem within_localizeFiles (hplain : s.locales.ArePlain) {ways : List Place} (h : ReachesPages m p ways r.disk) :
    Within p r.disk (ways.foldl (fun r way => localizeFile s m lookup r (way.foldl Path.join m.path)) r).disk :=
  Within.foldl Run.disk (ReachesPages m p ways) (fun h hwork => h.within hwork) (within_localizeFile_way hplain) r h

/-- Making the pages of a module is work in its folder. -/
theorem within_localizePages (hplain : s.locales.ArePlain) (modules : ModuleSet) (h : m.IsAt r.disk p) :
    Within p r.disk (localizePages s modules m r).disk := by
  rw [localizePages_eq s modules h.path]
  split
  · exact .refl p r.disk
  · exact within_localizeFiles hplain fun _ => RunSetting.exists_of_mem_pageWays h.path

/-- The pages of a module are made in the same way in alike folders, when the catalogs say the same. -/
theorem alike_localizePages (hplain : s.locales.ArePlain) {modules modules' : ModuleSet} (h : m.IsAt r.disk p)
    (h' : m.IsAt r'.disk p) (halike : AlikeIn p r.disk r'.disk)
    (hlookup : ∀ asked canonical, ∀ l ∈ s.locales.targets,
      modules.lookup r.disk asked canonical l = modules'.lookup r'.disk asked canonical l) :
    AlikeIn p (localizePages s modules m r).disk (localizePages s modules' m r').disk := by
  have hreach : ReachesPages m p (s.pageWays r.disk p) r.disk := fun _ => RunSetting.exists_of_mem_pageWays h.path
  have hreach' : ReachesPages m p (s.pageWays r'.disk p) r'.disk := fun _ => RunSetting.exists_of_mem_pageWays h'.path
  rw [RunSetting.pageWays_congr h.path.tree h'.path.tree halike] at hreach'
  rw [localizePages_eq s modules h.path, localizePages_eq s modules' h'.path, RunSetting.pageWays_congr h.path.tree h'.path.tree halike]
  split
  · exact halike
  · have hsame : (s.pageWays r.disk p).foldl
        (fun x way => localizeFile s m (modules'.lookup r'.disk) x (way.foldl Path.join m.path)) r' =
        (s.pageWays r.disk p).foldl
          (fun x way => localizeFile s m (modules.lookup r.disk) x (way.foldl Path.join m.path)) r' :=
      List.foldl_ext _ _ _ fun x way _ => (localizeFile_lookup_congr hlookup m x _).symm
    rw [hsame]
    have hstays : ∀ (x : Run) (way : Place), way ∈ s.pageWays r.disk p → ReachesPages m p (s.pageWays r.disk p) x.disk →
        ReachesPages m p (s.pageWays r.disk p)
          (localizeFile s m (modules.lookup r.disk) x (way.foldl Path.join m.path)).disk :=
      fun x way hway hx => hx.within (within_localizeFile_way hplain x way hway hx)
    exact AlikeIn.foldl Run.disk (ReachesPages m p (s.pageWays r.disk p)) hstays hstays
      (fun x y way hway hx hy => alike_localizeFile_way hplain x y way hway hx hy) hreach hreach' halike

/-! ## Compiling a module -/

/-- Compiling the catalogs of a module is work in its folder. -/
theorem within_compileCatalogs (htools : s.tools.MakesByproducts) (h : m.IsAt r.disk p) :
    Within p r.disk (m.locales.foldl (compileCatalog s m) r).disk :=
  Within.foldl Run.disk (m.IsAt · p) (fun h hwork => h.within hwork)
    (fun _ l hl h => within_compileCatalog htools h (h.locales l hl)) r h

/-- The catalogs of a module are compiled in the same way in alike folders. -/
theorem alike_compileCatalogs (htools : s.tools.MakesByproducts) (h : m.IsAt r.disk p) (h' : m.IsAt r'.disk p)
    (halike : AlikeIn p r.disk r'.disk) :
    AlikeIn p (m.locales.foldl (compileCatalog s m) r).disk (m.locales.foldl (compileCatalog s m) r').disk := by
  have hstays : ∀ (x : Run) (l : Locale), l ∈ m.locales → m.IsAt x.disk p → m.IsAt (compileCatalog s m x l).disk p :=
    fun x l hl hx => hx.within (within_compileCatalog htools hx (hx.locales l hl))
  exact AlikeIn.foldl Run.disk (m.IsAt · p) hstays hstays
    (fun x y l hl hx hy => alike_compileCatalog htools hx hy (hx.locales l hl)) h h' halike

/-- Compiling a module is work in its folder. -/
theorem within_compileModule (htools : s.tools.MakesByproducts) (hplain : s.locales.ArePlain) (modules : ModuleSet)
    (h : m.IsAt r.disk p) : Within p r.disk (compileModule s modules m r).disk := by
  have hcatalogs : ∀ message, Within p r.disk (m.locales.foldl (compileCatalog s m) (r.info message)).disk :=
    fun message => within_compileCatalogs htools (r := r.info message) h
  exact (hcatalogs _).trans (within_localizePages hplain modules (h.within (hcatalogs _)))

/-- A module is compiled in the same way in alike folders, when the catalogs of the project say the same whatever work is done. -/
theorem alike_compileModule (htools : s.tools.MakesByproducts) (hplain : s.locales.ArePlain) {modules modules' : ModuleSet}
    (h : m.IsAt r.disk p) (h' : m.IsAt r'.disk p) (halike : AlikeIn p r.disk r'.disk)
    (hlookup : ∀ d d', Within [] r.disk d → Within [] r'.disk d' → ∀ asked canonical, ∀ l ∈ s.locales.targets,
      modules.lookup d asked canonical l = modules'.lookup d' asked canonical l) :
    AlikeIn p (compileModule s modules m r).disk (compileModule s modules' m r').disk := by
  have hcatalogs : ∀ message, Within p r.disk (m.locales.foldl (compileCatalog s m) (r.info message)).disk :=
    fun message => within_compileCatalogs htools (r := r.info message) h
  have hcatalogs' : ∀ message, Within p r'.disk (m.locales.foldl (compileCatalog s m) (r'.info message)).disk :=
    fun message => within_compileCatalogs htools (r := r'.info message) h'
  unfold compileModule
  exact alike_localizePages hplain (h.within (hcatalogs _)) (h'.within (hcatalogs' _))
    (alike_compileCatalogs htools h h' halike)
    (hlookup _ _ ((hcatalogs _).mono List.nil_prefix) ((hcatalogs' _).mono List.nil_prefix))

/-! ## Compiling the module at a path -/

/-- A module that is set up is at the place that its path leads to. -/
theorem isAt_of_setUp {path : Text} {tools : List Text} (hplain : s.locales.ArePlain) (hname : Path.IsName (moduleName path))
    (h : r.disk.Leads path p) (hsetup : r.setUp s path (moduleName path) tools = (some m, r')) : m.IsAt r'.disk p := by
  obtain ⟨hmodule, hpath, hfolder⟩ := Run.eq_of_setUp hsetup
  have hwork : Within p r.disk r'.disk := by
    have hwork := Run.within_setUp s (moduleName path) tools h
    rwa [hsetup] at hwork
  unfold Run.setUp at hsetup
  dsimp only at hsetup
  split at hsetup
  · cases hsetup
  · rename_i hthere
    split at hsetup
    · rename_i hready
      cases hsetup
      have hlocale : r.disk.Leads (Path.join path localeFolderName) (p ++ [localeFolderName]) := by
        rw [Bool.not_eq_true', Bool.not_eq_false, isFolder] at hthere
        split at hthere
        · rename_i hfind
          exact h.join_of_find? CatalogModule.isName_localeFolderName hfind
        · cases hthere
      exact ⟨hpath ▸ h.within hwork, hfolder ▸ hlocale.within hwork, hmodule ▸ hname,
        CatalogModule.isPlain_of_setup hplain hready⟩
    · cases hsetup

variable {progress progress' : RunSummary × Run} {path : Text} (htools : s.tools.MakesByproducts) (hplain : s.locales.ArePlain)
  (hname : Path.IsName (moduleName path)) (h : progress.2.disk.Leads path p)

include htools hplain hname h

/-- Compiling the module at a path is work in the folder where it leads. -/
theorem within_compilePath (modules : ModuleSet) : Within p progress.2.disk (compilePath s modules progress path).2.disk := by
  have hsetup := Run.within_setUp s (moduleName path) [s.config.tools.msgfmt] h
  unfold compilePath
  dsimp only
  split
  · rename_i hready
    rw [hready] at hsetup
    exact hsetup.trans (within_compileModule htools hplain modules (isAt_of_setUp hplain hname h hready))
  · rename_i hready
    rw [hready] at hsetup
    exact hsetup

/-- The module at a path is compiled in the same way in alike folders, when the catalogs of the project say the same whatever work
is done. -/
theorem alike_compilePath {modules modules' : ModuleSet} (h' : progress'.2.disk.Leads path p)
    (halike : AlikeIn p progress.2.disk progress'.2.disk)
    (hlookup : ∀ d d', Within [] progress.2.disk d → Within [] progress'.2.disk d' → ∀ asked canonical, ∀ l ∈ s.locales.targets,
      modules.lookup d asked canonical l = modules'.lookup d' asked canonical l) :
    AlikeIn p (compilePath s modules progress path).2.disk (compilePath s modules' progress' path).2.disk := by
  obtain ⟨hresult, hdisk⟩ := Run.alike_setUp (moduleName path) [s.config.tools.msgfmt] htools h h' halike
  have hwork := Run.within_setUp s (moduleName path) [s.config.tools.msgfmt] h
  have hwork' := Run.within_setUp s (moduleName path) [s.config.tools.msgfmt] h'
  unfold compilePath
  dsimp only
  rcases hready : progress.2.setUp s path (moduleName path) [s.config.tools.msgfmt] with ⟨m, r⟩
  rcases hready' : progress'.2.setUp s path (moduleName path) [s.config.tools.msgfmt] with ⟨m', r'⟩
  rw [hready, hready'] at hresult hdisk
  rw [hready] at hwork
  rw [hready'] at hwork'
  obtain rfl : m = m' := hresult
  cases m with
  | none => exact hdisk
  | some m =>
    refine alike_compileModule htools hplain (isAt_of_setUp hplain hname h hready) (isAt_of_setUp hplain hname h' hready') hdisk ?_
    exact fun d d' hd hd' => hlookup d d' ((hwork.mono List.nil_prefix).trans hd) ((hwork'.mono List.nil_prefix).trans hd')

end Compilation

/-! ## Catalogs during a run -/

/-- A catalog that cannot be read says as little as one that is not there. -/
theorem Catalog.toOption_load_congr {d d' : Disk} {path : Text} (h : (d'.read path).toOption = (d.read path).toOption) :
    (load d' path).toOption = (load d path).toOption := by
  unfold load readText
  cases hd : d.read path <;> cases hd' : d'.read path <;> rw [hd, hd'] at h <;> cases h <;> rfl

/-- What the catalogs of a project say for plain locales stays the same whatever work is done: catalogs stay, and the folders where
they are. -/
theorem ModuleSet.lookup_congr_of_within {d d' : Disk} {paths : List Text} (htree : d.IsTree)
    (h : Within [] d d') {l : Locale} (hl : l.IsPlain) (asked canonical : Text) :
    (ofPaths d paths).lookup d' asked canonical l = (ofPaths d paths).lookup d asked canonical l := by
  rw [lookup, lookup, catalog?, catalog?, localeFolder?_ofPaths]
  cases hfound : paths.find? fun path => d.isFolder (Path.join path localeFolderName) && moduleName path == asked with
  | none => rfl
  | some path =>
    have hthere : d.isFolder (Path.join path localeFolderName) = true := by
      have hboth := List.find?_some hfound
      rw [Bool.and_eq_true] at hboth
      exact hboth.1
    obtain ⟨q, hlead, -⟩ := exists_leads_of_isFolder htree
      (Path.isTidy_join path CatalogModule.isName_localeFolderName) hthere
    have hlead' := hlead.within h
    have hname := hl.isName_catalog.1
    have hcontent := h.catalogs (q ++ [l.posix ++ ".po"]) (Place.endsIn_append_iff.2
      (List.isSuffixOf_iff_suffix.2 (List.suffix_append _ _)))
    have hread : (d'.read (catalogFile (Path.join path localeFolderName) l)).toOption =
        (d.read (catalogFile (Path.join path localeFolderName) l)).toOption := by
      rw [catalogFile, toOption_read_join hname hlead.spells hlead.folder,
        toOption_read_join hname hlead'.spells hlead'.folder, hcontent]
    simp only [Option.map_some, Option.bind_some, Catalog.toOption_load_congr hread]

end LocalePages
