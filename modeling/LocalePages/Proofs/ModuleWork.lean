import LocalePages.Proofs.AuthoredPages
import LocalePages.Proofs.Building
import LocalePages.Proofs.FolderWork
import LocalePages.Proofs.FoundPages
import LocalePages.Proofs.LocaleNames
import LocalePages.Proofs.OwnCatalogs
import LocalePages.Proofs.Repetition

/-!
# Work on a module is work in its folder

Making a module ready, compiling its catalogs and making the variant of one of its pages write in the folder of the module only
(`CatalogModule.within_setup`, `Compilation.within_compileCatalog`, `Compilation.within_localizePage`), and what they do there is
told by what is there (`CatalogModule.alike_setup`, `Compilation.alike_compileCatalog`, `Compilation.alike_localizePage`). Each step
is shown to be so by what it reads and writes. The tools are taken to change nothing but by-products, as msgfmt does, which makes
compiled catalogs (`Toolbox.MakesByproducts`).
-/

namespace LocalePages

/-- The tools are the same on all disks, and make by-products and nothing else. -/
structure Toolbox.MakesByproducts (tools : Toolbox) : Prop where
  has : ∀ d d', tools.has d = tools.has d'
  here : ∀ d call, (tools.run d call).2.here = d.here
  tree : ∀ d call, d.IsTree → (tools.run d call).2.IsTree
  same : ∀ d call p, Disk.SameAt d (tools.run d call).2 p

/-- Whether all locales of a project are plain. -/
def Locales.ArePlain (ls : Locales) : Prop := (∀ l ∈ ls.tags, l.IsPlain) ∧ ls.default.IsPlain

open Disk

/-! ## Setting a module up -/

namespace CatalogModule

variable {d d' : Disk} {path name : Text} {p folder : Place} {supported : Locales} {tools : List Text}

/-- The locales of a module that is made ready are plain. -/
theorem isPlain_of_setup {hasTool : Text → Bool} {log : Log} {m : CatalogModule} (hplain : supported.ArePlain)
    (h : (setup d hasTool path name supported tools log).1 = .ok m) : ∀ l ∈ m.locales, l.IsPlain := by
  have hread : ∀ (ids : List Text) (file : Text) (log : Log), ∀ l ∈ (readIds file ids log).1, l.IsPlain := by
    intro ids file log
    unfold readIds
    refine List.foldlRecOn (motive := fun acc : List Locale × Log => ∀ l ∈ acc.1, l.IsPlain) _ _ (List.forall_mem_nil _)
      fun acc hacc id _ => ?_
    dsimp only
    split
    · rename_i l hparse
      intro t ht
      rcases List.mem_append.1 ht with ht | ht
      · exact hacc t ht
      · rw [List.mem_singleton.1 ht]
        exact Locale.isPlain_of_parse hparse
    · exact hacc
  unfold setup at h
  dsimp only at h
  split at h
  · cases h
  · split at h
    · cases h
    · split at h
      · cases h
      · cases h
        intro l hl
        have hl := Locales.mem_of_mem_foldl_addNew hl
        simp only [List.mem_append, List.mem_singleton] at hl
        rcases hl with (hl | hl) | rfl
        · exact hplain.1 l hl
        · exact hread _ _ _ l hl
        · exact hplain.2

/-- Writing a file that is missing is work in its folder. -/
theorem within_writeMissing (h : d.Leads path p) (hin : folder <+: p) (hname : Path.IsName name)
    (hcatalog : Text.endsWith name ".po" = false) {content : Text}
    (hmade : writeMissing d (Path.join path name) content = .ok d') : Within folder d d' := by
  unfold writeMissing at hmade
  split at hmade
  · cases hmade
    exact .refl folder d
  · split at hmade
    · rename_i hwrite
      cases hmade
      exact within_write h hin hname hcatalog hwrite
    · cases hmade

/-- A file that is missing is written in the same way to alike folders. -/
theorem alike_writeMissing (h : d.Leads path p) (h' : d'.Leads path p) (hin : folder <+: p) (halike : AlikeIn folder d d')
    (hname : Path.IsName name) (hkept : Text.isByproduct name = false) (content : Text) :
    AlikeResult folder (writeMissing d (Path.join path name) content) (writeMissing d' (Path.join path name) content) := by
  have hhas : d'.has (Path.join path name) = d.has (Path.join path name) := by
    rw [has, has, find?_congr h h' hin halike hname hkept]
  have hwrite := alike_write h h' hin halike hname hkept (.text content)
  unfold writeMissing
  rw [hhas]
  split
  · exact halike
  · cases hd : d.write (Path.join path name) (.text content) <;> cases hd' : d'.write (Path.join path name) (.text content) <;>
      rw [hd, hd'] at hwrite
    · exact congrArg _ hwrite
    · cases hwrite
    · cases hwrite
    · exact hwrite

theorem isName_templateName : Path.IsName templateName := by decide

theorem isName_localeListName : Path.IsName localeListName := by decide

theorem isName_localeFolderName : Path.IsName localeFolderName := by decide

/-- Making the files of a locale folder is work in it. -/
theorem within_makeFiles (h : d.Leads path p) (hin : folder <+: p) (hmade : makeFiles d path supported = .ok d') :
    Within folder d d' := by
  unfold makeFiles at hmade
  split at hmade
  · cases hmade
  · rename_i htemplate
    have hfirst := within_writeMissing h hin isName_templateName (by decide) htemplate
    exact hfirst.trans (within_writeMissing (h.within hfirst) hin isName_localeListName (by decide) hmade)

/-- The same files are made in alike folders. -/
theorem alike_makeFiles (supported : Locales) (h : d.Leads path p) (h' : d'.Leads path p) (hin : folder <+: p) (halike : AlikeIn folder d d') :
    AlikeResult folder (makeFiles d path supported) (makeFiles d' path supported) := by
  have htemplate := alike_writeMissing h h' hin halike isName_templateName (by decide) templateHeader
  unfold makeFiles
  cases hd : writeMissing d (Path.join path templateName) templateHeader <;>
    cases hd' : writeMissing d' (Path.join path templateName) templateHeader <;> rw [hd, hd'] at htemplate
  · exact htemplate
  · cases htemplate
  · cases htemplate
  · exact alike_writeMissing (h.within (within_writeMissing h hin isName_templateName (by decide) hd))
      (h'.within (within_writeMissing h' hin isName_templateName (by decide) hd')) hin htemplate isName_localeListName (by decide) _

/-- A module that has no fault has a locale folder in its folder. -/
theorem leads_of_fault? {hasTool : Text → Bool} (h : d.Leads path p) (hfault : fault? d hasTool path tools = none) :
    d.Leads (Path.join path localeFolderName) (p ++ [localeFolderName]) := by
  unfold fault? at hfault
  dsimp only at hfault
  split at hfault
  · cases hfault
  · split at hfault
    · rename_i hfind
      exact h.join_of_find? isName_localeFolderName hfind
    · cases hfault
    · cases hfault

/-- Making a module ready is work in its folder. -/
theorem within_setup (hasTool : Text → Bool) (name : Text) (supported : Locales) (tools : List Text) (h : d.Leads path p)
    (log : Log) :
    Within p d (setup d hasTool path name supported tools log).2.1 := by
  unfold setup
  split
  · exact .refl p d
  · rename_i hfault
    dsimp only
    split
    · exact .refl p d
    · rename_i hmade
      have hfiles := within_makeFiles (leads_of_fault? h hfault) (List.prefix_append p _) hmade
      split <;> exact hfiles

/-- Which locales are read from a list does not depend on what was logged. -/
theorem readIds_congr (file : Text) (ids : List Text) (log log' : Log) : (readIds file ids log).1 = (readIds file ids log').1 := by
  unfold readIds
  refine List.foldl_rel (r := fun acc acc' : List Locale × Log => acc.1 = acc'.1) rfl fun id _ acc acc' hacc => ?_
  dsimp only
  split
  · exact congrArg (· ++ _) hacc
  · exact hacc

/-- A module is made ready in the same way in alike folders. -/
theorem alike_setup (hasTool : Text → Bool) (name : Text) (supported : Locales) (tools : List Text) (h : d.Leads path p)
    (h' : d'.Leads path p) (halike : AlikeIn p d d') (log log' : Log) :
    (setup d hasTool path name supported tools log).1 = (setup d' hasTool path name supported tools log').1 ∧
      AlikeIn p (setup d hasTool path name supported tools log).2.1 (setup d' hasTool path name supported tools log').2.1 := by
  have hfault : fault? d' hasTool path tools = fault? d hasTool path tools := by
    unfold fault?
    dsimp only
    rw [isFolder_of_leads h, isFolder_of_leads h',
      find?_congr h h' (List.prefix_refl p) halike isName_localeFolderName (by decide)]
  unfold setup
  rw [hfault]
  cases hd : fault? d hasTool path tools with
  | some e => exact ⟨rfl, halike⟩
  | none =>
    have hlocale := leads_of_fault? h hd
    have hlocale' := leads_of_fault? h' (hfault.trans hd)
    have hin : p <+: p ++ [localeFolderName] := List.prefix_append _ _
    have hfiles := alike_makeFiles supported hlocale hlocale' hin halike
    dsimp only
    cases hmade : makeFiles d (Path.join path localeFolderName) supported with
    | error e =>
      cases hmade' : makeFiles d' (Path.join path localeFolderName) supported with
      | error e' =>
        rw [hmade, hmade'] at hfiles
        cases hfiles
        exact ⟨rfl, halike⟩
      | ok made' =>
        rw [hmade, hmade'] at hfiles
        cases hfiles
    | ok made =>
      cases hmade' : makeFiles d' (Path.join path localeFolderName) supported with
      | error e' =>
        rw [hmade, hmade'] at hfiles
        cases hfiles
      | ok made' =>
        rw [hmade, hmade'] at hfiles
        have hread := read_congr (hlocale.within (within_makeFiles hlocale hin hmade))
          (hlocale'.within (within_makeFiles hlocale' hin hmade')) hin hfiles isName_localeListName (by decide)
        have hlist : made'.readText (Path.join (Path.join path localeFolderName) localeListName) =
            made.readText (Path.join (Path.join path localeFolderName) localeListName) := by
          rw [readText, readText, hread]
        dsimp only
        rw [hlist]
        split
        · exact ⟨rfl, hfiles⟩
        · refine ⟨?_, hfiles⟩
          dsimp only
          rw [readIds_congr _ _ log log']

end CatalogModule

namespace Run

variable {s : RunSetting} {r r' : Run} {path name : Text} {p folder : Place} {tools : List Text}

/-- Setting a module up in a run is work in its folder. -/
theorem within_setUp (s : RunSetting) (name : Text) (tools : List Text) (h : r.disk.Leads path p) : Within p r.disk (r.setUp s path name tools).2.disk := by
  have hsetup := CatalogModule.within_setup (s.tools.has r.disk) name s.locales tools h r.log
  unfold setUp
  dsimp only
  split
  · exact .refl p r.disk
  · split <;> exact hsetup

/-- A module is set up in the same way in alike folders. -/
theorem alike_setUp (name : Text) (tools : List Text) (htools : s.tools.MakesByproducts) (h : r.disk.Leads path p) (h' : r'.disk.Leads path p)
    (halike : AlikeIn p r.disk r'.disk) :
    (r.setUp s path name tools).1 = (r'.setUp s path name tools).1 ∧
      AlikeIn p (r.setUp s path name tools).2.disk (r'.setUp s path name tools).2.disk := by
  have hfolder : r'.disk.isFolder (Path.join path localeFolderName) = r.disk.isFolder (Path.join path localeFolderName) := by
    rw [isFolder, isFolder, find?_congr h h' (List.prefix_refl p) halike CatalogModule.isName_localeFolderName (by decide)]
  obtain ⟨hresult, hdisk⟩ := CatalogModule.alike_setup (s.tools.has r.disk) name s.locales tools h h' halike r.log
    r'.log
  unfold setUp
  dsimp only
  rw [hfolder, htools.has r'.disk r.disk]
  split
  · exact ⟨rfl, halike⟩
  · rw [← hresult]
    split
    · exact ⟨rfl, hdisk⟩
    · exact ⟨rfl, hdisk⟩

/-- What a tool has left is what it found, but for by-products. -/
theorem sameAt_call (htools : s.tools.MakesByproducts) (r : Run) (c : ToolCall) (q : Place) : r.disk.SameAt (r.call s c).2.disk q := by
  have htool := htools.same r.disk c q
  unfold call
  dsimp only
  split
  · exact htool
  · split <;> exact htool

/-- Calling a tool is work in any folder. -/
theorem within_call (htools : s.tools.MakesByproducts) (r : Run) (c : ToolCall) (folder : Place) :
    Within folder r.disk (r.call s c).2.disk := by
  have hdisk : (r.call s c).2.disk = (s.tools.run r.disk c).2 := by
    unfold call
    dsimp only
    split
    · rfl
    · split <;> rfl
  rw [hdisk]
  refine ⟨htools.here r.disk c, htools.tree r.disk c, fun q hq => ?_, fun q hq => ?_, fun q _ => htools.same r.disk c q⟩
  · rw [(htools.same r.disk c q).2]
    exact hq
  · have hkept : ¬q.IsByproduct := by
      obtain ⟨name, hname, hends⟩ := hq
      rintro ⟨name', hname', hmade⟩
      cases hname.symm.trans hname'
      rw [Text.isByproduct_of_catalog hends] at hmade
      cases hmade
    rw [contentAt?, contentAt?, (htools.same r.disk c q).1 hkept]

/-- Calls of tools leave alike folders alike. -/
theorem alike_call (htools : s.tools.MakesByproducts) (r r' : Run) (halike : AlikeIn folder r.disk r'.disk) (c c' : ToolCall) :
    AlikeIn folder (r.call s c).2.disk (r'.call s c').2.disk := fun q hq =>
  ((sameAt_call htools r c q).symm.trans (halike q hq)).trans (sameAt_call htools r' c' q)

end Run

/-! ## A module and its pages on a disk -/

/-- Whether a module that has been set up is at a place. -/
structure CatalogModule.IsAt (m : CatalogModule) (d : Disk) (p : Place) : Prop where
  path : d.Leads m.path p
  locale : d.Leads m.localeFolder (p ++ [localeFolderName])
  name : Path.IsName m.name
  locales : ∀ l ∈ m.locales, l.IsPlain

theorem CatalogModule.IsAt.within {m : CatalogModule} {d d' : Disk} {p folder : Place} (h : m.IsAt d p)
    (hwork : Within folder d d') : m.IsAt d' p :=
  ⟨h.path.within hwork, h.locale.within hwork, h.name, h.locales⟩

namespace Compilation

variable {s : RunSetting} {m : CatalogModule} {r r' : Run} {p : Place} {l : Locale}

/-! ## Compiling catalogs -/

/-- The compiled catalog of a locale is in its folder. -/
theorem parent?_compiledFile {d : Disk} (h : m.IsAt d p) (l : Locale) :
    Path.parent? (m.compiledFile l) = some (m.compiledFolder l) := by
  have hname : Path.IsName (m.name ++ ".mo") := by
    obtain ⟨hslash, hidle, -⟩ := h.name
    have hlength : 1 ≤ m.name.length := by
      rcases hm : m.name with _ | ⟨c, name⟩
      · rw [hm] at hidle
        cases hidle
      · simp
    refine Locale.isName_of_length (by simp [hslash]) ?_
    rw [List.length_append]
    exact Nat.add_le_add hlength (Nat.le_succ 2)
  exact Path.parent?_join (Path.isTidy_join _ (by decide)) hname

/-- What the disk is after a catalog was compiled. -/
theorem disk_compileCatalog {d : Disk} (h : m.IsAt d p) (l : Locale) (r : Run) :
    (compileCatalog s m r l).disk =
      if r.disk.isFile (m.catalogFile l) then
        match r.disk.createFolder (m.compiledFolder l) with
        | .error _ => r.disk
        | .ok disk =>
          (Run.call s { r with disk } ⟨s.config.tools.msgfmt, [m.catalogFile l, "--strict", "-o", m.compiledFile l], none⟩).2.disk
      else r.disk := by
  unfold compileCatalog
  dsimp only
  rw [parent?_compiledFile h l, Option.getD_some]
  cases r.disk.isFile (m.catalogFile l) with
  | false => rfl
  | true =>
    rw [Bool.not_true, if_neg Bool.false_ne_true, if_pos rfl]
    cases r.disk.createFolder (m.compiledFolder l) with
    | error e => rfl
    | ok disk =>
      dsimp only
      rw [disk_reviewCatalog]
      generalize Run.call s { r with disk } _ = called
      obtain ⟨output, after⟩ := called
      cases output <;> dsimp only <;> split <;> rfl

/-- Compiling a catalog is work in the folder of the module. -/
theorem within_compileCatalog (htools : s.tools.MakesByproducts) (h : m.IsAt r.disk p) (hl : l.IsPlain) :
    Within p r.disk (compileCatalog s m r l).disk := by
  rw [disk_compileCatalog h l]
  split
  · split
    · exact .refl p r.disk
    · rename_i disk hmade
      have hfolders := within_createFolder h.locale (List.prefix_append p _) hl.isName_posix.1 (by decide) hmade
      exact hfolders.trans (Run.within_call htools { r with disk } _ p)
  · exact .refl p r.disk

/-- Catalogs are compiled in the same way in alike folders. -/
theorem alike_compileCatalog (htools : s.tools.MakesByproducts) (h : m.IsAt r.disk p) (h' : m.IsAt r'.disk p) (hl : l.IsPlain)
    (halike : AlikeIn p r.disk r'.disk) : AlikeIn p (compileCatalog s m r l).disk (compileCatalog s m r' l).disk := by
  have hin : p <+: p ++ [localeFolderName] := List.prefix_append p _
  have hfile : r'.disk.isFile (m.catalogFile l) = r.disk.isFile (m.catalogFile l) := by
    rw [isFile, isFile, CatalogModule.catalogFile, catalogFile,
      find?_congr h.locale h'.locale hin halike hl.isName_catalog.1 hl.isName_catalog.2]
  have hinner : Path.IsName "LC_MESSAGES" ∧ Text.isByproduct "LC_MESSAGES" = false := by decide
  have hfolders := alike_createFolder h.locale h'.locale hin halike hl.isName_posix.1 hl.isName_posix.2 hinner.1 hinner.2
  change AlikeResult p (r.disk.createFolder (m.compiledFolder l)) (r'.disk.createFolder (m.compiledFolder l)) at hfolders
  rw [disk_compileCatalog h l, disk_compileCatalog h' l, hfile]
  split
  · cases hd : r.disk.createFolder (m.compiledFolder l) <;> cases hd' : r'.disk.createFolder (m.compiledFolder l) <;>
      rw [hd, hd'] at hfolders
    · exact halike
    · cases hfolders
    · cases hfolders
    · exact Run.alike_call htools { r with disk := _ } { r' with disk := _ } hfolders _ _
  · exact halike

/-! ## Making the variants of a page -/

section

variable {directory name : Text} {q : Place} {y : Synthesizer}

/-- The variant of a page is in the folder of the page. -/
theorem localizedPath_join (htidy : Path.IsTidy directory) (hname : Path.IsName name) (l : Locale) :
    l.localizedPath (Path.join directory name) = Path.join directory (l.localizedName name) := by
  rw [Locale.localizedPath, Path.fileName?_join directory hname, Option.getD_some, Path.withFileName_join htidy hname]

/-- What the disk is after a variant was made. -/
theorem disk_localizePage (y : Synthesizer) (file : Text) (r : Run) (l : Locale) :
    (localizePage y file r l).disk = (y.synthesize file l r.disk r.log).2.1 := by
  unfold localizePage
  dsimp only
  split <;> rfl

variable (hname : Path.IsName name) (hpage : Text.endsWith name ".html" = true) (hin : p <+: q)

include hname hpage hin

/-- Making the variant of a page is work in the folder of the module. -/
theorem within_localizePage (h : r.disk.Leads directory q) (hl : l.IsPlain) :
    Within p r.disk (localizePage y (Path.join directory name) r l).disk := by
  obtain ⟨hlocalized, -, hcatalog⟩ := hl.isName_localizedName hname hpage
  rw [disk_localizePage, Synthesizer.synthesize, localizedPath_join h.tidy hname]
  dsimp only
  split
  · exact .refl p r.disk
  · split
    · exact .refl p r.disk
    · split
      · rename_i hsave
        exact within_write h hin hlocalized hcatalog (Document.save_eq_ok_iff.1 hsave)
      · exact .refl p r.disk

/-- The variant of a page is made in the same way in alike folders. -/
theorem alike_localizePage (h : r.disk.Leads directory q) (h' : r'.disk.Leads directory q) (hl : l.IsPlain)
    (halike : AlikeIn p r.disk r'.disk) :
    AlikeIn p (localizePage y (Path.join directory name) r l).disk (localizePage y (Path.join directory name) r' l).disk := by
  obtain ⟨hlocalized, hkept, -⟩ := hl.isName_localizedName hname hpage
  have hfind := find?_congr h h' hin halike hlocalized hkept
  have hread := read_congr h h' hin halike hlocalized hkept
  have hexisting : Synthesizer.existing? r'.disk (Path.join directory (l.localizedName name)) =
      Synthesizer.existing? r.disk (Path.join directory (l.localizedName name)) := by
    rw [Synthesizer.existing?, Synthesizer.existing?, has, has, hfind, Document.load, Document.load, readText, readText, hread]
  rw [disk_localizePage, disk_localizePage, Synthesizer.synthesize, Synthesizer.synthesize, localizedPath_join h.tidy hname,
    hexisting]
  dsimp only
  split
  · exact halike
  · split
    · exact halike
    · rename_i page made _
      -- the page that is written does not depend on what was logged
      have hsame := (y.localized_congr l page
        (r'.log.info (Synthesizer.report (Path.join directory (l.localizedName name)) l made))
        (r.log.info (Synthesizer.report (Path.join directory (l.localizedName name)) l made))).1
      rw [hsame]
      generalize (y.localized l page _).1 = written
      have hwrite := alike_write h h' hin halike hlocalized hkept (.text written.toHtml)
      cases hd : r.disk.write (Path.join directory (l.localizedName name)) (.text written.toHtml) <;>
        cases hd' : r'.disk.write (Path.join directory (l.localizedName name)) (.text written.toHtml) <;>
        rw [hd, hd'] at hwrite <;> simp only [Document.save, hd, hd']
      · exact halike
      · cases hwrite
      · cases hwrite
      · exact hwrite

end

end Compilation

end LocalePages
