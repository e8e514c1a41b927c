import LocalePages.Proofs.ModulePaths
import LocalePages.Proofs.PageWork

/-!
# The order of modules

A run compiles the modules one after the other, in the order of the configuration, and each of them with all that is in its folder.
So where a module is inside another one, the pages of the inner module are made by both, and the last one decides: the order of the
two makes a difference, and so it does where a tool that is called for one module changes what another one is set up from, such as
its list of locales (`Compilation.contentAt?_run_of_perm_false`). Modules that are not inside one another work in folders that have
nothing in common, and may come in any order: entries in another order generate the same pages, as long as every two modules of which
one is inside the other keep their order and the tools make by-products only (`Compilation.contentAt?_run_of_perm`).
-/

namespace LocalePages

namespace Disk

/-! ## Steps in folders of their own -/

variable {σ α : Type} {start : Disk} {disk : σ → Disk} {step : σ → α → σ} {place : α → Place} {items items' : List α} {a b : α}

/-- Steps each of which works in the folder of its item only, and in the same way in alike folders, whatever work was done before. -/
structure StepsIn (start : Disk) (disk : σ → Disk) (step : σ → α → σ) (place : α → Place) (items : List α) : Prop where
  within : ∀ x, Within [] start (disk x) → ∀ a ∈ items, Within (place a) (disk x) (disk (step x a))
  alike : ∀ x y, Within [] start (disk x) → Within [] start (disk y) → ∀ a ∈ items, AlikeIn (place a) (disk x) (disk y) →
    AlikeIn (place a) (disk (step x a)) (disk (step y a))

/-- Whether one place is in the other one. -/
def Nested (p q : Place) : Prop := p <+: q ∨ q <+: p

instance (p q : Place) : Decidable (Nested p q) := inferInstanceAs (Decidable (_ ∨ _))

/-- Whether one of two paths leads into the place where the other one leads. -/
def Nests (d : Disk) (path path' : Text) : Prop := ∃ p q, d.place path = .ok p ∧ d.place path' = .ok q ∧ Nested p q

/-- Paths into places that are not in one another are not nested. -/
theorem not_nests {d : Disk} {path path' : Text} {p q : Place} (hp : d.place path = .ok p) (hq : d.place path' = .ok q)
    (h : ¬Nested p q) : ¬d.Nests path path' := by
  rintro ⟨p', q', hp', hq', hnested⟩
  cases hp.symm.trans hp'
  cases hq.symm.trans hq'
  exact h hnested

/-- Folders that are not in one another have nothing in common. -/
theorem not_prefix_of_not_nested {p q w : Place} (h : ¬Nested p q) (hp : p <+: w) : ¬q <+: w :=
  fun hq => h (List.prefix_or_prefix_of_prefix hp hq)

namespace StepsIn

variable {x y : σ}

theorem mono (h : StepsIn start disk step place items) (hsub : items' ⊆ items) : StepsIn start disk step place items' :=
  ⟨fun x hx a ha => h.within x hx a (hsub ha), fun x y hx hy a ha => h.alike x y hx hy a (hsub ha)⟩

/-- Work has been done after a step as before it. -/
theorem within_step (h : StepsIn start disk step place items) (ha : a ∈ items) (hx : Within [] start (disk x)) :
    Within [] start (disk (step x a)) := hx.trans ((h.within x hx a ha).mono List.nil_prefix)

/-- Alike disks are alike after the same step. -/
theorem alike_step (h : StepsIn start disk step place items) (ha : a ∈ items) (hx : Within [] start (disk x))
    (hy : Within [] start (disk y)) (halike : AlikeIn [] (disk x) (disk y)) : AlikeIn [] (disk (step x a)) (disk (step y a)) := by
  intro w _
  by_cases hin : place a <+: w
  · exact h.alike x y hx hy a ha (fun p _ => halike p List.nil_prefix) w hin
  · have hleft := (h.within x hx a ha).outside w hin
    have hright := (h.within y hy a ha).outside w hin
    exact (hleft.symm.trans (halike w List.nil_prefix)).trans hright

/-- Alike disks are alike after the same steps. -/
theorem alike_foldl (h : StepsIn start disk step place items) (hx : Within [] start (disk x)) (hy : Within [] start (disk y))
    (halike : AlikeIn [] (disk x) (disk y)) : AlikeIn [] (disk (items.foldl step x)) (disk (items.foldl step y)) :=
  AlikeIn.foldl disk (Within [] start) (fun _ _ ha hx => h.within_step ha hx) (fun _ _ ha hx => h.within_step ha hx)
    (fun _ _ _ ha hx hy halike => h.alike_step ha hx hy halike) hx hy halike

/-- In the folder of the first of two steps, it makes no difference whether the other one comes before or after it. -/
theorem sameAt_swap (h : StepsIn start disk step place items) (ha : a ∈ items) (hb : b ∈ items)
    (hapart : ¬Nested (place a) (place b)) (hx : Within [] start (disk x)) {w : Place} (hw : place a <+: w) :
    SameAt (disk (step (step x a) b)) (disk (step (step x b) a)) w := by
  have hbefore : AlikeIn (place a) (disk x) (disk (step x b)) := fun p hp =>
    (h.within x hx b hb).outside p (not_prefix_of_not_nested hapart hp)
  have hafter := (h.within (step x a) (h.within_step ha hx) b hb).outside w (not_prefix_of_not_nested hapart hw)
  exact hafter.symm.trans (h.alike x (step x b) hx (h.within_step hb hx) a ha hbefore w hw)

/-- Two steps in folders that have nothing in common may be exchanged. -/
theorem alike_swap (h : StepsIn start disk step place items) (ha : a ∈ items) (hb : b ∈ items)
    (hapart : ¬Nested (place a) (place b)) (hx : Within [] start (disk x)) :
    AlikeIn [] (disk (step (step x a) b)) (disk (step (step x b) a)) := by
  intro w _
  by_cases hfirst : place a <+: w
  · exact h.sameAt_swap ha hb hapart hx hfirst
  · by_cases hsecond : place b <+: w
    · exact (h.sameAt_swap hb ha (fun hnested => hapart hnested.symm) hx hsecond).symm
    · -- elsewhere nothing is done
      have hxa := (h.within x hx a ha).outside w hfirst
      have hxb := (h.within x hx b hb).outside w hsecond
      have hab := (h.within (step x a) (h.within_step ha hx) b hb).outside w hsecond
      have hba := (h.within (step x b) (h.within_step hb hx) a ha).outside w hfirst
      exact (hxa.trans hab).symm.trans (hxb.trans hba)

/-- A step may be made before steps in folders that have nothing in common with its own. -/
theorem alike_foldl_middle {before after : List α} (h : StepsIn start disk step place (before ++ a :: after))
    (hapart : ∀ b ∈ before, ¬Nested (place b) (place a)) (hx : Within [] start (disk x)) :
    AlikeIn [] (disk ((a :: (before ++ after)).foldl step x)) (disk ((before ++ a :: after).foldl step x)) := by
  induction before generalizing x with
  | nil => exact fun w _ => .refl _ w
  | cons b before ih =>
    obtain ⟨hb, hbefore⟩ := List.forall_mem_cons.1 hapart
    have ha : a ∈ b :: before ++ a :: after := by simp
    have hbIn : b ∈ b :: before ++ a :: after := by simp
    have hlater : before ++ after ⊆ b :: before ++ a :: after := by
      intro c hc
      simp only [List.cons_append, List.mem_cons, List.mem_append] at hc ⊢
      tauto
    have hswap := (h.mono hlater).alike_foldl (h.within_step ha (h.within_step hbIn hx))
      (h.within_step hbIn (h.within_step ha hx)) (h.alike_swap hbIn ha hb hx)
    have hrest := ih (h.mono (List.subset_cons_self _ _)) hbefore (h.within_step hbIn hx)
    exact fun w hw => (hswap w hw).symm.trans (hrest w hw)

/-- Steps leave alike disks alike when they come in another order in which those in nested folders keep theirs. -/
theorem alike_foldl_rearranged (h : StepsIn start disk step place items) (hperm : items.Perm items')
    (hkept : items'.Pairwise fun b a => Nested (place b) (place a) → ¬[a, b].Sublist items) (hx : Within [] start (disk x))
    (hy : Within [] start (disk y)) (halike : AlikeIn [] (disk x) (disk y)) :
    AlikeIn [] (disk (items.foldl step x)) (disk (items'.foldl step y)) := by
  induction items generalizing items' x y with
  | nil =>
    rw [hperm.nil_eq.symm]
    exact halike
  | cons a items ih =>
    obtain ⟨before, after, rfl⟩ := List.append_of_mem (hperm.subset List.mem_cons_self)
    have hrest : items.Perm (before ++ after) := (hperm.trans List.perm_middle).cons_inv
    obtain ⟨hbefore, hafter, hbetween⟩ := List.pairwise_append.1 hkept
    have hapart : ∀ b ∈ before, ¬Nested (place b) (place a) := by
      intro b hb hnested
      have hlater : b ∈ items := hrest.mem_iff.2 (List.mem_append_left _ hb)
      exact hbetween b hb a List.mem_cons_self hnested ((List.singleton_sublist.2 hlater).cons_cons a)
    have hkept' : (before ++ after).Pairwise fun b a => Nested (place b) (place a) → ¬[a, b].Sublist items := by
      refine (hkept.sublist ((List.sublist_cons_self a after).append_left before)).imp fun hkept hnested hsub => ?_
      exact hkept hnested (hsub.trans (List.sublist_cons_self a items))
    have hmiddle := (h.mono hperm.symm.subset).alike_foldl_middle hapart hy
    have htail := ih (h.mono (List.subset_cons_self _ _)) hrest hkept' (h.within_step List.mem_cons_self hx)
      (h.within_step List.mem_cons_self hy) (h.alike_step List.mem_cons_self hx hy halike)
    exact fun w hw => (htail w hw).trans (hmiddle w hw)

end StepsIn

/-! ## What touches no page -/

/-- Whether two disks have the same pages. -/
def SamePages (d d' : Disk) : Prop := ∀ p : Place, p.IsPage → d'.contentAt? p = d.contentAt? p

variable {d d' d'' : Disk}

theorem SamePages.refl (d : Disk) : d.SamePages d := fun _ _ => rfl

theorem SamePages.trans (h : d.SamePages d') (h' : d'.SamePages d'') : d.SamePages d'' :=
  fun p hp => (h' p hp).trans (h p hp)

/-- Steps that each touch no page together touch none. -/
theorem samePages_foldl (disk : σ → Disk) {step : σ → α → σ} (h : ∀ x a, (disk x).SamePages (disk (step x a))) (items : List α) (x : σ) :
    (disk x).SamePages (disk (items.foldl step x)) := by
  induction items generalizing x with
  | nil => exact .refl _
  | cons a items ih => exact (h x a).trans (ih (step x a))

/-- Disks that are alike have the same pages. -/
theorem AlikeIn.samePages (h : AlikeIn [] d d') : d.SamePages d' := by
  rintro p ⟨name, hlast, hpage⟩
  have hkept : ¬p.IsByproduct := by
    rintro ⟨name', hlast', hmade⟩
    cases hlast.symm.trans hlast'
    rw [Text.isByproduct_of_page hpage] at hmade
    cases hmade
  rw [contentAt?, contentAt?, (h p List.nil_prefix).1 hkept]

/-- Writing a file whose name has another ending than a page touches no page. -/
theorem samePages_write {directory ending : Text} (name : Text) {content : FileContent} {c : Char} (hslash : '/' ∉ ending)
    (hlast : ending.getLast? = some c) (hc : c ≠ '.') (hlength : 5 ≤ ending.length)
    (hpage : Text.endsWith ending ".html" = false) (h : d.write (Path.join directory (name ++ ending)) content = .ok d') :
    d.SamePages d' := by
  obtain ⟨p, executable, hp, rfl, hplace⟩ := place_write h
  obtain ⟨before, hpiece⟩ := Path.exists_getLast?_segments_join directory name hslash
  have hend : (before ++ ending).getLast? = some c := by
    rw [List.getLast?_append, hlast]
    rfl
  obtain ⟨hidle, hup⟩ := Path.isName_of_getLast? hend hc
  have hname := getLast?_of_place hpiece hidle hup hplace
  rintro q ⟨other, hother, hends⟩
  rw [contentAt?_put_file d content executable q hp, if_neg]
  rintro rfl
  cases hname.symm.trans hother
  have hshort : (".html" : Text).length ≤ ending.length := hlength
  rw [Text.endsWith_append before hshort, hpage] at hends
  cases hends

end Disk

open Disk

namespace CatalogModule

variable {d d' : Disk} {path name : Text} {supported : Locales}

/-- Making the files of a locale folder touches no page. -/
theorem samePages_makeFiles (h : makeFiles d path supported = .ok d') : d.SamePages d' := by
  have hmissing : ∀ {d d' : Disk} {ending content : Text} {c : Char}, '/' ∉ ending → ending.getLast? = some c → c ≠ '.' →
      5 ≤ ending.length → Text.endsWith ending ".html" = false →
      writeMissing d (Path.join path ending) content = .ok d' → d.SamePages d' := by
    intro d d' ending content c hslash hlast hc hlength hpage h
    unfold writeMissing at h
    split at h
    · cases h
      exact .refl d
    · split at h
      · rename_i hwrite
        cases h
        exact samePages_write [] hslash hlast hc hlength hpage hwrite
      · cases h
  unfold makeFiles at h
  split at h
  · cases h
  · rename_i htemplate
    exact (hmissing (c := 't') (by decide) rfl (by decide) (by decide) (by decide) htemplate).trans
      (hmissing (c := 'S') (by decide) rfl (by decide) (by decide) (by decide) h)

/-- Making a module ready touches no page. -/
theorem samePages_setup (d : Disk) (hasTool : Text → Bool) (path name : Text) (supported : Locales) (tools : List Text)
    (log : Log) : d.SamePages (setup d hasTool path name supported tools log).2.1 := by
  unfold setup
  split
  · exact .refl d
  · dsimp only
    split
    · exact .refl d
    · rename_i hfiles
      split <;> exact samePages_makeFiles hfiles

end CatalogModule

namespace Compilation

variable {s : RunSetting}

/-- Calling a tool that makes by-products only touches no page. -/
theorem samePages_call (htools : s.tools.MakesByproducts) (r : Run) (c : ToolCall) : r.disk.SamePages (r.call s c).2.disk :=
  AlikeIn.samePages fun p _ => Run.sameAt_call htools r c p

/-- Writing the message map of a locale touches no page. -/
theorem samePages_compileMap (htools : s.tools.MakesByproducts) (m : CatalogModule) (folder template : Text) (r : Run) (l : Locale) :
    r.disk.SamePages (compileMap s m folder template r l).disk := by
  unfold compileMap
  dsimp only
  split
  · exact .refl r.disk
  · have hcall := samePages_call htools r ⟨s.config.tools.msgmerge, ["--no-fuzzy-matching", m.catalogFile l, template], none⟩
    split
    · rename_i hcalled
      rwa [hcalled] at hcall
    · rename_i hcalled
      rw [hcalled] at hcall
      split
      · exact hcall
      · rename_i hmap
        refine hcall.trans ?_
        unfold writeMap at hmap
        split at hmap
        · cases hmap
        · dsimp only at hmap
          split at hmap
          · cases hmap
          · rename_i hfolder
            split at hmap
            · cases hmap
            · rename_i hwrite
              cases hmap
              exact SamePages.trans (fun p _ => contentAt?_createFolder hfolder p)
                (samePages_write (c := 'n') l.web (by decide) rfl (by decide) (by decide) (by decide) hwrite)

/-- Compiling the scripts of the module at a path touches no page. -/
theorem samePages_compileScripts (htools : s.tools.MakesByproducts) (progress : RunSummary × Run) (path : Text) :
    progress.2.disk.SamePages (compileScripts s progress path).2.disk := by
  have hsetup : progress.2.disk.SamePages (progress.2.setUp s path (moduleName path) [s.config.tools.msgmerge]).2.disk := by
    have hready := CatalogModule.samePages_setup progress.2.disk (s.tools.has progress.2.disk) path (moduleName path) s.locales
      [s.config.tools.msgmerge] progress.2.log
    unfold Run.setUp
    dsimp only
    split
    · exact .refl progress.2.disk
    · split <;> exact hready
  unfold compileScripts
  dsimp only
  split
  · exact .refl progress.2.disk
  · split
    · rename_i m after hready
      rw [hready] at hsetup
      refine hsetup.trans ?_
      unfold compileDistribution
      dsimp only
      split
      · exact .refl after.disk
      · exact samePages_foldl Run.disk (samePages_compileMap htools m _ _) m.locales (after.info _)
    · rename_i hready
      rwa [hready] at hsetup

end Compilation

/-! ## The same modules in another order -/

/-- The tools do the same for the same call on all disks, that is answer it and write a file, if there is a place for it, and they touch
no page and no catalog. -/
structure Toolbox.IsSteady (tools : Toolbox) : Prop where
  has : ∀ d d', tools.has d = tools.has d'
  same : ∀ call, ∃ answer path content, ∀ d, tools.run d call = (answer, (d.write path content).toOption.getD d)
  spares : ∀ d call p, p.EndsIn ".html" ∨ p.EndsIn ".po" → Disk.entry? (tools.run d call).2 p = d.entry? p

/-- In a list where only one member has a property, it is found wherever it stands. -/
theorem find?_eq_of_perm {α : Type} {items items' : List α} {wanted : α → Bool} (h : items.Perm items')
    (honly : ∀ a ∈ items, ∀ b ∈ items, wanted a = true → wanted b = true → a = b) : items.find? wanted = items'.find? wanted := by
  cases hfound : items.find? wanted with
  | none =>
    rw [eq_comm, List.find?_eq_none]
    exact fun a ha => List.find?_eq_none.1 hfound a (h.mem_iff.2 ha)
  | some a =>
    have ha := List.mem_of_find?_eq_some hfound
    have hwanted := List.find?_some hfound
    cases hfound' : items'.find? wanted with
    | none => exact absurd hwanted (List.find?_eq_none.1 hfound' a (h.mem_iff.1 ha))
    | some b =>
      rw [honly a ha b (h.mem_iff.2 (List.mem_of_find?_eq_some hfound')) hwanted (List.find?_some hfound')]

/-- What the catalogs of modules with different names say does not depend on the order of the modules. -/
theorem ModuleSet.lookup_ofPaths_of_perm {d : Disk} {paths paths' : List Text} (h : paths.Perm paths')
    (hnames : (paths.map moduleName).Nodup) : (ofPaths d paths').lookup = (ofPaths d paths).lookup := by
  funext d' asked canonical l
  have hfolder : (ofPaths d paths').localeFolder? asked = (ofPaths d paths).localeFolder? asked := by
    rw [localeFolder?_ofPaths, localeFolder?_ofPaths, find?_eq_of_perm h fun a ha b hb hwanted hwanted' => ?_]
    rw [Bool.and_eq_true, beq_iff_eq] at hwanted hwanted'
    exact List.inj_on_of_nodup_map hnames ha hb (hwanted.2.trans hwanted'.2.symm)
  rw [lookup, lookup, catalog?, catalog?, hfolder]

namespace Compilation

variable {s : RunSetting}

/-- Whether a run is about the module at a path. -/
def isSelected (only : Option Text) (path : Text) : Bool := only.all fun name => moduleName path == name

/-- A run is about the modules that are selected, and there is none when it does not start. -/
theorem selectModules_cases (paths : List Text) (only : Option Text) :
    selectModules paths only = .ok (paths.filter (isSelected only)) ∨
      (paths.filter (isSelected only) = [] ∧ ∃ e, selectModules paths only = .error e) := by
  cases only with
  | none => exact Or.inl (congrArg _ (List.filter_eq_self.2 fun _ _ => rfl).symm)
  | some name =>
    have hselected : paths.filter (isSelected (some name)) = paths.filter fun path => moduleName path == name := rfl
    rw [hselected]
    by_cases hnone : (paths.filter fun path => moduleName path == name).isEmpty = true
    · exact Or.inr ⟨List.isEmpty_iff.1 hnone, _, if_pos hnone⟩
    · exact Or.inl (if_neg hnone)

/-- The run after the modules were compiled, before their scripts are. -/
def compiledModules (s : RunSetting) (only : Option Text) (r : Run) : RunSummary × Run :=
  ((r.modulePaths s).1.filter (isSelected only)).foldl (compilePath s (ModuleSet.ofPaths r.disk (r.modulePaths s).1))
    (⟨0, 0, 0⟩, (r.modulePaths s).2)

/-- The pages at the end of a run are those that compiling the modules has left. -/
theorem samePages_run (htools : s.tools.MakesByproducts) (only : Option Text) (r : Run) :
    (compiledModules s only r).2.disk.SamePages (run s only r).2.disk := by
  rcases selectModules_cases (r.modulePaths s).1 only with hselect | ⟨hnone, e, hselect⟩
  · have hrun : run s only r = (.ok (((r.modulePaths s).1.filter (isSelected only)).foldl (compileScripts s)
        (compiledModules s only r)).1, (((r.modulePaths s).1.filter (isSelected only)).foldl (compileScripts s)
        (compiledModules s only r)).2) := by
      unfold run
      dsimp only
      rw [hselect]
      rfl
    rw [hrun]
    exact samePages_foldl (fun progress : RunSummary × Run => progress.2.disk) (samePages_compileScripts htools) _ _
  · have hrun : run s only r = (.error e, (r.modulePaths s).2) := by
      unfold run
      dsimp only
      rw [hselect]
    rw [hrun, compiledModules, hnone]
    exact .refl _

/-- How a module is compiled depends on the other ones by what their catalogs say. -/
theorem compilePath_congr {modules modules' : ModuleSet} (h : modules.lookup = modules'.lookup) :
    compilePath s modules = compilePath s modules' := by
  funext progress path
  unfold compilePath compileModule localizePages
  rw [h]

/-- Compiling modules is steps each of which works in the folder of its module. -/
theorem stepsIn_compilePath (htools : s.tools.MakesByproducts) (hplain : s.locales.ArePlain) {d : Disk} (htree : d.IsTree)
    {paths : List Text} (htidy : ∀ path ∈ paths, Path.IsTidy path) (hfolder : ∀ path ∈ paths, d.isFolder path = true)
    (hname : ∀ path ∈ paths, Path.IsName (moduleName path)) :
    StepsIn d (fun progress : RunSummary × Run => progress.2.disk) (compilePath s (ModuleSet.ofPaths d paths))
      (fun path => (d.place path).toOption.getD []) paths := by
  have hleads : ∀ path ∈ paths, d.Leads path ((d.place path).toOption.getD []) := by
    intro path hpath
    obtain ⟨p, hleads, hplace⟩ := exists_leads_of_isFolder htree (htidy path hpath) (hfolder path hpath)
    rw [hplace]
    exact hleads
  refine ⟨fun x hx path hpath => ?_, fun x y hx hy path hpath halike => ?_⟩
  · exact within_compilePath htools hplain (hname path hpath) ((hleads path hpath).within hx) _
  · refine alike_compilePath htools hplain (hname path hpath) ((hleads path hpath).within hx) ((hleads path hpath).within hy)
      halike fun d₁ d₂ h₁ h₂ asked canonical l hl => ?_
    have hplain' := hplain.targets l hl
    exact (ModuleSet.lookup_congr_of_within htree (hx.trans h₁) hplain' asked canonical).trans
      (ModuleSet.lookup_congr_of_within htree (hy.trans h₂) hplain' asked canonical).symm

/-- The modules of a project whose entries come in another order leave the same pages, when those that are inside one another keep
their order. -/
theorem alike_compiledModules (htools : s.tools.MakesByproducts) (hplain : s.locales.ArePlain) {r : Run} (htree : r.disk.IsTree)
    {entries : List Text} (hentries : s.config.modules.Perm entries) (hnamed : ∀ path ∈ (r.modulePaths s).1, Path.fileName? path ≠ none)
    (hnames : ((r.modulePaths s).1.map moduleName).Nodup) {s' : RunSetting}
    (hs' : s' = { s with config := { s.config with modules := entries } })
    (hkept : (r.modulePaths s').1.Pairwise fun b a => r.disk.Nests b a → ¬[a, b].Sublist (r.modulePaths s).1)
    (only : Option Text) : AlikeIn [] (compiledModules s only r).2.disk (compiledModules s' only r).2.disk := by
  subst hs'
  have hpaths : (r.modulePaths s).1.Perm
      (r.modulePaths { s with config := { s.config with modules := entries } }).1 := perm_discoverModules hentries _ _
  have hne : ∀ path ∈ (r.modulePaths s).1, path ≠ [] := by
    rintro path hpath rfl
    exact hnamed [] hpath rfl
  have htidy : ∀ path ∈ (r.modulePaths s).1, Path.IsTidy path := by
    intro path hpath
    obtain ⟨q, rfl⟩ := (discoverModules_spec r.disk s.root s.config.modules r.log).2 path hpath
    exact Path.isTidy_cleaned (hne _ hpath)
  have hname : ∀ path ∈ (r.modulePaths s).1, Path.IsName (moduleName path) := by
    intro path hpath
    obtain ⟨name, hname⟩ := Option.ne_none_iff_exists'.1 (hnamed path hpath)
    rw [moduleName, hname]
    exact Path.isName_of_fileName? hname
  have hfolder : ∀ path ∈ (r.modulePaths s).1, r.disk.isFolder path = true :=
    fun path hpath => isFolder_of_mem_discoverModules hpath (hne path hpath)
  have hsteps := stepsIn_compilePath htools hplain htree htidy hfolder hname
  -- both runs compile a module in the same way
  have hsame : compilePath { s with config := { s.config with modules := entries } }
      (ModuleSet.ofPaths r.disk (r.modulePaths { s with config := { s.config with modules := entries } }).1) =
      compilePath s (ModuleSet.ofPaths r.disk (r.modulePaths s).1) := by
    exact compilePath_congr (ModuleSet.lookup_ofPaths_of_perm hpaths hnames)
  have hplace : ∀ path ∈ (r.modulePaths s).1, r.disk.place path = .ok ((r.disk.place path).toOption.getD []) := by
    intro path hpath
    obtain ⟨p, -, hplace⟩ := exists_leads_of_isFolder htree (htidy path hpath) (hfolder path hpath)
    rw [hplace]
    rfl
  unfold compiledModules
  rw [hsame]
  refine (hsteps.mono (List.filter_subset_self _)).alike_foldl_rearranged (hpaths.filter _) ?_ (.refl [] r.disk) (.refl [] r.disk)
    fun p _ => .refl _ p
  refine (hkept.filter _).imp_of_mem fun {b a} hb ha hkept hnested hsub => hkept ?_ (hsub.trans List.filter_sublist)
  have hb' := hpaths.mem_iff.2 (List.mem_filter.1 hb).1
  have ha' := hpaths.mem_iff.2 (List.mem_filter.1 ha).1
  exact ⟨_, _, hplace b hb', hplace a ha', hnested⟩

/-- Entries of modules that come in another order generate the same pages, when modules that are inside one another keep their order:
in a file tree, with tools that make by-products only, for modules with different names. -/
theorem contentAt?_run_of_perm {tools : Toolbox} {config : Config} {root : Text} {s s' : RunSetting} {entries : List Text}
    (hs : RunSetting.of tools config root = .ok s) (hs' : RunSetting.of tools { config with modules := entries } root = .ok s')
    (htools : tools.MakesByproducts) {r : Run} (htree : r.disk.IsTree) (hentries : config.modules.Perm entries)
    (hnamed : ∀ path ∈ (r.modulePaths s).1, Path.fileName? path ≠ none) (hnames : ((r.modulePaths s).1.map moduleName).Nodup)
    (hkept : (r.modulePaths s').1.Pairwise fun b a => r.disk.Nests b a → ¬[a, b].Sublist (r.modulePaths s).1)
    (only : Option Text) {p : Place} (hpage : p.IsPage) :
    (run s' only r).2.disk.contentAt? p = (run s only r).2.disk.contentAt? p := by
  have hplain : s.locales.ArePlain := RunSetting.isPlain_of_mem_tags hs
  unfold RunSetting.of at hs hs'
  have hlocales : { config with modules := entries }.supportedLocales = config.supportedLocales := rfl
  rw [hlocales] at hs'
  cases hsupported : config.supportedLocales with
  | error e =>
    rw [hsupported] at hs
    cases hs
  | ok locales =>
    rw [hsupported] at hs hs'
    cases hs
    cases hs'
    have halike := alike_compiledModules htools hplain htree hentries hnamed hnames rfl hkept only
    have hleft := samePages_run (s := ⟨tools, config, root, locales, GlobPattern.parseAll config.excludes⟩) htools only r p hpage
    have hright := samePages_run (s := ⟨tools, { config with modules := entries }, root, locales,
      GlobPattern.parseAll config.excludes⟩) htools only r p hpage
    exact hright.trans ((halike.samePages p hpage).trans hleft.symm)

namespace ShopInSiteWitness

/-- A tool that makes an empty compiled catalog where it is told to, and does nothing else. -/
def compiler (d : Disk) (call : ToolCall) : Except Text ToolOutput × Disk :=
  (.ok ⟨some 0, [], []⟩,
    match d.newPlace (call.args.getLast?.getD []) with
    | .ok p =>
      if (p.getLast?.any fun name => Text.endsWith name ".mo") && !d.isFolderAt p then d.put p (.file (.bytes []) false) else d
    | .error _ => d)

/-- The tools of the project. -/
def tools : Toolbox := ⟨fun _ _ => true, compiler⟩

/-- A source page. -/
def source : FileContent := .text "<meta name=\"gettext\" content=\"translate\"><p gettext=\".\">Hello</p>"

/-- A module with a page in a module, and a module beside them, each with a catalog. -/
def disk : Disk :=
  ⟨[(["p"], .folder true), (["p", "blog"], .folder true), (["p", "blog", "locale"], .folder true),
    (["p", "blog", "locale", "cs_CZ.po"], .file (.text "msgid \"Hello\"\nmsgstr \"Zdar\"\n") false),
    (["p", "site"], .folder true), (["p", "site", "locale"], .folder true),
    (["p", "site", "locale", "cs_CZ.po"], .file (.text "msgid \"Hello\"\nmsgstr \"Ahoj\"\n") false),
    (["p", "site", "shop"], .folder true), (["p", "site", "shop", "index.html"], .file source false),
    (["p", "site", "shop", "locale"], .folder true),
    (["p", "site", "shop", "locale", "cs_CZ.po"], .file (.text "msgid \"Hello\"\nmsgstr \"Nazdar\"\n") false)], ["p"]⟩

/-- The configuration of the project with its modules in some order. -/
def config (modules : List Text) : Config := { Config.default with locales := ["cs_CZ"], modules }

/-- The setting of the project with its modules in some order. -/
def setting (modules : List Text) : RunSetting :=
  ⟨tools, config modules, "/p", ⟨[⟨"cs", none, "CZ", [], none⟩], 0, Locale.standard, Nat.zero_lt_one⟩,
    GlobPattern.parseAll (config modules).excludes⟩

/-- The page in Czech. -/
def czech : Place := ["p", "site", "shop", "index.cs-CZ.html"]

theorem setting_eq (modules : List Text) : RunSetting.of tools (config modules) "/p" = .ok (setting modules) := rfl

theorem isTree_disk : disk.IsTree := by
  refine IsTree.of_entries (by decide +kernel) ?_
  decide +kernel

/-- The compiler makes by-products only. -/
theorem makesByproducts_tools : tools.MakesByproducts := by
  -- what the compiler does to a disk
  have hdisk : ∀ d call, (tools.run d call).2 = d ∨ ∃ folder name, d.isFolderAt folder = true ∧ Path.IsName name ∧
      d.isFolderAt (folder ++ [name]) = false ∧ Text.endsWith name ".mo" = true ∧
      (tools.run d call).2 = d.put (folder ++ [name]) (.file (.bytes []) false) := by
    intro d call
    change (compiler d call).2 = d ∨ ∃ folder name, _ ∧ _ ∧ _ ∧ _ ∧ (compiler d call).2 = _
    unfold compiler
    dsimp only
    split
    · rename_i p hnew
      obtain ⟨folder, name, rfl, hlast, -, hfolder, hidle, hup⟩ := newPlace_cases hnew
      have hpieces : ∀ path, (d.start path).2 = Path.segments path := by
        intro path
        unfold start
        split <;> rfl
      have hname : Path.IsName name :=
        ⟨Path.slash_not_mem_of_mem_segments (hpieces _ ▸ List.mem_of_getLast? hlast), hidle, hup⟩
      split
      · rename_i hmade
        rw [Bool.and_eq_true, List.getLast?_concat, Option.any_some, Bool.not_eq_true'] at hmade
        exact Or.inr ⟨folder, name, hfolder, hname, hmade.2, hmade.1, rfl⟩
      · exact Or.inl rfl
    · exact Or.inl rfl
  refine ⟨fun _ _ => rfl, fun d call => ?_, fun d call htree => ?_, fun d call q => ?_⟩ <;>
    rcases hdisk d call with hsame | ⟨folder, name, hfolder, hname, hno, hends, hput⟩
  · rw [hsame]
  · rw [hput]
    rfl
  · rw [hsame]
    exact htree
  · rw [hput]
    exact htree.put hfolder hname hno
  · rw [hsame]
    exact .refl d q
  · have hne : folder ++ [name] ≠ [] := by simp
    rw [hput]
    refine ⟨fun hother => ?_, ?_⟩
    · rw [entry?_put d _ q hne, if_neg]
      rintro rfl
      refine hother (Place.isByproduct_append_iff.2 ?_)
      rw [Text.isByproduct, hends]
      rfl
    · rw [isFolderAt, isFolderAt, entry?_put d _ q hne]
      by_cases hsame : folder ++ [name] = q
      · rw [if_pos hsame, ← hsame]
        exact hno.symm
      · rw [if_neg hsame]

/-- A tool that writes what is no text to the list of locales of a module, whatever it is called for. -/
def scribbler (d : Disk) (_ : ToolCall) : Except Text ToolOutput × Disk :=
  (.ok ⟨some 0, [], []⟩, (d.write "/p/site/locale/LINGUAS" (.bytes [255])).toOption.getD d)

/-- The tools of the project when the compiler is exchanged for that tool. -/
def scribblers : Toolbox := ⟨fun _ _ => true, scribbler⟩

/-- The scribbler does the same for all calls, and touches no page and no catalog. -/
theorem isSteady_scribblers : scribblers.IsSteady := by
  refine ⟨fun _ _ => rfl, fun _ => ⟨_, _, _, fun _ => rfl⟩, fun d call q hq => ?_⟩
  change Disk.entry? ((d.write "/p/site/locale/LINGUAS" (.bytes [255])).toOption.getD d) q = d.entry? q
  cases hwrite : d.write "/p/site/locale/LINGUAS" (.bytes [255]) with
  | error e => rfl
  | ok d' =>
    obtain ⟨p, executable, hp, rfl, hplace⟩ := place_write hwrite
    have hname : p.getLast? = some ("LINGUAS" : Text) := getLast?_of_place (by decide) (by decide) (by decide) hplace
    have hne : p ≠ q := by
      rintro rfl
      rcases hq with ⟨name, hlast, hends⟩ | ⟨name, hlast, hends⟩ <;> cases hname.symm.trans hlast <;> revert hends <;> decide
    exact (entry?_put d _ q hp).trans (if_neg hne)

/-- What the page in Czech holds after a run with these tools and modules. -/
def czechAfter (tools : Toolbox) (modules : List Text) : Option FileContent :=
  (run { setting modules with tools } none (.start disk .empty)).2.disk.contentAt? czech

/-- The order makes a difference to the page when one module is inside the other, and when the scribbler is called for one of them
before the other one is set up. -/
theorem czechAfter_ne : czechAfter tools ["site/shop", "site"] ≠ czechAfter tools ["site", "site/shop"] ∧
    czechAfter scribblers ["blog", "site"] ≠ czechAfter scribblers ["site", "blog"] := by
  unfold czechAfter run
  delta compilePath compileModule localizePages Run.filesOf Disk.findFiles Disk.waysIn
  rw [Disk.files_eq_insertionSort]
  decide +kernel

end ShopInSiteWitness

open ShopInSiteWitness in
/-- In `ShopInSiteWitness` the module beside the other two may come first or last. -/
theorem contentAt?_run_of_perm_blog :
    (run (setting ["site", "site/shop", "blog"]) none (.start disk .empty)).2.disk.contentAt? czech =
      (run (setting ["blog", "site", "site/shop"]) none (.start disk .empty)).2.disk.contentAt? czech := by
  have hpaths : ((Run.start disk .empty).modulePaths (setting ["blog", "site", "site/shop"])).1 =
      (["/p/blog", "/p/site", "/p/site/shop"] : List Text) := by decide +kernel
  have hpaths' : ((Run.start disk .empty).modulePaths (setting ["site", "site/shop", "blog"])).1 =
      (["/p/site", "/p/site/shop", "/p/blog"] : List Text) := by decide +kernel
  have hblog : disk.place "/p/blog" = .ok ["p", "blog"] := by decide +kernel
  have hsite : disk.place "/p/site" = .ok ["p", "site"] := by decide +kernel
  have hshop : disk.place "/p/site/shop" = .ok ["p", "site", "shop"] := by decide +kernel
  have hpage : Place.IsPage czech := ⟨"index.cs-CZ.html", rfl, by decide +kernel⟩
  refine contentAt?_run_of_perm (setting_eq _) (setting_eq _) makesByproducts_tools isTree_disk (by decide +kernel) ?_ ?_ ?_ none hpage
  · rw [hpaths]
    decide +kernel
  · rw [hpaths]
    decide +kernel
  · rw [hpaths, hpaths']
    -- the only modules that have been exchanged are in folders beside one another
    have hsiteBlog : ¬disk.Nests "/p/site" "/p/blog" := not_nests hsite hblog (by decide)
    have hshopBlog : ¬disk.Nests "/p/site/shop" "/p/blog" := not_nests hshop hblog (by decide)
    exact .cons (List.forall_mem_cons.2 ⟨fun _ => by decide, List.forall_mem_singleton.2 fun hnested => absurd hnested hsiteBlog⟩)
      (.cons (List.forall_mem_singleton.2 fun hnested => absurd hnested hshopBlog) (List.pairwise_singleton _ _))

open ShopInSiteWitness in
/-- Entries in another order do not always generate the same pages. In `ShopInSiteWitness` the page of the inner module is made by both
modules, and has the translation of the one that comes last. And where the list of locales of a module is overwritten when another one
is compiled, the pages of that module are not generated any more, though no module is inside another one and the tools do the same
for the same calls and touch no page and no catalog. -/
theorem contentAt?_run_of_perm_false :
    (¬∀ (tools : Toolbox) (config : Config) (root : Text) (s s' : RunSetting) (entries : List Text) (r : Run) (p : Place),
      RunSetting.of tools config root = .ok s → RunSetting.of tools { config with modules := entries } root = .ok s' →
      tools.MakesByproducts → r.disk.IsTree → config.modules.Perm entries →
      (∀ path ∈ (r.modulePaths s).1, Path.fileName? path ≠ none) → ((r.modulePaths s).1.map moduleName).Nodup → p.IsPage →
      (run s' none r).2.disk.contentAt? p = (run s none r).2.disk.contentAt? p) ∧
    ¬∀ (tools : Toolbox) (config : Config) (root : Text) (s s' : RunSetting) (entries : List Text) (r : Run) (p : Place),
      RunSetting.of tools config root = .ok s → RunSetting.of tools { config with modules := entries } root = .ok s' →
      tools.IsSteady → r.disk.IsTree → config.modules.Perm entries →
      (∀ path ∈ (r.modulePaths s).1, Path.fileName? path ≠ none) → ((r.modulePaths s).1.map moduleName).Nodup →
      ((r.modulePaths s).1.Pairwise fun a b => ¬r.disk.Nests a b) → p.IsPage →
      (run s' none r).2.disk.contentAt? p = (run s none r).2.disk.contentAt? p := by
  have hpage : Place.IsPage czech := ⟨"index.cs-CZ.html", rfl, by decide +kernel⟩
  constructor
  · intro h
    have hpaths : ((Run.start disk .empty).modulePaths (setting ["site", "site/shop"])).1 =
        (["/p/site", "/p/site/shop"] : List Text) := by decide +kernel
    refine czechAfter_ne.1 (h tools (config ["site", "site/shop"]) "/p" (setting ["site", "site/shop"])
      (setting ["site/shop", "site"]) ["site/shop", "site"] (.start disk .empty) czech (setting_eq _) (setting_eq _)
      makesByproducts_tools isTree_disk (by decide +kernel) ?_ ?_ hpage) <;> rw [hpaths] <;> decide +kernel
  · intro h
    have hpaths : ((Run.start disk .empty).modulePaths { setting ["site", "blog"] with tools := scribblers }).1 =
        (["/p/site", "/p/blog"] : List Text) := by decide +kernel
    have hsite : disk.place "/p/site" = .ok ["p", "site"] := by decide +kernel
    have hblog : disk.place "/p/blog" = .ok ["p", "blog"] := by decide +kernel
    have hapart : (["/p/site", "/p/blog"] : List Text).Pairwise fun a b => ¬disk.Nests a b :=
      List.pairwise_pair.2 (not_nests hsite hblog (by decide))
    refine czechAfter_ne.2 (h scribblers (config ["site", "blog"]) "/p" { setting ["site", "blog"] with tools := scribblers }
      { setting ["blog", "site"] with tools := scribblers } ["blog", "site"] (.start disk .empty) czech rfl rfl
      isSteady_scribblers isTree_disk (by decide +kernel) ?_ ?_ (hpaths ▸ hapart) hpage) <;> rw [hpaths] <;> decide +kernel

end Compilation

end LocalePages
