import LocalePages.Proofs.Batches
import LocalePages.Proofs.ReadLocales
import Mathlib.Data.List.Forall2

/-!
# Configurations that pass their check

What the check of a configuration accepts is told part by part (`Config.check_eq_ok_iff`). All that a run asks of its configuration
is among these parts but one: a project without locales passes the check, since a command can still name some, and is refused when a
run is to start (`RunSetting.starts_of_check`).
-/

namespace LocalePages

/-! ## What the check accepts -/

/-- Of two checks one after the other both pass, or the whole does not. -/
theorem Except.seq_eq_ok_iff {ε α : Type} {x : Except ε Unit} {y : Except ε α} {a : α} :
    (x >>= fun _ => y) = .ok a ↔ x = .ok () ∧ y = .ok a := by
  cases x with
  | error e => exact ⟨nofun, nofun⟩
  | ok u => exact ⟨fun h => ⟨rfl, h⟩, fun h => h.2⟩

/-- A check of the items of a list passes when it passes for each of them. -/
theorem Except.forM_eq_ok_iff {ε α : Type} {check : α → Except ε Unit} {items : List α} :
    items.forM check = .ok () ↔ ∀ a ∈ items, check a = .ok () := by
  induction items with
  | nil => exact ⟨fun _ => nofun, fun _ => rfl⟩
  | cons a items ih =>
    change (check a >>= fun _ => items.forM check) = .ok () ↔ _
    rw [Except.seq_eq_ok_iff, ih, List.forall_mem_cons]

namespace Config

/-- Whether all parts of a configuration make sense. -/
structure IsSound (c : Config) : Prop where
  excludes : ∀ pattern ∈ c.excludes, ∃ p, GlobPattern.parse pattern = .ok p
  modules : ∀ entry ∈ c.modules, isPattern entry = true → ∃ p, GlobPattern.parse entry = .ok p
  locales : ∀ id ∈ c.locales, ∃ l, Locale.parse id = .ok l
  defaultLocale : ∃ l, Locale.parse c.defaultLocale = .ok l
  markupAttribute : isAttributeName c.markupAttribute = true
  batchSize : c.batchSize ≠ 0
  tools : ∀ name ∈ c.tools.all, name.trim ≠ []

/-- A condition is refused or not. -/
theorem refuseIf_eq_ok_iff {condition : Bool} {e : ConfigError} : refuseIf condition e = .ok () ↔ condition = false := by
  cases condition
  · exact ⟨fun _ => rfl, fun _ => rfl⟩
  · exact ⟨nofun, nofun⟩

/-- A pattern passes when it can be read. -/
theorem checkPattern_eq_ok_iff {fault : GlobError → ConfigError} {pattern : Text} :
    checkPattern fault pattern = .ok () ↔ ∃ p, GlobPattern.parse pattern = .ok p := by
  unfold checkPattern
  cases GlobPattern.parse pattern with
  | error e => exact ⟨nofun, nofun⟩
  | ok p => exact ⟨fun _ => ⟨p, rfl⟩, fun _ => rfl⟩

/-- The name of a locale passes when it can be read. -/
theorem checkLocale_eq_ok_iff {fault : LocaleError → ConfigError} {id : Text} :
    checkLocale fault id = .ok () ↔ ∃ l, Locale.parse id = .ok l := by
  unfold checkLocale
  cases Locale.parse id with
  | error e => exact ⟨nofun, nofun⟩
  | ok l => exact ⟨fun _ => ⟨l, rfl⟩, fun _ => rfl⟩

/-- A configuration passes its check when all parts of it make sense. -/
theorem check_eq_ok_iff {c : Config} : c.check = .ok () ↔ c.IsSound := by
  unfold check
  simp only [Except.seq_eq_ok_iff, Except.forM_eq_ok_iff, checkPattern_eq_ok_iff, checkLocale_eq_ok_iff, refuseIf_eq_ok_iff]
  constructor
  · rintro ⟨hexcludes, hmodules, hlocales, hdefault, hattribute, hbatch, htools⟩
    refine ⟨hexcludes, fun entry hin hpattern => hmodules entry (List.mem_filter.2 ⟨hin, hpattern⟩), hlocales, hdefault,
      by simpa using hattribute, by simpa using hbatch, fun name hin hempty => ?_⟩
    rw [List.any_eq_false] at htools
    exact htools name hin (List.isEmpty_iff.2 hempty)
  · intro h
    refine ⟨h.excludes, fun entry hin => ?_, h.locales, h.defaultLocale, by simp [h.markupAttribute], by simp [h.batchSize], ?_⟩
    · obtain ⟨hin, hpattern⟩ := List.mem_filter.1 hin
      exact h.modules entry hin hpattern
    · rw [List.any_eq_false]
      exact fun name hin hempty => h.tools name hin (List.isEmpty_iff.1 hempty)

end Config

/-! ## What a run asks for -/

/-- Names that can all be read give locales, and at least one when there is a name. -/
theorem Locales.exists_parseAll {ids : List Text} (h : ∀ id ∈ ids, ∃ l, Locale.parse id = .ok l) :
    ∃ tags, parseAll ids = .ok tags ∧ (tags = [] ↔ ids = []) := by
  have hread : ∃ read, List.Forall₂ (fun id l => Locale.parse id = .ok l) ids read := by
    induction ids with
    | nil => exact ⟨[], .nil⟩
    | cons id ids ih =>
      obtain ⟨⟨l, hl⟩, hids⟩ := List.forall_mem_cons.1 h
      obtain ⟨read, hread⟩ := ih hids
      exact ⟨l :: read, .cons hl hread⟩
  obtain ⟨read, hread⟩ := hread
  refine ⟨_, parseAll_eq_ok_iff.2 ⟨read, hread, rfl⟩, ?_⟩
  rw [foldl_addNew_eq_nil_iff]
  constructor <;> rintro rfl <;> cases hread <;> rfl

/-- No pattern is dropped when all can be read. -/
theorem GlobPattern.forall₂_parseAll {texts : List Text} (h : ∀ t ∈ texts, ∃ p, parse t = .ok p) :
    List.Forall₂ (fun t p => parse t = .ok p) texts (parseAll texts) := by
  induction texts with
  | nil => exact .nil
  | cons t texts ih =>
    obtain ⟨⟨p, hp⟩, htexts⟩ := List.forall_mem_cons.1 h
    have hall : parseAll (t :: texts) = p :: parseAll texts := by
      unfold parseAll
      rw [List.filterMap_cons, hp]
      rfl
    rw [hall]
    exact .cons hp (ih htexts)

/-- A configuration that passes its check and has locales is the setting of a run, whatever the root; without locales it is refused
for that. None of its patterns is dropped, and its sources are cut into batches that are not empty. -/
theorem RunSetting.starts_of_check {c : Config} (h : c.check = .ok ()) (tools : Toolbox) (root : Text) :
    (c.locales ≠ [] → ∃ locales, c.supportedLocales = .ok locales ∧
      RunSetting.of tools c root = .ok ⟨tools, c, root, locales, GlobPattern.parseAll c.excludes⟩) ∧
    (c.locales = [] → c.supportedLocales = .error .empty ∧ RunSetting.of tools c root = .error .empty) ∧
    List.Forall₂ (fun pattern p => GlobPattern.parse pattern = .ok p) c.excludes (GlobPattern.parseAll c.excludes) ∧
    c.batchSize ≠ 0 ∧ ∀ sources : List Text, [] ∉ batches c.batchSize sources := by
  have hsound := Config.check_eq_ok_iff.1 h
  obtain ⟨source, hsource⟩ := hsound.defaultLocale
  obtain ⟨tags, htags, hnone⟩ := Locales.exists_parseAll hsound.locales
  have hsupported : c.supportedLocales = (Locales.ofIds c.locales).map fun ls => ls.withDefault source := by
    rw [Config.supportedLocales, hsource]
    cases hids : Locales.ofIds c.locales <;> rfl
  refine ⟨fun hlocales => ?_, fun hlocales => ?_, GlobPattern.forall₂_parseAll hsound.excludes, hsound.batchSize,
    fun sources => nil_notMem_batches hsound.batchSize sources⟩
  · obtain ⟨first, rest, rfl⟩ := List.exists_cons_of_ne_nil (mt hnone.1 hlocales)
    rw [Locales.ofIds, htags] at hsupported
    exact ⟨_, hsupported, by rw [RunSetting.of, hsupported]; rfl⟩
  · rw [hnone.2 hlocales] at htags
    rw [Locales.ofIds, htags] at hsupported
    exact ⟨hsupported, by rw [RunSetting.of, hsupported]; rfl⟩

/-- The usual configuration with another locale passes its check and is the setting of a run. -/
theorem RunSetting.starts_of_check_czech :
    let c : Config := { Config.default with locales := ["cs_CZ"] }
    let tools : Toolbox := ⟨fun _ _ => false, fun d _ => (.error [], d)⟩
    c.check = .ok () ∧ ∃ locales, c.supportedLocales = .ok locales ∧
      RunSetting.of tools c "/srv/app" = .ok ⟨tools, c, "/srv/app", locales, GlobPattern.parseAll c.excludes⟩ := by
  have hcheck : Config.check { Config.default with locales := ["cs_CZ"] } = .ok () := by decide +kernel
  exact ⟨hcheck, (RunSetting.starts_of_check hcheck _ _).1 (List.cons_ne_nil _ _)⟩

/-- A configuration without locales passes its check, but there are no locales for a run. -/
theorem Config.starts_of_check_false :
    ¬∀ c : Config, c.check = .ok () → ∃ locales, c.supportedLocales = .ok locales := by
  intro h
  obtain ⟨locales, hlocales⟩ := h { Config.default with locales := [] } (by decide +kernel)
  have hempty : Config.supportedLocales { Config.default with locales := [] } = .error .empty := rfl
  cases hempty.symm.trans hlocales

end LocalePages
