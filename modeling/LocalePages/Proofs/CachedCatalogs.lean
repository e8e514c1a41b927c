import LocalePages.Catalog.Lookup

/-!
# What a cache of catalogs answers

A cache reads the catalog of a domain and a locale when it is asked for it for the first time, and a catalog that cannot be read
is remembered as well. So every answer comes from the file as it was at the first question with the same domain and the same
name of the locale's catalog, whatever has become of the disk since, and whatever else was asked
(`CatalogCache.answers_eq_told`). What a file answers is the first form of the first message that is live, certain, without
context, no header, about the text and not without a form; where there is none, the text itself.
-/

namespace LocalePages

namespace Message

/-- Whether a message answers for a text: it is live, certain, without context, no header, about the text, and its first form is not
empty. -/
def answers (id : Text) (m : Message) : Bool :=
  !m.obsolete && !m.isFuzzy && m.context.isNone && !m.isHeader && m.id == id && m.forms.head?.any fun form => !form.isEmpty

variable {id : Text} {m : Message}

/-- A message that answers is about the text, without context and no header. -/
theorem isAbout_of_answers (h : m.answers id = true) : (m.context.isNone && !m.isHeader && m.id == id) = true := by
  simp only [answers, Bool.and_eq_true] at h ⊢
  exact ⟨⟨h.1.1.1.2, h.1.1.2⟩, h.1.2⟩

/-- A message that answers has a form. -/
theorem exists_head?_of_answers (h : m.answers id = true) : ∃ form, m.forms.head? = some form := by
  simp only [answers, Bool.and_eq_true] at h
  cases hforms : m.forms.head? with
  | none => simp [hforms] at h
  | some form => exact ⟨form, rfl⟩

/-- What is used of a message that is about a text and has no context is its first form where it answers, and nothing else. -/
theorem usableForm?_of_answers (id : Text) (m : Message) :
    (if (m.context.isNone && !m.isHeader && m.id == id) = true then m.usableForm? else none) =
      if m.answers id = true then m.forms.head? else none := by
  unfold usableForm? answers
  cases m.obsolete <;> cases m.isFuzzy <;> cases m.context.isNone <;> cases m.isHeader <;> cases (m.id == id) <;>
    cases m.forms.head? <;> simp [Option.filter]

end Message

namespace Catalog

/-- What a catalog has for a text is the first form of the first message that answers for it. -/
theorem usableForm?_eq_find? (c : Catalog) (id : Text) :
    c.usableForm? id = (c.messages.find? (Message.answers id)).bind fun m => m.forms.head? := by
  unfold usableForm?
  induction c.messages with
  | nil => rfl
  | cons m messages ih =>
    have hm := Message.usableForm?_of_answers id m
    by_cases hanswers : m.answers id = true
    · obtain ⟨form, hform⟩ := Message.exists_head?_of_answers hanswers
      have habout := Message.isAbout_of_answers hanswers
      rw [if_pos hanswers, if_pos habout, hform] at hm
      rw [List.filter_cons, if_pos habout, List.findSome?_cons, hm, List.find?_cons_of_pos hanswers, Option.bind_some, hform]
    · rw [if_neg hanswers] at hm
      rw [List.find?_cons_of_neg hanswers, ← ih, List.filter_cons]
      split at hm
      · rename_i habout
        rw [if_pos habout, List.findSome?_cons, hm]
      · rename_i habout
        rw [if_neg habout]

end Catalog

/-- A text that is looked up, the domain and the locale, and the disk at that time. -/
structure CatalogQuery where
  disk : Disk
  domain : Text
  canonical : Text
  locale : Locale

namespace CatalogQuery

/-- What a cache knows catalogs by. -/
def key (q : CatalogQuery) : Text × Text := (q.domain, q.locale.posix)

/-- The first of the queries up to this one that asks for the same catalog. -/
def firstAsked (q : CatalogQuery) (before : List CatalogQuery) : CatalogQuery := (before.find? fun p => p.key == q.key).getD q

end CatalogQuery

namespace ModuleSet

/-- What is in the file of a catalog: the file of the locale in the folder of the first module with the name of the domain. -/
def catalogText? (modules : ModuleSet) (d : Disk) (domain : Text) (l : Locale) : Option Text :=
  (modules.localeFolder? domain).bind fun folder => (d.readText (catalogFile folder l)).toOption

/-- What the file of a catalog says of a text. Where there is no file, or no catalog in it, or no message that answers, the text
stands for itself. -/
def told (file : Option Text) (canonical : Text) : Text :=
  ((file.bind fun t => (Catalog.parse t).toOption).bind fun c =>
    (c.messages.find? (Message.answers canonical)).bind fun m => m.forms.head?).getD canonical

/-- The catalog of a domain is what its file holds. -/
theorem catalog?_eq (modules : ModuleSet) (d : Disk) (domain : Text) (l : Locale) :
    modules.catalog? d domain l = (modules.catalogText? d domain l).bind fun t => (Catalog.parse t).toOption := by
  unfold catalog? catalogText?
  cases modules.localeFolder? domain with
  | none => rfl
  | some folder =>
    simp only [Option.bind_some, Catalog.load]
    cases d.readText (catalogFile folder l) with
    | error e => rfl
    | ok t =>
      cases hparse : Catalog.parse t <;> simp [hparse, Except.toOption]

/-- Queries with the same key ask for the same file. -/
theorem catalogText?_of_key {p q : CatalogQuery} (h : p.key = q.key) (modules : ModuleSet) (d : Disk) :
    modules.catalogText? d p.domain p.locale = modules.catalogText? d q.domain q.locale := by
  obtain ⟨hdomain, hposix⟩ := Prod.mk.inj h
  simp only [catalogText?, catalogFile, hdomain, hposix]

/-- What a catalog answers is what its file says. -/
theorem answer_catalog? (modules : ModuleSet) (d : Disk) (domain : Text) (l : Locale) (canonical : Text) :
    Catalog.answer (modules.catalog? d domain l) canonical = told (modules.catalogText? d domain l) canonical := by
  rw [Catalog.answer, told, catalog?_eq]
  simp only [Catalog.usableForm?_eq_find?]

end ModuleSet

namespace CatalogCache

/-- What a cache has kept for a key. -/
def kept? (cache : CatalogCache) (key : Text × Text) : Option (Option Catalog) :=
  (cache.loaded.find? fun e => e.1 == key).map Prod.snd

/-- The answers to queries, one after the other, with one cache. -/
def answers (modules : ModuleSet) : CatalogCache → List CatalogQuery → List Text
  | _, [] => []
  | cache, q :: queries =>
    let (answer, cache) := cache.lookup modules q.disk q.domain q.canonical q.locale
    answer :: answers modules cache queries

/-- An answer comes from what is kept, and else from the disk. -/
theorem lookup_fst (cache : CatalogCache) (modules : ModuleSet) (q : CatalogQuery) :
    (cache.lookup modules q.disk q.domain q.canonical q.locale).1 =
      Catalog.answer ((cache.kept? q.key).getD (modules.catalog? q.disk q.domain q.locale)) q.canonical := by
  unfold lookup kept? CatalogQuery.key
  cases cache.loaded.find? fun e => e.1 == (q.domain, q.locale.posix) with
  | none => rfl
  | some e => rfl

/-- After an answer everything that was kept is kept, and the catalog that was asked for as well. -/
theorem kept?_lookup (cache : CatalogCache) (modules : ModuleSet) (q : CatalogQuery) (key : Text × Text) :
    (cache.lookup modules q.disk q.domain q.canonical q.locale).2.kept? key =
      (cache.kept? key).or (if q.key == key then some (modules.catalog? q.disk q.domain q.locale) else none) := by
  cases hfound : cache.loaded.find? fun e => e.1 == (q.domain, q.locale.posix) with
  | none =>
    have hnew : ([(q.key, modules.catalog? q.disk q.domain q.locale)].find? fun e => e.1 == key).map Prod.snd =
        if (q.key == key) = true then some (modules.catalog? q.disk q.domain q.locale) else none := by
      rw [List.find?_singleton]
      split <;> rfl
    simp only [lookup, hfound, kept?]
    rw [List.find?_append, Option.map_or, ← hnew]
    rfl
  | some e =>
    simp only [lookup, hfound]
    split
    · rename_i hkey
      have hkept : cache.kept? key = some e.2 := by
        rw [kept?, ← eq_of_beq hkey]
        exact congrArg (Option.map Prod.snd) hfound
      rw [hkept, Option.some_or]
    · rw [Option.or_none]

/-- A cache after some queries: it has, for every key that was asked for, the catalog as it was at the first query with that key. -/
def HoldsFirst (modules : ModuleSet) (asked : List CatalogQuery) (cache : CatalogCache) : Prop :=
  ∀ key, cache.kept? key = (asked.find? fun p => p.key == key).map fun p => modules.catalog? p.disk p.domain p.locale

variable {modules : ModuleSet} {asked : List CatalogQuery} {cache : CatalogCache}

/-- One more query keeps the first ones. -/
theorem HoldsFirst.lookup (h : cache.HoldsFirst modules asked) (q : CatalogQuery) :
    (cache.lookup modules q.disk q.domain q.canonical q.locale).2.HoldsFirst modules (asked ++ [q]) := by
  intro key
  rw [kept?_lookup, h key, List.find?_append, Option.map_or, List.find?_singleton]
  congr 1
  split <;> rfl

/-- An answer comes from the disk of the first query with the same key. -/
theorem HoldsFirst.answer (h : cache.HoldsFirst modules asked) (q : CatalogQuery) :
    (cache.lookup modules q.disk q.domain q.canonical q.locale).1 =
      ModuleSet.told (modules.catalogText? (q.firstAsked asked).disk q.domain q.locale) q.canonical := by
  have hcatalog : (cache.kept? q.key).getD (modules.catalog? q.disk q.domain q.locale) =
      modules.catalog? (q.firstAsked asked).disk q.domain q.locale := by
    rw [h q.key, CatalogQuery.firstAsked]
    cases hfirst : asked.find? fun p => p.key == q.key with
    | none => rfl
    | some p =>
      have hkey := List.find?_some hfirst
      rw [Option.map_some, Option.getD_some, Option.getD_some, ModuleSet.catalog?_eq, ModuleSet.catalog?_eq,
        ModuleSet.catalogText?_of_key (eq_of_beq hkey)]
  rw [lookup_fst, hcatalog, ModuleSet.answer_catalog?]

/-- After some queries every further one is answered from the disk of the first query with the same key. -/
theorem HoldsFirst.answers (h : cache.HoldsFirst modules asked) (before : List CatalogQuery) (q : CatalogQuery)
    (after : List CatalogQuery) :
    (cache.answers modules (before ++ q :: after))[before.length]? =
      some (ModuleSet.told (modules.catalogText? (q.firstAsked (asked ++ before)).disk q.domain q.locale) q.canonical) := by
  induction before generalizing cache asked with
  | nil =>
    rw [List.append_nil, ← h.answer q]
    rfl
  | cons p before ih =>
    rw [List.append_cons asked p before, ← ih (h.lookup p)]
    rfl

/-- Every answer is what the file of its catalog said at the first query with the same domain and the same name of the locale's
catalog: no other query and no later change of the disk has a part in it. -/
theorem answers_eq_told (modules : ModuleSet) (before : List CatalogQuery) (q : CatalogQuery) (after : List CatalogQuery) :
    (empty.answers modules (before ++ q :: after))[before.length]? =
      some (ModuleSet.told (modules.catalogText? (q.firstAsked before).disk q.domain q.locale) q.canonical) := by
  have hempty : empty.HoldsFirst modules [] := fun _ => rfl
  exact hempty.answers before q after

end CatalogCache

end LocalePages
