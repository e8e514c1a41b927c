import LocalePages.Disk
import LocalePages.Proofs.Texts
import Mathlib.Data.List.Basic
import Mathlib.Data.List.Induction

/-!
# The ends of paths

A path to an entry of a folder ends with the entry, and what a path ends with, its last piece ends with, as long as there is no
slash in it (`Path.exists_getLast?_segments_join`). So the extension of a path is that of the name it leads to. The components of a
path with a file name are those of its parent and the name (`Path.components_of_fileName?`), and joined again they are the same
(`Path.components_join`). No slash is at the end of a cleaned path, so that folders with cleaned paths are told apart by the paths of
what is in them (`Path.cleaned_eq_of_join_eq`).
-/

namespace LocalePages

namespace Path

/-- What a path ends with that is no slash, its last piece ends with. -/
theorem exists_getLast?_segments_append (before : Text) {after : Text} (h : '/' ∉ after) :
    ∃ start, (segments (before ++ after)).getLast? = some (start ++ after) := by
  have hslash : ∀ c ∈ after, (c == '/') = false := by
    intro c hc
    rw [beq_eq_false_iff_ne]
    rintro rfl
    exact h hc
  unfold segments List.splitOn
  induction before with
  | nil =>
    refine ⟨[], ?_⟩
    rw [List.nil_append, List.splitOnP_eq_singleton hslash]
    rfl
  | cons c before ih =>
    obtain ⟨start, ih⟩ := ih
    obtain ⟨first, others, hr⟩ := List.exists_cons_of_ne_nil (List.splitOnP_ne_nil (· == '/') (before ++ after))
    rw [List.cons_append, List.splitOnP_cons_eq_if_modifyHead]
    rw [hr] at ih ⊢
    split
    · exact ⟨start, by rw [List.getLast?_cons_cons, ih]⟩
    · rw [List.modifyHead_cons]
      cases others with
      | nil =>
        cases ih
        exact ⟨c :: start, rfl⟩
      | cons second others => exact ⟨start, by rw [← ih, List.getLast?_cons_cons, List.getLast?_cons_cons]⟩

/-- What the path of an entry ends with that is no slash, its last piece ends with. -/
theorem exists_getLast?_segments_join (directory name : Text) {ending : Text} (h : '/' ∉ ending) :
    ∃ start, (segments (join directory (name ++ ending))).getLast? = some (start ++ ending) := by
  have hjoin : ∃ before, join directory (name ++ ending) = before ++ ending := by
    unfold join
    split
    · exact ⟨name, rfl⟩
    · split
      · exact ⟨directory ++ name, by rw [List.append_assoc]⟩
      · exact ⟨directory ++ "/" ++ name, by rw [List.append_assoc, List.append_assoc, List.append_assoc]⟩
  obtain ⟨before, hbefore⟩ := hjoin
  rw [hbefore]
  exact exists_getLast?_segments_append before h

/-- A piece that ends with a letter is a name. -/
theorem isName_of_getLast? {piece : Text} {c : Char} (h : piece.getLast? = some c) (hc : c ≠ '.') :
    isIdle piece = false ∧ piece ≠ ".." := by
  refine ⟨?_, ?_⟩
  · simp only [isIdle, Bool.or_eq_false_iff, beq_eq_false_iff_ne, List.isEmpty_eq_false_iff]
    constructor
    · rintro rfl
      cases h
    · rintro rfl
      exact hc (Option.some.inj h).symm
  · rintro rfl
    exact hc (Option.some.inj h).symm

/-! ## The components of pieces -/

variable {path piece : Text} {pieces : List Text}

/-- The component that the first piece of a path stands for. -/
def openingOf (piece : Text) : Component := if piece.isEmpty then .root else if piece = "." then .here else componentOf piece

/-- The first piece of a path stands for a name or for the parent as the other pieces do, unless it is one that says nothing there. -/
theorem openingOf_cases (piece : Text) :
    (isIdle piece = true ∧ (openingOf piece = .root ∨ openingOf piece = .here)) ∨
      (isIdle piece = false ∧ openingOf piece = componentOf piece) := by
  unfold openingOf isIdle
  cases hempty : piece.isEmpty with
  | true => exact Or.inl ⟨rfl, Or.inl rfl⟩
  | false =>
    rw [if_neg Bool.false_ne_true, Bool.false_or, beq_iff_eq, beq_eq_false_iff_ne]
    by_cases hdot : piece = "."
    · exact Or.inl ⟨hdot, Or.inr (if_pos hdot)⟩
    · exact Or.inr ⟨hdot, if_neg hdot⟩

/-- The components that the pieces of a path stand for. -/
def componentsOf : List Text → List Component
  | [] => []
  | first :: rest => openingOf first :: (rest.filter fun s => !isIdle s).map componentOf

/-- Pieces are cut at each slash. -/
theorem segments_append_slash (start rest : Text) : segments (start ++ '/' :: rest) = segments start ++ segments rest :=
  List.splitOn_append_cons_self _ _

/-- A path from the root starts with an empty piece. -/
theorem segments_cons_slash (rest : Text) : segments ('/' :: rest) = [] :: segments rest := segments_append_slash [] rest

/-- A path starts at the root when there is nothing before its first slash. -/
theorem isAbsolute_eq {first : Text} {rest : List Text} (hne : path ≠ []) (h : segments path = first :: rest) :
    isAbsolute path = first.isEmpty := by
  obtain ⟨c, more, rfl⟩ := List.exists_cons_of_ne_nil hne
  by_cases hc : c = '/'
  · subst hc
    rw [segments_cons_slash] at h
    cases h
    rfl
  · have hrelative : isAbsolute (c :: more) = false := by simp [isAbsolute, Text.startsWith, List.isPrefixOf, Ne.symm hc]
    rw [hrelative, Eq.comm, List.isEmpty_eq_false_iff]
    rintro rfl
    rw [segments, List.splitOn_eq_splitOnP, List.splitOnP_cons_eq_if_modifyHead, if_neg (by simpa using hc)] at h
    obtain ⟨first, others, hr⟩ := List.exists_cons_of_ne_nil (List.splitOnP_ne_nil (· == '/') more)
    rw [hr, List.modifyHead_cons] at h
    cases h

/-- The components of a path are those of its pieces. -/
theorem components_eq (h : path ≠ []) : components path = componentsOf (segments path) := by
  obtain ⟨first, rest, hsegments⟩ := List.exists_cons_of_ne_nil (List.splitOn_ne_nil '/' path)
  have habsolute := isAbsolute_eq h hsegments
  change segments path = first :: rest at hsegments
  rw [components, hsegments, habsolute, componentsOf, openingOf]
  dsimp only
  split
  · rfl
  · split <;> rfl

/-- A piece that says something stands for one more component. -/
theorem componentsOf_concat (pieces : List Text) (h : isIdle piece = false) :
    componentsOf (pieces ++ [piece]) = componentsOf pieces ++ [componentOf piece] := by
  cases pieces with
  | nil =>
    rcases openingOf_cases piece with ⟨hidle, -⟩ | ⟨-, hopening⟩
    · rw [h] at hidle
      cases hidle
    · exact congrArg (· :: []) hopening
  | cons first rest =>
    rw [List.cons_append, componentsOf, componentsOf, List.filter_append, List.filter_cons_of_pos (by simp [h]), List.map_append]
    rfl

/-- A piece that says nothing stands for nothing after others. -/
theorem componentsOf_concat_of_isIdle (hne : pieces ≠ []) (h : isIdle piece = true) :
    componentsOf (pieces ++ [piece]) = componentsOf pieces := by
  obtain ⟨first, rest, rfl⟩ := List.exists_cons_of_ne_nil hne
  rw [List.cons_append, componentsOf, componentsOf, List.filter_append, List.filter_cons_of_neg (by simp [h])]
  simp

/-- A name among the components of pieces is one of the pieces. -/
theorem of_mem_componentsOf {n : Text} (h : .name n ∈ componentsOf pieces) : n ∈ pieces ∧ isIdle n = false ∧ n ≠ ".." := by
  have hpiece : ∀ piece, .name n = componentOf piece → piece = n ∧ n ≠ ".." := by
    intro piece hname
    unfold componentOf at hname
    split at hname
    · cases hname
    · cases hname
      exact ⟨rfl, ‹_›⟩
  cases pieces with
  | nil => cases h
  | cons first rest =>
    rcases List.mem_cons.1 h with hfirst | hrest
    · rcases openingOf_cases first with ⟨-, hroot | hhere⟩ | ⟨hidle, hopening⟩
      · cases hfirst.trans hroot
      · cases hfirst.trans hhere
      · obtain ⟨rfl, hup⟩ := hpiece first (hfirst.trans hopening)
        exact ⟨List.mem_cons_self, hidle, hup⟩
    · obtain ⟨piece, hin, hname⟩ := List.mem_map.1 hrest
      obtain ⟨hin, hidle⟩ := List.mem_filter.1 hin
      obtain ⟨rfl, hup⟩ := hpiece piece hname.symm
      exact ⟨List.mem_cons_of_mem _ hin, by simpa using hidle, hup⟩

/-! ## Cleaned paths -/

/-- Whether a text is a piece of a path that says something. -/
def IsPiece (n : Text) : Prop := '/' ∉ n ∧ isIdle n = false

/-- The pieces of a path hold no slash. -/
theorem slash_not_mem_of_mem_segments {path piece : Text} (h : piece ∈ segments path) : '/' ∉ piece := by
  intro hslash
  rw [segments, List.splitOn_eq_splitOnP] at h
  exact absurd (Text.eq_false_of_mem_splitOnP h '/' hslash) (by decide)

/-- Whether a text is the name of an entry. -/
def IsName (n : Text) : Prop := '/' ∉ n ∧ isIdle n = false ∧ n ≠ ".."

instance (n : Text) : Decidable (IsName n) := inferInstanceAs (Decidable (_ ∧ _ ∧ _))

/-- A component with a name is a proper name. -/
theorem isName_of_mem_components {n : Text} (h : .name n ∈ components path) : IsName n := by
  have hne : path ≠ [] := by
    rintro rfl
    cases h
  rw [components_eq hne] at h
  obtain ⟨hin, hname⟩ := of_mem_componentsOf h
  exact ⟨slash_not_mem_of_mem_segments hin, hname⟩

/-- The file name of a path is a proper name. -/
theorem isName_of_fileName? {path n : Text} (h : fileName? path = some n) : IsName n := by
  unfold fileName? at h
  split at h
  · rename_i hlast
    cases h
    exact isName_of_mem_components (List.mem_of_getLast? hlast)
  · cases h

/-- What a cleaned path is joined from are pieces that say something. -/
theorem exists_cleaned (path : Text) :
    ∃ names, (∀ n ∈ names, IsPiece n) ∧
      cleaned path = if isAbsolute path then "/" ++ Text.joinWith "/" names else Text.joinWith "/" names := by
  refine ⟨_, fun n hn => ?_, rfl⟩
  obtain ⟨component, hmem, hname⟩ := List.mem_filterMap.1 hn
  cases component with
  | name piece =>
    cases hname
    obtain ⟨hslash, hidle, -⟩ := isName_of_mem_components hmem
    exact ⟨hslash, hidle⟩
  | up =>
    cases hname
    exact ⟨by decide, by decide⟩
  | root => cases hname
  | here => cases hname

/-- What is joined ends with its last part. -/
theorem exists_joinWith_append {names : List Text} {n : Text} (h : names.getLast? = some n) :
    ∃ before, Text.joinWith "/" names = before ++ n := by
  induction names with
  | nil => cases h
  | cons first rest ih =>
    cases rest with
    | nil =>
      cases h
      exact ⟨[], Text.joinWith_singleton _ _⟩
    | cons second rest =>
      obtain ⟨before, hbefore⟩ := ih (by rwa [List.getLast?_cons_cons] at h)
      refine ⟨first ++ ("/" ++ before), ?_⟩
      rw [Text.joinWith_cons_cons, hbefore, List.append_assoc, List.append_assoc]

/-- No slash is at the end of a cleaned path, except that of the root. -/
theorem getLast?_cleaned (path : Text) : cleaned path = "/" ∨ (cleaned path).getLast? ≠ some '/' := by
  obtain ⟨names, hnames, hcleaned⟩ := exists_cleaned path
  rcases hlast : names.getLast? with _ | n
  · rw [List.getLast?_eq_none_iff] at hlast
    rw [hcleaned, hlast]
    split
    · exact Or.inl rfl
    · exact Or.inr nofun
  · right
    obtain ⟨hslash, hidle⟩ := hnames n (List.mem_of_getLast? hlast)
    have hne : n ≠ [] := by
      rintro rfl
      cases hidle
    obtain ⟨before, hbefore⟩ := exists_joinWith_append hlast
    have hend : ∀ start : Text, (start ++ n).getLast? ≠ some '/' := by
      intro start h
      rw [List.getLast?_append_of_ne_nil _ hne] at h
      exact hslash (List.mem_of_getLast? h)
    rw [hcleaned, hbefore]
    split
    · rw [← List.append_assoc]
      exact hend _
    · exact hend _

/-- What comes before an entry in the path of the entry. -/
def lead (directory : Text) : Text := if directory = [] then [] else if directory.endsWith "/" then directory else directory ++ "/"

/-- The path of an entry ends with the entry. -/
theorem join_eq_lead_append (directory : Text) {entry : Text} (h : isAbsolute entry = false) :
    join directory entry = lead directory ++ entry := by
  unfold join lead
  rw [h, Bool.false_or]
  by_cases hempty : directory = []
  · rw [if_pos hempty, if_pos (by rw [hempty]; rfl), List.nil_append]
  · rw [if_neg hempty, if_neg (by simpa using hempty)]
    split <;> rfl

/-- A slash comes between a path without one at its end and an entry. -/
theorem lead_eq_append {directory : Text} {c : Char} (h : directory.getLast? = some c) (hc : c ≠ '/') :
    lead directory = directory ++ "/" := by
  have hends : Text.endsWith directory "/" = false := by
    rw [Text.endsWith, ← Bool.not_eq_true, List.isSuffixOf_iff_suffix]
    rintro ⟨start, rfl⟩
    exact hc (Option.some.inj (h.symm.trans List.getLast?_concat))
  have hne : directory ≠ [] := by
    rintro rfl
    cases h
  rw [lead, if_neg hne, hends]
  rfl

/-- Two cleaned paths with the same entry are the same. -/
theorem cleaned_eq_of_join_eq {path path' entry : Text} (hentry : isAbsolute entry = false)
    (h : join (cleaned path) entry = join (cleaned path') entry) : cleaned path = cleaned path' := by
  rw [join_eq_lead_append _ hentry, join_eq_lead_append _ hentry] at h
  have hlead := List.append_cancel_right h
  have hvalue : ∀ p, (cleaned p = [] ∧ lead (cleaned p) = []) ∨ (cleaned p = "/" ∧ lead (cleaned p) = "/") ∨
      (cleaned p ≠ [] ∧ lead (cleaned p) = cleaned p ++ "/") := by
    intro p
    by_cases hempty : cleaned p = []
    · exact Or.inl ⟨hempty, by rw [hempty]; rfl⟩
    · by_cases hroot : cleaned p = "/"
      · exact Or.inr (Or.inl ⟨hroot, by rw [hroot]; rfl⟩)
      · -- only the path of the root ends with a slash already
        obtain ⟨c, hc⟩ := Option.ne_none_iff_exists'.1 (mt List.getLast?_eq_none_iff.1 hempty)
        refine Or.inr (Or.inr ⟨hempty, lead_eq_append hc ?_⟩)
        rintro rfl
        exact (getLast?_cleaned p).elim hroot fun hlast => hlast hc
  rcases hvalue path with ⟨hp, hl⟩ | ⟨hp, hl⟩ | ⟨hp, hl⟩ <;> rcases hvalue path' with ⟨hp', hl'⟩ | ⟨hp', hl'⟩ | ⟨hp', hl'⟩ <;>
    rw [hl, hl'] at hlead
  · rw [hp, hp']
  · cases hlead
  · simp at hlead
  · cases hlead
  · rw [hp, hp']
  · exact absurd (List.self_eq_append_left.1 hlead) hp'
  · simp at hlead
  · exact absurd (List.append_left_eq_self.1 hlead) hp
  · exact List.append_cancel_right hlead

/-! ## The pieces of the path of an entry -/

variable {directory name : Text}

theorem IsName.isAbsolute_eq_false (h : IsName name) : isAbsolute name = false := by
  obtain ⟨hslash, hidle, -⟩ := h
  cases name with
  | nil => cases hidle
  | cons c name =>
    have hc : c ≠ '/' := by
      rintro rfl
      exact hslash List.mem_cons_self
    simp [isAbsolute, Text.startsWith, List.isPrefixOf, Ne.symm hc]

theorem IsName.ne_nil (h : IsName name) : name ≠ [] := by
  rintro rfl
  cases h.2.1

/-- The pieces of a path before those of an entry. -/
def leadPieces (directory : Text) : List Text := (segments (lead directory)).dropLast

/-- What comes before an entry is nothing, or ends with a slash, which may be the end of the path itself. -/
theorem lead_cases (directory : Text) :
    (directory = [] ∧ lead directory = []) ∨
      ∃ start, lead directory = start ++ ['/'] ∧ (directory = start ++ ['/'] ∨ (directory = start ∧ start ≠ [])) := by
  unfold lead
  by_cases hempty : directory = []
  · exact Or.inl ⟨hempty, if_pos hempty⟩
  · rw [if_neg hempty]
    split
    · rename_i hends
      obtain ⟨start, rfl⟩ := List.isSuffixOf_iff_suffix.1 hends
      exact Or.inr ⟨start, rfl, Or.inl rfl⟩
    · exact Or.inr ⟨directory, rfl, Or.inr ⟨rfl, hempty⟩⟩

/-- The pieces of a path that goes on from a directory. -/
theorem segments_join_of_relative (directory : Text) {entry : Text} (h : isAbsolute entry = false) :
    segments (join directory entry) = leadPieces directory ++ segments entry := by
  rw [join_eq_lead_append _ h, leadPieces]
  rcases lead_cases directory with ⟨-, hlead⟩ | ⟨start, hlead, -⟩
  · rw [hlead]
    rfl
  · rw [hlead, List.append_assoc, List.singleton_append, segments_append_slash, segments_append_slash]
    exact congrArg (· ++ segments entry) List.dropLast_concat.symm

/-- The pieces of the path of an entry. -/
theorem segments_join (directory : Text) (hname : IsName name) : segments (join directory name) = leadPieces directory ++ [name] := by
  rw [segments_join_of_relative directory hname.isAbsolute_eq_false]
  exact congrArg (leadPieces directory ++ ·) (List.splitOn_eq_singleton hname.1)

/-- The pieces before an entry stand for the components of its folder. -/
theorem componentsOf_leadPieces (directory : Text) : componentsOf (leadPieces directory) = components directory := by
  rcases lead_cases directory with ⟨rfl, -⟩ | ⟨start, hlead, hdirectory⟩
  · rfl
  · have hpieces : leadPieces directory = segments start := by
      rw [leadPieces, hlead, segments_append_slash]
      exact List.dropLast_concat
    rw [hpieces]
    rcases hdirectory with rfl | ⟨rfl, hne⟩
    · rw [components_eq (by simp), segments_append_slash]
      exact (componentsOf_concat_of_isIdle (List.splitOn_ne_nil _ _) rfl).symm
    · exact (components_eq hne).symm

/-- A path that goes on from a directory starts where the path of the directory starts. -/
theorem isAbsolute_join_of_relative (directory : Text) {entry : Text} (h : isAbsolute entry = false) :
    isAbsolute (join directory entry) = isAbsolute directory := by
  rw [join_eq_lead_append _ h]
  rcases lead_cases directory with ⟨hempty, hlead⟩ | ⟨start, hlead, rfl | ⟨rfl, hne⟩⟩
  · rw [hlead, hempty, List.nil_append, h]
    rfl
  · rw [hlead]
    cases start <;> simp [isAbsolute, Text.startsWith, List.isPrefixOf]
  · obtain ⟨c, rest, rfl⟩ := List.exists_cons_of_ne_nil hne
    rw [hlead]
    simp [isAbsolute, Text.startsWith, List.isPrefixOf]

/-- The path of an entry starts where the path of its folder starts. -/
theorem isAbsolute_join (directory : Text) (hname : IsName name) : isAbsolute (join directory name) = isAbsolute directory :=
  isAbsolute_join_of_relative directory hname.isAbsolute_eq_false

/-- The path of a folder is a part of the path of an entry. -/
theorem sublist_join (directory : Text) (hname : IsName name) : directory.Sublist (join directory name) := by
  rw [join_eq_lead_append _ hname.isAbsolute_eq_false]
  refine List.Sublist.trans ?_ (List.sublist_append_left _ _)
  rcases lead_cases directory with ⟨rfl, -⟩ | ⟨start, hlead, rfl | ⟨rfl, -⟩⟩
  · exact List.nil_sublist _
  · rw [hlead]
  · rw [hlead]
    exact List.sublist_append_left _ _

/-- The path of an entry says something. -/
theorem join_ne_nil (directory : Text) (hname : IsName name) : join directory name ≠ [] := by
  rw [join_eq_lead_append _ hname.isAbsolute_eq_false]
  simp [hname.ne_nil]

/-- The components of the path of an entry are those of its folder and the entry. -/
theorem components_join (directory : Text) (hname : IsName name) :
    components (join directory name) = components directory ++ [.name name] := by
  rw [components_eq (join_ne_nil directory hname), segments_join directory hname, componentsOf_concat _ hname.2.1,
    componentsOf_leadPieces, componentOf, if_neg hname.2.2]

/-! ## Tidy paths -/

/-- Whether a path is the root, or ends with a piece that says something. -/
def IsTidy (path : Text) : Prop := path = "/" ∨ ∃ piece, (segments path).getLast? = some piece ∧ isIdle piece = false

theorem IsTidy.ne_nil (h : IsTidy directory) : directory ≠ [] := by
  rintro rfl
  obtain h | ⟨piece, hlast, hidle⟩ := h
  · cases h
  · cases hlast
    cases hidle

/-- The path of an entry is tidy. -/
theorem isTidy_join (directory : Text) (hname : IsName name) : IsTidy (join directory name) :=
  Or.inr ⟨name, by rw [segments_join directory hname, List.getLast?_concat], hname.2.1⟩

/-- The pieces of a tidy path that is not the root come before those of an entry. -/
theorem leadPieces_of_tidy (h : IsTidy directory) (hroot : directory ≠ "/") : leadPieces directory = segments directory := by
  obtain ⟨piece, hlast, hidle⟩ := h.resolve_left hroot
  rcases lead_cases directory with ⟨hempty, -⟩ | ⟨start, hlead, rfl | ⟨rfl, -⟩⟩
  · exact absurd hempty h.ne_nil
  · -- a path that ends with a slash has an empty last piece
    rw [segments_append_slash, List.getLast?_append] at hlast
    cases hlast
    cases hidle
  · rw [leadPieces, hlead, segments_append_slash]
    exact List.dropLast_concat

/-- The last component of the path of an entry is the entry. -/
theorem getLast?_components_join (directory : Text) (hname : IsName name) :
    (components (join directory name)).getLast? = some (.name name) := by
  rw [components_join directory hname, List.getLast?_concat]

/-- The file name of the path of an entry is the entry. -/
theorem fileName?_join (directory : Text) (hname : IsName name) : fileName? (join directory name) = some name := by
  rw [fileName?, getLast?_components_join directory hname]

/-- Nothing is idle at the end of the pieces of a path that is tidy. -/
theorem dropIdleEnd_of_getLast? {pieces : List Text} {piece : Text} (h : pieces.getLast? = some piece) (hidle : isIdle piece = false) :
    dropIdleEnd pieces = pieces := by
  cases pieces with
  | nil => rfl
  | cons first rest =>
    rcases List.eq_nil_or_concat rest with rfl | ⟨start, last, rfl⟩
    · rfl
    · rw [List.concat_eq_append] at h ⊢
      have hlast : last = piece := by
        rw [← List.cons_append, List.getLast?_concat] at h
        exact Option.some.inj h
      rw [dropIdleEnd, List.reverse_append, List.reverse_singleton, List.singleton_append,
        List.dropWhile_cons_of_neg (by simp [hlast, hidle]), List.reverse_cons, List.reverse_reverse]

/-- What is left when the pieces at the end that say nothing are dropped stands for the same components. No such piece is at its end,
unless it is the only one. -/
theorem dropIdleEnd_spec (hne : pieces ≠ []) :
    ∃ start last dropped, pieces = start ++ [last] ++ dropped ∧ dropIdleEnd pieces = start ++ [last] ∧
      componentsOf (start ++ [last]) = componentsOf pieces ∧ (start = [] ∨ isIdle last = false) := by
  obtain ⟨first, rest, rfl⟩ := List.exists_cons_of_ne_nil hne
  induction rest using List.reverseRecOn with
  | nil => exact ⟨[], first, [], rfl, rfl, rfl, Or.inl rfl⟩
  | append_singleton rest other ih =>
    cases hidle : isIdle other with
    | true =>
      obtain ⟨start, last, dropped, hpieces, hdrop, hcomponents, hlast⟩ := ih (by simp)
      refine ⟨start, last, dropped ++ [other], ?_, ?_, ?_, hlast⟩
      · rw [← List.cons_append, hpieces, List.append_assoc]
      · rw [← hdrop, dropIdleEnd, dropIdleEnd, List.reverse_append, List.reverse_singleton, List.singleton_append,
          List.dropWhile_cons_of_pos hidle]
      · rw [hcomponents, ← List.cons_append, componentsOf_concat_of_isIdle (by simp) hidle]
    | false =>
      refine ⟨first :: rest, other, [], by simp, ?_, rfl, Or.inr hidle⟩
      exact dropIdleEnd_of_getLast? (by rw [← List.cons_append, List.getLast?_concat]) hidle

/-- The parent of the path of an entry is the path of its folder. -/
theorem parent?_join (h : IsTidy directory) (hname : IsName name) : parent? (join directory name) = some directory := by
  have hpieces := segments_join directory hname
  have hlast : (segments (join directory name)).getLast? = some name := by rw [hpieces, List.getLast?_concat]
  rw [parent?, getLast?_components_join directory hname]
  dsimp only
  rw [dropIdleEnd_of_getLast? hlast hname.2.1, hpieces, List.dropLast_concat]
  have hspelled : leadPieces directory ≠ [] ∧ ofSegments (dropIdleEnd (leadPieces directory)) = directory := by
    by_cases hroot : directory = "/"
    · subst hroot
      exact ⟨by decide, rfl⟩
    · obtain ⟨piece, hend, hidle⟩ := h.resolve_left hroot
      rw [leadPieces_of_tidy h hroot, dropIdleEnd_of_getLast? hend hidle, ofSegments]
      · exact ⟨List.splitOn_ne_nil _ _, List.intercalate_splitOn '/'⟩
      · intro hempty
        rw [hempty] at hend
        cases hend
        cases hidle
  obtain ⟨hne, hspelled⟩ := hspelled
  obtain ⟨first, rest, hlead⟩ := List.exists_cons_of_ne_nil hne
  rw [hlead] at hspelled ⊢
  exact congrArg some hspelled

/-- With another name, the path of an entry is that of another entry of its folder. -/
theorem withFileName_join (h : IsTidy directory) (hname : IsName name) (other : Text) :
    withFileName (join directory name) other = join directory other := by
  rw [withFileName, fileName?_join directory hname, parent?_join h hname]
  rfl

/-- The components of the path that pieces spell. -/
theorem components_ofSegments (hne : pieces ≠ []) (h : ∀ piece ∈ pieces, '/' ∉ piece) :
    components (ofSegments pieces) = componentsOf pieces := by
  by_cases hroot : pieces = [[]]
  · rw [hroot]
    rfl
  · have hspelled : ofSegments pieces = Text.joinWith "/" pieces := by
      unfold ofSegments
      split
      · exact absurd rfl hroot
      · rfl
    have hsegments : segments (ofSegments pieces) = pieces := by
      rw [hspelled]
      exact List.splitOn_intercalate '/' h hne
    rw [components_eq, hsegments]
    intro hempty
    rw [hempty] at hsegments
    exact hroot hsegments.symm

/-- The components of a path that ends with a name or goes up at its end are those of its parent and the last one. -/
theorem components_of_getLast? {c : Component} (h : (components path).getLast? = some c) (hroot : c ≠ .root) (hhere : c ≠ .here) :
    ∃ parent, parent? path = some parent ∧ components path = components parent ++ [c] := by
  have hne : path ≠ [] := by
    rintro rfl
    cases h
  obtain ⟨start, last, dropped, hpieces, hkept, hcomponents, hlast⟩ := dropIdleEnd_spec (List.splitOn_ne_nil '/' path)
  change dropIdleEnd (segments path) = start ++ [last] at hkept
  change segments path = start ++ [last] ++ dropped at hpieces
  change componentsOf (start ++ [last]) = componentsOf (segments path) at hcomponents
  rw [← components_eq hne] at hcomponents
  have hidle : isIdle last = false := by
    refine hlast.elim ?_ id
    rintro rfl
    rw [← hcomponents] at h
    have hopening : openingOf last = c := Option.some.inj h
    rcases openingOf_cases last with ⟨-, hopens | hopens⟩ | ⟨hidle, -⟩
    · exact absurd (hopening.symm.trans hopens) hroot
    · exact absurd (hopening.symm.trans hopens) hhere
    · exact hidle
  rw [componentsOf_concat start hidle] at hcomponents
  rw [← hcomponents, List.getLast?_concat, Option.some_inj] at h
  have hslash : ∀ piece ∈ start, '/' ∉ piece := fun piece hin =>
    slash_not_mem_of_mem_segments (hpieces ▸ List.mem_append_left _ (List.mem_append_left _ hin))
  have hparent : parent? path = if start = [] then some [] else some (ofSegments (dropIdleEnd start)) := by
    rw [parent?, ← hcomponents, List.getLast?_concat, hkept, h, List.dropLast_concat]
    cases start <;> cases c <;> first | rfl | exact absurd rfl hroot
  rw [hparent, ← hcomponents, h]
  split
  · rename_i hnone
    exact ⟨[], rfl, by rw [hnone]; rfl⟩
  · rename_i hstart
    obtain ⟨before, last', dropped', hpieces', hkept', hcomponents', -⟩ := dropIdleEnd_spec hstart
    refine ⟨_, rfl, ?_⟩
    rw [hkept', components_ofSegments (by simp), hcomponents']
    intro piece hin
    exact hslash piece (hpieces' ▸ List.mem_append_left _ hin)

/-- The components of a path with a file name are those of its parent and the name. -/
theorem components_of_fileName? {n : Text} (h : fileName? path = some n) :
    ∃ parent, parent? path = some parent ∧ components path = components parent ++ [.name n] := by
  refine components_of_getLast? ?_ nofun nofun
  unfold fileName? at h
  split at h
  · cases h
    assumption
  · cases h

/-- A cleaned path that says something is tidy. -/
theorem isTidy_cleaned {path : Text} (h : cleaned path ≠ []) : IsTidy (cleaned path) := by
  obtain ⟨names, hnames, hcleaned⟩ := exists_cleaned path
  rcases hlast : names.getLast? with _ | n
  · rw [List.getLast?_eq_none_iff.1 hlast] at hcleaned
    rw [hcleaned] at h ⊢
    split at h
    · rw [if_pos ‹_›]
      exact Or.inl rfl
    · exact absurd rfl h
  · obtain ⟨-, hidle⟩ := hnames n (List.mem_of_getLast? hlast)
    have hne : names ≠ [] := by
      rintro rfl
      cases hlast
    have hsegments : segments (Text.joinWith "/" names) = names :=
      List.splitOn_intercalate '/' (fun n hn => (hnames n hn).1) hne
    refine Or.inr ⟨n, ?_, hidle⟩
    rw [hcleaned]
    split
    · have hroot : segments ("/" ++ Text.joinWith "/" names) = [] :: names :=
        (segments_cons_slash _).trans (congrArg _ hsegments)
      rw [hroot, List.getLast?_cons, hlast, Option.getD_some]
    · rw [hsegments, hlast]

/-! ## Ways from a folder -/

/-- The pieces before an entry of an entry. -/
theorem leadPieces_join (directory : Text) (hname : IsName name) : leadPieces (join directory name) = leadPieces directory ++ [name] := by
  have hroot : join directory name ≠ "/" := by
    intro hroot
    have hsegments := segments_join directory hname
    rw [hroot] at hsegments
    have hlast := congrArg List.getLast? hsegments
    rw [List.getLast?_concat] at hlast
    exact hname.ne_nil (Option.some.inj hlast).symm
  rw [leadPieces_of_tidy (isTidy_join directory hname) hroot, segments_join directory hname]

variable {way : List Text}

/-- The pieces before an entry of the folder at the end of a way. -/
theorem leadPieces_foldl_join (directory : Text) (hway : ∀ n ∈ way, IsName n) :
    leadPieces (way.foldl join directory) = leadPieces directory ++ way := by
  induction way generalizing directory with
  | nil => exact (List.append_nil _).symm
  | cons name way ih =>
    obtain ⟨hname, hway⟩ := List.forall_mem_cons.1 hway
    rw [List.foldl_cons, ih _ hway, leadPieces_join directory hname, List.append_assoc]
    rfl

/-- The pieces of the path along a way. -/
theorem segments_foldl_join (directory : Text) (hway : ∀ n ∈ way, IsName n) (hne : way ≠ []) :
    segments (way.foldl join directory) = leadPieces directory ++ way := by
  obtain ⟨before, last, rfl⟩ := (List.eq_nil_or_concat' way).resolve_left hne
  obtain ⟨hbefore, hlast⟩ := List.forall_mem_append.1 hway
  rw [List.foldl_concat, segments_join _ (hlast last (List.mem_singleton_self _)), leadPieces_foldl_join directory hbefore,
    List.append_assoc]

/-- The path along a way says something. -/
theorem foldl_join_ne_nil (directory : Text) (hway : ∀ n ∈ way, IsName n) (hne : way ≠ []) : way.foldl join directory ≠ [] := by
  obtain ⟨before, last, rfl⟩ := (List.eq_nil_or_concat' way).resolve_left hne
  rw [List.foldl_concat]
  exact join_ne_nil _ (hway last (List.mem_append_right _ (List.mem_singleton_self _)))

/-- The components of the path along a way. -/
theorem components_foldl_join (directory : Text) (hway : ∀ n ∈ way, IsName n) :
    components (way.foldl join directory) = components directory ++ way.map .name := by
  induction way generalizing directory with
  | nil => exact (List.append_nil _).symm
  | cons name way ih =>
    obtain ⟨hname, hway⟩ := List.forall_mem_cons.1 hway
    rw [List.foldl_cons, ih _ hway, components_join directory hname, List.append_assoc]
    rfl

/-- The path along a way is tidy. -/
theorem isTidy_foldl_join (h : IsTidy directory) (hway : ∀ n ∈ way, IsName n) : IsTidy (way.foldl join directory) := by
  induction way generalizing directory with
  | nil => exact h
  | cons name way ih =>
    obtain ⟨hname, hway⟩ := List.forall_mem_cons.1 hway
    exact ih (isTidy_join directory hname) hway

/-- The path along a way starts where the path of its folder starts. -/
theorem isAbsolute_foldl_join (directory : Text) (hway : ∀ n ∈ way, IsName n) :
    isAbsolute (way.foldl join directory) = isAbsolute directory := by
  induction way generalizing directory with
  | nil => rfl
  | cons name way ih =>
    obtain ⟨hname, hway⟩ := List.forall_mem_cons.1 hway
    rw [List.foldl_cons, ih _ hway, isAbsolute_join directory hname]

end Path

end LocalePages
