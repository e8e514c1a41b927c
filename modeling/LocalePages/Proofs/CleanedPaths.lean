import LocalePages.Proofs.Paths

/-!
# Cleaned paths

A cleaned path keeps the pieces that say something, and these tell it: two cleaned paths with the same components are the same
(`Path.eq_of_same_cleaned`). Where the way from a directory to a path goes on is told by these pieces too: the path lies in the
directory when it starts with the pieces of the directory, and the pieces after them are the way
(`Path.relativeTo?_eq_some_iff`).
-/

namespace LocalePages

namespace Path

/-- The pieces of a path that say something. -/
def saying (path : Text) : List Text := (segments path).filter fun piece => !isIdle piece

/-- A path from the root is a slash and a rest. -/
theorem exists_of_isAbsolute {path : Text} (h : isAbsolute path = true) : ∃ rest, path = '/' :: rest := by
  obtain ⟨rest, rfl⟩ := List.isPrefixOf_iff_prefix.1 h
  exact ⟨rest, rfl⟩

/-- What a component is in a cleaned path, if it is there. -/
def kept? : Component → Option Text
  | .name n => some n
  | .up => some ".."
  | _ => none

/-- A cleaned path is joined from the pieces that say something. -/
theorem cleaned_eq (path : Text) :
    cleaned path = if isAbsolute path then "/" ++ Text.joinWith "/" (saying path) else Text.joinWith "/" (saying path) := by
  have hrest : ∀ pieces : List Text, (pieces.map componentOf).filterMap kept? = pieces := by
    intro pieces
    induction pieces with
    | nil => rfl
    | cons piece pieces ih =>
      rw [List.map_cons, componentOf]
      split
      · rename_i hup
        rw [List.filterMap_cons, ih, hup, kept?]
      · rw [List.filterMap_cons, ih, kept?]
  have hnames : (components path).filterMap kept? = saying path := by
    by_cases hne : path = []
    · rw [hne]
      rfl
    · obtain ⟨first, rest, hsegments⟩ := List.exists_cons_of_ne_nil (List.splitOn_ne_nil '/' path)
      change segments path = first :: rest at hsegments
      rw [components_eq hne, saying, hsegments, componentsOf, List.filter_cons]
      rcases openingOf_cases first with ⟨hidle, hopening⟩ | ⟨hidle, hopening⟩
      · have hnone : kept? (openingOf first) = none := hopening.elim (congrArg kept?) (congrArg kept?)
        rw [List.filterMap_cons, hnone, hidle]
        exact hrest _
      · rw [hopening, hidle]
        exact hrest (first :: rest.filter fun piece => !isIdle piece)
  exact congrArg (fun names => if isAbsolute path then "/" ++ Text.joinWith "/" names else Text.joinWith "/" names) hnames

/-- The pieces that say something are pieces. -/
theorem isPiece_of_mem_saying {path piece : Text} (h : piece ∈ saying path) : IsPiece piece := by
  obtain ⟨hin, hidle⟩ := List.mem_filter.1 h
  exact ⟨slash_not_mem_of_mem_segments hin, by simpa using hidle⟩

/-- What is joined from pieces that say something starts with no slash. -/
theorem isAbsolute_joinWith {names : List Text} (h : ∀ n ∈ names, IsPiece n) : isAbsolute (Text.joinWith "/" names) = false := by
  cases names with
  | nil => rfl
  | cons first rest =>
    obtain ⟨hslash, hidle⟩ := h first List.mem_cons_self
    cases first with
    | nil => cases hidle
    | cons c first =>
      have hc : ('/' == c) = false := by
        rw [beq_eq_false_iff_ne]
        rintro rfl
        exact hslash List.mem_cons_self
      obtain ⟨after, hafter⟩ : ∃ after, Text.joinWith "/" ((c :: first) :: rest) = c :: after := by
        cases rest with
        | nil => exact ⟨first, Text.joinWith_singleton _ _⟩
        | cons second rest => exact ⟨_, Text.joinWith_cons_cons _ _ _ _⟩
      rw [hafter]
      exact congrArg (· && true) hc

/-- A cleaned path starts where the path starts. -/
theorem isAbsolute_cleaned (path : Text) : isAbsolute (cleaned path) = isAbsolute path := by
  rw [cleaned_eq]
  split
  · rename_i habsolute
    rw [habsolute]
    rfl
  · rename_i hrelative
    rw [isAbsolute_joinWith fun n => isPiece_of_mem_saying, Bool.eq_false_iff.2 hrelative]

/-- The pieces of a cleaned path. -/
theorem segments_cleaned {path : Text} (h : cleaned path ≠ []) :
    segments (cleaned path) = if isAbsolute path then [] :: (if saying path = [] then [[]] else saying path) else saying path := by
  have hpieces : saying path ≠ [] → segments (Text.joinWith "/" (saying path)) = saying path :=
    fun hne => List.splitOn_intercalate '/' (fun n hn => (isPiece_of_mem_saying hn).1) hne
  rw [cleaned_eq] at h ⊢
  split
  · rw [if_pos ‹_›] at h
    refine (segments_cons_slash _).trans (congrArg _ ?_)
    split
    · rename_i hnone
      rw [hnone]
      rfl
    · rename_i hsome
      exact hpieces hsome
  · rw [if_neg ‹_›] at h
    refine hpieces ?_
    rintro hnone
    rw [hnone] at h
    exact h rfl

/-- A cleaned path says what the path says. -/
theorem saying_cleaned (path : Text) : saying (cleaned path) = saying path := by
  have hkept : (saying path).filter (fun piece => !isIdle piece) = saying path := by
    rw [saying, List.filter_filter]
    simp only [Bool.and_self]
  by_cases hempty : cleaned path = []
  · have hnone : saying path = [] := by
      rw [cleaned_eq] at hempty
      split at hempty
      · cases hempty
      · by_contra hne
        have hpieces : segments (Text.joinWith "/" (saying path)) = saying path :=
          List.splitOn_intercalate '/' (fun n hn => (isPiece_of_mem_saying hn).1) hne
        rw [hempty] at hpieces
        have hin : [] ∈ saying path := by
          rw [← hpieces]
          exact List.mem_singleton_self _
        obtain ⟨-, hidle⟩ := isPiece_of_mem_saying hin
        cases hidle
    rw [hempty, hnone]
    rfl
  · rw [saying, segments_cleaned hempty]
    split
    · split
      · rename_i hnone
        rw [hnone]
        rfl
      · exact hkept
    · exact hkept

/-- A cleaned path is as clean as it can be. -/
theorem cleaned_cleaned (path : Text) : cleaned (cleaned path) = cleaned path := by
  rw [cleaned_eq (cleaned path), isAbsolute_cleaned, saying_cleaned, ← cleaned_eq]

/-- Whether a path starts at the root is told by its components. -/
theorem isAbsolute_iff (path : Text) : isAbsolute path = true ↔ (components path).head? = some .root := by
  by_cases hne : path = []
  · rw [hne]
    exact iff_of_false (by decide) (by decide)
  · obtain ⟨first, rest, hsegments⟩ := List.exists_cons_of_ne_nil (List.splitOn_ne_nil '/' path)
    change segments path = first :: rest at hsegments
    rw [isAbsolute_eq hne hsegments, components_eq hne, hsegments, componentsOf, List.head?_cons, Option.some_inj, openingOf]
    split
    · exact iff_of_true ‹_› rfl
    · refine iff_of_false ‹_› ?_
      split
      · simp
      · unfold componentOf
        split <;> simp

/-- Cleaned paths with the same components are the same. -/
theorem eq_of_same_cleaned {path path' : Text} (h : same (cleaned path) (cleaned path') = true) : cleaned path = cleaned path' := by
  have hcomponents : components (cleaned path) = components (cleaned path') := beq_iff_eq.1 h
  have habsolute : isAbsolute (cleaned path) = isAbsolute (cleaned path') := by
    rw [Bool.eq_iff_iff, isAbsolute_iff, isAbsolute_iff, hcomponents]
  have hagain : cleaned (cleaned path) = cleaned (cleaned path') := by
    unfold cleaned at hcomponents habsolute ⊢
    simp only [hcomponents, habsolute]
  rwa [cleaned_cleaned, cleaned_cleaned] at hagain

/-! ## What a longer path says -/

/-- Before a slash and after it a path says what its halves say. -/
theorem saying_append_slash (start rest : Text) : saying (start ++ '/' :: rest) = saying start ++ saying rest := by
  rw [saying, segments_append_slash, List.filter_append]
  rfl

/-- A path that goes on from a directory says what the directory says and then what it goes on with. -/
theorem saying_join (directory : Text) {entry : Text} (h : isAbsolute entry = false) :
    saying (join directory entry) = saying directory ++ saying entry := by
  rw [join_eq_lead_append _ h]
  rcases lead_cases directory with ⟨rfl, hlead⟩ | ⟨start, hlead, rfl | ⟨rfl, -⟩⟩
  · rw [hlead]
    rfl
  · have hnil : saying [] = [] := rfl
    rw [hlead, List.append_assoc, List.singleton_append, saying_append_slash, saying_append_slash, hnil, List.append_nil]
  · rw [hlead, List.append_assoc, List.singleton_append, saying_append_slash]

/-- A path from the root says the same after other texts. -/
theorem saying_append (start : Text) {path : Text} (h : isAbsolute path = true) :
    saying (start ++ path) = saying start ++ saying path := by
  obtain ⟨rest, rfl⟩ := exists_of_isAbsolute h
  rw [saying_append_slash, ← List.nil_append ('/' :: rest), saying_append_slash]
  rfl

/-- What starts at the root starts there with more after it. -/
theorem isAbsolute_append {path : Text} (h : isAbsolute path = true) (rest : Text) : isAbsolute (path ++ rest) = true := by
  obtain ⟨t, rfl⟩ := exists_of_isAbsolute h
  rfl

/-- A character that is no slash is in what is joined when it is in one of the pieces. -/
theorem mem_joinWith_iff {c : Char} (hc : c ≠ '/') (pieces : List Text) :
    c ∈ Text.joinWith "/" pieces ↔ ∃ piece ∈ pieces, c ∈ piece := by
  induction pieces with
  | nil => exact iff_of_false List.not_mem_nil fun ⟨_, hin, _⟩ => List.not_mem_nil hin
  | cons first rest ih =>
    cases rest with
    | nil =>
      rw [Text.joinWith_singleton]
      simp only [List.mem_singleton, exists_eq_left]
    | cons second rest =>
      rw [Text.joinWith_cons_cons, List.mem_append, List.mem_append, ih, List.exists_mem_cons_iff]
      simp [hc]

/-- A character that is neither a slash nor a dot is in a path when it is in a piece that says something. -/
theorem mem_iff_exists_saying {c : Char} (hslash : c ≠ '/') (hdot : c ≠ '.') (path : Text) :
    c ∈ path ↔ ∃ piece ∈ saying path, c ∈ piece := by
  have hjoined : Text.joinWith "/" (segments path) = path := List.intercalate_splitOn '/'
  rw [← hjoined, mem_joinWith_iff hslash, hjoined]
  constructor
  · rintro ⟨piece, hin, hc⟩
    refine ⟨piece, List.mem_filter.2 ⟨hin, ?_⟩, hc⟩
    rw [isIdle, Bool.not_eq_true', Bool.or_eq_false_iff, List.isEmpty_eq_false_iff, beq_eq_false_iff_ne]
    refine ⟨List.ne_nil_of_mem hc, ?_⟩
    rintro rfl
    exact hdot (List.mem_singleton.1 hc)
  · rintro ⟨piece, hin, hc⟩
    exact ⟨piece, List.mem_of_mem_filter hin, hc⟩

/-! ## The way from a directory -/

/-- The components of a path from the root are the root and what its pieces stand for. -/
theorem components_of_isAbsolute {path : Text} (h : isAbsolute path = true) :
    components path = .root :: (saying path).map componentOf := by
  obtain ⟨rest, rfl⟩ := exists_of_isAbsolute h
  rw [components, saying, segments_cons_slash]
  exact if_pos h

/-- Different pieces stand for different components. -/
theorem componentOf_injective : Function.Injective componentOf := by
  intro piece piece' h
  unfold componentOf at h
  split at h <;> split at h
  · rw [‹piece = _›, ‹piece' = _›]
  · cases h
  · cases h
  · exact Component.name.inj h

/-- Pieces that say something are dropped one for each component. -/
theorem dropComponents_of_isIdle_eq_false {pieces : List Text} (h : ∀ piece ∈ pieces, isIdle piece = false) (count : Nat) :
    dropComponents false count pieces = pieces.drop count := by
  induction pieces generalizing count with
  | nil => cases count <;> rfl
  | cons piece pieces ih =>
    obtain ⟨hpiece, hpieces⟩ := List.forall_mem_cons.1 h
    cases count with
    | zero => rfl
    | succ count =>
      rw [dropComponents, hpiece, List.drop_succ_cons]
      exact ih hpieces count

/-- Nothing is trimmed off pieces that say something. -/
theorem dropWhile_isIdle {pieces : List Text} (h : ∀ piece ∈ pieces, isIdle piece = false) : pieces.dropWhile isIdle = pieces := by
  cases pieces with
  | nil => rfl
  | cons piece pieces => rw [List.dropWhile_cons, h piece List.mem_cons_self, if_neg Bool.false_ne_true]

/-- No component is dropped of none. -/
theorem dropComponents_zero (first : Bool) (pieces : List Text) : dropComponents first 0 pieces = pieces := by
  cases pieces <;> rfl

/-- One component is dropped for each piece that says something. -/
theorem dropWhile_dropComponents (pieces rest : List Text) :
    (dropComponents false (pieces.filter fun piece => !isIdle piece).length (pieces ++ rest)).dropWhile isIdle =
      rest.dropWhile isIdle := by
  induction pieces with
  | nil => exact congrArg (List.dropWhile isIdle) (dropComponents_zero false rest)
  | cons piece pieces ih =>
    cases hidle : isIdle piece with
    | true =>
      rw [List.filter_cons_of_neg (by simp [hidle]), ← ih, List.cons_append]
      cases (pieces.filter fun piece => !isIdle piece).length with
      | zero =>
        rw [dropComponents_zero, dropComponents_zero]
        exact List.dropWhile_cons_of_pos hidle
      | succ count => rw [dropComponents, hidle]; rfl
    | false =>
      rw [List.filter_cons_of_pos (by simp [hidle]), List.length_cons, List.cons_append, dropComponents, hidle]
      exact ih

/-- Where the path along a way goes on from its folder: along the way. -/
theorem relativeTo?_foldl_join {directory : Text} {way : List Text} (hdirectory : directory ≠ []) (hway : ∀ n ∈ way, IsName n)
    (hne : way ≠ []) : relativeTo? directory (way.foldl join directory) = some (Text.joinWith "/" way) := by
  have hidle : ∀ piece ∈ way, isIdle piece = false := fun piece hin => (hway piece hin).2.1
  obtain ⟨first, pieces, hlead⟩ : ∃ first pieces, leadPieces directory = first :: pieces := by
    refine List.exists_cons_of_ne_nil ?_
    intro hnil
    have hcomponents := componentsOf_leadPieces directory
    rw [hnil, components_eq hdirectory] at hcomponents
    obtain ⟨first, pieces, hsegments⟩ := List.exists_cons_of_ne_nil (List.splitOn_ne_nil '/' directory)
    change segments directory = first :: pieces at hsegments
    rw [hsegments] at hcomponents
    cases hcomponents
  have hcomponents : components directory = openingOf first :: (pieces.filter fun s => !isIdle s).map componentOf := by
    rw [← componentsOf_leadPieces, hlead, componentsOf]
  have hprefix : (components directory).isPrefixOf (components (way.foldl join directory)) = true := by
    rw [components_foldl_join directory hway, List.isPrefixOf_iff_prefix]
    exact List.prefix_append _ _
  have hrest : (dropComponents true (components directory).length (segments (way.foldl join directory))).dropWhile isIdle = way := by
    rw [hcomponents, segments_foldl_join directory hway hne, hlead, List.length_cons, List.length_map, List.cons_append,
      dropComponents]
    exact (dropWhile_dropComponents pieces way).trans (dropWhile_isIdle hidle)
  have htrimmed : (way.reverse.dropWhile isIdle).reverse = way := by
    rw [dropWhile_isIdle fun piece hin => hidle piece (List.mem_reverse.1 hin), List.reverse_reverse]
  rw [hcomponents] at hprefix hrest
  rw [relativeTo?, hcomponents]
  dsimp only
  rw [if_pos hprefix, hrest, htrimmed]

/-- A cleaned path lies in a directory when its pieces start with those of the directory, and the pieces after them are the way to it. -/
theorem relativeTo?_eq_some_iff {base path t : Text} (hbase : isAbsolute base = true) (hpath : isAbsolute path = true)
    (hcleaned : cleaned path = path) :
    relativeTo? base path = some t ↔ ∃ way, saying path = saying base ++ way ∧ t = Text.joinWith "/" way := by
  have hpieces : segments path = [] :: if saying path = [] then [[]] else saying path := by
    have hne : cleaned path ≠ [] := by
      rw [hcleaned]
      rintro rfl
      cases hpath
    rw [← hcleaned, segments_cleaned hne, if_pos hpath, hcleaned]
  have hway : ∀ way, saying path = saying base ++ way → relativeTo? base path = some (Text.joinWith "/" way) := by
    intro way hsaying
    have hidle : ∀ piece ∈ way, isIdle piece = false := fun piece hin =>
      (isPiece_of_mem_saying (hsaying ▸ List.mem_append_right _ hin)).2
    have hrest : (dropComponents true (saying base).length.succ (segments path)).dropWhile isIdle = way := by
      rw [hpieces]
      change (dropComponents false (saying base).length _).dropWhile isIdle = way
      split
      · rename_i hnone
        rw [hsaying, List.append_eq_nil_iff] at hnone
        rw [hnone.1, hnone.2]
        rfl
      · rw [dropComponents_of_isIdle_eq_false fun piece hin => (isPiece_of_mem_saying hin).2, hsaying, List.drop_left,
          dropWhile_isIdle hidle]
    have htrimmed : (way.reverse.dropWhile isIdle).reverse = way := by
      rw [dropWhile_isIdle fun piece hin => hidle piece (List.mem_reverse.1 hin), List.reverse_reverse]
    have hprefix : (components base).isPrefixOf (components path) = true := by
      rw [components_of_isAbsolute hbase, components_of_isAbsolute hpath, hsaying, List.map_append, List.isPrefixOf_iff_prefix]
      exact List.prefix_append (.root :: (saying base).map componentOf) (way.map componentOf)
    rw [components_of_isAbsolute hbase] at hprefix
    rw [relativeTo?, components_of_isAbsolute hbase]
    dsimp only
    rw [if_pos hprefix, List.length_cons, List.length_map, hrest, htrimmed]
  constructor
  · intro h
    -- a path that has a way from the directory starts with its components
    have hprefix : (saying base).map componentOf <+: (saying path).map componentOf := by
      rw [relativeTo?, components_of_isAbsolute hbase] at h
      dsimp only at h
      split at h
      · rename_i hprefix
        rw [components_of_isAbsolute hpath, List.isPrefixOf_iff_prefix, List.cons_prefix_cons] at hprefix
        exact hprefix.2
      · cases h
    obtain ⟨way, hsaying⟩ := (List.prefix_map_iff_of_injective componentOf_injective).1 hprefix
    rw [hway way hsaying.symm] at h
    exact ⟨way, hsaying.symm, (Option.some.inj h).symm⟩
  · rintro ⟨way, hsaying, rfl⟩
    exact hway way hsaying

end Path

end LocalePages
