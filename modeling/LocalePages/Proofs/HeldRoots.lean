import LocalePages.Proofs.HeldSpots
import LocalePages.Proofs.LocaleNames
import Mathlib.Tactic.Ring

/-!
# The root of a held tree in a pattern

A pattern for a folder of a project starts with the pieces of the root (`Glob.rootPieces`). When the root holds no wildcards, these
pieces lead to the folder that holds the project, and the rest of the pattern is expanded from there: it finds the same on the disk as
on the tree (`Glob.rel_expand_join`).
-/

namespace LocalePages

namespace Glob

open GlobPattern

/-! ## The pieces of a pattern -/

/-- The pieces of a pattern are those between its slashes, but for an empty one at the end. -/
theorem pieces_eq (t : Text) :
    pieces t = if (Path.segments t).getLast? = some [] then (Path.segments t).dropLast else Path.segments t := by
  unfold pieces
  split
  · rename_i hnil
    exact absurd hnil (List.splitOn_ne_nil _ _)
  · rfl

/-- The pieces of a pattern are between its slashes. -/
theorem pieces_subset (t : Text) : pieces t ⊆ Path.segments t := by
  rw [pieces_eq]
  split
  · exact List.dropLast_subset _
  · exact List.Subset.refl _

/-- The pieces of a pattern that goes on after a slash. -/
theorem pieces_append_slash (start entry : Text) : pieces (start ++ '/' :: entry) = Path.segments start ++ pieces entry := by
  have hne : Path.segments entry ≠ [] := List.splitOn_ne_nil _ _
  rw [pieces_eq, pieces_eq, Path.segments_append_slash, List.getLast?_append_of_ne_nil _ hne, List.dropLast_append_of_ne_nil hne]
  split <;> rfl

/-- The pieces that a root puts before those of a pattern: its own, without the empty ones of the slashes that it starts with. -/
def rootPieces : Text → List Text
  | [] => []
  | c :: t => if c = '/' then rootPieces t else Path.segments (c :: t)

variable {start : Text}

/-- The pieces of a pattern after a root are those of the root and its own. -/
theorem pieces_root (start : Text) {entry : Text} (h : Path.isAbsolute entry = false) :
    pieces ((start ++ '/' :: entry).dropWhile (· == '/')) = rootPieces start ++ pieces entry := by
  have hentry : entry.dropWhile (· == '/') = entry := by
    cases entry with
    | nil => rfl
    | cons c entry =>
      have hc : (c == '/') = false := by
        rw [beq_eq_false_iff_ne]
        rintro rfl
        cases h
      rw [List.dropWhile_cons, hc, if_neg Bool.false_ne_true]
  induction start with
  | nil => exact congrArg pieces hentry
  | cons c start ih =>
    rw [rootPieces, List.cons_append, List.dropWhile_cons]
    by_cases hc : c = '/'
    · rw [if_pos hc, if_pos (beq_iff_eq.2 hc)]
      exact ih
    · rw [if_neg hc, if_neg (by simpa using hc)]
      exact pieces_append_slash (c :: start) entry

/-- The pieces of a root are pieces of it. -/
theorem mem_segments_of_mem_rootPieces {n : Text} (h : n ∈ rootPieces start) : n ∈ Path.segments start := by
  induction start with
  | nil => cases h
  | cons c start ih =>
    rw [rootPieces] at h
    split at h
    · rename_i hc
      rw [hc, Path.segments_cons_slash]
      exact List.mem_cons_of_mem _ (ih h)
    · exact h

/-- The pieces of a root say what the root says. -/
theorem filter_rootPieces (start : Text) : (rootPieces start).filter (fun n => !Path.isIdle n) = Path.saying start := by
  induction start with
  | nil => rfl
  | cons c start ih =>
    rw [rootPieces]
    split
    · rename_i hc
      rw [ih, hc]
      exact (Path.saying_append_slash [] start).symm
    · rfl

/-- The pieces of a root lead where all of its pieces lead. -/
theorem walk_rootPieces (d : Disk) (start : Text) : d.walk [] (rootPieces start) = d.walk [] (Path.segments start) := by
  induction start with
  | nil => rfl
  | cons c start ih =>
    rw [rootPieces]
    split
    · rename_i hc
      rw [ih, hc, Path.segments_cons_slash]
      rfl
    · rfl

/-- The pieces of a root from the root of the disk are no longer than the root. -/
theorem size_rootPieces (start : Text) : Place.size (rootPieces start) ≤ Utf8.size start + 1 := by
  induction start with
  | nil => exact Nat.zero_le _
  | cons c start ih =>
    rw [rootPieces]
    split
    · have hcons : Utf8.size (c :: start) = Utf8.size [c] + Utf8.size start := Utf8.size_append [c] start
      omega
    · exact (Path.size_segments (c :: start)).le

/-! ## Following the root -/

variable {d tree : Disk} {root : Text} {p : Place} {reach height : Nat}

/-- What a root leads a pattern with: it says what the root says, leads where the root leads, and is no longer. -/
theorem exists_start (h : d.Holds root p tree) : ∃ start, Path.lead root = start ++ ['/'] ∧ Path.saying start = Path.saying root ∧
    d.walk [] (rootPieces start) = .ok p ∧ Place.size (rootPieces start) ≤ Utf8.size root ∧ start ⊆ root := by
  have hwalk := Disk.walk_lead h.spells_root []
  have hstart : (d.start root).1 = [] := by
    unfold Disk.start
    rw [if_pos h.isAbsolute]
  rw [List.append_nil, hstart, Path.leadPieces] at hwalk
  obtain ⟨t, ht⟩ := Path.exists_of_isAbsolute h.isAbsolute
  rcases Path.lead_cases root with ⟨hnil, -⟩ | ⟨start, hlead, hroot⟩
  · rw [hnil] at ht
    cases ht
  · have hpieces : Path.segments (start ++ ['/']) = Path.segments start ++ [[]] := Path.segments_append_slash start []
    rw [hlead, hpieces, List.dropLast_concat] at hwalk
    refine ⟨start, hlead, ?_, (walk_rootPieces d start).trans hwalk, ?_, ?_⟩
    · rcases hroot with rfl | ⟨rfl, -⟩
      · rw [Path.saying_append_slash]
        exact (List.append_nil _).symm
      · rfl
    · rcases hroot with rfl | ⟨rfl, -⟩
      · rw [Utf8.size_append]
        exact size_rootPieces start
      · rw [ht, rootPieces, if_pos rfl, Utf8.size_slash_cons]
        exact size_rootPieces t
    · rcases hroot with rfl | ⟨rfl, -⟩
      · exact List.subset_append_left _ _
      · exact List.Subset.refl _

/-- What a root leads a pattern with stands before it, and a slash between them. -/
theorem join_eq_of_lead {start entry : Text} (hlead : Path.lead root = start ++ ['/']) (hrelative : Path.isAbsolute entry = false) :
    Path.join root entry = start ++ '/' :: entry := by
  rw [Path.join_eq_lead_append root hrelative, hlead, List.append_assoc]
  rfl

/-- Names that lead somewhere are followed one after the other. -/
theorem inside_literals {names : List Text} {s : GlobSpot} {q : Place} (hwalk : d.walk s.place names = .ok q)
    (hslash : ∀ n ∈ names, '/' ∉ n) (hshort : Utf8.size s.path + Place.size names ≤ Disk.pathLimit) (foldersOnly : Bool) (fuel : Nat)
    (components : List GlobPattern) :
    inside d foldersOnly (fuel + names.length) (names.map ofText ++ components) s =
      inside d foldersOnly fuel components ⟨names.foldl Path.join s.path, q⟩ := by
  induction names generalizing s with
  | nil =>
    cases hwalk
    rfl
  | cons n names ih =>
    obtain ⟨hn, hnames⟩ := List.forall_mem_cons.1 hslash
    have hjoin := Path.size_join_le s.path (Path.isAbsolute_eq_false hn)
    have hsize := Place.size_cons n names
    rw [← List.singleton_append] at hwalk
    obtain ⟨w, hone, hrest⟩ := Disk.exists_of_walk_append hwalk
    have hstep : s.step? d n = some ⟨Path.join s.path n, w⟩ := by
      rw [GlobSpot.step?, if_neg (by omega), hone]
      rfl
    have hliteral : (ofText n).literal? = some n := literal?_eq_some_iff.2 rfl
    have hinside : inside d foldersOnly (fuel + names.length + 1) (ofText n :: (names.map ofText ++ components)) s =
        (s.step? d n).toList.flatMap fun next => inside d foldersOnly (fuel + names.length) (names.map ofText ++ components) next := by
      simp only [inside, hliteral]
    refine hinside.trans ?_
    rw [hstep]
    exact (List.flatMap_singleton _ _).trans (ih hrest hnames (by dsimp only; omega))

/-- Where names lead from a path is spelled by the path that goes on with them. -/
theorem spells_foldl_join {names : List Text} {path : Text} {q q' : Place} (h : d.Spells path q) (hslash : ∀ n ∈ names, '/' ∉ n)
    (hwalk : d.walk q names = .ok q') : d.Spells (names.foldl Path.join path) q' ∧
      Path.isAbsolute (names.foldl Path.join path) = Path.isAbsolute path ∧
      Path.saying (names.foldl Path.join path) = Path.saying path ++ names.filter (fun n => !Path.isIdle n) ∧
      Utf8.size (names.foldl Path.join path) ≤ Utf8.size path + Place.size names := by
  induction names generalizing path q with
  | nil =>
    cases hwalk
    exact ⟨h, rfl, (List.append_nil _).symm, Nat.le_add_right _ _⟩
  | cons n names ih =>
    obtain ⟨hn, hnames⟩ := List.forall_mem_cons.1 hslash
    have hrelative := Path.isAbsolute_eq_false hn
    rw [← List.singleton_append] at hwalk
    obtain ⟨w, hone, hrest⟩ := Disk.exists_of_walk_append hwalk
    obtain ⟨hspells, habsolute, hsaying, hsize⟩ := ih (h.join_piece hn hone) hnames hrest
    refine ⟨hspells, habsolute.trans (Path.isAbsolute_join_of_relative path hrelative), ?_, ?_⟩
    · have hpiece : Path.saying n = [n].filter fun n => !Path.isIdle n := by
        rw [Path.saying, Path.segments, List.splitOn_eq_singleton hn]
      rw [List.foldl_cons, hsaying, Path.saying_join path hrelative, hpiece, List.append_assoc, ← List.filter_append]
      rfl
    · have hjoin := Path.size_join_le path hrelative
      have hcons := Place.size_cons n names
      rw [List.foldl_cons]
      omega

/-! ## Expanding after the root -/

/-- Plain texts before others are read as patterns that stand for them. -/
theorem mapM_parse_append {names : List Text} (h : ∀ n ∈ names, IsPlain n) (texts : List Text) :
    (names ++ texts).mapM parse = (texts.mapM parse).map (names.map ofText ++ ·) := by
  induction names with
  | nil => exact (congrFun Except.map_id _).symm
  | cons n names ih =>
    obtain ⟨hn, hnames⟩ := List.forall_mem_cons.1 h
    rw [List.cons_append, List.mapM_cons, parse_of_isPlain hn, ih hnames]
    cases texts.mapM parse <;> rfl

/-- Each pattern that is read is read from one of the texts. -/
theorem exists_of_mem_mapM {texts : List Text} {components : List GlobPattern} (h : texts.mapM parse = .ok components)
    {q : GlobPattern} (hq : q ∈ components) : ∃ t ∈ texts, parse t = .ok q := by
  induction texts generalizing components with
  | nil =>
    cases h
    cases hq
  | cons t texts ih =>
    rw [List.mapM_cons] at h
    cases hfirst : parse t with
    | error e =>
      rw [hfirst] at h
      cases h
    | ok first =>
      cases hrest : texts.mapM parse with
      | error e =>
        rw [hfirst, hrest] at h
        cases h
      | ok rest =>
        rw [hfirst, hrest] at h
        cases h
        rcases List.mem_cons.1 hq with rfl | hq
        · exact ⟨t, List.mem_cons_self, hfirst⟩
        · obtain ⟨t', hin, hparse⟩ := ih hrest hq
          exact ⟨t', List.mem_cons_of_mem _ hin, hparse⟩

/-- The fuel of an expansion is enough for all components, and one unit for each name before them. -/
theorem add_need_le {entries : Nat} (count : Nat) (hheight : height ≤ entries) (components : List GlobPattern) (v : Place) :
    count + need height components v ≤ (entries + 2) * (2 * (count + components.length) + 4) := by
  have hmul : components.length * (height + 1) ≤ components.length * (entries + 1) :=
    Nat.mul_le_mul_left _ (Nat.succ_le_succ hheight)
  have hfuel : (entries + 2) * (2 * (count + components.length) + 4) =
      2 * (components.length * (entries + 1)) + 2 * components.length + 2 * (entries * count) + 4 * count + 4 * entries + 8 := by
    ring
  unfold need
  omega

/-- A pattern is expanded when it can be read, and so can its pieces. -/
theorem expand_eq (d : Disk) (pattern : Text) : expand d pattern =
    match parse pattern, (pieces (pattern.dropWhile (· == '/'))).mapM parse with
    | .error e, _ => .error e
    | .ok _, .error e => .error e
    | .ok _, .ok components => .ok (inside d (Text.endsWith pattern "/") ((d.entries.length + 2) * (2 * components.length + 4)) components
        (if Path.isAbsolute pattern then ⟨"/", []⟩ else ⟨".", d.here⟩)) := by
  unfold expand
  dsimp only
  cases parse pattern with
  | error e => rfl
  | ok whole => cases (pieces (pattern.dropWhile (· == '/'))).mapM parse <;> rfl

/-- A pattern after a plain root is expanded from the folder that the root leads to. -/
theorem exists_expand_join (h : d.Holds root p tree) (hplain : IsPlain root) (hshort : Utf8.size root + 1 ≤ Disk.pathLimit) :
    ∃ path count, d.Spells path p ∧ Path.isAbsolute path = true ∧ Path.saying path = Path.saying root ∧
      Utf8.size path ≤ Utf8.size root + 1 ∧ ∀ entry, Path.isAbsolute entry = false →
        (expand d (Path.join root entry)).toOption =
          if (parse (Path.join root entry)).isOk then
            ((pieces entry).mapM parse).toOption.map fun components =>
              inside d (Text.endsWith (Path.join root entry) "/")
                ((d.entries.length + 2) * (2 * (count + components.length) + 4) - count) components ⟨path, p⟩
          else none := by
  obtain ⟨start, hlead, hsaying, hwalk, hsize, hsubset⟩ := exists_start h
  have hslash : ∀ n ∈ rootPieces start, '/' ∉ n := fun n hn =>
    Path.slash_not_mem_of_mem_segments (mem_segments_of_mem_rootPieces hn)
  have hnames : ∀ n ∈ rootPieces start, IsPlain n := by
    intro n hn c hc
    have hc' : c ≠ '/' := fun heq => hslash n hn (heq ▸ hc)
    have hjoined : Text.joinWith "/" (Path.segments start) = start := List.intercalate_splitOn '/'
    refine hplain c (hsubset ?_)
    rw [← hjoined, Path.mem_joinWith_iff hc']
    exact ⟨n, mem_segments_of_mem_rootPieces hn, hc⟩
  have hroot : d.Spells "/" [] := rfl
  have hone : Utf8.size ("/" : Text) = 1 := rfl
  obtain ⟨hspells, habsolute, hfold, hlength⟩ := spells_foldl_join hroot hslash hwalk
  refine ⟨(rootPieces start).foldl Path.join "/", (rootPieces start).length, hspells, habsolute, ?_, by omega, fun entry hrelative => ?_⟩
  · rw [hfold, filter_rootPieces, hsaying]
    rfl
  · have hjoin := join_eq_of_lead hlead hrelative
    have hfrom : Path.isAbsolute (start ++ '/' :: entry) = true := by
      rw [← hjoin, Path.isAbsolute_join_of_relative root hrelative, h.isAbsolute]
    rw [hjoin, expand_eq, hfrom, pieces_root start hrelative, mapM_parse_append hnames]
    cases parse (start ++ '/' :: entry) with
    | error e => rfl
    | ok whole =>
      cases (pieces entry).mapM parse with
      | error e => rfl
      | ok components =>
        have hfuel : (rootPieces start).length ≤ (d.entries.length + 2) * (2 * ((rootPieces start).length + components.length) + 4) :=
          (Nat.le_add_right _ _).trans (add_need_le _ (Nat.le_refl _) components [])
        have hinside := inside_literals (s := ⟨"/", []⟩) hwalk hslash (by dsimp only; omega) (Text.endsWith (start ++ '/' :: entry) "/")
          ((d.entries.length + 2) * (2 * ((rootPieces start).length + components.length) + 4) - (rootPieces start).length) components
        rw [Nat.sub_add_cancel hfuel] at hinside
        refine congrArg some (Eq.trans ?_ hinside)
        rw [List.length_append, List.length_map]
        rfl

/-- Neither can a pattern be read after one plain root only, nor does it stand for folders after one root only. -/
theorem isOk_parse_join (h : d.Holds root p tree) (hplain : IsPlain root) {entry : Text} (hrelative : Path.isAbsolute entry = false) :
    (parse (Path.join root entry)).isOk = (parse (Path.join "/" entry)).isOk ∧
      Text.endsWith (Path.join root entry) "/" = Text.endsWith (Path.join "/" entry) "/" := by
  obtain ⟨start, hlead, -, -, -, hsubset⟩ := exists_start h
  have hjoin := join_eq_of_lead hlead hrelative
  have hjoin' : Path.join "/" entry = '/' :: entry := Path.join_eq_lead_append "/" hrelative
  rw [hjoin, hjoin']
  refine ⟨?_, Text.endsWith_append start (Nat.succ_le_succ (Nat.zero_le _))⟩
  have hstart : IsPlain (start ++ ['/']) := by
    intro c hc
    rcases List.mem_append.1 hc with hc | hc
    · exact hplain c (hsubset hc)
    · exact List.mem_singleton.1 hc ▸ by decide
  rw [← List.singleton_append, ← List.append_assoc]
  exact isOk_parse_append hstart (by decide) List.getLast?_concat entry

/-- After a plain root a pattern stands for the same on the disk as on the tree that the root holds, when its components stay inside the
tree and paths have room for them. -/
theorem rel_expand_join (h : d.Holds root p tree) (hplain : IsPlain root) (hreach : ∀ way, tree.entry? way ≠ none → way.size ≤ reach)
    {entry : Text} (hrelative : Path.isAbsolute entry = false)
    (hstays : staysInside 0 (((pieces entry).mapM parse).toOption.getD []) = true)
    (hshort : Utf8.size root + 1 + roomOf reach (((pieces entry).mapM parse).toOption.getD []) + reach ≤ Disk.pathLimit) :
    Option.Rel (List.Forall₂ (FoundAlong d root p tree reach)) (expand d (Path.join root entry)).toOption
      (expand tree (Path.join "/" entry)).toOption := by
  have hself := Disk.Holds.self h.isTree_held
  obtain ⟨path, count, hspells, habsolute, hsaying, hsize, hexpand⟩ := exists_expand_join h hplain (by omega)
  obtain ⟨path', count', hspells', habsolute', hsaying', hsize', hexpand'⟩ := exists_expand_join hself (by decide) (by decide)
  obtain ⟨hread, hends⟩ := isOk_parse_join h hplain hrelative
  rw [hexpand entry hrelative, hexpand' entry hrelative, hread, hends]
  split
  · cases hcomponents : (pieces entry).mapM parse with
    | error e => exact .none
    | ok components =>
      have hvalue : ((pieces entry).mapM parse).toOption.getD [] = components := by rw [hcomponents]; rfl
      rw [hvalue] at hstays hshort
      have hstart : GlobSpot.GoesAlong d root p tree reach components ⟨path, p⟩ ⟨path', []⟩ := by
        refine ⟨(List.append_nil p).symm, hsaying.trans (by rw [hsaying']; exact (List.append_nil _).symm), ⟨habsolute, habsolute'⟩,
          ⟨hspells, hspells'⟩, Option.some_ne_none _, hstays, fun q hq name hliteral => ?_, ?_⟩
        · obtain ⟨piece, hpiece, hparse⟩ := exists_of_mem_mapM hcomponents hq
          rw [eq_of_literal? hparse hliteral]
          exact Path.slash_not_mem_of_mem_segments (pieces_subset entry hpiece)
        · have hroot := Path.size_pos h.isAbsolute
          have hslash : Utf8.size ("/" : Text) = 1 := rfl
          have hnone : Place.size [] = 0 := rfl
          dsimp only
          omega
      have hfuel := add_need_le count (Nat.min_le_left d.entries.length tree.entries.length) components []
      have hfuel' := add_need_le count' (Nat.min_le_right d.entries.length tree.entries.length) components []
      exact .some (forall₂_inside h hreach (fun _ => h.length_le) hstart (Nat.le_sub_of_add_le' hfuel) (Nat.le_sub_of_add_le' hfuel'))
  · exact .none

end Glob

end LocalePages
