import LocalePages.Disk.Changes
import LocalePages.Project.Files
import LocalePages.Proofs.ByteOrder
import LocalePages.Proofs.HeldTrees

/-!
# Files that are found

A descent goes through a folder name by name and, before the next name, through what is under it (`Disk.descent`). What it comes to are
the files of the folder (`Disk.mem_descent`), and it comes to them in the order of their places (`Disk.sorted_descent`): a folder goes
with its name among the names around it, whatever the names in it are. So the files of a folder are those of a descent
(`Disk.IsTree.descent_eq_files`), and those that are found are the wanted ones among them (`Disk.findFiles_spec`).
-/

namespace LocalePages

/-- A text is wanted by some pattern among texts when it is by one that can be read. -/
theorem GlobPattern.any_parseAll_iff {texts : List Text} {t : Text} :
    ((parseAll texts).any fun g => g.covers t) = true ↔ ∃ pattern ∈ texts, ∃ g, parse pattern = .ok g ∧ g.covers t = true := by
  simp only [List.any_eq_true, parseAll, List.mem_filterMap]
  constructor
  · rintro ⟨g, ⟨pattern, hin, hparse⟩, hcovers⟩
    cases hpattern : parse pattern with
    | error e =>
      rw [hpattern] at hparse
      cases hparse
    | ok g' =>
      rw [hpattern] at hparse
      cases hparse
      exact ⟨pattern, hin, g, hpattern, hcovers⟩
  · rintro ⟨pattern, hin, g, hparse, hcovers⟩
    exact ⟨g, ⟨pattern, hin, by rw [hparse]; rfl⟩, hcovers⟩

namespace Disk

/-- The ways to the files at a place as a descent comes to them: through the names in a folder in order, and under each name before the
next one. The depth bounds how far down it goes. -/
def descent (d : Disk) : Nat → Place → List Place
  | 0, _ => []
  | depth + 1, p =>
    match d.entry? p with
    | some (.file _ _) => [[]]
    | some (.folder _) => (d.names p).flatMap fun name => (d.descent depth (p ++ [name])).map (name :: ·)
    | none => []

variable {d : Disk} {p way : Place}

/-- The names in a folder are in order, and none comes twice. -/
theorem IsTree.sorted_names (h : d.IsTree) (p : Place) : (d.names p).Pairwise (· < ·) := by
  refine ((List.pairwise_mergeSort nameLe_trans nameLe_total _).and (h.nodup_names p)).imp fun ⟨hle, hne⟩ => ?_
  exact lt_of_le_of_ne ((nameLe_iff _ _).1 hle) hne

/-- There is nothing below a file. -/
theorem IsTree.eq_nil_of_file (h : d.IsTree) {content : FileContent} {executable : Bool}
    (hfile : d.entry? p = some (.file content executable)) (hthere : d.entry? (p ++ way) ≠ none) : way = [] := by
  by_contra hne
  have hfolder := h.isFolderAt_of_entry? hne hthere
  rw [isFolderAt, hfile] at hfolder
  cases hfolder

/-- A descent comes to the files that are not too deep. -/
theorem IsTree.mem_descent (h : d.IsTree) {depth : Nat} :
    way ∈ d.descent depth p ↔ way.length < depth ∧ (d.contentAt? (p ++ way)).isSome = true := by
  induction depth generalizing p way with
  | zero => exact iff_of_false List.not_mem_nil fun hdeep => Nat.not_lt_zero _ hdeep.1
  | succ depth ih =>
    rw [descent]
    cases hentry : d.entry? p with
    | none =>
      refine iff_of_false List.not_mem_nil fun ⟨_, hfile⟩ => ?_
      exact h.entry?_ne_none_of_append way (entry?_ne_none_of_contentAt? hfile) hentry
    | some e =>
      cases e with
      | file content executable =>
        rw [List.mem_singleton]
        constructor
        · rintro rfl
          exact ⟨Nat.succ_pos depth, by rw [List.append_nil, contentAt?, hentry]; rfl⟩
        · rintro ⟨-, hfile⟩
          exact h.eq_nil_of_file hentry (entry?_ne_none_of_contentAt? hfile)
      | folder writable =>
        simp only [List.mem_flatMap, List.mem_map]
        constructor
        · rintro ⟨name, -, rest, hrest, rfl⟩
          obtain ⟨hdeep, hfile⟩ := ih.1 hrest
          rw [List.append_assoc] at hfile
          exact ⟨Nat.succ_lt_succ hdeep, hfile⟩
        · rintro ⟨hdeep, hfile⟩
          cases way with
          | nil =>
            rw [List.append_nil, contentAt?, hentry] at hfile
            cases hfile
          | cons name rest =>
            have hsplit : p ++ name :: rest = p ++ [name] ++ rest := by simp
            rw [hsplit] at hfile
            exact ⟨name, h.mem_names.2 (h.entry?_ne_none_of_append rest (entry?_ne_none_of_contentAt? hfile)), rest,
              ih.2 ⟨Nat.lt_of_succ_lt_succ hdeep, hfile⟩, rfl⟩

/-- A descent comes to the files in the order of their places. -/
theorem IsTree.sorted_descent (h : d.IsTree) (depth : Nat) (p : Place) : (d.descent depth p).Pairwise (· < ·) := by
  induction depth generalizing p with
  | zero => exact .nil
  | succ depth ih =>
    rw [descent]
    split
    · exact List.pairwise_singleton _ _
    · -- under one name the order is that below it, and otherwise that of the names
      rw [List.pairwise_flatMap]
      refine ⟨fun name _ => ?_, (h.sorted_names p).imp fun hlt way hway way' hway' => ?_⟩
      · rw [List.pairwise_map]
        exact (ih (p ++ [name])).imp fun hlt => List.cons_lt_cons_iff.2 (Or.inr ⟨rfl, hlt⟩)
      · obtain ⟨rest, -, rfl⟩ := List.mem_map.1 hway
        obtain ⟨rest', -, rfl⟩ := List.mem_map.1 hway'
        exact List.cons_lt_cons_iff.2 (Or.inl hlt)
    · exact .nil

/-- A descent that is deep enough comes to the files of a folder. -/
theorem IsTree.descent_eq_files (h : d.IsTree) (hfolder : d.isFolderAt p = true) :
    d.descent (d.entries.length + 1) p = d.files p := by
  have hsorted := h.sorted_descent (d.entries.length + 1) p
  refine eq_of_perm_of_sorted ?_ (hsorted.imp fun hlt => (placeLe_iff _ _).2 hlt.le) (sorted_files d p)
  refine (List.perm_ext_iff_of_nodup (hsorted.imp fun hlt => hlt.ne) (h.nodup_files p)).2 fun way => ?_
  rw [h.mem_descent, h.mem_files]
  constructor
  · rintro ⟨-, hfile⟩
    obtain ⟨content, hcontent⟩ := Option.isSome_iff_exists.1 hfile
    obtain ⟨executable, hentry⟩ := contentAt?_eq_some_iff.1 hcontent
    refine ⟨?_, content, executable, hentry⟩
    rintro rfl
    rw [List.append_nil] at hentry
    rw [isFolderAt, hentry] at hfolder
    cases hfolder
  · rintro ⟨-, content, executable, hentry⟩
    have hlength := h.length_le_of_entry? (hentry ▸ Option.some_ne_none _)
    rw [List.length_append] at hlength
    exact ⟨by omega, by rw [contentAt?, hentry]; rfl⟩

/-- Different ways from a folder have different paths. -/
theorem foldl_join_injOn (directory : Text) :
    Set.InjOn (fun way : Place => way.foldl Path.join directory) {way | way ≠ [] ∧ ∀ n ∈ way, Path.IsName n} := by
  intro way hway way' hway' hsame
  have hpieces := congrArg Path.segments hsame
  dsimp only at hpieces
  rw [Path.segments_foldl_join directory hway.2 hway.1, Path.segments_foldl_join directory hway'.2 hway'.1] at hpieces
  exact List.append_cancel_left hpieces

/-- The files that are found in a folder of a tree are the files below it that some pattern asks for and none leaves out. A descent comes
to them in this order, which is that of the bytes of their ways, name by name, so that none comes twice. -/
theorem findFiles_spec (htree : d.IsTree) {folder : Text} (hplace : d.place folder = .ok p) (hfolder : d.isFolderAt p = true)
    (includes : List Text) (excludes : List GlobPattern) :
    ∃ ways : List Place,
      d.findFiles folder (GlobPattern.parseAll includes) excludes = ways.map (·.foldl Path.join folder) ∧
      ways = (d.descent (d.entries.length + 1) p).filter (isWanted (GlobPattern.parseAll includes) excludes) ∧
      (∀ way, way ∈ ways ↔ (d.contentAt? (p ++ way)).isSome = true ∧
        (∃ pattern ∈ includes, ∃ g, GlobPattern.parse pattern = .ok g ∧ g.covers ("./" ++ Text.joinWith "/" way) = true) ∧
        ∀ g ∈ excludes, ¬g.covers ("./" ++ Text.joinWith "/" way) = true) ∧
      (∀ way ∈ ways, Path.relativeTo? folder (way.foldl Path.join folder) = some (Text.joinWith "/" way) ∧
        d.Spells (way.foldl Path.join folder) (p ++ way)) ∧
      (ways.map fun way => way.map Utf8.encode).Pairwise (· < ·) ∧
      (d.findFiles folder (GlobPattern.parseAll includes) excludes).Nodup := by
  have hfound : d.findFiles folder (GlobPattern.parseAll includes) excludes =
      ((d.descent (d.entries.length + 1) p).filter (isWanted (GlobPattern.parseAll includes) excludes)).map
        (·.foldl Path.join folder) := by
    rw [findFiles, waysIn, hplace, htree.descent_eq_files hfolder]
    dsimp only
    rw [if_pos hfolder]
  have hthere : ∀ way ∈ d.descent (d.entries.length + 1) p, d.entry? (p ++ way) ≠ none := fun way hway =>
    entry?_ne_none_of_contentAt? (htree.mem_descent.1 hway).2
  have hnames : ∀ way ∈ d.descent (d.entries.length + 1) p, way ≠ [] ∧ ∀ n ∈ way, Path.IsName n := by
    intro way hway
    refine ⟨?_, fun n hn => htree.names _ (hthere way hway) n (List.mem_append_right _ hn)⟩
    rw [htree.descent_eq_files hfolder] at hway
    exact (htree.mem_files.1 hway).1
  have hsorted := (htree.sorted_descent (d.entries.length + 1) p).filter (isWanted (GlobPattern.parseAll includes) excludes)
  refine ⟨_, hfound, rfl, fun way => ?_, fun way hway => ?_, ?_, ?_⟩
  · rw [List.mem_filter, htree.mem_descent, isWanted, Bool.and_eq_true, GlobPattern.any_parseAll_iff, Bool.not_eq_true',
      List.any_eq_false]
    constructor
    · rintro ⟨⟨-, hfile⟩, hwanted⟩
      exact ⟨hfile, hwanted⟩
    · rintro ⟨hfile, hwanted⟩
      have hlength := htree.length_le_of_entry? (entry?_ne_none_of_contentAt? hfile)
      rw [List.length_append] at hlength
      exact ⟨⟨by omega, hfile⟩, hwanted⟩
  · have hin := List.mem_of_mem_filter hway
    obtain ⟨hne, hway⟩ := hnames way hin
    exact ⟨Path.relativeTo?_foldl_join (ne_nil_of_place hplace) hway hne,
      htree.spells_foldl_join (spells_of_place hplace).2 hfolder (hthere way hin)⟩
  · rw [List.pairwise_map]
    exact hsorted.imp Utf8.map_encode_lt_map_encode
  · rw [hfound]
    refine List.Nodup.map_on (fun way hway way' hway' hsame => ?_) (hsorted.imp fun hlt => hlt.ne)
    exact foldl_join_injOn folder (hnames way (List.mem_of_mem_filter hway)) (hnames way' (List.mem_of_mem_filter hway')) hsame

namespace SiblingsWitness

/-- A folder beside a file whose name goes on from its name, and a hidden file. -/
def disk : Disk :=
  ⟨[(["srv"], .folder true), (["srv", "shop"], .folder true), (["srv", "shop", "cart.php"], .file (.text []) false),
    (["srv", "shop", ".old.php"], .file (.text []) false), (["srv", "shop-two.php"], .file (.text []) false),
    (["srv", "shop.js"], .file (.text []) false)], []⟩

theorem isTree_disk : disk.IsTree := by
  refine IsTree.of_entries (by decide) ?_
  decide

end SiblingsWitness

open SiblingsWitness in
/-- The files in a folder come where its name comes, also before a file whose path comes before theirs as a text. -/
theorem findFiles_spec_siblings :
    disk.IsTree ∧ disk.place "/srv" = .ok ["srv"] ∧ disk.isFolderAt ["srv"] = true ∧
      disk.findFiles "/srv" (GlobPattern.parseAll ["*.php", "["]) (GlobPattern.parseAll ["*/.*"]) =
        ["/srv/shop/cart.php", "/srv/shop-two.php"] ∧
      (("/srv/shop-two.php" : Text) < "/srv/shop/cart.php") ∧
      ∃ ways : List Place,
        disk.findFiles "/srv" (GlobPattern.parseAll ["*.php", "["]) (GlobPattern.parseAll ["*/.*"]) = ways.map (·.foldl Path.join "/srv") ∧
        (ways.map fun way => way.map Utf8.encode).Pairwise (· < ·) := by
  have hplace : disk.place "/srv" = .ok ["srv"] := by decide +kernel
  have hfolder : disk.isFolderAt ["srv"] = true := by decide
  obtain ⟨ways, hfound, -, -, -, hsorted, -⟩ :=
    findFiles_spec isTree_disk hplace hfolder ["*.php", "["] (GlobPattern.parseAll ["*/.*"])
  refine ⟨isTree_disk, hplace, hfolder, ?_, by decide, ways, hfound, hsorted⟩
  unfold findFiles waysIn
  rw [files_eq_insertionSort]
  decide +kernel

end Disk

end LocalePages
