import LocalePages.Proofs.CleanedPaths
import LocalePages.Proofs.Logs

/-!
# Paths in a log

A log writes a dot for the text of its directory, wherever that text stands. What it makes of a path is the way from the directory,
or the path itself when it lies elsewhere, exactly when the text of the directory stands nowhere in the path but at its start, with
a slash or nothing after it (`Log.entries_add_rooted_iff`).
-/

namespace LocalePages

namespace Text

/-! ## Replacing -/

variable {old new t : Text}

/-- What belongs to an occurrence that was replaced is skipped. -/
theorem replaceAfter_append (old new skipped t : Text) : replaceAfter old new skipped.length (skipped ++ t) = replace old new t := by
  induction skipped with
  | nil => rfl
  | cons c skipped ih => exact ih

/-- An occurrence at the start is replaced. -/
theorem replace_append (new t : Text) (h : old ≠ []) : replace old new (old ++ t) = new ++ replace old new t := by
  obtain ⟨c, rest, rfl⟩ := List.exists_cons_of_ne_nil h
  have hprefix : (c :: rest).isPrefixOf (c :: (rest ++ t)) = true := List.isPrefixOf_iff_prefix.2 (List.prefix_append (c :: rest) t)
  rw [List.cons_append, replace, replaceAfter, if_pos hprefix]
  exact congrArg (new ++ ·) (replaceAfter_append (c :: rest) new rest t)

/-- A character that no occurrence starts with stays. -/
theorem replace_cons {c : Char} (h : ¬old <+: c :: t) : replace old new (c :: t) = c :: replace old new t := by
  rw [replace, replaceAfter, if_neg (mt List.isPrefixOf_iff_prefix.1 h)]
  rfl

/-- Where nothing is to be replaced, nothing is. -/
theorem replace_of_not_infix (h : ¬old <:+: t) : replace old new t = t := by
  induction t with
  | nil => rfl
  | cons c t ih =>
    rw [List.infix_cons_iff, not_or] at h
    rw [replace_cons h.1, ih h.2]

/-- Nothing is longer after occurrences were replaced by a single character. -/
theorem length_replaceAfter_le (h : old ≠ []) (c : Char) (skip : Nat) (t : Text) :
    (replaceAfter old [c] skip t).length ≤ t.length - skip := by
  have hlength := List.length_pos_of_ne_nil h
  induction t generalizing skip with
  | nil => cases skip <;> exact Nat.zero_le _
  | cons d t ih =>
    cases skip with
    | zero =>
      have hthis := ih (old.length - 1)
      have hnext := ih 0
      rw [replaceAfter]
      split
      · rw [List.length_append, List.length_singleton, List.length_cons]
        omega
      · rw [List.length_cons, List.length_cons]
        omega
    | succ skip =>
      have hthis := ih skip
      rw [replaceAfter, List.length_cons]
      omega

/-- Replacing by a character goes on after an occurrence at the start, or else after a character that stays. -/
theorem replace_cases (h : old ≠ []) (c : Char) (t : Text) :
    (∃ rest, t = old ++ rest ∧ replace old [c] t = c :: replace old [c] rest) ∨ t = [] ∨
      ∃ d rest, t = d :: rest ∧ ¬old <+: t ∧ replace old [c] t = d :: replace old [c] rest := by
  by_cases hstart : old <+: t
  · obtain ⟨rest, rfl⟩ := hstart
    exact Or.inl ⟨rest, rfl, replace_append [c] rest h⟩
  · cases t with
    | nil => exact Or.inr (Or.inl rfl)
    | cons d rest => exact Or.inr (Or.inr ⟨d, rest, rfl, hstart, replace_cons hstart⟩)

/-- A text that stays the same when occurrences are replaced by a character has none, unless they are that character. -/
theorem not_infix_of_replace_eq {c : Char} (hold : old ≠ []) (hother : old ≠ [c]) (h : replace old [c] t = t) : ¬old <:+: t := by
  induction t with
  | nil => rwa [List.infix_nil]
  | cons d t ih =>
    rcases replace_cases hold c (d :: t) with ⟨rest, hrest, hreplaced⟩ | hnil | ⟨e, rest, hrest, hstart, hreplaced⟩
    · -- the occurrence is the character, since what was replaced is no longer than before
      obtain ⟨e, old, rfl⟩ := List.exists_cons_of_ne_nil hold
      rw [hreplaced, hrest] at h
      have hlength := congrArg List.length h
      have hshorter := length_replaceAfter_le hold c 0 rest
      rw [List.length_append, List.length_cons, List.length_cons, replace] at hlength
      have hnil : old = [] := List.eq_nil_of_length_eq_zero (by omega)
      subst hnil
      exact absurd (congrArg (fun e => [e]) (List.cons.inj h).1.symm) hother
    · cases hnil
    · cases hrest
      rw [hreplaced] at h
      rw [List.infix_cons_iff, not_or]
      exact ⟨hstart, ih (List.cons.inj h).2⟩

/-- A character that is replaced by itself stays. -/
theorem replace_singleton_self (c : Char) (t : Text) : replace [c] [c] t = t := by
  induction t with
  | nil => rfl
  | cons d t ih =>
    by_cases hd : [c] <+: d :: t
    · obtain ⟨rfl, -⟩ := List.cons_prefix_cons.1 hd
      exact (replace_append [c] t (List.cons_ne_nil c [])).trans (congrArg (c :: ·) ih)
    · rw [replace_cons hd, ih]

end Text

namespace Path

/-- How a path should stand in a log that belongs to a directory: from the directory on when it lies there, and else as it is. -/
def shownIn (directory path : Text) : Text :=
  match relativeTo? directory path with
  | some [] => "."
  | some way => "./" ++ way
  | none => path

/-- A path that lies in the directory is shown after a dot. -/
theorem exists_shownIn {directory path way : Text} (h : relativeTo? directory path = some way) :
    ∃ rest, shownIn directory path = '.' :: rest := by
  rw [shownIn, h]
  cases way with
  | nil => exact ⟨[], rfl⟩
  | cons c way => exact ⟨'/' :: c :: way, rfl⟩

/-- A path from the root has no way from a directory that is not empty and has none. -/
theorem relativeTo?_eq_none {directory path : Text} (hdirectory : isAbsolute directory = false) (hne : directory ≠ [])
    (hpath : isAbsolute path = true) : relativeTo? directory path = none := by
  cases hparts : components directory with
  | nil =>
    -- a path without components that does not start at the root is empty
    unfold components segments at hparts
    split at hparts
    · exact absurd ‹_› (List.splitOn_ne_nil _ _)
    · rename_i first rest hsegments
      rw [if_neg (by rw [hdirectory]; exact Bool.false_ne_true)] at hparts
      split at hparts
      · rename_i hempty
        obtain ⟨c, other, rfl⟩ := List.exists_cons_of_ne_nil hne
        rw [List.isEmpty_iff.1 hempty, List.splitOn_eq_splitOnP, List.splitOnP_cons_eq_if_modifyHead] at hsegments
        split at hsegments
        · rename_i hslash
          rw [beq_iff_eq.1 hslash] at hdirectory
          cases hdirectory
        · obtain ⟨piece, pieces, hpieces⟩ := List.exists_cons_of_ne_nil (List.splitOnP_ne_nil (· == '/') other)
          rw [hpieces] at hsegments
          cases hsegments
      · split at hparts <;> cases hparts
  | cons first parts =>
    have hfirst : first ≠ .root := by
      rintro rfl
      rw [(isAbsolute_iff directory).2 (by rw [hparts]; rfl)] at hdirectory
      cases hdirectory
    rw [relativeTo?, hparts, components_of_isAbsolute hpath]
    simp [hfirst]

/-- The pieces of a cleaned path from the root all say something, unless it is the root. -/
theorem segments_of_cleaned {path : Text} (habsolute : isAbsolute path = true) (hcleaned : cleaned path = path) (hroot : path ≠ "/") :
    segments path = [] :: saying path := by
  have hne : cleaned path ≠ [] := by
    rw [hcleaned]
    rintro rfl
    cases habsolute
  rw [← hcleaned, segments_cleaned hne, if_pos habsolute, hcleaned, if_neg]
  intro hnone
  rw [cleaned_eq, if_pos habsolute, hnone] at hcleaned
  exact hroot hcleaned.symm

/-- What comes after a directory and a slash is not the root. -/
theorem append_slash_ne_root {directory : Text} (h : directory ≠ []) (rest : Text) : directory ++ '/' :: rest ≠ "/" := by
  obtain ⟨c, directory, rfl⟩ := List.exists_cons_of_ne_nil h
  intro hslash
  cases directory <;> cases (List.cons.inj hslash).2

/-- What comes after a directory and a slash in a cleaned path is the way from the directory. -/
theorem relativeTo?_append {directory rest : Text} (habsolute : isAbsolute directory = true)
    (hcleaned : cleaned (directory ++ '/' :: rest) = directory ++ '/' :: rest) :
    relativeTo? directory (directory ++ '/' :: rest) = some rest := by
  obtain ⟨name, rfl⟩ := exists_of_isAbsolute habsolute
  have hpath : isAbsolute ('/' :: name ++ '/' :: rest) = true := rfl
  have hpieces := segments_of_cleaned hpath hcleaned (append_slash_ne_root (List.cons_ne_nil _ _) rest)
  rw [segments_append_slash, segments_cons_slash, List.cons_append, List.cons.injEq] at hpieces
  have hidle : ∀ piece ∈ segments name ++ segments rest, isIdle piece = false := fun piece hin =>
    (isPiece_of_mem_saying (hpieces.2 ▸ hin)).2
  have hdirectory : saying ('/' :: name) = segments name := by
    rw [saying, segments_cons_slash, List.filter_cons_of_neg (by decide)]
    exact List.filter_eq_self.2 fun piece hin => congrArg not (hidle piece (List.mem_append_left _ hin))
  refine (relativeTo?_eq_some_iff habsolute hpath hcleaned).2 ⟨segments rest, ?_, (List.intercalate_splitOn '/').symm⟩
  rw [← hpieces.2, hdirectory]

/-- What comes after the text of a directory in a cleaned path is shown after a dot, when it starts with a slash or is nothing. -/
theorem shownIn_append {directory rest : Text} (hne : directory ≠ []) (habsolute : isAbsolute (directory ++ rest) = true)
    (hcleaned : cleaned (directory ++ rest) = directory ++ rest) (hhead : ∀ c ∈ rest.head?, c = '/') :
    shownIn directory (directory ++ rest) = "." ++ rest := by
  have hdirectory : isAbsolute directory = true := by
    obtain ⟨c, directory, rfl⟩ := List.exists_cons_of_ne_nil hne
    obtain ⟨name, hname⟩ := exists_of_isAbsolute habsolute
    cases hname
    rfl
  cases rest with
  | nil =>
    rw [List.append_nil] at *
    have hself := (relativeTo?_eq_some_iff hdirectory hdirectory hcleaned).2 ⟨[], (List.append_nil _).symm, rfl⟩
    rw [shownIn, hself]
    rfl
  | cons c rest =>
    obtain rfl : c = '/' := hhead c rfl
    -- a cleaned path does not end with a slash
    have hrest : rest ≠ [] := by
      rintro rfl
      rcases getLast?_cleaned (directory ++ ['/']) with hroot | hend
      · exact append_slash_ne_root hne [] (hcleaned.symm.trans hroot)
      · rw [hcleaned] at hend
        exact hend List.getLast?_concat
    obtain ⟨d, rest, rfl⟩ := List.exists_cons_of_ne_nil hrest
    rw [shownIn, relativeTo?_append hdirectory hcleaned]
    rfl

end Path

namespace Log

/-- A log belongs to its directory as it is written, when that does not end with a slash. -/
theorem root_rooted {root : Text} (hne : root ≠ []) (hslash : root.getLast? ≠ some '/') : (rooted root).root = some root := by
  obtain ⟨before, c, rfl⟩ := (List.eq_nil_or_concat root).resolve_left hne
  rw [List.concat_eq_append] at *
  have hc : (c == '/') = false := by
    rw [beq_eq_false_iff_ne]
    rintro rfl
    exact hslash List.getLast?_concat
  have hkept : Text.dropEndWhile (· == '/') (before ++ [c]) = before ++ [c] := Text.dropEndWhile_append_cons before [] hc
  unfold rooted
  rw [hkept]
  exact if_neg (by simp)

/-- A path that a log shows as the way from its directory starts with the text of the directory, which does not come again. -/
theorem exists_rest_of_replace {root path way : Text} (hne : root ≠ []) (habsolute : Path.isAbsolute path = true)
    (hcleaned : Path.cleaned path = path) (hway : Path.relativeTo? root path = some way)
    (h : Text.replace root "." path = Path.shownIn root path) :
    ∃ rest, path = root ++ rest ∧ (∀ c ∈ rest.head?, c = '/') ∧ ¬root <:+: rest := by
  have hroot : Path.isAbsolute root = true := by
    by_contra hrelative
    rw [Path.relativeTo?_eq_none (Bool.eq_false_iff.2 hrelative) hne habsolute] at hway
    cases hway
  have hdot : root ≠ "." := by
    rintro rfl
    cases hroot
  -- what the log shows starts with a dot and the path with a slash, so that the text of the directory stands in between
  obtain ⟨shown, hshown⟩ := Path.exists_shownIn hway
  rw [hshown] at h
  rcases Text.replace_cases hne '.' path with ⟨rest, rfl, hreplaced⟩ | rfl | ⟨c, rest, rfl, -, hreplaced⟩
  · refine ⟨rest, rfl, ?_⟩
    have hrest : Text.replace root "." rest = shown := (List.cons.inj (hreplaced.symm.trans h)).2
    rw [Path.shownIn, hway] at hshown
    cases way with
    | nil =>
      cases hshown
      rcases Text.replace_cases hne '.' rest with ⟨more, -, hmore⟩ | rfl | ⟨c, more, -, -, hmore⟩
      · cases hrest.symm.trans hmore
      · exact ⟨nofun, by rwa [List.infix_nil]⟩
      · cases hrest.symm.trans hmore
    | cons c way =>
      cases hshown
      rcases Text.replace_cases hne '.' rest with ⟨more, -, hmore⟩ | rfl | ⟨d, more, rfl, -, hmore⟩
      · cases hrest.symm.trans hmore
      · cases hrest
      · obtain rfl : d = '/' := (List.cons.inj (hrest.symm.trans hmore)).1.symm
        refine ⟨fun e he => (Option.some.inj he).symm, ?_⟩
        rw [Path.relativeTo?_append hroot hcleaned] at hway
        cases hway
        exact Text.not_infix_of_replace_eq hne hdot hrest
  · cases habsolute
  · obtain ⟨name, hname⟩ := Path.exists_of_isAbsolute habsolute
    cases hname
    cases h.symm.trans hreplaced

/-- Of a cleaned path from the root, a log shows the way from its directory, or the path itself when it lies elsewhere, exactly when
the text of the directory stands nowhere in the path but at its start, with a slash or nothing after it. (A log that belongs to `.`
replaces a dot by a dot.) -/
theorem entries_add_rooted_iff {root path : Text} (hslash : root.getLast? ≠ some '/') (habsolute : Path.isAbsolute path = true)
    (hcleaned : Path.cleaned path = path) (severity : Severity) :
    ((rooted root).add severity path).entries = [⟨severity, Path.shownIn root path⟩] ↔
      root = "." ∨ (∃ rest, path = root ++ rest ∧ (∀ c ∈ rest.head?, c = '/') ∧ ¬root <:+: rest) ∨
        (Path.relativeTo? root path = none ∧ ¬root <:+: path) := by
  obtain ⟨name, hname⟩ := Path.exists_of_isAbsolute habsolute
  have hentries : ((rooted root).add severity path).entries = [⟨severity, (rooted root).shortened path⟩] := rfl
  rw [hentries, List.cons.injEq, LogEntry.mk.injEq]
  simp only [true_and, and_true]
  by_cases hne : root = []
  · -- without a directory the path stays, but the way from an empty one is shown after a dot
    subst hne
    have hway : Path.relativeTo? [] path = some (if path.isEmpty then [] else Path.ofSegments (Path.dropIdleEnd (Path.segments path))) :=
      rfl
    obtain ⟨rest, hshown⟩ := Path.exists_shownIn hway
    rw [hshown]
    refine iff_of_false ?_ ?_
    · rw [hname]
      exact nofun
    · rintro (hdot | ⟨rest, -, -, hno⟩ | ⟨-, hno⟩)
      · cases hdot
      · exact hno List.nil_infix
      · exact hno List.nil_infix
  · have hshortened : (rooted root).shortened path = Text.replace root "." path := by
      rw [shortened, root_rooted hne hslash]
    rw [hshortened]
    constructor
    · intro h
      cases hway : Path.relativeTo? root path with
      | none =>
        rw [Path.shownIn, hway] at h
        by_cases hdot : root = "."
        · exact Or.inl hdot
        · exact Or.inr (Or.inr ⟨rfl, Text.not_infix_of_replace_eq hne hdot h⟩)
      | some way => exact Or.inr (Or.inl (exists_rest_of_replace hne habsolute hcleaned hway h))
    · rintro (rfl | ⟨rest, rfl, hhead, hno⟩ | ⟨hnone, hno⟩)
      · rw [Path.shownIn, Path.relativeTo?_eq_none rfl hne habsolute]
        exact Text.replace_singleton_self '.' path
      · rw [Text.replace_append _ _ hne, Text.replace_of_not_infix hno]
        exact (Path.shownIn_append hne habsolute hcleaned hhead).symm
      · rw [Path.shownIn, hnone, Text.replace_of_not_infix hno]

/-- A path in a directory, logged by a log that belongs to it. -/
theorem entries_add_rooted_iff_template :
    Path.isAbsolute "/srv/app/shop/locale/messages.pot" = true ∧
      Path.cleaned "/srv/app/shop/locale/messages.pot" = ("/srv/app/shop/locale/messages.pot" : Text) ∧
      ((rooted "/srv/app").add .info "/srv/app/shop/locale/messages.pot").entries = [⟨.info, "./shop/locale/messages.pot"⟩] :=
  ⟨by decide +kernel, by decide +kernel, (entries_add_rooted_iff (by decide +kernel) (by decide +kernel) (by decide +kernel) .info).2
    (Or.inr (Or.inl ⟨"/shop/locale/messages.pot", rfl, by decide +kernel, by decide +kernel⟩))⟩

/-- Of a path beside a directory whose name goes on from that of the directory, the log makes a path of a file that is not there. -/
theorem entries_add_rooted_false :
    ¬∀ root path : Text, root.getLast? ≠ some '/' → Path.isAbsolute path = true → Path.cleaned path = path → ∀ severity,
      ((rooted root).add severity path).entries = [⟨severity, Path.shownIn root path⟩] := by
  intro h
  have hlogged : ((rooted "/srv/app").add .info "/srv/app-old/index.html").entries = [⟨.info, ".-old/index.html"⟩] := by decide +kernel
  have hshown : Path.shownIn "/srv/app" "/srv/app-old/index.html" = ("/srv/app-old/index.html" : Text) := by decide +kernel
  have hsame := h "/srv/app" "/srv/app-old/index.html" (by decide +kernel) (by decide +kernel) (by decide +kernel) .info
  rw [hlogged, hshown] at hsame
  exact absurd hsame (by decide +kernel)

end Log

end LocalePages
