import LocalePages.Members
import Mathlib.Data.List.Basic
import Mathlib.Data.List.Induction

/-!
# Lists in order of first occurrence

A list that grows at its end by what is not in it yet holds each of its items once, in order of first occurrence
(`eraseDups_concat`). So are the keys of members that are put one after the other (`Members.map_fst_ofPairs`), and where the keys are
different to begin with, the members are the pairs themselves (`Members.ofPairs_of_nodup`).
-/

namespace LocalePages

/-- One more item is a first occurrence exactly when it was not there before. -/
theorem eraseDups_concat {α : Type} [BEq α] [LawfulBEq α] [DecidableEq α] (l : List α) (x : α) :
    (l ++ [x]).eraseDups = if x ∈ l then l.eraseDups else l.eraseDups ++ [x] := by
  rw [List.eraseDups_append]
  by_cases hx : x ∈ l
  · simp [hx, List.removeAll]
  · simp [hx, List.removeAll, List.eraseDups_cons]

/-- First occurrences are different. -/
theorem nodup_eraseDups {α : Type} [BEq α] [LawfulBEq α] [DecidableEq α] (l : List α) : l.eraseDups.Nodup := by
  induction l using List.reverseRecOn with
  | nil => exact List.nodup_nil
  | append_singleton l x ih =>
    rw [eraseDups_concat]
    split
    · exact ih
    · rename_i hx
      rw [List.nodup_append]
      refine ⟨ih, List.pairwise_singleton _ x, ?_⟩
      rintro y hy _ hsingle rfl
      rw [List.mem_singleton.1 hsingle, List.mem_eraseDups] at hy
      exact hx hy

namespace Members

variable {κ α : Type} [DecidableEq κ]

/-- A value under a key that is not there yet goes to the end. -/
theorem put_of_notMem {key : κ} (value : α) {members : List (κ × α)} (h : key ∉ members.map Prod.fst) :
    put key value members = members ++ [(key, value)] := by
  induction members with
  | nil => rfl
  | cons m rest ih =>
    obtain ⟨hhead, hrest⟩ := not_or.1 (fun hin => h (List.mem_cons.2 hin))
    rw [put, if_neg (Ne.symm hhead), ih hrest, List.cons_append]

/-- A value under a key that is there leaves the keys. -/
theorem map_fst_put_of_mem {key : κ} (value : α) {members : List (κ × α)} (h : key ∈ members.map Prod.fst) :
    (put key value members).map Prod.fst = members.map Prod.fst := by
  induction members with
  | nil => cases h
  | cons m rest ih =>
    rw [put]
    split
    · rename_i hkey
      rw [List.map_cons, List.map_cons, hkey]
    · rename_i hkey
      have hrest := (List.mem_cons.1 h).resolve_left (Ne.symm hkey)
      rw [List.map_cons, List.map_cons, ih hrest]

/-- Members have their pairs put one after the other. -/
theorem ofPairs_concat (pairs : List (κ × α)) (p : κ × α) : ofPairs (pairs ++ [p]) = put p.1 p.2 (ofPairs pairs) :=
  List.foldl_concat _ _ _ _

/-- The keys of members are those of the pairs, in order of first occurrence. -/
theorem map_fst_ofPairs [BEq κ] [LawfulBEq κ] (pairs : List (κ × α)) :
    (ofPairs pairs).map Prod.fst = (pairs.map Prod.fst).eraseDups := by
  induction pairs using List.reverseRecOn with
  | nil => rfl
  | append_singleton pairs p ih =>
    have hmem : p.1 ∈ (ofPairs pairs).map Prod.fst ↔ p.1 ∈ pairs.map Prod.fst := by rw [ih, List.mem_eraseDups]
    rw [ofPairs_concat, List.map_append, List.map_singleton, eraseDups_concat, ← ih]
    split
    · rename_i hthere
      exact map_fst_put_of_mem p.2 (hmem.2 hthere)
    · rename_i hnew
      rw [put_of_notMem p.2 (mt hmem.1 hnew), List.map_append, List.map_singleton]

/-- Pairs with different keys are members as they are. -/
theorem ofPairs_of_nodup {pairs : List (κ × α)} (h : (pairs.map Prod.fst).Nodup) : ofPairs pairs = pairs := by
  induction pairs using List.reverseRecOn with
  | nil => rfl
  | append_singleton pairs p ih =>
    rw [List.map_append, List.map_singleton, List.nodup_append] at h
    obtain ⟨hpairs, -, hnew⟩ := h
    have hnotMem : p.1 ∉ pairs.map Prod.fst := fun hin => hnew p.1 hin p.1 (List.mem_singleton_self _) rfl
    rw [ofPairs_concat, ih hpairs, put_of_notMem p.2 hnotMem]

/-- Each key comes once among members. -/
theorem nodup_ofPairs (pairs : List (κ × α)) : ((ofPairs pairs).map Prod.fst).Nodup := by
  induction pairs using List.reverseRecOn with
  | nil => exact List.nodup_nil
  | append_singleton pairs p ih =>
    rw [ofPairs_concat]
    exact nodup_put p.1 p.2 ih

/-- A member is the last of the pairs with its key. -/
theorem getLast?_of_mem_ofPairs {pairs : List (κ × α)} {m : κ × α} (h : m ∈ ofPairs pairs) :
    (pairs.filter fun p => p.1 = m.1).getLast? = some m := by
  have hvalue := (get?_eq_some_iff (nodup_ofPairs pairs)).2 h
  rw [get?_ofPairs] at hvalue
  obtain ⟨last, hlast, hsame⟩ := Option.map_eq_some_iff.1 hvalue
  have hkey := (List.mem_filter.1 (List.mem_of_getLast? hlast)).2
  rw [hlast, Prod.ext (of_decide_eq_true hkey) hsame]

end Members

end LocalePages
