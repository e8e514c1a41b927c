/-!
# Members

Pairs of a key and a value, each key once. A key keeps the place where it first came; what is put under it later takes that place.
Such lists hold the members of an object and the entries of a disk.
-/

namespace LocalePages

namespace Members

variable {κ α : Type} [DecidableEq κ]

/-- Puts a value under a key: in the place of the value that is there, or at the end. -/
def put (key : κ) (value : α) : List (κ × α) → List (κ × α)
  | [] => [(key, value)]
  | (k, v) :: rest => if k = key then (key, value) :: rest else (k, v) :: put key value rest

/-- Pairs as members: of a key that comes more than once the last value counts. -/
def ofPairs (pairs : List (κ × α)) : List (κ × α) := pairs.foldl (fun members (key, value) => put key value members) []

/-- The value under a key. -/
def get? (key : κ) (members : List (κ × α)) : Option α := (members.find? fun (k, _) => k = key).map Prod.snd

/-- What is under a key beside a first member. -/
theorem get?_cons (key k : κ) (v : α) (rest : List (κ × α)) :
    get? key ((k, v) :: rest) = if k = key then some v else get? key rest := by
  by_cases h : k = key <;> simp [get?, h]

/-- What is put under a key is there, and no other key is disturbed. -/
theorem get?_put (key k : κ) (value : α) (members : List (κ × α)) :
    get? k (put key value members) = if key = k then some value else get? k members := by
  induction members with
  | nil => rw [put, get?_cons]
  | cons m rest ih =>
    obtain ⟨l, v⟩ := m
    rw [put]
    by_cases hl : l = key
    · subst hl
      rw [if_pos rfl, get?_cons, get?_cons]
      by_cases hk : l = k <;> simp [hk]
    · rw [if_neg hl, get?_cons, get?_cons, ih]
      by_cases hk : l = k
      · subst hk
        simp [Ne.symm hl]
      · simp [hk]

/-- Putting what is there already changes nothing. -/
theorem put_of_get? {key : κ} {value : α} {members : List (κ × α)} (h : get? key members = some value) :
    put key value members = members := by
  induction members with
  | nil => cases h
  | cons m rest ih =>
    obtain ⟨l, v⟩ := m
    rw [get?_cons] at h
    rw [put]
    split at h
    · rename_i hl
      cases h
      rw [if_pos hl, hl]
    · rename_i hl
      rw [if_neg hl, ih h]

/-- Putting a value adds no key but its own. -/
theorem mem_keys_put {key k : κ} {value : α} {members : List (κ × α)} (h : k ∈ (put key value members).map Prod.fst) :
    k = key ∨ k ∈ members.map Prod.fst := by
  induction members with
  | nil => exact Or.inl (List.mem_singleton.1 h)
  | cons m rest ih =>
    obtain ⟨l, v⟩ := m
    rw [put] at h
    split at h
    · exact (List.mem_cons.1 h).imp_right (List.mem_cons_of_mem _)
    · rcases List.mem_cons.1 h with rfl | h
      · exact Or.inr List.mem_cons_self
      · exact (ih h).imp_right (List.mem_cons_of_mem _)

/-- Each key comes once after a value was put where each came once before. -/
theorem nodup_put (key : κ) (value : α) {members : List (κ × α)} (h : (members.map Prod.fst).Nodup) :
    ((put key value members).map Prod.fst).Nodup := by
  induction members with
  | nil => simp [put]
  | cons m rest ih =>
    obtain ⟨l, v⟩ := m
    obtain ⟨hnew, hrest⟩ := List.nodup_cons.1 h
    rw [put]
    split
    · rename_i hkey
      exact List.nodup_cons.2 ⟨hkey ▸ hnew, hrest⟩
    · rename_i hkey
      exact List.nodup_cons.2 ⟨fun hin => (mem_keys_put hin).elim hkey hnew, ih hrest⟩

/-- Where each key comes once, a value is under a key exactly when they are a member. -/
theorem get?_eq_some_iff {key : κ} {value : α} {members : List (κ × α)} (h : (members.map Prod.fst).Nodup) :
    get? key members = some value ↔ (key, value) ∈ members := by
  induction members with
  | nil => exact ⟨nofun, nofun⟩
  | cons m rest ih =>
    obtain ⟨l, v⟩ := m
    obtain ⟨hnew, hrest⟩ := List.nodup_cons.1 h
    rw [get?_cons, List.mem_cons]
    split
    · rename_i hkey
      subst hkey
      constructor
      · rintro ⟨⟩
        exact Or.inl rfl
      · rintro (hhead | htail)
        · cases hhead
          rfl
        · exact absurd (List.mem_map_of_mem htail) hnew
    · rename_i hkey
      rw [ih hrest]
      refine ⟨Or.inr, ?_⟩
      rintro (hhead | htail)
      · cases hhead
        exact absurd rfl hkey
      · exact htail

/-- Of the values that pairs have for a key the last one counts. -/
theorem get?_ofPairs (key : κ) (pairs : List (κ × α)) :
    get? key (ofPairs pairs) = ((pairs.filter fun p => p.1 = key).getLast?).map Prod.snd := by
  have hfold : ∀ members, get? key (pairs.foldl (fun members (key, value) => put key value members) members) =
      (((pairs.filter fun p => p.1 = key).getLast?).map Prod.snd).or (get? key members) := by
    induction pairs with
    | nil => intro members; rfl
    | cons p rest ih =>
      obtain ⟨k, v⟩ := p
      intro members
      rw [List.foldl_cons, ih, get?_put]
      by_cases hk : k = key
      · cases hlast : (rest.filter fun p => p.1 = key).getLast? <;> simp [hk, hlast, List.getLast?_cons]
      · simp [hk]
  rw [ofPairs, hfold []]
  exact Option.or_none

end Members

end LocalePages
