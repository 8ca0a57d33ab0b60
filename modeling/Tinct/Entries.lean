/-!
# Ordered entries

Keys with their values in the order in which the keys were first written: `Entries.get?` looks a
key up, and `Entries.put` writes one.

* `Entries.get?_put`: what keys give after a write;
* `Entries.map_fst_put`: a write moves no key, and a new one comes last;
* `Entries.nodup_put`: no key comes twice.
-/

namespace Tinct

/-- Values under names, in the order in which the names came. -/
abbrev Entries (α : Type) := List (String × α)

namespace Entries

def get? (es : Entries α) (key : String) : Option α := List.lookup key es

/-- Writes `value` under `key`; a key that is there keeps its place. -/
def put (key : String) (value : α) : Entries α → Entries α
  | [] => [(key, value)]
  | (k, v) :: es => if k = key then (k, value) :: es else (k, v) :: put key value es

/-- The entries that writing a list of pairs in order leaves. -/
def ofPairs (pairs : List (String × α)) : Entries α :=
  pairs.foldl (fun es p => es.put p.1 p.2) []

@[simp] theorem get?_nil (key : String) : get? ([] : Entries α) key = none := rfl

theorem get?_cons (key k : String) (v : α) (es : Entries α) :
    get? ((k, v) :: es) key = if key = k then some v else get? es key := by
  by_cases h : key = k
  · simp [get?, h]
  · simp [get?, List.lookup_cons, beq_false_of_ne h, h]

theorem get?_eq_none_iff {es : Entries α} {key : String} :
    es.get? key = none ↔ key ∉ es.map (·.1) := by
  induction es with
  | nil => simp
  | cons e es ih =>
    rw [get?_cons, List.map_cons, List.mem_cons, not_or, ← ih]
    split <;> simp_all

/-- Writing a key changes what that key gives and nothing else. -/
theorem get?_put (es : Entries α) (key other : String) (value : α) :
    (es.put key value).get? other = if other = key then some value else es.get? other := by
  induction es with
  | nil => rw [put, get?_cons]
  | cons e es ih =>
    obtain ⟨k, v⟩ := e
    by_cases hk : k = key
    · simp only [put, if_pos hk, get?_cons]
      split <;> simp_all
    · simp only [put, if_neg hk, get?_cons, ih]
      split <;> simp_all

/-- Writing a key moves no other: the keys stay, and a new one comes last. -/
theorem map_fst_put (es : Entries α) (key : String) (value : α) :
    (es.put key value).map (·.1) =
      if key ∈ es.map (·.1) then es.map (·.1) else es.map (·.1) ++ [key] := by
  induction es with
  | nil => rfl
  | cons e es ih =>
    obtain ⟨k, v⟩ := e
    by_cases hk : k = key
    · simp [put, hk]
    · simp only [put, if_neg hk, List.map_cons, ih, List.mem_cons, Ne.symm hk, false_or]
      split <;> rfl

/-- A key that is written comes once. -/
theorem nodup_put {es : Entries α} (h : (es.map (·.1)).Nodup) (key : String) (value : α) :
    ((es.put key value).map (·.1)).Nodup := by
  rw [map_fst_put]
  split
  · exact h
  · rename_i hnew
    refine List.nodup_append.mpr ⟨h, by simp, fun k hk k' hk' => ?_⟩
    rw [List.mem_singleton.mp hk']
    exact fun heq => hnew (heq ▸ hk)

end Entries
end Tinct
