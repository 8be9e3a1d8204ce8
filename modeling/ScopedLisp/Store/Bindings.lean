import ScopedLisp.Value.Basic

/-!
# Bindings

The names that one frame binds, each once. `get?` is the view: what `insert` does is said by
`get?_insert`, and a name once bound stays bound.
-/

namespace ScopedLisp

/-- Names with their values, in the order in which the names were first bound. -/
abbrev Bindings := List (String × Value)

namespace Bindings

/-- The value bound to `name`. -/
def get? (name : String) : Bindings → Option Value
  | [] => none
  | (n, v) :: rest => if n = name then some v else get? name rest

/-- Binds `name` to `value` in place of what it was bound to. -/
def insert (name : String) (value : Value) : Bindings → Bindings
  | [] => [(name, value)]
  | (n, v) :: rest => if n = name then (name, value) :: rest else (n, v) :: insert name value rest

/-- Binds names to values in order, so that of equal names the last one counts. Names or values
left over on either side are dropped. -/
def ofPairs (names : List String) (values : List Value) : Bindings :=
  (names.zip values).foldl (fun b p => b.insert p.1 p.2) []

@[simp] theorem get?_nil (name : String) : get? name [] = none := rfl

theorem get?_insert (b : Bindings) (name other : String) (value : Value) :
    (b.insert name value).get? other = if name = other then some value else b.get? other := by
  induction b with
  | nil => simp [insert, get?]
  | cons entry rest ih =>
    obtain ⟨n, v⟩ := entry
    by_cases hn : n = name
    · subst hn
      by_cases ho : n = other <;> simp [insert, get?, ho]
    · by_cases ho : n = other
      · subst ho
        simp [insert, get?, hn, Ne.symm hn]
      · simp [insert, get?, hn, ho, ih]

@[simp] theorem get?_insert_self (b : Bindings) (name : String) (value : Value) :
    (b.insert name value).get? name = some value := by
  simp [get?_insert]

theorem get?_foldl_insert (pairs : List (String × Value)) (b : Bindings) (name : String) :
    (pairs.foldl (fun b p => b.insert p.1 p.2) b).get? name =
      ((pairs.reverse.find? fun p => p.1 = name).map Prod.snd).or (b.get? name) := by
  induction pairs generalizing b with
  | nil => rfl
  | cons p pairs ih =>
    rw [List.foldl_cons, ih, List.reverse_cons, List.find?_append, get?_insert]
    by_cases h : p.1 = name
    · cases pairs.reverse.find? fun q => q.1 = name <;> simp [h]
    · cases pairs.reverse.find? fun q => q.1 = name <;> simp [h]

/-- A name has the last value that is paired with it. -/
theorem get?_ofPairs (names : List String) (values : List Value) (name : String) :
    (ofPairs names values).get? name =
      ((names.zip values).reverse.find? fun p => p.1 = name).map Prod.snd := by
  rw [ofPairs, get?_foldl_insert, get?_nil, Option.or_none]

/-- The last value that is paired with a name is the one that it has. -/
theorem get?_ofPairs_of_zip {names : List String} {values : List Value} {name : String} {v : Value}
    {before after : List (String × Value)} (hzip : names.zip values = before ++ (name, v) :: after)
    (hlast : ∀ p ∈ after, p.1 ≠ name) : (ofPairs names values).get? name = some v := by
  have hnone : (after.reverse.find? fun p => p.1 = name) = none := by
    simpa using fun a b hp => hlast (a, b) hp
  rw [get?_ofPairs, hzip, List.reverse_append, List.reverse_cons, List.append_assoc,
    List.find?_append, hnone, Option.none_or, List.singleton_append,
    List.find?_cons_of_pos (by simp), Option.map_some]

/-- A name that no value is paired with is not bound. -/
theorem get?_ofPairs_eq_none {names : List String} {values : List Value} {name : String}
    (h : ∀ p ∈ names.zip values, p.1 ≠ name) : (ofPairs names values).get? name = none := by
  rw [get?_ofPairs, Option.map_eq_none_iff, List.find?_eq_none]
  simpa using fun a b hp => h (a, b) hp

theorem mem_zip_of_get?_ofPairs {names : List String} {values : List Value} {name : String}
    {v : Value} (h : (ofPairs names values).get? name = some v) : (name, v) ∈ names.zip values := by
  rw [get?_ofPairs, Option.map_eq_some_iff] at h
  obtain ⟨p, hp, rfl⟩ := h
  have hname : p.1 = name := by simpa using List.find?_some hp
  rw [← hname]
  exact List.mem_reverse.mp (List.mem_of_find?_eq_some hp)

/-- With as many values as names every name is bound. -/
theorem isSome_get?_ofPairs {names : List String} {values : List Value}
    (hlength : values.length = names.length) {name : String} (h : name ∈ names) :
    ((ofPairs names values).get? name).isSome := by
  have hzip : name ∈ (names.zip values).map Prod.fst := by
    rwa [List.map_fst_zip (Nat.le_of_eq hlength.symm)]
  obtain ⟨p, hp, hname⟩ := List.mem_map.mp hzip
  rw [get?_ofPairs, Option.isSome_map, List.find?_isSome]
  exact ⟨p, List.mem_reverse.mpr hp, by simpa using hname⟩

end Bindings

end ScopedLisp
