import ScopedLisp.Proofs.Depth

/-!
# Rows

Operands are evaluated one after the other, and so are the calls that `map` makes: each begins with
the store that the one before it has left. `InTurn` says that all of them have gone well. A row of
runs fails as the first of them does that fails, and the runs behind that one are never started.
-/

namespace ScopedLisp

open Eval

/-- Something is done with each item in turn, and gives these results. -/
inductive InTurn (run : Value → Store → Value → Store → Prop) :
    List Value → Store → List Value → Store → Prop
  | nil {s : Store} : InTurn run [] s [] s
  | cons {item v : Value} {items results : List Value} {s s₁ s' : Store} (h : run item s v s₁)
      (hrest : InTurn run items s₁ results s') : InTurn run (item :: items) s (v :: results) s'

theorem InTurn.of_mapM {run : Value → Store → Value → Store → Prop} {k : Value → Eval Value}
    (hk : ∀ {item s v s'}, k item s = ended (.ok v) s' → run item s v s')
    {items results : List Value} (h : items.mapM k s = ended (.ok results) s') :
    InTurn run items s results s' := by
  induction items generalizing s results with
  | nil =>
    obtain ⟨hresults, rfl⟩ := pure_eq_ended_iff.mp h
    cases hresults
    exact .nil
  | cons item items ih =>
    rw [List.mapM_cons] at h
    obtain ⟨v, s₁, hitem, hrest⟩ := bind_eq_ended_ok h
    obtain ⟨vs, s₂, hitems, hlast⟩ := bind_eq_ended_ok hrest
    obtain ⟨hresults, rfl⟩ := pure_eq_ended_iff.mp hlast
    cases hresults
    exact .cons (hk hitem) (ih hitems)

theorem InTurn.unique {run : Value → Store → Value → Store → Prop} {items vs vs' : List Value}
    {s s₁ s₂ : Store} (h : InTurn run items s vs s₁) (h' : InTurn run items s vs' s₂)
    (hrun : ∀ {item s v v' s₁ s₂}, run item s v s₁ → run item s v' s₂ → v = v' ∧ s₁ = s₂) :
    vs = vs' ∧ s₁ = s₂ := by
  induction h generalizing vs' with
  | nil => cases h'; exact ⟨rfl, rfl⟩
  | cons hfirst _ ih =>
    cases h' with
    | cons hfirst' hrest' =>
      obtain ⟨rfl, rfl⟩ := hrun hfirst hfirst'
      obtain ⟨rfl, rfl⟩ := ih hrest'
      exact ⟨rfl, rfl⟩

/-! ## Runs in a row -/

section

variable {k : Nat → Value → Eval Value} {items values : List Value} {s s' : Store}
  (hk : ∀ item, Stable fun depth => k depth item)
include hk

theorem stable_mapM (items : List Value) : Stable fun depth => items.mapM (k depth) := by
  induction items with
  | nil => exact stable_const (pure [])
  | cons item items ih =>
    simp only [List.mapM_cons]
    refine (hk item).bind fun v => ih.bind fun vs => ?_
    exact stable_const (pure (v :: vs))

/-- What is done with each item in turn goes well if it does with every one of them. -/
theorem ends_mapM_ok_iff :
    Ends (fun depth => items.mapM (k depth)) s (.ok values) s' ↔
      InTurn (fun item s v s' => Ends (fun depth => k depth item) s (.ok v) s') items s values
        s' := by
  constructor
  · intro ⟨depth, h⟩
    exact .of_mapM (fun hitem => ⟨depth, hitem⟩) h
  · intro h
    induction h with
    | nil => exact ends_pure_iff.mpr ⟨rfl, rfl⟩
    | @cons item v items values s s₁ s' hitem _ ih =>
      simp only [List.mapM_cons]
      rw [ends_bind_of_ok (hk item) _ hitem]
      · exact ends_bind_pure ih
      · intro w
        exact (stable_mapM hk items).bind_pure (w :: ·)

/-- It fails as it does with the first item that it fails with, and nothing is done with the items
behind that one. -/
theorem ends_mapM_error_iff {e : EvalError} :
    Ends (fun depth => items.mapM (k depth)) s (.error e) s' ↔
      ∃ done item rest values s₁, items = done ++ item :: rest ∧
        InTurn (fun item s v s' => Ends (fun depth => k depth item) s (.ok v) s') done s values
          s₁ ∧
        Ends (fun depth => k depth item) s₁ (.error e) s' := by
  induction items generalizing s with
  | nil =>
    constructor
    · rintro ⟨_, h⟩
      cases h
    · rintro ⟨done, item, rest, -, -, h, -⟩
      cases done <;> cases h
  | cons first items ih =>
    simp only [List.mapM_cons]
    rw [ends_bind_iff (hk first) fun v => (stable_mapM hk items).bind_pure (v :: ·)]
    constructor
    · rintro (⟨_, he, hfirst⟩ | ⟨v, s₁, hfirst, hrest⟩)
      · cases he
        exact ⟨[], first, items, [], s, rfl, .nil, hfirst⟩
      · rw [ends_bind_iff (stable_mapM hk items) fun vs => stable_const (pure (v :: vs))] at hrest
        rcases hrest with ⟨_, he, hrest⟩ | ⟨vs, s₂, -, _, hlast⟩
        · cases he
          obtain ⟨done, item, rest, values, s₂, rfl, hdone, hitem⟩ := ih.mp hrest
          exact ⟨first :: done, item, rest, v :: values, s₂, rfl, .cons hfirst hdone, hitem⟩
        · cases (pure_eq_ended_iff.mp hlast).1
    · rintro ⟨done, item, rest, values, s₁, hitems, hdone, hitem⟩
      cases hdone with
      | nil =>
        cases hitems
        exact .inl ⟨e, rfl, hitem⟩
      | @cons _ v _ values _ s₂ _ hfirst hdone =>
        cases hitems
        have hrest := ih.mpr ⟨_, item, rest, values, s₁, rfl, hdone, hitem⟩
        exact .inr ⟨v, s₂, hfirst, ends_bind_pure hrest⟩

end

/-! ## Lists of results -/

/-- A run for each item, from which a value is wanted, and a list of these values. -/
abbrev listed (nothing : Value → EvalError) (m : Nat → Value → Eval (Option Value))
    (items : List Value) (depth : Nat) : Eval (Option Value) := do
  let results ← items.mapM fun item => demanded (nothing item) (m depth item)
  pure (some (.list results))

section

variable {m : Nat → Value → Eval (Option Value)} {nothing : Value → EvalError}
  {items : List Value} {s s' : Store} (hm : ∀ item, Stable fun depth => m depth item)
include hm

theorem ends_listed_ok_iff {o : Option Value} :
    Ends (listed nothing m items) s (.ok o) s' ↔
      ∃ results, InTurn (fun item s v s' => Ends (fun depth => m depth item) s (.ok (some v)) s')
        items s results s' ∧ o = some (.list results) := by
  have hk (item : Value) := stable_demanded (hm item) (nothing item)
  have hlist (vs : List Value) := stable_const (pure (some (Value.list vs)))
  refine (ends_bind_iff (stable_mapM hk items) hlist).trans ?_
  simp only [ends_mapM_ok_iff hk, ends_demanded_ok_iff, ends_pure_iff]
  constructor
  · rintro (⟨_, he, -⟩ | ⟨results, s₁, hresults, ho, rfl⟩)
    · cases he
    · exact ⟨results, hresults, Except.ok.inj ho⟩
  · rintro ⟨results, hresults, rfl⟩
    exact .inr ⟨results, s', hresults, rfl, rfl⟩

theorem ends_listed_error_iff {e : EvalError} :
    Ends (listed nothing m items) s (.error e) s' ↔
      ∃ done item rest values s₁, items = done ++ item :: rest ∧
        InTurn (fun item s v s' => Ends (fun depth => m depth item) s (.ok (some v)) s') done s
          values s₁ ∧
        (Ends (fun depth => m depth item) s₁ (.error e) s' ∨
          Ends (fun depth => m depth item) s₁ (.ok none) s' ∧ e = nothing item) := by
  have hk (item : Value) := stable_demanded (hm item) (nothing item)
  have hlist (vs : List Value) := stable_const (pure (some (Value.list vs)))
  refine (ends_bind_iff (stable_mapM hk items) hlist).trans ?_
  simp only [ends_mapM_error_iff hk, ends_demanded_ok_iff, ends_demanded_error_iff, ends_pure_iff]
  constructor
  · rintro (⟨_, he, hfails⟩ | ⟨results, s₁, -, he, -⟩)
    · cases he
      exact hfails
    · cases he
  · intro hfails
    exact .inl ⟨e, rfl, hfails⟩

end

end ScopedLisp
