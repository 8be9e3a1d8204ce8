import ScopedLisp.Proofs.Depth

/-!
# Binding comes last

`define` and `set!` evaluate their expression, bind its value and produce nothing. The binding is
the last thing they do, so a form that fails leaves the store that its expression has left: because
the expression failed, because it produced nothing, or, with `set!`, because there is nothing to
assign its value to.

Where an assignment goes is asked when the expression has been evaluated, so the frame it is made in
may be one in which the expression itself has bound the name.
-/

namespace ScopedLisp

open Eval

variable {f : FrameId} {name : String} {expr : Value} {s s' : Store} {e : EvalError}
  {o : Option Value}

/-! ## What is done at the end -/

section

variable {act : Value → Eval Unit}

/-- What `define` and `set!` do once they know the name, with the action at the end of each. -/
abbrev bindingRun (f : FrameId) (expr : Value) (act : Value → Eval Unit) (depth : Nat) :
    Eval (Option Value) := do
  let v ← required (eval depth) f expr
  act v
  pure none

theorem ends_binding_error_iff :
    Ends (bindingRun f expr act) s (.error e) s' ↔
      (Ends (fun depth => eval depth expr f) s (.error e) s' ∨
        Ends (fun depth => eval depth expr f) s (.ok none) s' ∧ e = .type (.noValue expr)) ∨
        ∃ v s₁, HasValue f expr s v s₁ ∧ act v s₁ = ended (.error e) s' := by
  rw [ends_bind_iff (required_stable f expr) fun v => stable_const (act v >>= fun _ => pure none)]
  constructor
  · rintro (⟨_, he, hends⟩ | ⟨v, s₁, hends, _, hrest⟩)
    · cases he
      exact .inl (ends_required_error_iff.mp hends)
    · rcases bind_eq_ended_iff.mp hrest with ⟨_, he, hact⟩ | ⟨u, s₂, -, hlast⟩
      · cases he
        exact .inr ⟨v, s₁, ends_required_ok_iff.mp hends, hact⟩
      · cases (pure_eq_ended_iff.mp hlast).1
  · rintro (hends | ⟨v, s₁, hends, hact⟩)
    · exact .inl ⟨e, rfl, ends_required_error_iff.mpr hends⟩
    · exact .inr ⟨v, s₁, ends_required_ok_iff.mpr hends, 0,
        bind_eq_ended_iff.mpr (.inl ⟨e, rfl, hact⟩)⟩

theorem ends_binding_ok_iff :
    Ends (bindingRun f expr act) s (.ok o) s' ↔
      o = none ∧ ∃ v s₁, HasValue f expr s v s₁ ∧ act v s₁ = ended (.ok ()) s' := by
  rw [ends_bind_iff (required_stable f expr) fun v => stable_const (act v >>= fun _ => pure none)]
  constructor
  · rintro (⟨_, h, -⟩ | ⟨v, s₁, hends, _, hrest⟩)
    · cases h
    · obtain ⟨u, s₂, hact, hlast⟩ := bind_eq_ended_ok hrest
      obtain ⟨ho, rfl⟩ := pure_eq_ended_iff.mp hlast
      exact ⟨Except.ok.inj ho, v, s₁, ends_required_ok_iff.mp hends, hact⟩
  · rintro ⟨rfl, v, s₁, hends, hact⟩
    exact .inr ⟨v, s₁, ends_required_ok_iff.mpr hends, 0,
      bind_eq_ended_iff.mpr (.inr ⟨(), s', hact, rfl⟩)⟩

end

/-! ## Definitions -/

theorem define_eq_ended_iff {v : Value} {answer : Except EvalError Unit} :
    Eval.define f name v s = ended answer s' ↔ answer = .ok () ∧ s' = s.define f name v := by
  rw [define_apply]
  exact pure_eq_ended_iff

theorem ends_define_iff {answer : Except EvalError (Option Value)} :
    Ends (fun depth => eval depth (.list [.special .define, .symbol name, expr]) f) s answer s' ↔
      Ends (bindingRun f expr (Eval.define f name)) s answer s' :=
  ends_eval_iff

theorem ends_define_error_iff :
    Ends (fun depth => eval depth (.list [.special .define, .symbol name, expr]) f) s (.error e)
        s' ↔
      Ends (fun depth => eval depth expr f) s (.error e) s' ∨
        Ends (fun depth => eval depth expr f) s (.ok none) s' ∧ e = .type (.noValue expr) := by
  rw [ends_define_iff, ends_binding_error_iff]
  simp [define_eq_ended_iff]

theorem ends_define_ok_iff :
    Ends (fun depth => eval depth (.list [.special .define, .symbol name, expr]) f) s (.ok o) s' ↔
      o = none ∧ ∃ v s₁, HasValue f expr s v s₁ ∧ s' = s₁.define f name v := by
  rw [ends_define_iff, ends_binding_ok_iff]
  simp only [define_eq_ended_iff, true_and]

/-! ## Assignments -/

/-- A name that is looked up in vain is bound by no frame on the way. -/
theorem Store.find?_eq_none_iff :
    s.find? f name = none ↔ ∀ g ∈ s.chain f, s.binds g name = false := by
  simp [find?]

theorem assign_eq_ended_error_iff {v : Value} :
    Eval.assign f name v s = ended (.error e) s' ↔
      s.find? f name = none ∧ e = .unbound name ∧ s' = s := by
  rw [assign_apply, Store.set?]
  cases s.find? f name with
  | none =>
    refine Iff.trans (fail_eq_ended_iff (e := .unbound name)) ?_
    simp
  | some g => exact ⟨nofun, nofun⟩

theorem assign_eq_ended_ok_iff {v : Value} :
    Eval.assign f name v s = ended (.ok ()) s' ↔
      ∃ g, s.find? f name = some g ∧ s' = s.define g name v := by
  rw [assign_apply, Store.set?]
  cases s.find? f name with
  | none => exact ⟨nofun, nofun⟩
  | some g =>
    refine Iff.trans (pure_eq_ended_iff (a := ())) ?_
    simp

theorem ends_assign_iff {answer : Except EvalError (Option Value)} :
    Ends (fun depth => eval depth (.list [.special .assign, .symbol name, expr]) f) s answer s' ↔
      Ends (bindingRun f expr (Eval.assign f name)) s answer s' :=
  ends_eval_iff

/-- The store at the end is the one in which the name was looked for in vain. -/
theorem ends_assign_error_iff :
    Ends (fun depth => eval depth (.list [.special .assign, .symbol name, expr]) f) s (.error e)
        s' ↔
      (Ends (fun depth => eval depth expr f) s (.error e) s' ∨
        Ends (fun depth => eval depth expr f) s (.ok none) s' ∧ e = .type (.noValue expr)) ∨
        (∃ v, HasValue f expr s v s') ∧ (∀ g ∈ s'.chain f, s'.binds g name = false) ∧
          e = .unbound name := by
  rw [ends_assign_iff, ends_binding_error_iff]
  simp only [assign_eq_ended_error_iff, Store.find?_eq_none_iff]
  refine or_congr_right ?_
  constructor
  · rintro ⟨v, s₁, hends, hfree, he, rfl⟩
    exact ⟨⟨v, hends⟩, hfree, he⟩
  · rintro ⟨⟨v, hends⟩, hfree, he⟩
    exact ⟨v, s', hends, hfree, he, rfl⟩

theorem ends_assign_ok_iff :
    Ends (fun depth => eval depth (.list [.special .assign, .symbol name, expr]) f) s (.ok o) s' ↔
      o = none ∧ ∃ v s₁ g, HasValue f expr s v s₁ ∧ s₁.find? f name = some g ∧
        s' = s₁.define g name v := by
  rw [ends_assign_iff, ends_binding_ok_iff]
  simp only [assign_eq_ended_ok_iff, exists_and_left]

end ScopedLisp
