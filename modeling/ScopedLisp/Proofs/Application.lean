import ScopedLisp.Proofs.Handing
import ScopedLisp.Proofs.Visits

/-!
# Applications

A list that is no form is evaluated from the left to the right: its head, then its operands one
after the other, then the call. Each of these is the last thing to happen if it fails. So a failing
operand decides how the application ends, with its own error and its own store, whatever operands
stand behind it and whatever the head is a name for: that a value cannot be called, or wants another
number of arguments, is only found out by the call.
-/

namespace ScopedLisp

open Eval

variable {f : FrameId} {s s₁ s₂ s' : Store} {head expr p : Value} {operands values : List Value}

/-! ## Operands -/

theorem operands_stable (f : FrameId) (operands : List Value) :
    Stable fun depth => operands.mapM (required (eval depth) f) :=
  stable_mapM (required_stable f) operands

/-- Operands that have values one after the other have these values together. -/
theorem ends_operands (h : InTurn (HasValue f) operands s values s') :
    Ends (fun depth => operands.mapM (required (eval depth) f)) s (.ok values) s' := by
  rw [ends_mapM_ok_iff (required_stable f)]
  simpa only [ends_required_ok_iff] using h

/-- The first operand without a value is the last that is evaluated. -/
theorem ends_operands_of_error {done : List Value} {e : EvalError}
    (hdone : InTurn (HasValue f) done s values s₁)
    (hexpr : Ends (fun depth => required (eval depth) f expr) s₁ (.error e) s₂)
    (rest : List Value) :
    Ends (fun depth => (done ++ expr :: rest).mapM (required (eval depth) f)) s (.error e) s₂ := by
  rw [ends_mapM_error_iff (required_stable f)]
  refine ⟨done, expr, rest, values, s₁, rfl, ?_, hexpr⟩
  simpa only [ends_required_ok_iff] using hdone

/-! ## The application -/

/-- What follows the head of an application. -/
def applied (ev : Evaluator) (f : FrameId) (head : Value) (operands : List Value) :
    Option Value → Eval (Option Value)
  | none => fail (.notCallable (.noValue head))
  | some procedure => do
    let args ← operands.mapM (required ev f)
    apply ev procedure args

theorem applied_stable (f : FrameId) (head : Value) (operands : List Value)
    (answer : Option Value) : Stable fun depth => applied (eval depth) f head operands answer := by
  cases answer with
  | none => exact stable_const (fail _)
  | some p => exact (operands_stable f operands).bind fun args => call_stable p args

section

variable (hhead : ∀ form, head ≠ .special form)
include hhead

theorem step_application (ev : Evaluator) (f : FrameId) (operands : List Value) :
    step ev (.list (head :: operands)) f = ev head f >>= applied ev f head operands := by
  cases head with
  | special form => exact absurd rfl (hhead form)
  | _ =>
    rw [step]
    · refine bind_congr fun answer => ?_
      cases answer <;> rfl
    · simp

theorem ends_application_iff {answer : Except EvalError (Option Value)} :
    Ends (fun depth => eval depth (.list (head :: operands)) f) s answer s' ↔
      Ends (fun depth => eval depth head f >>= applied (eval depth) f head operands) s answer
        s' := by
  rw [ends_eval_iff]
  simp only [step_application hhead]

/-- An application whose head has a value ends as its operands do, or as the call of that value. -/
theorem ends_application_iff_of_value (h : HasValue f head s p s₁)
    {answer : Except EvalError (Option Value)} :
    Ends (fun depth => eval depth (.list (head :: operands)) f) s answer s' ↔
      Ends (fun depth => operands.mapM (required (eval depth) f) >>= call depth p) s₁ answer
        s' := by
  rw [ends_application_iff hhead,
    ends_bind_of_ok (eval_stable head f) (applied_stable f head operands) h]
  rfl

/-- If its operands have values too, it ends as the call with these. -/
theorem ends_application_iff_of_values (hp : HasValue f head s p s₁)
    (hoperands : InTurn (HasValue f) operands s₁ values s₂)
    {answer : Except EvalError (Option Value)} :
    Ends (fun depth => eval depth (.list (head :: operands)) f) s answer s' ↔
      Ends (fun depth => call depth p values) s₂ answer s' := by
  rw [ends_application_iff_of_value hhead hp]
  exact ends_bind_of_ok (operands_stable f operands) (call_stable p) (ends_operands hoperands)

theorem tail_visits_application (depth : Nat) :
    (visits (depth + 1) (.list (head :: operands)) f s).tail =
      applicationVisits (eval depth) (visits depth) head operands f s := by
  cases head with
  | special form => exact absurd rfl (hhead form)
  | _ => rfl

/-- Without a value of the head, nothing else is evaluated. -/
theorem tail_visits_of_no_value {answer : Except EvalError (Option Value)}
    (h : Ends (fun depth => eval depth head f) s answer s₁) (hnone : ∀ v, answer ≠ .ok (some v))
    (depth : Nat) :
    (visits (depth + 1) (.list (head :: operands)) f s).tail = visits depth head f s := by
  rw [tail_visits_application hhead, applicationVisits]
  cases hrun : eval depth head f s with
  | error stop t => exact List.append_nil _
  | ok o t =>
    cases o with
    | none => exact List.append_nil _
    | some v =>
      have hv : HasValue f head s v t := ⟨depth, hrun⟩
      exact absurd (Ends.unique (eval_stable head f) h hv).1 (hnone v)

/-- **Operands are evaluated in order, and the first failure is final.** An application with a head
that is no reserved word ends as its head does if that fails, and fails if that produces nothing;
then no operand is evaluated. If the head has a value, whatever value it is, then the first operand
that fails or produces nothing decides the error and the store, with any operands behind it; and if
there is no such operand the value is called with those of the operands. -/
theorem application_in_order (f : FrameId) (s : Store) :
    (∀ e s₁, Ends (fun depth => eval depth head f) s (.error e) s₁ → ∀ operands,
      (∀ answer s', Ends (fun depth => eval depth (.list (head :: operands)) f) s answer s' ↔
        answer = .error e ∧ s' = s₁) ∧
      ∀ depth, (visits (depth + 1) (.list (head :: operands)) f s).tail =
        visits depth head f s) ∧
    (∀ s₁, Ends (fun depth => eval depth head f) s (.ok none) s₁ → ∀ operands,
      (∀ answer s', Ends (fun depth => eval depth (.list (head :: operands)) f) s answer s' ↔
        answer = .error (.notCallable (.noValue head)) ∧ s' = s₁) ∧
      ∀ depth, (visits (depth + 1) (.list (head :: operands)) f s).tail =
        visits depth head f s) ∧
    ∀ p s₀, HasValue f head s p s₀ →
      (∀ done values s₁, InTurn (HasValue f) done s₀ values s₁ → ∀ expr s₂,
        (∀ e, Ends (fun depth => eval depth expr f) s₁ (.error e) s₂ → ∀ rest answer s',
          Ends (fun depth => eval depth (.list (head :: (done ++ expr :: rest))) f) s answer s' ↔
            answer = .error e ∧ s' = s₂) ∧
        (Ends (fun depth => eval depth expr f) s₁ (.ok none) s₂ →
          ∃ cause : TypeError, cause.message = expr.render ++ " produced no value" ∧
            ∀ rest answer s',
              Ends (fun depth => eval depth (.list (head :: (done ++ expr :: rest))) f) s answer
                s' ↔ answer = .error (.type cause) ∧ s' = s₂)) ∧
      ∀ operands values s₁, InTurn (HasValue f) operands s₀ values s₁ → ∀ answer s',
        Ends (fun depth => eval depth (.list (head :: operands)) f) s answer s' ↔
          Ends (fun depth => call depth p values) s₁ answer s' := by
  refine ⟨fun e s₁ h operands => ⟨fun answer s' => ?_, ?_⟩,
    fun s₁ h operands => ⟨fun answer s' => ?_, ?_⟩, fun p s₀ hp => ?_⟩
  · rw [ends_application_iff hhead]
    exact ends_bind_of_error (eval_stable head f) (applied_stable f head operands) h
  · exact tail_visits_of_no_value hhead h nofun
  · rw [ends_application_iff hhead,
      ends_bind_of_ok (eval_stable head f) (applied_stable f head operands) h]
    exact Ends.iff (stable_const _) ⟨0, rfl⟩
  · exact tail_visits_of_no_value hhead h nofun
  · -- an operand that fails where a value is required is the end of the application
    have hfinal {done values : List Value} {s₁ s₂ : Store} {expr : Value} {e : EvalError}
        (hdone : InTurn (HasValue f) done s₀ values s₁)
        (hexpr : Ends (fun depth => required (eval depth) f expr) s₁ (.error e) s₂)
        (rest : List Value) (answer : Except EvalError (Option Value)) (s' : Store) :
        Ends (fun depth => eval depth (.list (head :: (done ++ expr :: rest))) f) s answer s' ↔
          answer = .error e ∧ s' = s₂ := by
      rw [ends_application_iff_of_value hhead hp]
      exact ends_bind_of_error (operands_stable f _) (call_stable p)
        (ends_operands_of_error hdone hexpr rest)
    refine ⟨fun done values s₁ hdone expr s₂ => ⟨fun e he => ?_, fun hnone => ?_⟩, ?_⟩
    · exact hfinal hdone (ends_required_iff.mpr ⟨_, he, rfl⟩)
    · exact ⟨.noValue expr, rfl, hfinal hdone (ends_required_iff.mpr ⟨_, hnone, rfl⟩)⟩
    · intro operands values s₁ hoperands answer s'
      exact ends_application_iff_of_values hhead hp hoperands

end

/-- An integer cannot be called, but in `(1 (quote 5) (define x 2) …)` it is the definition, which
has produced nothing, that counts: it has been made, and what stands behind it does not matter. -/
theorem application_in_order_definition :
    let s := Store.empty.pushEmpty
    let expr : Value := .list [.special .define, .symbol "x", .integer 2]
    ∃ cause : TypeError, cause.message = expr.render ++ " produced no value" ∧
      ∀ rest answer s',
        Ends (fun depth => eval depth
            (.list (.integer 1 :: ([.list [.special .quote, .integer 5]] ++ expr :: rest))) 0) s
          answer s' ↔ answer = .error (.type cause) ∧ s' = s.define 0 "x" (.integer 2) := by
  intro s expr
  have hhead : HasValue 0 (.integer 1) s (.integer 1) s := ⟨1, rfl⟩
  have hdone : InTurn (HasValue 0) [.list [.special .quote, .integer 5]] s [.integer 5] s :=
    .cons (hasValue_quote s 0 (.integer 5)) .nil
  have hexpr : Ends (fun depth => eval depth expr 0) s (.ok none) (s.define 0 "x" (.integer 2)) :=
    ⟨2, rfl⟩
  have hforms := (application_in_order (by simp) 0 s).2.2 _ _ hhead
  exact (hforms.1 _ _ _ hdone expr _).2 hexpr

end ScopedLisp
