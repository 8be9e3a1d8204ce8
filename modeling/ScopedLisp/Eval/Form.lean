import ScopedLisp.Eval.Basic

/-!
# Special forms

Each form first checks its shape, that is the number of its operands and what it demands of the
operands it does not evaluate, and only then evaluates anything. `define` and `set!` bind after
their expression has produced a value, so a failure leaves the store as that expression left it.
-/

namespace ScopedLisp

open Eval

/-- The value of `expr` where one is required: nothing is an error. -/
def required (ev : Evaluator) (f : FrameId) (expr : Value) : Eval Value := do
  match ← ev expr f with
  | some v => pure v
  | none => fail (.type (.noValue expr))

/-- The name that `define` or `set!` is to bind. -/
def targetName (form : SpecialForm) : Value → Except EvalError String
  | .symbol name => pure name
  | v => throw (.shape (.target form v))

/-- The name of one parameter. -/
def parameterName : Value → Except EvalError String
  | .symbol name => pure name
  | v => throw (.type (.parameter v))

/-- The parameters of a `lambda`: a list of symbols. -/
def parameterNames : Value → Except EvalError (List String)
  | .list params => params.mapM parameterName
  | v => throw (.shape (.parameterList v))

theorem parameterName_eq_ok_iff {v : Value} {name : String} :
    parameterName v = .ok name ↔ v = .symbol name := by
  cases v with
  | symbol other =>
    constructor
    · intro h
      rw [Except.ok.inj h]
    · intro h
      rw [Value.symbol.inj h]
      rfl
  | _ => exact ⟨nofun, nofun⟩

/-- Exactly the lists of symbols are parameter lists. -/
theorem parameterNames_eq_ok_iff {params : Value} {names : List String} :
    parameterNames params = .ok names ↔ params = .list (names.map .symbol) := by
  have hall (items : List Value) :
      items.mapM parameterName = .ok names ↔ items = names.map .symbol := by
    induction items generalizing names with
    | nil =>
      rw [List.mapM_nil]
      cases names with
      | nil => exact ⟨fun _ => rfl, fun _ => rfl⟩
      | cons => exact ⟨nofun, nofun⟩
    | cons v items ih =>
      rw [List.mapM_cons]
      constructor
      · intro h
        cases hname : parameterName v with
        | error e =>
          rw [hname] at h
          cases h
        | ok name =>
          cases hrest : items.mapM parameterName with
          | error e =>
            rw [hname, hrest] at h
            cases h
          | ok rest =>
            rw [hname, hrest] at h
            cases h
            rw [parameterName_eq_ok_iff.mp hname, ih.mp hrest, List.map_cons]
      · intro h
        cases names with
        | nil => cases h
        | cons name names =>
          rw [List.map_cons, List.cons.injEq] at h
          rw [parameterName_eq_ok_iff.mpr h.1, ih.mpr h.2]
          rfl
  cases params with
  | list items =>
    rw [Value.list.injEq]
    exact hall items
  | _ => exact ⟨nofun, nofun⟩

/-- The closure that a `lambda` form makes in frame `f`. -/
def makeLambda (f : FrameId) (params body : Value) : Eval Value := do
  let names ← ofExcept (parameterNames params)
  close names body f

/-- A form with a wrong number of operands. -/
def miscounted (form : SpecialForm) (expected got : Nat) : Eval (Option Value) :=
  fail (.shape (.operandCount form expected got))

/-- Evaluates the form with these operands in frame `f`; operands are evaluated by `ev`. -/
def evalForm (ev : Evaluator) (f : FrameId) (form : SpecialForm) (operands : List Value) :
    Eval (Option Value) :=
  match form, operands with
  | .quote, [v] => pure (some v)
  | .quote, operands => miscounted .quote 1 operands.length
  | .branch, [test, yes, no] => do
    let answer ← ev test f
    if answer.any Value.isTruthy then ev yes f else ev no f
  | .branch, operands => miscounted .branch 3 operands.length
  | .define, [target, expr] => do
    let name ← ofExcept (targetName .define target)
    let v ← required ev f expr
    Eval.define f name v
    pure none
  | .define, operands => miscounted .define 2 operands.length
  | .assign, [target, expr] => do
    let name ← ofExcept (targetName .assign target)
    let v ← required ev f expr
    Eval.assign f name v
    pure none
  | .assign, operands => miscounted .assign 2 operands.length
  | .lambda, [params, body] => some <$> makeLambda f params body
  | .lambda, operands => miscounted .lambda 2 operands.length
  | .begin, exprs => exprs.foldlM (fun _ expr => ev expr f) none

end ScopedLisp
