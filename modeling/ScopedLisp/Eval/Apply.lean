import ScopedLisp.Eval.Basic
import ScopedLisp.Operation

/-!
# Calling a procedure

A closure is run in a new frame inside the frame it was made in, never inside the frame of its
caller. `map` is the one primitive that calls on: it hands each item to the procedure alone, so a
call that `map` makes has a single argument, and `map` itself, which wants two, cannot be mapped.
This is why calls of primitives end whatever the procedures are.
-/

namespace ScopedLisp

open Eval

/-- Calls `procedure` with `args`; bodies of closures are evaluated by `ev`. -/
def apply (ev : Evaluator) (procedure : Value) (args : List Value) : Eval (Option Value) :=
  match procedure with
  | .closure _ params body home =>
    if args.length = params.length then do
      let f ← enter params args home
      ev body f
    else
      fail (.arity "lambda" params.length args.length)
  | .primitive (.operation op) _ => some <$> ofExcept (op.run args)
  | .primitive .map _ =>
    match args with
    | [f, argument] =>
      if f.isProcedure then do
        let items ← ofExcept (argument.toItems Primitive.map.name)
        let results ← items.mapM fun item => do
          match ← apply ev f [item] with
          | some v => pure v
          | none => fail (.type (.unmapped f item))
        pure (some (.list results))
      else
        fail (.type (.notProcedure f))
    | args => fail (.arity Primitive.map.name 2 args.length)
  | v => fail (.notCallable (.notProcedure v))
termination_by args.length

end ScopedLisp
