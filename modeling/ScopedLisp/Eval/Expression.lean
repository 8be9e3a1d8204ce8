import ScopedLisp.Eval.Apply
import ScopedLisp.Eval.Form

/-!
# Evaluating an expression

`step` says what one expression does, given how the expressions inside it are evaluated, and
`eval` closes the knot. Evaluation need not end, so `eval` is granted a depth, the number of
evaluations that may be nested in each other. An evaluation that ends within one depth ends
within every greater depth, in the same way.

Numbers and procedures stand for themselves, a name for what it is bound to, and the empty list
for nothing. A list that starts with a reserved word is a form. In every other list the head is
evaluated, then the operands from left to right, then the call is made.
-/

namespace ScopedLisp

open Eval

/-- Evaluates `expr` in frame `f`, with `ev` for the expressions it is made of. -/
def step (ev : Evaluator) (expr : Value) (f : FrameId) : Eval (Option Value) :=
  match expr with
  | .symbol name => some <$> lookup f name
  | .special form => fail (.shape (.formAsValue form))
  | .list [] => pure none
  | .list (.special form :: operands) => evalForm ev f form operands
  | .list (head :: operands) => do
    match ← ev head f with
    | none => fail (.notCallable (.noValue head))
    | some procedure =>
      let args ← operands.mapM (required ev f)
      apply ev procedure args
  | v => pure (some v)

/-- Evaluates an expression in a frame, nested no deeper than `depth`. -/
def eval (depth : Nat) : Evaluator :=
  match depth with
  | 0 => fun _ _ => throw .depth
  | depth + 1 => step (eval depth)

/-- Evaluates where a value is required. -/
def evalValue (depth : Nat) (expr : Value) (f : FrameId) : Eval Value :=
  required (eval depth) f expr

/-- Calls a procedure. -/
def call (depth : Nat) (procedure : Value) (args : List Value) : Eval (Option Value) :=
  apply (eval depth) procedure args

/-- Reads a text; what is no expression is an error of evaluation. -/
def Eval.read (source : String) : Eval Value :=
  match Reader.readText source with
  | .ok expr => pure expr
  | .error e => fail (.unreadable e)

/-- Reads one expression and evaluates it in frame `f`. -/
def evalText (depth : Nat) (source : String) (f : FrameId) : Eval (Option Value) := do
  let expr ← Eval.read source
  eval depth expr f

end ScopedLisp
