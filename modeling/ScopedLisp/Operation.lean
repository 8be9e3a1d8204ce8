import ScopedLisp.Error
import ScopedLisp.Number

/-!
# What the operations compute

`Operation.run` first counts the arguments and then hands them on, so a wrong count is an error
whatever the values are. Of two arguments that are not numbers the left one is reported.

Two integers stay integers, modulo `2 ^ 64`; as soon as one operand is a float, both are. Integers
are compared as integers and every other pair of numbers as doubles.
-/

namespace ScopedLisp

/-- The double that `v` counts as for the procedure `name`. -/
def Value.toFloat (name : String) : Value → Except EvalError Float
  | integer n => pure (Number.ofInteger n)
  | float x => pure x
  | v => throw (.type (.notNumber name v))

/-- The items of `v`, which the procedure `name` takes as a list. -/
def Value.toItems (name : String) : Value → Except EvalError (List Value)
  | list items => pure items
  | v => throw (.type (.notList name v))

/-- The first item and the rest of `v`, which the procedure `name` takes as a list with items. -/
def Value.uncons (name : String) : Value → Except EvalError (Value × List Value)
  | list (first :: rest) => pure (first, rest)
  | list [] => throw (.type (.emptyList name))
  | v => throw (.type (.notList name v))

namespace Arithmetic

/-- The operation modulo `2 ^ 64`; a quotient drops its fraction. -/
def onIntegers : Arithmetic → Int64 → Int64 → Except EvalError Int64
  | add, a, b => pure (a + b)
  | sub, a, b => pure (a - b)
  | mul, a, b => pure (a * b)
  | div, a, b => if b = 0 then throw .divisionByZero else pure (a / b)

def onFloats : Arithmetic → Float → Float → Float
  | add, x, y => x + y
  | sub, x, y => x - y
  | mul, x, y => x * y
  | div, x, y => x / y

def run (op : Arithmetic) : Value → Value → Except EvalError Value
  | .integer a, .integer b => .integer <$> op.onIntegers a b
  | a, b => do
    let x ← a.toFloat op.name
    let y ← b.toFloat op.name
    pure (.float (op.onFloats x y))

end Arithmetic

namespace Comparison

/-- Whether the comparison holds between two numbers that compare so. -/
def holds : Comparison → Ordering → Bool
  | less, o => o == .lt
  | greater, o => o == .gt
  | atMost, o => o != .gt
  | atLeast, o => o != .lt
  | equal, o => o == .eq

/-- How two numbers compare, as the procedure `name` sees them. -/
def order? (name : String) : Value → Value → Except EvalError (Option Ordering)
  | .integer a, .integer b => pure (some (compare a b))
  | a, b => do
    let x ← a.toFloat name
    let y ← b.toFloat name
    pure (Number.compare? x y)

/-- No comparison with a `NaN` holds. -/
def run (op : Comparison) (a b : Value) : Except EvalError Value := do
  let order ← order? op.name a b
  pure (.ofBool (order.any op.holds))

end Comparison

/-- `round` drops the fraction. -/
def FloatFunction.apply : FloatFunction → Float → Float
  | sin, x => x.sin
  | cos, x => x.cos
  | sqrt, x => x.sqrt
  | round, x => Number.truncate x

def Predicate.holds : Predicate → Value → Bool
  | isList, v => v.isList
  | isNull, v => v.isNull
  | isNumber, v => v.isNumber
  | isSymbol, v => v.isSymbol
  | isProcedure, v => v.isProcedure

namespace Unary

/-- The lowest integer is its own absolute value. -/
def run (op : Unary) (v : Value) : Except EvalError Value :=
  match op, v with
  | floatFunction f, v => do
    let x ← v.toFloat op.name
    pure (.float (f.apply x))
  | abs, .integer n => pure (.integer n.abs)
  | abs, v => do
    let x ← v.toFloat op.name
    pure (.float x.abs)
  | car, v => do
    let (first, _) ← v.uncons op.name
    pure first
  | cdr, v => do
    let (_, rest) ← v.uncons op.name
    pure (.list rest)
  | length, v => do
    let items ← v.toItems op.name
    pure (.integer (.ofNat items.length))
  | predicate p, v => pure (.ofBool (p.holds v))

end Unary

namespace Binary

def run (op : Binary) (a b : Value) : Except EvalError Value :=
  match op with
  | arithmetic f => f.run a b
  | comparison f => f.run a b
  | pow => do
    let x ← a.toFloat op.name
    let y ← b.toFloat op.name
    pure (.float (x.pow y))
  | cons => do
    let items ← b.toItems op.name
    pure (.list (a :: items))
  | eq => pure (.ofBool (a.same b))
  | equal => pure (.ofBool (a.equal b))

end Binary

namespace Operation

/-- The result of the operation on `args`. -/
def run (op : Operation) (args : List Value) : Except EvalError Value :=
  match op, args with
  | unary f, [v] => f.run v
  | unary f, args => throw (.arity f.name 1 args.length)
  | binary f, [a, b] => f.run a b
  | binary f, args => throw (.arity f.name 2 args.length)
  | list, args => pure (.list args)

end Operation

end ScopedLisp
