/-!
# Primitive procedures

The procedures that a root frame binds from the start, as names only; what an operation computes
is in `ScopedLisp.Operation`, and the one primitive that calls another procedure, `map`, runs
inside the evaluator.
-/

namespace ScopedLisp

/-- Arithmetic on two numbers. -/
inductive Arithmetic where
  | add
  | sub
  | mul
  | div
deriving DecidableEq, Repr

/-- A comparison of two numbers. -/
inductive Comparison where
  | less
  | greater
  | atMost
  | atLeast
  | equal
deriving DecidableEq, Repr

/-- A function of one float. -/
inductive FloatFunction where
  | sin
  | cos
  | sqrt
  | round
deriving DecidableEq, Repr

/-- A question about one value. -/
inductive Predicate where
  | isList
  | isNull
  | isNumber
  | isSymbol
  | isProcedure
deriving DecidableEq, Repr

/-- An operation on one value. -/
inductive Unary where
  | floatFunction (f : FloatFunction)
  | abs
  | car
  | cdr
  | length
  | predicate (p : Predicate)
deriving DecidableEq, Repr

/-- An operation on two values. -/
inductive Binary where
  | arithmetic (op : Arithmetic)
  | comparison (op : Comparison)
  | pow
  | cons
  | eq
  | equal
deriving DecidableEq, Repr

/-- A primitive whose result depends on its arguments alone. -/
inductive Operation where
  | unary (op : Unary)
  | binary (op : Binary)
  | list
deriving DecidableEq, Repr

/-- A procedure that a root frame binds from the start. -/
inductive Primitive where
  | operation (op : Operation)
  | map
deriving DecidableEq, Repr

def Arithmetic.name : Arithmetic → String
  | add => "+"
  | sub => "-"
  | mul => "*"
  | div => "/"

def Comparison.name : Comparison → String
  | less => "<"
  | greater => ">"
  | atMost => "<="
  | atLeast => ">="
  | equal => "="

def FloatFunction.name : FloatFunction → String
  | sin => "sin"
  | cos => "cos"
  | sqrt => "sqrt"
  | round => "round"

def Predicate.name : Predicate → String
  | isList => "list?"
  | isNull => "null?"
  | isNumber => "number?"
  | isSymbol => "symbol?"
  | isProcedure => "procedure?"

def Unary.name : Unary → String
  | floatFunction f => f.name
  | abs => "abs"
  | car => "car"
  | cdr => "cdr"
  | length => "length"
  | predicate p => p.name

def Binary.name : Binary → String
  | arithmetic op => op.name
  | comparison op => op.name
  | pow => "pow"
  | cons => "cons"
  | eq => "eq?"
  | equal => "equal?"

def Operation.name : Operation → String
  | unary op => op.name
  | binary op => op.name
  | list => "list"

/-- The name that a root frame binds the primitive under. -/
def Primitive.name : Primitive → String
  | operation op => op.name
  | map => "map"

/-- How many arguments the operation takes; `none` for any number. -/
def Operation.arity? : Operation → Option Nat
  | unary _ => some 1
  | binary _ => some 2
  | list => none

/-- How many arguments the primitive takes; `none` for any number. -/
def Primitive.arity? : Primitive → Option Nat
  | operation op => op.arity?
  | map => some 2

/-! ## The table -/

def Unary.all : List Unary :=
  [.abs, .floatFunction .sin, .floatFunction .cos, .floatFunction .sqrt, .floatFunction .round,
    .car, .cdr, .length,
    .predicate .isList, .predicate .isNull, .predicate .isNumber, .predicate .isSymbol,
    .predicate .isProcedure]

def Binary.all : List Binary :=
  [.arithmetic .add, .arithmetic .sub, .arithmetic .mul, .arithmetic .div,
    .comparison .less, .comparison .greater, .comparison .atMost, .comparison .atLeast,
    .comparison .equal,
    .pow, .cons, .eq, .equal]

def Operation.all : List Operation :=
  Binary.all.map .binary ++ Unary.all.map .unary ++ [.list]

/-- Every primitive once. -/
def Primitive.all : List Primitive := Operation.all.map .operation ++ [.map]

theorem Unary.mem_all (op : Unary) : op ∈ all := by
  cases op with
  | floatFunction f => cases f <;> decide
  | predicate p => cases p <;> decide
  | _ => decide

theorem Binary.mem_all (op : Binary) : op ∈ all := by
  cases op with
  | arithmetic op => cases op <;> decide
  | comparison op => cases op <;> decide
  | _ => decide

theorem Operation.mem_all (op : Operation) : op ∈ all := by
  cases op with
  | unary op => simp [all, Unary.mem_all]
  | binary op => simp [all, Binary.mem_all]
  | list => simp [all]

theorem Primitive.mem_all (p : Primitive) : p ∈ all := by
  cases p with
  | operation op => simp [all, Operation.mem_all]
  | map => simp [all]

/-- No two primitives share a name. -/
theorem Primitive.nodup_names : (all.map name).Nodup := by decide

end ScopedLisp
