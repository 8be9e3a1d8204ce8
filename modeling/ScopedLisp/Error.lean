import ScopedLisp.Reader
import ScopedLisp.Value.Render

/-!
# Errors of evaluation

Each error is its cause; the wording is in the `message` functions only. Causes that concern a
value or an expression hold it, so the text of the message follows from the cause.
-/

namespace ScopedLisp

/-- A value of the wrong kind, or none where one is needed. -/
inductive TypeError where
  /-- An expression produced nothing where a value is required. -/
  | noValue (expr : Value)
  | notNumber (procedure : String) (found : Value)
  | notList (procedure : String) (found : Value)
  | emptyList (procedure : String)
  /-- `map` was given no procedure. -/
  | notProcedure (found : Value)
  /-- A call that `map` made produced nothing. -/
  | unmapped (procedure item : Value)
  | parameter (found : Value)
deriving Inhabited

/-- Why the head of a call cannot be called. -/
inductive CallError where
  | noValue (head : Value)
  | notProcedure (found : Value)
deriving Inhabited

/-- A special form that does not have its shape. -/
inductive ShapeError where
  /-- The reserved word stands where a value is required. -/
  | formAsValue (form : SpecialForm)
  | operandCount (form : SpecialForm) (expected got : Nat)
  | target (form : SpecialForm) (found : Value)
  | parameterList (found : Value)
deriving Inhabited

/-- Why an evaluation failed. -/
inductive EvalError where
  | unreadable (cause : ReadError)
  | unbound (name : String)
  | arity (procedure : String) (expected got : Nat)
  | type (cause : TypeError)
  | notCallable (cause : CallError)
  | shape (cause : ShapeError)
  | divisionByZero

/-- The kind of a value and its text, as messages show a value that is out of place. -/
def Value.described (v : Value) : String := v.typeName ++ " " ++ v.render

def TypeError.message : TypeError → String
  | noValue expr => expr.render ++ " produced no value"
  | notNumber procedure found => procedure ++ " expects numbers, found " ++ found.described
  | notList procedure found => procedure ++ " expects a list, found " ++ found.described
  | emptyList procedure => procedure ++ " of empty list"
  | notProcedure found => "map expects a procedure, found " ++ found.described
  | unmapped procedure item =>
    "map: " ++ procedure.render ++ " produced no value for " ++ item.render
  | parameter found => "lambda parameter must be a symbol, found " ++ found.described

def CallError.message : CallError → String
  | noValue head => head.render ++ " produced no value"
  | notProcedure found => found.described

def ShapeError.message : ShapeError → String
  | formAsValue form => "special form " ++ form.name ++ " used as a value"
  | operandCount form expected got =>
    form.name ++ " expects " ++ toString expected ++ " operand(s), got " ++ toString got
  | target form found => form.name ++ " target must be a symbol, found " ++ found.render
  | parameterList found => "lambda expects a parameter list, found " ++ found.render

def EvalError.message : EvalError → String
  | unreadable cause => "syntax error: " ++ cause.message
  | unbound name => Text.quoted name ++ " not found"
  | arity procedure expected got =>
    procedure ++ ": expected " ++ toString expected ++ " argument(s), got " ++ toString got
  | type cause => "type error: " ++ cause.message
  | notCallable cause => "expected a callable value, found " ++ cause.message
  | shape cause => "invalid expression: " ++ cause.message
  | divisionByZero => "division by zero"

end ScopedLisp
