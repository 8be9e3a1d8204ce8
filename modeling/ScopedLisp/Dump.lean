import ScopedLisp.Decimal.Shortest
import ScopedLisp.Eval.Basic

/-!
# Dumps

The structure of a result written out: every value with the name of its kind, floats with the
fewest digits that read back, names in quotes. A dump tells apart what the printed text does not:
a form from a symbol, a float from its six decimals, a closure from another of equal parameters.
-/

namespace ScopedLisp

open Text

/-- `constructor(argument)`. -/
def Dump.applied (constructor argument : String) : String :=
  constructor ++ "(" ++ argument ++ ")"

def SpecialForm.dump : SpecialForm → String
  | quote => "Quote"
  | branch => "If"
  | define => "Define"
  | assign => "Set"
  | lambda => "Lambda"
  | begin => "Begin"

mutual

def Value.dump : Value → String
  | .integer n => Dump.applied "Integer" (toString n.toInt)
  | .float x => Dump.applied "Float" (Decimal.shortest x)
  | .symbol name => Dump.applied "Symbol" (quoted name)
  | .special form => Dump.applied "Special" form.dump
  | .list items => Dump.applied "List" ("[" ++ ", ".intercalate (Value.dumpAll items) ++ "]")
  | .primitive p _ => Dump.applied "Builtin" (Dump.applied "Builtin" p.name)
  | .closure _ params body _ =>
    Dump.applied "Lambda"
      ("(lambda [" ++ ", ".intercalate (params.map quoted) ++ "] " ++ body.render ++ ")")

def Value.dumpAll : List Value → List String
  | [] => []
  | v :: rest => Value.dump v :: Value.dumpAll rest

end

def ReadError.dump : ReadError → String
  | unexpectedClosing => "UnexpectedCParen"
  | unexpectedEnd => "UnexpectedEOF"
  | trailing text => Dump.applied "TrailingInput" (quoted text)
  | emptyAtom => "EmptyToken"

def EvalError.dump : EvalError → String
  | unreadable cause => Dump.applied "Parse" cause.dump
  | unbound name => Dump.applied "Unbound" (quoted name)
  | arity procedure expected got =>
    "Arity \x7b name: " ++ quoted procedure ++ ", expected: " ++ toString expected ++ ", got: " ++
      toString got ++ " \x7d"
  | type cause => Dump.applied "Type" (quoted cause.message)
  | notCallable cause => Dump.applied "NotCallable" (quoted cause.message)
  | shape cause => Dump.applied "InvalidExpr" (quoted cause.message)
  | divisionByZero => "DivisionByZero"

def Stop.dump : Stop → String
  | error e => e.dump
  | depth => "Depth"

/-- The dump of how an evaluation ended. -/
def dumpResult : Except Stop (Option Value) → String
  | .ok (some v) => Dump.applied "Ok" (Dump.applied "Some" v.dump)
  | .ok none => Dump.applied "Ok" "None"
  | .error stop => Dump.applied "Err" stop.dump

end ScopedLisp
