import ScopedLisp.Primitive

/-!
# Values

A value is at once data and code: what the reader answers is evaluated, and what evaluation
answers may be read apart as data again. Procedures are the two values that the reader never
makes.

Three notions of sameness meet in `Value.equal`: numbers and names are compared by content,
floats as doubles compare (so `NaN` differs from itself and the two zeros are equal), and
procedures by identity. A closure carries a number that no other closure shares
(`ScopedLisp.Store`), a primitive the root frame that it was installed in.
-/

namespace ScopedLisp

/-- The number of a frame in the store. -/
abbrev FrameId := Nat

/-- The number of a closure, in the order in which closures are made. -/
abbrev ClosureId := Nat

/-- The reserved words: a list that starts with one is evaluated by the rule of that form. -/
inductive SpecialForm where
  | quote
  | branch
  | define
  | assign
  | lambda
  | begin
deriving DecidableEq, Repr

namespace SpecialForm

/-- The word in source text. -/
def name : SpecialForm → String
  | quote => "quote"
  | branch => "if"
  | define => "define"
  | assign => "set!"
  | lambda => "lambda"
  | begin => "begin"

/-- The form that a word is reserved for. -/
def ofName? (name : String) : Option SpecialForm :=
  if name = "quote" then some quote
  else if name = "if" then some branch
  else if name = "define" then some define
  else if name = "set!" then some assign
  else if name = "lambda" then some lambda
  else if name = "begin" then some begin
  else none

theorem ofName?_name (form : SpecialForm) : ofName? form.name = some form := by
  cases form <;> decide

theorem name_of_ofName? {name : String} {form : SpecialForm} (h : ofName? name = some form) :
    form.name = name := by
  simp only [ofName?] at h
  repeat' split at h
  all_goals simp_all [SpecialForm.name]
  all_goals subst h; rfl

end SpecialForm

/-- Data and code of the language. -/
inductive Value where
  | integer (n : Int64)
  | float (x : Float)
  | symbol (name : String)
  | special (form : SpecialForm)
  | list (items : List Value)
  /-- A primitive as installed in the root frame `home`. -/
  | primitive (p : Primitive) (home : FrameId)
  /-- The closure number `id`: parameters and a body, over the frame `home`. -/
  | closure (id : ClosureId) (params : List String) (body : Value) (home : FrameId)
deriving Inhabited

namespace Value

/-- The language has no booleans: a question is answered by the integer `1` or `0`. -/
def ofBool (b : Bool) : Value := integer (if b then 1 else 0)

/-- What a name reads as: a reserved word as its form, any other name as a symbol. -/
def ofName (name : String) : Value :=
  match SpecialForm.ofName? name with
  | some form => special form
  | none => symbol name

def typeName : Value → String
  | integer _ => "integer"
  | float _ => "float"
  | symbol _ => "symbol"
  | special _ => "special form"
  | list _ => "list"
  | primitive .. => "builtin"
  | closure .. => "lambda"

/-- Zero of either kind and the empty list are false; every other value is true. -/
def isTruthy : Value → Bool
  | integer n => n != 0
  | float x => x != 0.0
  | list items => !items.isEmpty
  | _ => true

def isNumber : Value → Bool
  | integer _ | float _ => true
  | _ => false

def isSymbol : Value → Bool
  | symbol _ => true
  | _ => false

def isList : Value → Bool
  | list _ => true
  | _ => false

def isNull : Value → Bool
  | list [] => true
  | _ => false

/-- The name that a procedure reports in its errors; no other value has one. -/
def procedureName? : Value → Option String
  | primitive p _ => some p.name
  | closure .. => some "lambda"
  | _ => none

def isProcedure (v : Value) : Bool := v.procedureName?.isSome

mutual

/-- Equality of the language: by content, but doubles as doubles and procedures by identity. -/
def equal : Value → Value → Bool
  | integer a, integer b => a == b
  | float a, float b => a == b
  | symbol a, symbol b => a == b
  | special a, special b => a == b
  | list as, list bs => equalAll as bs
  | primitive p home, primitive q home' => p == q && home == home'
  | closure id .., closure id' .. => id == id'
  | _, _ => false

/-- Lists are equal when they have the same length and equal items. -/
def equalAll : List Value → List Value → Bool
  | [], [] => true
  | a :: as, b :: bs => equal a b && equalAll as bs
  | _, _ => false

end

/-- Sameness: two lists only if both are empty, all other values as `equal`. -/
def same : Value → Value → Bool
  | list as, list bs => as.isEmpty && bs.isEmpty
  | a, b => equal a b

end Value

end ScopedLisp
