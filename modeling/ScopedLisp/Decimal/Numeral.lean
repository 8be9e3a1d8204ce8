/-!
# Numerals

The two grammars of a number in source text, and the number that a numeral stands for.

* An **integer numeral** is an optional sign and one or more ASCII digits.
* A **decimal numeral** is an optional sign, digits with at most one point among them and at
  least one digit in all, and then optionally `e` or `E` before an integer numeral.

Digits are ASCII digits: no other decimal digit of Unicode is one.
-/

namespace ScopedLisp.Decimal

/-- The number that a row of digits spells in base ten. -/
def ofDigits (digits : List Char) : Nat :=
  digits.foldl (fun n c => 10 * n + (c.toNat - '0'.toNat)) 0

/-- An optional sign in front, and whether it is a minus. -/
def splitSign : List Char → Bool × List Char
  | '-' :: rest => (true, rest)
  | '+' :: rest => (false, rest)
  | rest => (false, rest)

/-- The value of an integer numeral. -/
def integer? (text : List Char) : Option Int :=
  let (negative, digits) := splitSign text
  if digits.isEmpty || !digits.all Char.isDigit then none
  else if negative then some (-(ofDigits digits : Int))
  else some (ofDigits digits)

/-- The number `± coefficient * 10 ^ exponent`. Zero keeps its sign. -/
structure Numeral where
  negative : Bool
  coefficient : Nat
  exponent : Int
deriving DecidableEq, Repr

/-- The power of ten at the end of a decimal numeral: nothing, or `e` and an integer numeral. -/
def exponent? : List Char → Option Int
  | [] => some 0
  | c :: rest => if c = 'e' ∨ c = 'E' then integer? rest else none

/-- Digits after a point, if there is a point, and what follows them. -/
def splitFraction : List Char → List Char × List Char
  | '.' :: rest => rest.span Char.isDigit
  | rest => ([], rest)

/-- The number of a decimal numeral. -/
def numeral? (text : List Char) : Option Numeral :=
  let (negative, unsigned) := splitSign text
  let (whole, rest) := unsigned.span Char.isDigit
  let (fraction, tail) := splitFraction rest
  if whole.isEmpty && fraction.isEmpty then none
  else (exponent? tail).map fun e =>
    ⟨negative, ofDigits (whole ++ fraction), e - fraction.length⟩

/-- The double nearest to the numeral, ties to even. Numbers of `10 ^ 310` and more are beyond
the largest double and those below `10 ^ -330` round to zero; they are told apart by the place of
their leading digit, so that no huge power of ten is ever computed. -/
def Numeral.toFloat (n : Numeral) : Float :=
  let place := ((Nat.toDigits 10 n.coefficient).length : Int) + n.exponent
  let magnitude : Float :=
    if n.coefficient = 0 ∨ place < -330 then 0.0
    else if 310 < place then 1.0 / 0.0
    else Float.ofScientific n.coefficient (n.exponent < 0) n.exponent.natAbs
  if n.negative then -magnitude else magnitude

end ScopedLisp.Decimal
