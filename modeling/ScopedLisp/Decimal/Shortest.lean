import ScopedLisp.Decimal.Binary64

/-!
# Shortest text

The fewest digits that read back as the same double, and of those the nearest to it; of two that
are equally near, the one farther from zero. A double owns the reals that round to it: half the
way to each neighbour, ends included when its mantissa is even. The digits are found by trying
decimal grids from coarse to fine; on each grid only the two points next to the double can be
the nearest.
-/

namespace ScopedLisp.Decimal

/-- A positive double and the reals that round to it: from `low / den` to `high / den`, with the
ends if `closed`, around `value / den`. -/
structure Interval where
  low : Nat
  value : Nat
  high : Nat
  den : Nat
  closed : Bool

/-- The reals that round to `mantissa * 2 ^ exponent`. Below a power of two the neighbour is
only half as far, unless the exponent is already the lowest one. -/
def Interval.ofParts (mantissa : Nat) (exponent : Int) : Interval :=
  let below := if mantissa = Nat.pow 2 52 ∧ exponent ≠ -1074 then 1 else 2
  let num := Nat.pow 2 (exponent - 2).toNat
  { low := (4 * mantissa - below) * num
    value := 4 * mantissa * num
    high := (4 * mantissa + 2) * num
    den := Nat.pow 2 (2 - exponent).toNat
    closed := mantissa % 2 = 0 }

/-- How many places the leading digit stands before the point: `10 ^ (p - 1) ≤ value < 10 ^ p`.
The scale is finer than the smallest double, so the leading digit is never lost. -/
def Interval.place (i : Interval) : Int :=
  ((Nat.toDigits 10 (i.value * Nat.pow 10 400 / i.den)).length : Int) - 400

/-- The multiple of `10 ^ grid` that is nearest to the value, if one lies in the interval. A value
in the middle between two multiples goes to the greater. -/
def Interval.pointOn? (i : Interval) (grid : Int) : Option Nat :=
  let up := Nat.pow 10 (-grid).toNat
  let unit := i.den * Nat.pow 10 grid.toNat
  let inside (point : Nat) : Bool :=
    if i.closed then i.low * up ≤ point * unit && point * unit ≤ i.high * up
    else i.low * up < point * unit && point * unit < i.high * up
  let floor := i.value * up / unit
  let excess := 2 * (i.value * up % unit)
  let (near, far) := if excess < unit then (floor, floor + 1) else (floor + 1, floor)
  if inside near then some near else if inside far then some far else none

/-- Significant digits, with the point behind the first `place` of them; a place outside the row
of digits stands for zeros. -/
structure Digits where
  digits : List Char
  place : Int

/-- The first grid with a point in the interval gives the digits. Seventeen digits always do. -/
def Interval.shortest (i : Interval) : Digits :=
  let place := i.place
  let point? := (List.range' 1 17).findSome? fun (count : Nat) =>
    (i.pointOn? (place - count)).map fun point => (point, place - count)
  match point? with
  | none => ⟨['0'], 1⟩
  | some (point, grid) =>
    let digits := Nat.toDigits 10 point
    ⟨(digits.reverse.dropWhile (· == '0')).reverse, digits.length + grid⟩

/-- Digits with a point in place and at least one digit on each side of it. -/
def Digits.positional (d : Digits) : String :=
  if d.place ≤ 0 then
    "0." ++ String.ofList (List.replicate (-d.place).toNat '0' ++ d.digits)
  else if d.digits.length ≤ d.place.toNat then
    String.ofList (d.digits.rightpad d.place.toNat '0') ++ ".0"
  else
    let (whole, fraction) := d.digits.splitAt d.place.toNat
    String.ofList whole ++ "." ++ String.ofList fraction

/-- Digits with the point after the first one and a power of ten. -/
def Digits.scientific (d : Digits) : String :=
  let tail := d.digits.drop 1
  String.ofList (d.digits.take 1) ++ (if tail.isEmpty then "" else "." ++ String.ofList tail) ++
    "e" ++ toString (d.place - 1)

/-- `x` with the fewest digits that read back: positional from `10 ^ -4` up to, but not
including, `10 ^ 16`, and with a power of ten outside that range. -/
def shortest (x : Float) : String :=
  match Binary64.ofFloat x with
  | .nan => "NaN"
  | .infinite negative => Binary64.signText negative ++ "inf"
  | .finite negative 0 _ => Binary64.signText negative ++ "0.0"
  | .finite negative mantissa exponent =>
    let digits := (Interval.ofParts mantissa exponent).shortest
    Binary64.signText negative ++
      if -4 < digits.place ∧ digits.place ≤ 16 then digits.positional else digits.scientific

end ScopedLisp.Decimal
