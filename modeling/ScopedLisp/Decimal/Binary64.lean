/-!
# The parts of a double

A finite double is `mantissa * 2 ^ exponent` with a sign. Everything that writes a float works on
these exact parts, so no rounding happens but the one that the written form asks for.
-/

namespace ScopedLisp.Decimal

/-- What the 64 bits of a double stand for. Zero is finite, has mantissa `0` and keeps its sign. -/
inductive Binary64 where
  | nan
  | infinite (negative : Bool)
  | finite (negative : Bool) (mantissa : Nat) (exponent : Int)
deriving DecidableEq, Repr

namespace Binary64

/-- The parts of `x`, read off its bits: a sign bit, eleven bits of exponent and fifty-two of
fraction. The lowest exponent field has no implicit leading bit, the highest one is not finite. -/
def ofFloat (x : Float) : Binary64 :=
  let bits := x.toBits.toNat
  let negative := bits / Nat.pow 2 63 == 1
  let field : Nat := bits / Nat.pow 2 52 % Nat.pow 2 11
  let fraction := bits % Nat.pow 2 52
  if field = 2047 then
    if fraction = 0 then .infinite negative else .nan
  else if field = 0 then
    .finite negative fraction (-1074)
  else
    .finite negative (Nat.pow 2 52 + fraction) ((field : Int) - 1075)

/-- The text before the digits. -/
def signText (negative : Bool) : String :=
  if negative then "-" else ""

end Binary64

end ScopedLisp.Decimal
