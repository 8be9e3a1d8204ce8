import ScopedLisp.Decimal.Binary64

/-!
# Fixed-point text

A float with a fixed number of decimals, never with an exponent: the exact binary value, rounded
once to the last decimal, a half to the even neighbour.
-/

namespace ScopedLisp.Decimal

/-- The whole number nearest to `num / den`; of two equally near ones, the even one. -/
def roundDiv (num den : Nat) : Nat :=
  let below := num / den
  let excess := 2 * (num % den)
  if excess < den ∨ excess = den ∧ below % 2 = 0 then below else below + 1

/-- `mantissa * 2 ^ exponent` counted in units of the last of `places` decimals. -/
def inUnits (places mantissa : Nat) : Int → Nat
  | .ofNat e => mantissa * Nat.pow 2 e * Nat.pow 10 places
  | .negSucc e => roundDiv (mantissa * Nat.pow 10 places) (Nat.pow 2 (e + 1))

/-- `count` units of the last of `places` decimals, written with a point. -/
def pointed (places count : Nat) : String :=
  let decimals := Nat.toDigits 10 (count % Nat.pow 10 places)
  toString (count / Nat.pow 10 places) ++ "." ++ String.ofList (decimals.leftpad places '0')

/-- `x` with `places` decimals. -/
def fixed (places : Nat) (x : Float) : String :=
  match Binary64.ofFloat x with
  | .nan => "NaN"
  | .infinite negative => Binary64.signText negative ++ "inf"
  | .finite negative mantissa exponent =>
    Binary64.signText negative ++ pointed places (inUnits places mantissa exponent)

end ScopedLisp.Decimal
