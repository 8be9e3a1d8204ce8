/-!
# Integers and floats together

The steps between the two kinds of number, and the order of doubles.
-/

namespace ScopedLisp.Number

/-- The double nearest to `n`, ties to even. Magnitude and sign are converted apart: the
magnitude of the lowest integer does not fit an `Int64`, but it does fit the unsigned word. -/
def ofInteger (n : Int64) : Float :=
  if n < 0 then -(-n).toUInt64.toFloat else n.toUInt64.toFloat

/-- `x` without its fraction; the sign stays, also that of a zero. With an exponent field of `1023`
the point is behind the leading bit, and from `1075` on there is no bit behind it. -/
def truncate (x : Float) : Float :=
  let bits := x.toBits
  let field := bits >>> 52 &&& 0x7ff
  if field < 1023 then .ofBits (bits &&& 0x8000000000000000)
  else if field < 1075 then
    let fraction := 1075 - field
    .ofBits (bits >>> fraction <<< fraction)
  else x

/-- How two doubles compare: a `NaN` with nothing, and the two zeros as equal. -/
def compare? (x y : Float) : Option Ordering :=
  if x < y then some .lt
  else if y < x then some .gt
  else if x == y then some .eq
  else none

end ScopedLisp.Number
