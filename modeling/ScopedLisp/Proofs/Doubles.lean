import Mathlib
import ScopedLisp.Number

/-!
# The order of doubles

Every double that is a number has a rank: its sign and kind first, then its exponent, then its
mantissa. Ranks are in lexicographic order, and that is the order of the doubles
(`compare?_eq_compare_rank`). The two zeros have one rank, and `NaN` has none. So what is to be said
of the comparison of doubles is said of a linear order, and nothing else looks into the bits.
-/

namespace ScopedLisp.Number

open Float.Model

/-- The place of a double among all doubles. -/
abbrev Rank := ℤ ×ₗ ℤ ×ₗ ℤ

/-- The rank of a double that is taken apart. Below zero, a greater exponent or a greater mantissa
is farther down. -/
def rankOf : UnpackedFloat → Option Rank
  | .notANumber => none
  | .infinity s => some (toLex (s.apply 2, toLex (0, 0)))
  | .zero _ => some (toLex (0, toLex (0, 0)))
  | .finite s m e _ => some (toLex (s.apply 1, toLex (s.apply e, s.apply m)))

def rank? (x : Float) : Option Rank := rankOf x.toModel.unpack

/-! ## Comparing ranks -/

theorem compare_rank (a b c a' b' c' : ℤ) :
    compare (toLex (a, toLex (b, c)) : Rank) (toLex (a', toLex (b', c'))) =
      (compare a a').then ((compare b b').then (compare c c')) := rfl

theorem compare_neg (a b : ℤ) : compare (-a) (-b) = (compare a b).swap := by
  rw [Int.compare_swap]
  simp only [compare, compareOfLessAndEq]
  grind

theorem compare_natCast (m n : ℕ) : compare (m : ℤ) (n : ℤ) = compare m n := by
  simp only [compare, compareOfLessAndEq]
  grind

/-- Two doubles taken apart compare as their ranks do. -/
theorem compare_eq_compare_rankOf (u v : UnpackedFloat) :
    u.compare v = (rankOf u).bind fun p => (rankOf v).map (compare p) := by
  cases u with
  | notANumber => rfl
  | infinity s =>
    cases v with
    | notANumber => cases s <;> rfl
    | infinity t => cases s <;> cases t <;> rfl
    | zero t => cases s <;> rfl
    | finite t => cases s <;> cases t <;> rfl
  | zero s =>
    cases v with
    | notANumber => rfl
    | infinity t => cases t <;> rfl
    | zero t => rfl
    | finite t => cases t <;> rfl
  | finite s m e =>
    cases v with
    | notANumber => cases s <;> rfl
    | infinity t => cases s <;> cases t <;> rfl
    | zero t => cases s <;> rfl
    | finite t m' e' =>
      cases s <;> cases t
      case negative.positive => rfl
      case positive.negative => rfl
      case positive.positive =>
        simp only [UnpackedFloat.compare, rankOf, Option.bind_some, Option.map_some, compare_rank,
          UnpackedFloat.Sign.apply, compare_natCast]
        rfl
      case negative.negative =>
        simp only [UnpackedFloat.compare, rankOf, Option.bind_some, Option.map_some, compare_rank,
          UnpackedFloat.Sign.apply, compare_neg, compare_natCast, Ordering.swap_then]
        rfl

theorem rank?_eq_none_iff {x : Float} : rank? x = none ↔ x.isNaN = true := by
  show rankOf x.toModel.unpack = none ↔ x.toModel.unpack.isNaN = true
  cases x.toModel.unpack <;> simp [rankOf, UnpackedFloat.isNaN]

/-! ## Comparing doubles -/

variable {x y z : Float}

/-- How the ranks compare, if there are two. -/
theorem compare_toModel (x y : Float) :
    x.toModel.compare y.toModel = (rank? x).bind fun p => (rank? y).map (compare p) :=
  compare_eq_compare_rankOf x.toModel.unpack y.toModel.unpack

theorem lt_iff_compare : x < y ↔ x.toModel.compare y.toModel = some .lt := by
  show decide (x.toModel < y.toModel) = true ↔ _
  rw [decide_eq_true_iff]
  exact beq_iff_eq (a := x.toModel.compare y.toModel)

theorem beq_iff_compare : (x == y) = true ↔ x.toModel.compare y.toModel = some .eq :=
  beq_iff_eq (a := x.toModel.compare y.toModel)

/-- **Doubles compare as their ranks do**, and those without a rank do not. -/
theorem compare?_eq_compare_rank (x y : Float) :
    compare? x y = (rank? x).bind fun p => (rank? y).map (compare p) := by
  rw [compare?]
  simp only [lt_iff_compare, beq_iff_compare, compare_toModel]
  cases rank? x with
  | none => simp
  | some p =>
    cases rank? y with
    | none => simp
    | some q =>
      have hswap : compare q p = (compare p q).swap := Std.OrientedCmp.eq_swap
      cases h : compare p q <;> simp [h, hswap]

theorem compare?_eq_none_iff : compare? x y = none ↔ x.isNaN = true ∨ y.isNaN = true := by
  rw [compare?_eq_compare_rank, ← rank?_eq_none_iff, ← rank?_eq_none_iff]
  cases rank? x <;> simp

/-! ## Equality of doubles -/

theorem beq_iff_compare? : (x == y) = true ↔ compare? x y = some .eq := by
  rw [beq_iff_compare, compare_toModel, compare?_eq_compare_rank]

/-- Doubles are equal if they are numbers of one rank. -/
theorem beq_iff_rank : (x == y) = true ↔ ∃ r, rank? x = some r ∧ rank? y = some r := by
  rw [beq_iff_compare, compare_toModel]
  cases rank? x with
  | none => simp
  | some p =>
    cases rank? y with
    | none => simp
    | some q =>
      rw [Option.bind_some, Option.map_some, Option.some_inj, compare_eq_iff_eq]
      simp [eq_comm]

end ScopedLisp.Number
