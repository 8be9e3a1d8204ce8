import Mathlib.Data.List.TakeDrop
import ScopedLisp.Reader
import ScopedLisp.Value.Render

/-!
# Printed numbers are numerals

The text of an integer is an integer numeral and reads back as that integer, at both ends of the
range too. The text of a finite float is a decimal numeral and no integer numeral, whatever its
size: the point is always printed. What it reads as is the float rounded to the printed decimals.

The sign comes off first in both, so the facts about digits are stated about texts without one.
-/

namespace ScopedLisp

namespace Decimal

/-! ## Rows of digits -/

theorem ofDigits_eq_ofDigitChars (digits : List Char) :
    ofDigits digits = Nat.ofDigitChars 10 digits 0 :=
  Nat.ofDigitChars_eq_foldl.symm

theorem ofDigits_toDigits (n : Nat) : ofDigits (Nat.toDigits 10 n) = n := by
  rw [ofDigits_eq_ofDigitChars, Nat.ofDigitChars_ten_toDigits]

theorem ofDigits_append (whole fraction : List Char) :
    ofDigits (whole ++ fraction) = Nat.pow 10 fraction.length * ofDigits whole + ofDigits fraction := by
  simp only [ofDigits_eq_ofDigitChars]
  rw [Nat.ofDigitChars_append, Nat.ofDigitChars_eq_ofDigitChars_zero]
  rfl

theorem ofDigits_leftpad (places : Nat) (digits : List Char) :
    ofDigits (digits.leftpad places '0') = ofDigits digits := by
  simp only [ofDigits_eq_ofDigitChars]
  rw [List.leftpad, Nat.ofDigitChars_append, Nat.ofDigitChars_replicate_zero, Nat.mul_zero]

theorem isDigit_of_mem_toDigits {n : Nat} {c : Char} (h : c ∈ Nat.toDigits 10 n) :
    c.isDigit = true :=
  Nat.isDigit_of_mem_toDigits (by decide) (by decide) h

theorem isDigit_of_mem_leftpad {places n : Nat} {c : Char}
    (h : c ∈ (Nat.toDigits 10 n).leftpad places '0') : c.isDigit = true := by
  rcases List.mem_append.mp h with h | h
  · rw [List.eq_of_mem_replicate h]
    rfl
  · exact isDigit_of_mem_toDigits h

/-- The decimals of a number fill exactly their places. -/
theorem length_decimals {places : Nat} (hplaces : 0 < places) (n : Nat) :
    ((Nat.toDigits 10 (n % Nat.pow 10 places)).leftpad places '0').length = places := by
  have hlt : n % Nat.pow 10 places < Nat.pow 10 places := Nat.mod_lt _ (Nat.pow_pos (by decide))
  have hle := (Nat.length_toDigits_le_iff (by decide) hplaces).mpr hlt
  rw [List.length_leftpad]
  exact Nat.max_eq_left hle

theorem span_isDigit {digits rest : List Char} (hdigits : ∀ c ∈ digits, c.isDigit = true)
    (hrest : ∀ c ∈ rest.head?, c.isDigit = false) :
    (digits ++ rest).span Char.isDigit = (digits, rest) := by
  have hstop : rest.takeWhile Char.isDigit = [] ∧ rest.dropWhile Char.isDigit = rest := by
    cases rest with
    | nil => exact ⟨rfl, rfl⟩
    | cons c rest => simp [hrest c rfl]
  rw [List.span_eq_takeWhile_dropWhile, List.takeWhile_append_of_pos hdigits,
    List.dropWhile_append_of_pos hdigits, hstop.1, hstop.2, List.append_nil]

theorem isDigit_of_mem_head? {digits : List Char} (hne : digits ≠ [])
    (hdigits : ∀ c ∈ digits, c.isDigit = true) (rest : List Char) :
    ∀ c ∈ (digits ++ rest).head?, c.isDigit = true := by
  cases digits with
  | nil => exact absurd rfl hne
  | cons d digits =>
    intro c hc
    obtain rfl : d = c := by simpa using hc
    exact hdigits d List.mem_cons_self

theorem head?_toDigits (n : Nat) (rest : List Char) :
    ∀ c ∈ (Nat.toDigits 10 n ++ rest).head?, c.isDigit = true :=
  isDigit_of_mem_head? Nat.toDigits_ne_nil (fun _ => isDigit_of_mem_toDigits) rest

/-! ## Signs -/

theorem splitSign_of_isDigit {text : List Char} (h : ∀ c ∈ text.head?, c.isDigit = true) :
    splitSign text = (false, text) := by
  unfold splitSign
  split
  · exact absurd (h '-' rfl) (by decide)
  · exact absurd (h '+' rfl) (by decide)
  · rfl

theorem splitSign_signText (negative : Bool) {text : List Char}
    (h : ∀ c ∈ text.head?, c.isDigit = true) :
    splitSign ((Binary64.signText negative).toList ++ text) = (negative, text) := by
  cases negative with
  | false => exact splitSign_of_isDigit h
  | true => rfl

/-! ## The two kinds of number -/

theorem toString_int (n : Int) :
    (toString n).toList =
      (Binary64.signText (decide (n < 0))).toList ++ Nat.toDigits 10 n.natAbs := by
  cases n with
  | ofNat m =>
    have hsign : decide (Int.ofNat m < 0) = false := decide_eq_false (Int.not_lt.mpr (Int.natCast_nonneg m))
    rw [hsign]
    exact Nat.toList_repr
  | negSucc m =>
    have hsign : decide (Int.negSucc m < 0) = true := decide_eq_true (Int.negSucc_lt_zero m)
    rw [hsign]
    show ("-" ++ (m + 1).repr).toList = _
    rw [String.toList_append, Nat.toList_repr]
    rfl

theorem integer?_toString (n : Int) : integer? (toString n).toList = some n := by
  have hsplit := splitSign_signText (decide (n < 0)) (head?_toDigits n.natAbs [])
  rw [List.append_nil] at hsplit
  have hall : (Nat.toDigits 10 n.natAbs).all Char.isDigit = true :=
    List.all_eq_true.mpr fun c hc => isDigit_of_mem_toDigits hc
  have hne : (Nat.toDigits 10 n.natAbs).isEmpty = false := by
    simp [Nat.toDigits_ne_nil]
  rw [toString_int, integer?, hsplit]
  simp only [hall, hne, ofDigits_toDigits, Bool.not_true, Bool.or_false, Bool.false_eq_true, if_false]
  by_cases hneg : n < 0
  · rw [decide_eq_true hneg, if_pos rfl, Int.ofNat_natAbs_of_nonpos (Int.le_of_lt hneg), Int.neg_neg]
  · rw [decide_eq_false hneg, if_neg Bool.false_ne_true, Int.natAbs_of_nonneg (Int.not_lt.mp hneg)]

theorem toList_pointed (places count : Nat) :
    (pointed places count).toList = Nat.toDigits 10 (count / Nat.pow 10 places) ++
      '.' :: (Nat.toDigits 10 (count % Nat.pow 10 places)).leftpad places '0' := by
  simp [pointed]

/-- A row of digits with a point in it is no integer numeral. -/
theorem integer?_pointed (negative : Bool) (places count : Nat) :
    integer? ((Binary64.signText negative).toList ++ (pointed places count).toList) = none := by
  rw [toList_pointed, integer?, splitSign_signText negative (head?_toDigits _ _)]
  have hpoint : Char.isDigit '.' = false := by decide
  simp [hpoint]

theorem numeral?_point (negative : Bool) {whole fraction : List Char} (hne : whole ≠ [])
    (hwhole : ∀ c ∈ whole, c.isDigit = true) (hfraction : ∀ c ∈ fraction, c.isDigit = true) :
    numeral? ((Binary64.signText negative).toList ++ (whole ++ '.' :: fraction)) =
      some ⟨negative, ofDigits (whole ++ fraction), -fraction.length⟩ := by
  have hspanWhole : (whole ++ '.' :: fraction).span Char.isDigit = (whole, '.' :: fraction) := by
    refine span_isDigit hwhole fun c hc => ?_
    obtain rfl : '.' = c := by simpa using hc
    decide
  have hspanFraction : fraction.span Char.isDigit = (fraction, []) := by
    have hspan : (fraction ++ []).span Char.isDigit = _ := span_isDigit hfraction (by simp)
    rwa [List.append_nil] at hspan
  have hsome : whole.isEmpty = false := by simpa using hne
  -- the digits before the point stop at the point, and those behind it at the end
  rw [numeral?, splitSign_signText negative (isDigit_of_mem_head? hne hwhole _)]
  simp only [hspanWhole, splitFraction, hspanFraction, hsome, Bool.false_and, exponent?]
  simp

/-- The units are read back whatever their number. -/
theorem numeral?_pointed (negative : Bool) {places : Nat} (hplaces : 0 < places) (count : Nat) :
    numeral? ((Binary64.signText negative).toList ++ (pointed places count).toList) =
      some ⟨negative, count, -places⟩ := by
  rw [toList_pointed, numeral?_point negative Nat.toDigits_ne_nil
      (fun c hc => isDigit_of_mem_toDigits hc) (fun c hc => isDigit_of_mem_leftpad hc),
    length_decimals hplaces, ofDigits_append, length_decimals hplaces, ofDigits_leftpad,
    ofDigits_toDigits, ofDigits_toDigits, Nat.div_add_mod]

theorem toList_fixed {places : Nat} {x : Float} {negative : Bool} {mantissa : Nat} {exponent : Int}
    (hx : Binary64.ofFloat x = .finite negative mantissa exponent) :
    (fixed places x).toList = (Binary64.signText negative).toList ++
      (pointed places (inUnits places mantissa exponent)).toList := by
  rw [fixed, hx, String.toList_append]

end Decimal

/-! ## Numbers as atoms -/

theorem Token.isDelimiter_of_isDigit {c : Char} (h : c.isDigit = true) :
    isDelimiter c = false := by
  have hopen : c ≠ '(' := by rintro rfl; exact absurd h (by decide)
  have hclose : c ≠ ')' := by rintro rfl; exact absurd h (by decide)
  simp only [Char.isDigit, Bool.and_eq_true, decide_eq_true_eq] at h
  have hrange : 48 ≤ c.toNat ∧ c.toNat ≤ 57 := h
  have hblank : Text.isBlank c = false := by
    simp [Text.isBlank]
    omega
  simp [isDelimiter, hblank, hopen, hclose]

theorem Token.isDelimiter_of_mem_signText {negative : Bool} {c : Char}
    (h : c ∈ (Decimal.Binary64.signText negative).toList) : isDelimiter c = false := by
  cases negative with
  | false => exact absurd h (by simp [Decimal.Binary64.signText])
  | true =>
    obtain rfl : c = '-' := by simpa [Decimal.Binary64.signText] using h
    decide

namespace Reader

open Decimal

theorem isDelimiter_of_mem_toString {n : Int} {c : Char} (h : c ∈ (toString n).toList) :
    Token.isDelimiter c = false := by
  rw [toString_int] at h
  rcases List.mem_append.mp h with h | h
  · exact Token.isDelimiter_of_mem_signText h
  · exact Token.isDelimiter_of_isDigit (isDigit_of_mem_toDigits h)

theorem integer?_toString (n : Int64) : integer? (toString n.toInt).toList = some n := by
  have hrange : Int64.minValue.toInt ≤ n.toInt ∧ n.toInt ≤ Int64.maxValue.toInt :=
    ⟨n.minValue_le_toInt, n.toInt_le⟩
  rw [integer?, Decimal.integer?_toString]
  show (if _ then some (Int64.ofInt n.toInt) else none) = _
  rw [if_pos hrange, Int64.ofInt_toInt]

theorem atom_toString (n : Int64) : atom (toString n.toInt) = .ok (.integer n) := by
  have hne : (toString n.toInt).isEmpty = false := by
    rw [← Bool.not_eq_true, String.isEmpty_iff, ← String.toList_eq_nil_iff, toString_int]
    simp [Nat.toDigits_ne_nil]
  rw [atom, hne, integer?_toString]
  rfl

variable {x : Float} {negative : Bool} {mantissa : Nat} {exponent : Int}

theorem isDelimiter_of_mem_fixed (hx : Binary64.ofFloat x = .finite negative mantissa exponent)
    {places : Nat} {c : Char} (h : c ∈ (fixed places x).toList) :
    Token.isDelimiter c = false := by
  rw [toList_fixed hx, toList_pointed] at h
  rcases List.mem_append.mp h with h | h
  · exact Token.isDelimiter_of_mem_signText h
  · rcases List.mem_append.mp h with h | h
    · exact Token.isDelimiter_of_isDigit (isDigit_of_mem_toDigits h)
    · rcases List.mem_cons.mp h with rfl | h
      · decide
      · exact Token.isDelimiter_of_isDigit (isDigit_of_mem_leftpad h)

/-- The text of a finite float reads as the float of the decimals printed. -/
theorem atom_fixed (hx : Binary64.ofFloat x = .finite negative mantissa exponent) {places : Nat}
    (hplaces : 0 < places) :
    atom (fixed places x) =
      .ok (.float (Numeral.toFloat ⟨negative, inUnits places mantissa exponent, -places⟩)) := by
  have hne : (fixed places x).isEmpty = false := by
    rw [← Bool.not_eq_true, String.isEmpty_iff, ← String.toList_eq_nil_iff, toList_fixed hx,
      toList_pointed]
    simp
  have hinteger : integer? (fixed places x).toList = none := by
    rw [integer?, toList_fixed hx, integer?_pointed]
  have hnumeral := numeral?_pointed negative hplaces (inUnits places mantissa exponent)
  rw [← toList_fixed hx] at hnumeral
  rw [atom, hne, hinteger, hnumeral]
  rfl

end Reader

end ScopedLisp
