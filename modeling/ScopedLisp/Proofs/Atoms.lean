import Mathlib.Algebra.Group.Int.Defs
import Mathlib.Data.List.TakeWhile
import ScopedLisp.Proofs.Numerals

/-!
# What an atom is

The grammar of atoms, apart from how they are recognised: integer numerals in the range of integers,
decimal numerals, reserved words, and names. The recognisers of the reader are tried in this order,
and `atom_classified` says that each of them takes exactly the texts of its grammar.

Doubles are usually spelled in a wider grammar, with words for infinity and for `NaN`. These words
are names here: `IsDouble` is the wider grammar, and what has a digit is the same in both.
-/

namespace ScopedLisp

namespace Decimal

/-! ## The grammar -/

/-- One or more ASCII digits. -/
def IsDigits (text : List Char) : Prop := text ≠ [] ∧ ∀ c ∈ text, c.isDigit = true

/-- A sign, or none, and whether it is a minus. -/
inductive IsSign : Bool → List Char → Prop
  | none : IsSign false []
  | plus : IsSign false ['+']
  | minus : IsSign true ['-']

/-- The text is an integer numeral, and `n` its value. -/
def Spells (text : List Char) (n : Int) : Prop :=
  ∃ negative sign digits, IsSign negative sign ∧ IsDigits digits ∧ text = sign ++ digits ∧
    n = if negative then -(Nat.ofDigitChars 10 digits 0 : Int) else Nat.ofDigitChars 10 digits 0

/-- Digits with at most one point among them and at least one digit in all. -/
structure IsMantissa (text : List Char) : Prop where
  chars : ∀ c ∈ text, c.isDigit = true ∨ c = '.'
  points : text.count '.' ≤ 1
  digit : ∃ c ∈ text, c.isDigit = true

/-- Nothing, or `e` or `E`, an optional sign and one or more digits. -/
inductive IsExponent : List Char → Prop
  | none : IsExponent []
  | some {e : Char} {negative : Bool} {sign digits : List Char} (he : e = 'e' ∨ e = 'E')
      (hsign : IsSign negative sign) (hdigits : IsDigits digits) :
      IsExponent (e :: (sign ++ digits))

/-- The text is a decimal numeral. -/
def IsDecimal (text : List Char) : Prop :=
  ∃ negative sign mantissa exponent, IsSign negative sign ∧ IsMantissa mantissa ∧
    IsExponent exponent ∧ text = sign ++ (mantissa ++ exponent)

/-- The text is a word for infinity or for `NaN`, in letters of either case, maybe after a sign. -/
def IsDoubleWord (text : List Char) : Prop :=
  ∃ negative sign word, IsSign negative sign ∧ text = sign ++ word ∧
    word.map Char.toLower ∈ ["inf".toList, "infinity".toList, "nan".toList]

/-- The text spells a double in the wider grammar. -/
def IsDouble (text : List Char) : Prop := IsDecimal text ∨ IsDoubleWord text

/-! ## Signs -/

theorem IsSign.splitSign {negative : Bool} {sign rest : List Char} (h : IsSign negative sign)
    (hrest : ∀ c ∈ rest.head?, c ≠ '-' ∧ c ≠ '+') :
    Decimal.splitSign (sign ++ rest) = (negative, rest) := by
  cases h with
  | none =>
    rw [List.nil_append]
    unfold Decimal.splitSign
    split
    · exact absurd rfl (hrest '-' rfl).1
    · exact absurd rfl (hrest '+' rfl).2
    · rfl
  | plus | minus => rfl

theorem exists_sign (text : List Char) :
    ∃ sign, IsSign (splitSign text).1 sign ∧ text = sign ++ (splitSign text).2 := by
  unfold splitSign
  split
  · exact ⟨['-'], .minus, rfl⟩
  · exact ⟨['+'], .plus, rfl⟩
  · exact ⟨[], .none, rfl⟩

theorem ne_sign_of_isDigit {c : Char} (h : c.isDigit = true) : c ≠ '-' ∧ c ≠ '+' := by
  constructor
  · rintro rfl
    exact absurd h (by decide)
  · rintro rfl
    exact absurd h (by decide)

/-! ## Integer numerals -/

theorem IsDigits.head {digits : List Char} (h : IsDigits digits) (rest : List Char) :
    ∀ c ∈ (digits ++ rest).head?, c.isDigit = true :=
  isDigit_of_mem_head? h.1 h.2 rest

theorem integer?_eq_some_iff {text : List Char} {n : Int} :
    integer? text = some n ↔ Spells text n := by
  constructor
  · intro h
    obtain ⟨sign, hsign, htext⟩ := exists_sign text
    rw [integer?] at h
    split at h
    next negative digits hsplit =>
    rw [hsplit] at hsign htext
    split at h
    · cases h
    · next hdigits =>
      simp only [Bool.or_eq_true, Bool.not_eq_true', not_or, Bool.not_eq_false,
        List.isEmpty_iff, List.all_eq_true] at hdigits
      refine ⟨negative, sign, digits, hsign, hdigits, htext, ?_⟩
      rw [← ofDigits_eq_ofDigitChars]
      cases negative <;> exact (Option.some.inj h).symm
  · rintro ⟨negative, sign, digits, hsign, hdigits, rfl, rfl⟩
    have hhead := hdigits.head []
    rw [List.append_nil] at hhead
    have hsplit := hsign.splitSign fun c hc => ne_sign_of_isDigit (hhead c hc)
    have hsome : digits.isEmpty = false := by simpa using hdigits.1
    have hall : digits.all Char.isDigit = true := List.all_eq_true.mpr hdigits.2
    rw [integer?, hsplit, ← ofDigits_eq_ofDigitChars]
    simp only [hsome, hall]
    cases negative <;> rfl

theorem exponent?_isSome_iff {text : List Char} : (exponent? text).isSome ↔ IsExponent text := by
  cases text with
  | nil => simp [exponent?, IsExponent.none]
  | cons e rest =>
    rw [exponent?]
    by_cases he : e = 'e' ∨ e = 'E'
    · rw [if_pos he, Option.isSome_iff_exists]
      simp only [integer?_eq_some_iff]
      constructor
      · rintro ⟨n, negative, sign, digits, hsign, hdigits, rfl, -⟩
        exact .some he hsign hdigits
      · intro h
        cases h with
        | some _ hsign hdigits => exact ⟨_, _, _, _, hsign, hdigits, rfl, rfl⟩
    · rw [if_neg he]
      refine iff_of_false (by simp) fun h => ?_
      cases h with
      | some he' => exact he he'

theorem IsExponent.head {text : List Char} (h : IsExponent text) :
    ∀ c ∈ text.head?, c.isDigit = false ∧ c ≠ '.' := by
  cases h with
  | none => simp
  | some he =>
    intro c hc
    obtain rfl : _ = c := by simpa using hc
    rcases he with rfl | rfl <;> decide

/-! ## Decimal numerals -/

/-- The digits before and behind the point of a mantissa that has one; all are before it, if not. -/
inductive Parts (whole : List Char) : List Char → List Char → Prop
  | plain : Parts whole [] whole
  | pointed (fraction : List Char) : Parts whole fraction (whole ++ '.' :: fraction)

/-- Without a point, the characters of a mantissa are digits. -/
theorem isDigit_of_no_point {text : List Char} (h : ∀ c ∈ text, c.isDigit = true ∨ c = '.')
    (hpoint : '.' ∉ text) : ∀ c ∈ text, c.isDigit = true := by
  intro c hc
  refine (h c hc).resolve_right ?_
  rintro rfl
  exact hpoint hc

theorem no_point_of_isDigit {text : List Char} (h : ∀ c ∈ text, c.isDigit = true) :
    text.count '.' = 0 :=
  List.count_eq_zero.mpr fun hmem => absurd (h '.' hmem) (by decide)

theorem isMantissa_iff {text : List Char} :
    IsMantissa text ↔
      ∃ whole fraction, Parts whole fraction text ∧ IsDigits (whole ++ fraction) := by
  constructor
  · intro ⟨hchars, hpoints, d, hd, hdigit⟩
    by_cases hmem : '.' ∈ text
    · obtain ⟨whole, fraction, rfl⟩ := List.append_of_mem hmem
      -- there is no other point
      simp only [List.count_append, List.count_cons_self] at hpoints
      have hwhole : '.' ∉ whole := List.count_eq_zero.mp (by omega)
      have hfraction : '.' ∉ fraction := List.count_eq_zero.mp (by omega)
      have hdigits : ∀ c ∈ whole ++ fraction, c.isDigit = true := by
        refine isDigit_of_no_point (fun c hc => hchars c ?_) (by simp [hwhole, hfraction])
        simp only [List.mem_append, List.mem_cons] at hc ⊢
        exact hc.imp_right .inr
      have hne : whole ++ fraction ≠ [] := by
        rintro hnil
        obtain ⟨rfl, rfl⟩ := List.append_eq_nil_iff.mp hnil
        obtain rfl : d = '.' := by simpa using hd
        exact absurd hdigit (by decide)
      exact ⟨whole, fraction, .pointed fraction, hne, hdigits⟩
    · refine ⟨text, [], .plain, ?_⟩
      rw [List.append_nil]
      exact ⟨List.ne_nil_of_mem hd, isDigit_of_no_point hchars hmem⟩
  · rintro ⟨whole, fraction, hparts, hne, hdigits⟩
    obtain ⟨d, hd⟩ := List.exists_mem_of_ne_nil _ hne
    have hcount := no_point_of_isDigit hdigits
    cases hparts with
    | plain =>
      rw [List.append_nil] at hd hdigits hcount
      exact ⟨fun c hc => .inl (hdigits c hc), by omega, d, hd, hdigits d hd⟩
    | pointed =>
      refine ⟨fun c hc => ?_, ?_, d, ?_, hdigits d hd⟩
      · simp only [List.mem_append, List.mem_cons] at hc
        rcases hc with hc | rfl | hc
        · exact .inl (hdigits c (List.mem_append_left _ hc))
        · exact .inr rfl
        · exact .inl (hdigits c (List.mem_append_right _ hc))
      · rw [List.count_append] at hcount
        rw [List.count_append, List.count_cons_self]
        omega
      · simp only [List.mem_append, List.mem_cons] at hd ⊢
        exact hd.imp_right .inr

theorem splitFraction_of_head {text : List Char} (h : ∀ c ∈ text.head?, c ≠ '.') :
    splitFraction text = ([], text) := by
  unfold splitFraction
  split
  · exact absurd rfl (h '.' rfl)
  · rfl

/-- A mantissa comes apart at its point, and stops before what follows it. -/
theorem Parts.split {whole fraction mantissa tail : List Char} (h : Parts whole fraction mantissa)
    (hdigits : ∀ c ∈ whole ++ fraction, c.isDigit = true)
    (htail : ∀ c ∈ tail.head?, c.isDigit = false ∧ c ≠ '.') :
    ∃ rest, (mantissa ++ tail).span Char.isDigit = (whole, rest) ∧
      splitFraction rest = (fraction, tail) := by
  have hwhole : ∀ c ∈ whole, c.isDigit = true := fun c hc => hdigits c (List.mem_append_left _ hc)
  have hfraction : ∀ c ∈ fraction, c.isDigit = true :=
    fun c hc => hdigits c (List.mem_append_right _ hc)
  cases h with
  | plain =>
    exact ⟨tail, span_isDigit hwhole fun c hc => (htail c hc).1,
      splitFraction_of_head fun c hc => (htail c hc).2⟩
  | pointed =>
    refine ⟨'.' :: (fraction ++ tail), ?_, span_isDigit hfraction fun c hc => (htail c hc).1⟩
    rw [List.append_assoc]
    refine span_isDigit hwhole fun c hc => ?_
    obtain rfl : '.' = c := by simpa using hc
    decide

theorem of_span_isDigit {text digits rest : List Char}
    (h : text.span Char.isDigit = (digits, rest)) :
    (∀ c ∈ digits, c.isDigit = true) ∧ text = digits ++ rest := by
  rw [List.span_eq_takeWhile_dropWhile] at h
  obtain ⟨rfl, rfl⟩ := Prod.mk.inj h
  exact ⟨fun c hc => List.mem_takeWhile_imp hc, List.takeWhile_append_dropWhile.symm⟩

/-- What has been taken off a text is a mantissa, if it has digits. -/
theorem exists_parts {text whole rest fraction tail : List Char}
    (hspan : text.span Char.isDigit = (whole, rest))
    (hsplit : splitFraction rest = (fraction, tail)) :
    ∃ mantissa, Parts whole fraction mantissa ∧ (∀ c ∈ whole ++ fraction, c.isDigit = true) ∧
      text = mantissa ++ tail := by
  obtain ⟨hwhole, rfl⟩ := of_span_isDigit hspan
  unfold splitFraction at hsplit
  split at hsplit
  · obtain ⟨hfraction, rfl⟩ := of_span_isDigit hsplit
    refine ⟨_, .pointed fraction, fun c hc => ?_, by simp⟩
    exact (List.mem_append.mp hc).elim (hwhole c) (hfraction c)
  · obtain ⟨rfl, rfl⟩ := Prod.mk.inj hsplit
    refine ⟨_, .plain, ?_, rfl⟩
    rwa [List.append_nil]

theorem Parts.head {whole fraction mantissa : List Char} (h : Parts whole fraction mantissa)
    (hdigits : IsDigits (whole ++ fraction)) (rest : List Char) :
    ∀ c ∈ (mantissa ++ rest).head?, c ≠ '-' ∧ c ≠ '+' := by
  intro c hc
  cases h with
  | plain =>
    rw [List.append_nil] at hdigits
    exact ne_sign_of_isDigit (hdigits.head rest c hc)
  | pointed =>
    cases whole with
    | nil =>
      obtain rfl : '.' = c := by simpa using hc
      decide
    | cons d whole =>
      obtain rfl : d = c := by simpa using hc
      exact ne_sign_of_isDigit (hdigits.2 d List.mem_cons_self)

theorem numeral?_isSome_iff {text : List Char} : (numeral? text).isSome ↔ IsDecimal text := by
  constructor
  · intro h
    obtain ⟨sign, hsign, htext⟩ := exists_sign text
    rw [numeral?] at h
    split at h
    next negative unsigned hunsigned =>
    split at h
    next whole rest hspan =>
    split at h
    next fraction tail hsplit =>
    obtain ⟨mantissa, hparts, hdigits, hmantissa⟩ := exists_parts hspan hsplit
    rw [hunsigned, hmantissa] at htext
    split at h
    · cases h
    · next hne =>
      rw [Option.isSome_map, exponent?_isSome_iff] at h
      have hne' : whole ++ fraction ≠ [] := by simpa using hne
      exact ⟨_, sign, mantissa, tail, hsign,
        isMantissa_iff.mpr ⟨whole, fraction, hparts, hne', hdigits⟩, h, htext⟩
  · rintro ⟨negative, sign, mantissa, tail, hsign, hmantissa, htail, rfl⟩
    obtain ⟨whole, fraction, hparts, hdigits⟩ := isMantissa_iff.mp hmantissa
    obtain ⟨rest, hspan, hsplit⟩ := hparts.split hdigits.2 htail.head
    have hne : ¬ (whole.isEmpty && fraction.isEmpty) = true := by
      simpa using hdigits.1
    rw [numeral?, hsign.splitSign (hparts.head hdigits tail)]
    simp only [hspan, hsplit]
    rw [if_neg hne, Option.isSome_map, exponent?_isSome_iff]
    exact htail

/-! ## Words for doubles -/

theorem toLower_of_isDigit {c : Char} (h : c.isDigit = true) : c.toLower = c := by
  simp only [Char.isDigit, Bool.and_eq_true, decide_eq_true_eq] at h
  have hdigit : c.toNat ≤ 57 := h.2
  refine dif_neg fun hupper => ?_
  have hletter : 65 ≤ c.toNat := hupper.1
  omega

theorem IsDoubleWord.not_isDigit {text : List Char} (h : IsDoubleWord text) :
    ∀ c ∈ text, ¬ c.isDigit = true := by
  obtain ⟨negative, sign, word, hsign, rfl, hword⟩ := h
  intro c hc hdigit
  rcases List.mem_append.mp hc with hc | hc
  · have hne := ne_sign_of_isDigit hdigit
    cases hsign with
    | none => exact absurd hc List.not_mem_nil
    | plus => exact hne.2 (List.mem_singleton.mp hc)
    | minus => exact hne.1 (List.mem_singleton.mp hc)
  · have hletters : (["inf".toList, "infinity".toList, "nan".toList].flatten.all
        fun c => !c.isDigit) = true := by decide
    have hlower := List.mem_map_of_mem (f := Char.toLower) hc
    rw [toLower_of_isDigit hdigit] at hlower
    have hletter := List.all_eq_true.mp hletters c (List.mem_flatten.mpr ⟨_, hword, hlower⟩)
    rw [hdigit] at hletter
    cases hletter

theorem IsDoubleWord.ne_name {text : List Char} (h : IsDoubleWord text) (form : SpecialForm) :
    text ≠ form.name.toList := by
  rintro rfl
  obtain ⟨negative, sign, word, hsign, htext, hword⟩ := h
  cases hsign with
  | none =>
    rw [List.nil_append] at htext
    rw [← htext] at hword
    revert hword
    cases form <;> decide
  | plus | minus => cases form <;> cases htext

/-- A decimal numeral has a digit, and the words for doubles have none. -/
theorem isDouble_and_digit_iff {text : List Char} :
    (IsDouble text ∧ ∃ c ∈ text, c.isDigit = true) ↔ IsDecimal text := by
  constructor
  · rintro ⟨hdecimal | hword, c, hc, hdigit⟩
    · exact hdecimal
    · exact absurd hdigit (hword.not_isDigit c hc)
  · intro hdecimal
    refine ⟨.inl hdecimal, ?_⟩
    obtain ⟨negative, sign, mantissa, tail, -, hmantissa, -, rfl⟩ := hdecimal
    obtain ⟨c, hc, hdigit⟩ := hmantissa.digit
    exact ⟨c, by simp [hc], hdigit⟩

end Decimal

namespace Reader

open Decimal

/-- The text is an integer numeral for `n`, and `n` is in the range of integers. -/
def SpellsInteger (text : List Char) (n : Int) : Prop :=
  Spells text n ∧ -2 ^ 63 ≤ n ∧ n ≤ 2 ^ 63 - 1

variable {text : List Char} {m n : Int}

theorem integer?_of_spells (h : SpellsInteger text n) : integer? text = some (.ofInt n) := by
  obtain ⟨hspells, hrange⟩ := h
  rw [integer?, integer?_eq_some_iff.mpr hspells]
  exact if_pos ⟨hrange.1, hrange.2⟩

theorem spells_of_integer? {n : Int64} (h : integer? text = some n) :
    SpellsInteger text n.toInt := by
  unfold integer? at h
  split at h
  · next k hk =>
    split at h
    · next hrange =>
      cases h
      rw [SpellsInteger, Int64.toInt_ofInt_of_le hrange.1 (Int.lt_add_one_of_le hrange.2)]
      exact ⟨integer?_eq_some_iff.mp hk, hrange⟩
    · cases h
  · cases h

theorem spells_unique (hm : SpellsInteger text m) (hn : SpellsInteger text n) : m = n :=
  Option.some.inj
    ((integer?_eq_some_iff.mpr hm.1).symm.trans (integer?_eq_some_iff.mpr hn.1))

/-! ## Names -/

theorem ofName_eq_special_iff {name : String} {form : SpecialForm} :
    Value.ofName name = .special form ↔ name = form.name := by
  unfold Value.ofName
  constructor
  · intro h
    split at h
    · next hform =>
      cases h
      exact (SpecialForm.name_of_ofName? hform).symm
    · cases h
  · rintro rfl
    rw [SpecialForm.ofName?_name]

theorem ofName_eq_symbol_iff {name other : String} :
    Value.ofName name = .symbol other ↔ other = name ∧ ∀ form, name ≠ SpecialForm.name form := by
  unfold Value.ofName
  constructor
  · intro h
    split at h
    · cases h
    · next hnone =>
      cases h
      refine ⟨rfl, ?_⟩
      rintro form rfl
      rw [SpecialForm.ofName?_name] at hnone
      cases hnone
  · rintro ⟨rfl, hne⟩
    split
    · next form hform => exact absurd (SpecialForm.name_of_ofName? hform).symm (hne form)
    · rfl

theorem isDecimal_of_spells (h : Spells text n) : IsDecimal text := by
  obtain ⟨negative, sign, digits, hsign, hdigits, rfl, -⟩ := h
  have hparts : Parts digits [] digits := .plain
  refine ⟨negative, sign, digits, [], hsign, isMantissa_iff.mpr ⟨digits, [], hparts, ?_⟩, .none, ?_⟩
  · rwa [List.append_nil]
  · rw [List.append_nil]

/-- No reserved word is a numeral. -/
theorem not_decimal_name (form : SpecialForm) : ¬ IsDecimal form.name.toList := by
  rw [← numeral?_isSome_iff]
  cases form <;> decide

/-! ## Atoms -/

/-- The three ways to read an atom, each where those before it do not apply. -/
theorem atom_cases {text : String} (hne : text ≠ "") :
    (∃ n : Int64, SpellsInteger text.toList n.toInt ∧ atom text = .ok (.integer n)) ∨
      (¬ ∃ n, SpellsInteger text.toList n) ∧
        (IsDecimal text.toList ∧ (∃ x, atom text = .ok (.float x)) ∨
          ¬ IsDecimal text.toList ∧ atom text = .ok (.ofName text)) := by
  have hempty : ¬ text.isEmpty = true := by simpa using hne
  unfold atom
  rw [if_neg hempty]
  cases hinteger : integer? text.toList with
  | some n => exact .inl ⟨n, spells_of_integer? hinteger, rfl⟩
  | none =>
    refine .inr ⟨?_, ?_⟩
    · rintro ⟨n, hn⟩
      rw [integer?_of_spells hn] at hinteger
      cases hinteger
    · rw [← numeral?_isSome_iff]
      cases numeral? text.toList with
      | some numeral => exact .inl ⟨rfl, _, rfl⟩
      | none => exact .inr ⟨by simp, rfl⟩

theorem isNumber_ofName (name : String) : (Value.ofName name).isNumber = false := by
  unfold Value.ofName
  split <;> rfl

section Atom

variable {t : String} (hne : t ≠ "")

include hne

theorem atom_eq_integer_iff {n : Int64} :
    atom t = .ok (.integer n) ↔ SpellsInteger t.toList n.toInt := by
  rcases atom_cases hne with ⟨m, hm, hatom⟩ | ⟨hnone, hatom⟩
  · rw [hatom, Except.ok.injEq, Value.integer.injEq]
    constructor
    · rintro rfl
      exact hm
    · intro hn
      exact Int64.toInt_inj.mp (spells_unique hm hn)
  · refine iff_of_false ?_ fun hn => hnone ⟨_, hn⟩
    intro h
    rcases hatom with ⟨-, x, hatom⟩ | ⟨-, hatom⟩
    · cases hatom.symm.trans h
    · have hnumber := isNumber_ofName t
      rw [Except.ok.inj (hatom.symm.trans h)] at hnumber
      cases hnumber

theorem atom_eq_float_iff :
    (∃ x, atom t = .ok (.float x)) ↔ (¬ ∃ n, SpellsInteger t.toList n) ∧ IsDecimal t.toList := by
  rcases atom_cases hne with ⟨m, hm, hatom⟩ | ⟨hnone, ⟨hdecimal, hatom⟩ | ⟨hdecimal, hatom⟩⟩
  · refine iff_of_false ?_ fun h => h.1 ⟨_, hm⟩
    rintro ⟨x, h⟩
    cases hatom.symm.trans h
  · exact iff_of_true hatom ⟨hnone, hdecimal⟩
  · refine iff_of_false ?_ fun h => hdecimal h.2
    rintro ⟨x, h⟩
    have hnumber := isNumber_ofName t
    rw [Except.ok.inj (hatom.symm.trans h)] at hnumber
    cases hnumber

/-- What is no numeral is a name, and nothing else is. -/
theorem atom_eq_iff_of_isNumber {v : Value} (hv : v.isNumber = false) :
    atom t = .ok v ↔
      Value.ofName t = v ∧ (¬ ∃ n, SpellsInteger t.toList n) ∧ ¬ IsDecimal t.toList := by
  rcases atom_cases hne with ⟨m, hm, hatom⟩ | ⟨hnone, ⟨hdecimal, x, hatom⟩ | ⟨hdecimal, hatom⟩⟩
  · refine iff_of_false ?_ fun h => h.2.1 ⟨_, hm⟩
    rw [hatom]
    rintro ⟨⟩
    cases hv
  · refine iff_of_false ?_ fun h => h.2.2 hdecimal
    rw [hatom]
    rintro ⟨⟩
    cases hv
  · rw [hatom, Except.ok.injEq]
    exact (and_iff_left ⟨hnone, hdecimal⟩).symm

theorem atom_eq_special_iff {form : SpecialForm} :
    atom t = .ok (.special form) ↔ t = form.name := by
  rw [atom_eq_iff_of_isNumber hne rfl, ofName_eq_special_iff, and_iff_left_of_imp]
  rintro rfl
  have hdecimal := not_decimal_name form
  exact ⟨fun ⟨n, hn⟩ => hdecimal (isDecimal_of_spells hn.1), hdecimal⟩

theorem atom_eq_symbol_iff {name : String} :
    atom t = .ok (.symbol name) ↔
      name = t ∧ (¬ ∃ n, SpellsInteger t.toList n) ∧ ¬ IsDecimal t.toList ∧
        ∀ form, t ≠ SpecialForm.name form := by
  rw [atom_eq_iff_of_isNumber hne rfl, ofName_eq_symbol_iff]
  tauto

/-- Words for doubles are names. -/
theorem atom_of_isDoubleWord (h : IsDoubleWord t.toList) : atom t = .ok (.symbol t) := by
  have hdecimal : ¬ IsDecimal t.toList := by
    rw [← isDouble_and_digit_iff]
    rintro ⟨-, c, hc, hdigit⟩
    exact h.not_isDigit c hc hdigit
  refine (atom_eq_symbol_iff hne).mpr ⟨rfl, ?_, hdecimal, ?_⟩
  · rintro ⟨n, hn⟩
    exact hdecimal (isDecimal_of_spells hn.1)
  · rintro form rfl
    exact h.ne_name form rfl

end Atom

/-- **An atom is what the grammar says.** It is an integer if it is an integer numeral in range, and
a float if it is another decimal numeral; it is a special form if it is a reserved word, and in all
other cases the symbol of that name. What is a decimal numeral has a digit and spells a double in
the wider grammar; the words of that grammar have no digit, and they are names. -/
theorem atom_classified {t : String} (hne : t ≠ "") :
    (∀ n : Int64, atom t = .ok (.integer n) ↔ SpellsInteger t.toList n.toInt) ∧
    ((∃ x, atom t = .ok (.float x)) ↔
      (¬ ∃ n, SpellsInteger t.toList n) ∧ IsDecimal t.toList) ∧
    (IsDecimal t.toList ↔ IsDouble t.toList ∧ ∃ c ∈ t.toList, c.isDigit = true) ∧
    (∀ form, atom t = .ok (.special form) ↔ t = form.name) ∧
    (∀ name, atom t = .ok (.symbol name) ↔
      name = t ∧ (¬ ∃ n, SpellsInteger t.toList n) ∧ ¬ IsDecimal t.toList ∧
        ∀ form, t ≠ SpecialForm.name form) ∧
    (IsDoubleWord t.toList → atom t = .ok (.symbol t)) ∧
    (t ∈ ["+", "-", ".", "1e", "1-", "٣"] → atom t = .ok (.symbol t)) := by
  refine ⟨fun n => atom_eq_integer_iff hne, atom_eq_float_iff hne, isDouble_and_digit_iff.symm,
    fun form => atom_eq_special_iff hne, fun name => atom_eq_symbol_iff hne,
    atom_of_isDoubleWord hne, fun h => ?_⟩
  simp only [List.mem_cons, List.not_mem_nil, or_false] at h
  rcases h with rfl | rfl | rfl | rfl | rfl | rfl <;> rfl

/-- One more than the highest integer is a float, the lowest integer is one, and an infinity is a
name in any letters. -/
theorem atom_classified_limits :
    (∃ x, atom "9223372036854775808" = .ok (.float x)) ∧
      atom "-9223372036854775808" = .ok (.integer Int64.minValue) ∧
      atom "set!" = .ok (.special .assign) ∧
      atom "-Infinity" = .ok (.symbol "-Infinity") ∧
      atom "1-" = .ok (.symbol "1-") := by
  have hhigh := atom_classified (t := "9223372036854775808") (by decide)
  have hlow := atom_classified (t := "-9223372036854775808") (by decide)
  have hform := atom_classified (t := "set!") (by decide)
  have hword := atom_classified (t := "-Infinity") (by decide)
  have hname := atom_classified (t := "1-") (by decide)
  refine ⟨hhigh.2.1.mpr ⟨?_, numeral?_isSome_iff.mp (by decide)⟩,
    (hlow.1 _).mpr ⟨integer?_eq_some_iff.mp (by decide), by decide⟩,
    (hform.2.2.2.1 _).mpr rfl,
    hword.2.2.2.2.2.1 ⟨true, ['-'], "Infinity".toList, .minus, rfl, by decide⟩,
    hname.2.2.2.2.2.2 (by decide)⟩
  rintro ⟨n, hspells, -, hrange⟩
  have hvalue : Decimal.integer? "9223372036854775808".toList = some 9223372036854775808 := by
    decide
  rw [integer?_eq_some_iff.mpr hspells] at hvalue
  obtain rfl := Option.some.inj hvalue
  exact absurd hrange (by decide)

end Reader

end ScopedLisp
