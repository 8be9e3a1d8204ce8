import ScopedLisp.Proofs.Handing
import ScopedLisp.Proofs.Rounding

/-!
# Comparing numbers

Two integers are compared as integers, and all other numbers as doubles. Every number but `NaN` has
the rank of its double, and `order?` says how two numbers compare in these terms. The five
comparisons read one order, so they agree with each other (`comparisons_consistent`).

The two ways of comparing agree as far as a conversion keeps integers apart. Beyond `2 ^ 53` it may
not, and then a float stands between integers that differ: it is equal to both. So comparison is no
preorder on numbers of both kinds; `comparison_transitive` says where it fails to be one.
-/

namespace ScopedLisp

namespace Value

/-- The value is the float that is no number. -/
def isNaN : Value → Bool
  | float x => x.isNaN
  | _ => false

/-- The rank of the double that a number counts as. -/
def rank? : Value → Option Number.Rank
  | integer n => some (Number.rankOfInteger n.toInt)
  | float x => Number.rank? x
  | _ => none

/-- How two numbers compare: integers by themselves, others by their ranks. -/
def order? : Value → Value → Option Ordering
  | integer m, integer n => some (compare m.toInt n.toInt)
  | a, b => a.rank?.bind fun p => b.rank?.map (compare p)

variable {a b : Value}

theorem isNaN_iff_rank?_eq_none (ha : a.isNumber = true) : a.isNaN = true ↔ a.rank? = none := by
  cases a with
  | integer n => simp [isNaN, rank?]
  | float x => exact Number.rank?_eq_none_iff.symm
  | _ => cases ha

theorem exists_rank? (ha : a.isNumber = true) (hnan : a.isNaN = false) : ∃ p, a.rank? = some p := by
  rw [← Option.isSome_iff_exists, ← Option.ne_none_iff_isSome, Ne, ← isNaN_iff_rank?_eq_none ha,
    hnan]
  simp

theorem order?_of_float (h : ∀ m n, ¬ (a = integer m ∧ b = integer n)) :
    a.order? b = a.rank?.bind fun p => b.rank?.map (compare p) := by
  cases a with
  | integer m =>
    cases b with
    | integer n => exact absurd ⟨rfl, rfl⟩ (h m n)
    | _ => rfl
  | _ => rfl

theorem order?_eq_none_iff (ha : a.isNumber = true) (hb : b.isNumber = true) :
    a.order? b = none ↔ a.isNaN = true ∨ b.isNaN = true := by
  by_cases hints : ∃ m n, a = integer m ∧ b = integer n
  · obtain ⟨m, n, rfl, rfl⟩ := hints
    simp [order?, isNaN]
  · simp only [not_exists] at hints
    rw [order?_of_float hints, isNaN_iff_rank?_eq_none ha, isNaN_iff_rank?_eq_none hb]
    cases a.rank? <;> simp

/-- Exchanged numbers compare the other way round. -/
theorem order?_swap (a b : Value) : b.order? a = (a.order? b).map Ordering.swap := by
  by_cases hints : ∃ m n, a = integer m ∧ b = integer n
  · obtain ⟨m, n, rfl, rfl⟩ := hints
    have hswap : compare n.toInt m.toInt = (compare m.toInt n.toInt).swap := Std.OrientedCmp.eq_swap
    simp only [order?, hswap, Option.map_some]
  · simp only [not_exists] at hints
    rw [order?_of_float hints, order?_of_float fun n m h => hints m n h.symm]
    cases a.rank? with
    | none => cases b.rank? <;> rfl
    | some p =>
      cases b.rank? with
      | none => rfl
      | some q =>
        have hswap : compare q p = (compare p q).swap := Std.OrientedCmp.eq_swap
        simp [hswap]

end Value

/-! ## What a comparison answers -/

namespace Comparison

/-- A call of the comparison with these two arguments answers this integer. -/
def Answers (op : Comparison) (a b : Value) (n : Int64) : Prop :=
  (Operation.binary (.comparison op)).Answers [a, b] (.integer n)

variable {op : Comparison} {a b c : Value}

theorem compare_toInt (m n : Int64) : compare m n = compare m.toInt n.toInt := by
  simp only [compare, compareOfLessAndEq, Int64.lt_iff_toInt_lt, ← Int64.toInt_inj]

theorem toFloat_of_isNumber (name : String) (ha : a.isNumber = true) :
    ∃ x, a.toFloat name = .ok x ∧ Number.rank? x = a.rank? := by
  cases a with
  | integer n => exact ⟨_, rfl, Number.rank?_ofInteger n⟩
  | float x => exact ⟨x, rfl, rfl⟩
  | _ => cases ha

/-- Numbers compare by their order. -/
theorem order?_eq_ok (name : String) (ha : a.isNumber = true) (hb : b.isNumber = true) :
    order? name a b = .ok (a.order? b) := by
  by_cases hints : ∃ m n, a = .integer m ∧ b = .integer n
  · obtain ⟨m, n, rfl, rfl⟩ := hints
    rw [order?, Value.order?, compare_toInt]
    rfl
  · simp only [not_exists] at hints
    obtain ⟨x, hx, hxrank⟩ := toFloat_of_isNumber name ha
    obtain ⟨y, hy, hyrank⟩ := toFloat_of_isNumber name hb
    rw [order?, hx, hy, Value.order?_of_float hints, ← hxrank, ← hyrank,
      ← Number.compare?_eq_compare_rank]
    · rfl
    · intro m n ham hbn
      exact hints m n ⟨ham, hbn⟩

/-- A comparison of two numbers reads their order. -/
theorem answers_iff (ha : a.isNumber = true) (hb : b.isNumber = true) {n : Int64} :
    op.Answers a b n ↔ n = if (a.order? b).any op.holds then 1 else 0 := by
  have hrun : (Operation.binary (.comparison op)).run [a, b] =
      .ok (.ofBool ((a.order? b).any op.holds)) := by
    show op.run a b = _
    rw [run, order?_eq_ok op.name ha hb]
    rfl
  rw [Answers, Operation.answers_iff, hrun, Value.ofBool, Except.ok.injEq, Value.integer.injEq]
  exact eq_comm

theorem answers_one_iff (ha : a.isNumber = true) (hb : b.isNumber = true) :
    op.Answers a b 1 ↔ (a.order? b).any op.holds = true := by
  rw [answers_iff ha hb]
  cases (a.order? b).any op.holds <;> simp

theorem answers_zero_iff (ha : a.isNumber = true) (hb : b.isNumber = true) :
    op.Answers a b 0 ↔ (a.order? b).any op.holds = false := by
  rw [answers_iff ha hb]
  cases (a.order? b).any op.holds <;> simp

/-- **The comparisons agree with each other.** None of them holds if there is a `NaN`. Of two other
numbers one is less, equal or greater, and only one of these; at most is not greater, and at least
is not less. With the numbers exchanged, less and greater answer alike, at most and at least do, and
equal answers the same. -/
theorem comparisons_consistent (ha : a.isNumber = true) (hb : b.isNumber = true) :
    (∀ op : Comparison, op.Answers a b 0 ∨ op.Answers a b 1) ∧
    (a.isNaN = true ∨ b.isNaN = true → ∀ op : Comparison, op.Answers a b 0) ∧
    (a.isNaN = false → b.isNaN = false →
      (∃! op, op ∈ [less, equal, greater] ∧ op.Answers a b 1) ∧
      (atMost.Answers a b 1 ↔ greater.Answers a b 0) ∧
      (atLeast.Answers a b 1 ↔ less.Answers a b 0)) ∧
    ∀ n, (less.Answers a b n ↔ greater.Answers b a n) ∧
      (atMost.Answers a b n ↔ atLeast.Answers b a n) ∧
      (equal.Answers a b n ↔ equal.Answers b a n) := by
  refine ⟨fun op => ?_, fun hnan op => ?_, fun hnana hnanb => ?_, fun n => ?_⟩
  · rw [answers_zero_iff ha hb, answers_one_iff ha hb]
    exact Bool.eq_false_or_eq_true _ |>.symm
  · rw [answers_zero_iff ha hb, (Value.order?_eq_none_iff ha hb).mpr hnan, Option.any_none]
  · have hsome : a.order? b ≠ none := by
      rw [Ne, Value.order?_eq_none_iff ha hb, hnana, hnanb]
      simp
    obtain ⟨o, ho⟩ := Option.ne_none_iff_exists'.mp hsome
    simp only [answers_one_iff ha hb, answers_zero_iff ha hb, ho, Option.any_some]
    refine ⟨?_, ?_, ?_⟩
    · cases o with
      | lt => exact ⟨less, by decide, by simp [holds]⟩
      | eq => exact ⟨equal, by decide, by simp [holds]⟩
      | gt => exact ⟨greater, by decide, by simp [holds]⟩
    · cases o <;> decide
    · cases o <;> decide
  · simp only [answers_iff ha hb, answers_iff hb ha, Value.order?_swap a b]
    cases a.order? b with
    | none => simp
    | some o => cases o <;> simp [holds]

/-- An integer and a float that is a half more, and an integer and a `NaN`. -/
theorem comparisons_consistent_half :
    let a := Value.integer 4
    let b := Value.float 4.5
    (∃! op, op ∈ [less, equal, greater] ∧ op.Answers a b 1) ∧ less.Answers a b 1 ∧
      greater.Answers b a 1 ∧ ∀ op : Comparison, op.Answers a (.float (0.0 / 0.0)) 0 := by
  intro a b
  have hhalf := comparisons_consistent (a := a) (b := b) rfl rfl
  have hnan := comparisons_consistent (a := a) (b := .float (0.0 / 0.0)) rfl rfl
  have hless : less.Answers a b 1 := (answers_one_iff rfl rfl).mpr (by decide)
  exact ⟨(hhalf.2.2.1 rfl rfl).1, hless, (hhalf.2.2.2 1).1.mp hless, hnan.2.1 (.inr (by decide))⟩

end Comparison

/-! ## Integers that a conversion merges -/

namespace Number

/-- The integers differ, but both count as doubles that are equal to `x`. -/
def Merged (m n : Int64) (x : Float) : Prop :=
  m ≠ n ∧ (ofInteger m == x) = true ∧ (ofInteger n == x) = true

variable {m n : Int64} {x : Float}

theorem ofInteger_beq_iff : (ofInteger n == x) = true ↔ rank? x = some (rankOfInteger n.toInt) := by
  rw [beq_iff_rank, rank?_ofInteger]
  simp

theorem merged_iff :
    Merged m n x ↔ m ≠ n ∧ rank? x = some (rankOfInteger m.toInt) ∧
      rank? x = some (rankOfInteger n.toInt) := by
  rw [Merged, ofInteger_beq_iff, ofInteger_beq_iff]

/-- Integers within `2 ^ 53` do not merge. -/
theorem Merged.beyond (h : Merged m n x) : 2 ^ 53 < m.toInt.natAbs ∨ 2 ^ 53 < n.toInt.natAbs := by
  obtain ⟨hne, hm, hn⟩ := merged_iff.mp h
  by_contra hwithin
  rw [not_or, Nat.not_lt, Nat.not_lt] at hwithin
  refine hne (Int64.toInt_inj.mp (rankOfInteger_inj hwithin.1 hwithin.2 ?_))
  exact Option.some.inj (hm.symm.trans hn)

end Number

/-! ## Chains of comparisons -/

namespace Comparison

variable {op : Comparison} {a b c : Value} {p q r : Number.Rank}

/-- What the comparison asks in a linear order. -/
def Relates {α : Type} [LinearOrder α] : Comparison → α → α → Prop
  | less, x, y => x < y
  | greater, x, y => y < x
  | atMost, x, y => x ≤ y
  | atLeast, x, y => y ≤ x
  | equal, x, y => x = y

theorem holds_compare_iff {α : Type} [LinearOrder α] {x y : α} :
    op.holds (compare x y) = true ↔ op.Relates x y := by
  cases op <;> simp [holds, Relates, compare_lt_iff_lt, compare_gt_iff_gt]

theorem isNumber_of_rank? (hp : a.rank? = some p) : a.isNumber = true := by
  cases a with
  | integer | float => rfl
  | _ => cases hp

theorem answers_integers_iff {m n : Int64} :
    op.Answers (.integer m) (.integer n) 1 ↔ op.Relates m.toInt n.toInt := by
  rw [answers_one_iff rfl rfl, ← holds_compare_iff]
  rfl

/-- Two numbers are compared as integers or by their ranks. -/
theorem integers_or_ranks (hp : a.rank? = some p) (hq : b.rank? = some q) :
    (∃ m n, a = .integer m ∧ b = .integer n) ∨
      (∀ m n, ¬ (a = .integer m ∧ b = .integer n)) ∧
        ∀ op : Comparison, op.Answers a b 1 ↔ op.Relates p q := by
  by_cases hints : ∃ m n, a = .integer m ∧ b = .integer n
  · exact .inl hints
  · simp only [not_exists] at hints
    refine .inr ⟨hints, fun op => ?_⟩
    rw [answers_one_iff (isNumber_of_rank? hp) (isNumber_of_rank? hq), ← holds_compare_iff,
      Value.order?_of_float hints, hp, hq]
    rfl

theorem rank_le_of_atMost (hp : a.rank? = some p) (hq : b.rank? = some q)
    (h : atMost.Answers a b 1) : p ≤ q := by
  rcases integers_or_ranks hp hq with ⟨m, n, rfl, rfl⟩ | ⟨-, hranks⟩
  · cases hp
    cases hq
    exact Number.rankOfInteger_mono (answers_integers_iff.mp h)
  · exact (hranks atMost).mp h

theorem rank_eq_of_equal (hp : a.rank? = some p) (hq : b.rank? = some q)
    (h : equal.Answers a b 1) : p = q := by
  rcases integers_or_ranks hp hq with ⟨m, n, rfl, rfl⟩ | ⟨-, hranks⟩
  · cases hp
    cases hq
    exact congrArg Number.rankOfInteger (answers_integers_iff.mp h)
  · exact (hranks equal).mp h

theorem less_of_rank_lt (hp : a.rank? = some p) (hq : b.rank? = some q) (h : p < q) :
    less.Answers a b 1 := by
  rcases integers_or_ranks hp hq with ⟨m, n, rfl, rfl⟩ | ⟨-, hranks⟩
  · cases hp
    cases hq
    refine answers_integers_iff.mpr (not_le.mp fun hle => ?_)
    exact absurd h (not_lt.mpr (Number.rankOfInteger_mono hle))
  · exact (hranks less).mpr h

theorem atMost_self (hp : a.rank? = some p) : atMost.Answers a a 1 := by
  rcases integers_or_ranks hp hp with ⟨m, n, rfl, -⟩ | ⟨-, hranks⟩
  · exact answers_integers_iff.mpr (le_refl _)
  · exact (hranks atMost).mpr (le_refl p)

/-- The integers at the ends of a chain are in order, unless a float in between is equal to both. -/
theorem atMost_trans_iff (hp : a.rank? = some p) (hq : b.rank? = some q) (hr : c.rank? = some r)
    (hab : atMost.Answers a b 1) (hbc : atMost.Answers b c 1) :
    atMost.Answers a c 1 ↔ ¬ ∃ m n x, a = .integer m ∧ b = .float x ∧ c = .integer n ∧ n < m ∧
      Number.Merged m n x := by
  have hpq := rank_le_of_atMost hp hq hab
  have hqr := rank_le_of_atMost hq hr hbc
  rcases integers_or_ranks hp hr with ⟨m, n, rfl, rfl⟩ | ⟨hints, hranks⟩
  · rw [answers_integers_iff]
    cases b with
    | integer k =>
      have hmk : m.toInt ≤ k.toInt := answers_integers_iff.mp hab
      have hkn : k.toInt ≤ n.toInt := answers_integers_iff.mp hbc
      simp [Relates, hmk.trans hkn]
    | float x =>
      cases hp
      cases hr
      -- the wrong way round, the ranks on both sides of `x` leave it no room
      have hmerged (hlt : n.toInt < m.toInt) : Number.Merged m n x := by
        have hnm := Number.rankOfInteger_mono (le_of_lt hlt)
        have hm := le_antisymm (hqr.trans hnm) hpq
        have hn := le_antisymm hqr (hnm.trans hpq)
        refine Number.merged_iff.mpr ⟨?_, hq.trans (congrArg some hm), hq.trans (congrArg some hn)⟩
        rintro rfl
        exact lt_irrefl _ hlt
      simp only [Relates, ← not_lt]
      refine not_congr ⟨fun hlt => ?_, ?_⟩
      · exact ⟨m, n, x, rfl, rfl, rfl, Int64.lt_iff_toInt_lt.mpr hlt, hmerged hlt⟩
      · rintro ⟨_, _, _, hm, -, hn, hlt, -⟩
        cases hm
        cases hn
        exact Int64.lt_iff_toInt_lt.mp hlt
    | _ => cases hq
  · refine iff_of_true ((hranks atMost).mpr (hpq.trans hqr)) ?_
    rintro ⟨m, n, x, hm, -, hn, -⟩
    exact hints m n ⟨hm, hn⟩

/-- What is equal to one number is equal, unless it is integers and the number a float. -/
theorem equal_trans_iff (hp : a.rank? = some p) (hq : b.rank? = some q) (hr : c.rank? = some r)
    (hab : equal.Answers a b 1) (hbc : equal.Answers b c 1) :
    equal.Answers a c 1 ↔ ¬ ∃ m n x, a = .integer m ∧ b = .float x ∧ c = .integer n ∧
      Number.Merged m n x := by
  have hpq := rank_eq_of_equal hp hq hab
  have hqr := rank_eq_of_equal hq hr hbc
  rcases integers_or_ranks hp hr with ⟨m, n, rfl, rfl⟩ | ⟨hints, hranks⟩
  · rw [answers_integers_iff]
    cases b with
    | integer k =>
      have hmk : m.toInt = k.toInt := answers_integers_iff.mp hab
      have hkn : k.toInt = n.toInt := answers_integers_iff.mp hbc
      simp [Relates, hmk.trans hkn]
    | float x =>
      cases hp
      cases hr
      simp only [Relates, Int64.toInt_inj]
      constructor
      · rintro rfl ⟨_, _, _, hm, -, hn, hmerged⟩
        cases hm
        cases hn
        exact hmerged.1 rfl
      · intro h
        by_contra hne
        refine h ⟨m, n, x, rfl, rfl, rfl, Number.merged_iff.mpr ⟨hne, ?_, ?_⟩⟩
        · exact hq.trans (congrArg some hpq.symm)
        · exact hq.trans (congrArg some hqr)
    | _ => cases hq
  · refine iff_of_true ((hranks equal).mpr (hpq.trans hqr)) ?_
    rintro ⟨m, n, x, hm, -, hn, -⟩
    exact hints m n ⟨hm, hn⟩

/-- Less stays less, unless integers are less and the end of the chain is a float equal to both. -/
theorem less_trans_iff (hp : a.rank? = some p) (hq : b.rank? = some q) (hr : c.rank? = some r)
    (hab : less.Answers a b 1) (hbc : atMost.Answers b c 1) :
    less.Answers a c 1 ↔ ¬ ∃ m n x, a = .integer m ∧ b = .integer n ∧ c = .float x ∧
      Number.Merged m n x := by
  have hqr := rank_le_of_atMost hq hr hbc
  rcases integers_or_ranks hp hq with ⟨m, n, rfl, rfl⟩ | ⟨hints, hranks⟩
  · have hmn : m.toInt < n.toInt := answers_integers_iff.mp hab
    cases c with
    | integer k =>
      have hnk : n.toInt ≤ k.toInt := answers_integers_iff.mp hbc
      rw [answers_integers_iff]
      simp [Relates, lt_of_lt_of_le hmn hnk]
    | float x =>
      have hpq : p ≤ q := by
        cases hp
        cases hq
        exact Number.rankOfInteger_mono (le_of_lt hmn)
      have hpr := hpq.trans hqr
      obtain ⟨-, hranks⟩ := (integers_or_ranks hp hr).resolve_left fun ⟨_, _, _, h⟩ => by cases h
      rw [hranks, Relates, lt_iff_le_and_ne, and_iff_right hpr]
      refine not_congr ⟨fun heq => ⟨m, n, x, rfl, rfl, rfl, ?_⟩, ?_⟩
      · have hqp := le_antisymm (hqr.trans heq.ge) hpq
        refine Number.merged_iff.mpr ⟨?_, hr.trans (heq ▸ hp.symm), hr.trans ?_⟩
        · rintro rfl
          exact lt_irrefl _ hmn
        · rw [← heq, ← hqp, ← hq]
          rfl
      · rintro ⟨_, _, _, hm, -, hx, hmerged⟩
        cases hm
        cases hx
        have hrank := (Number.merged_iff.mp hmerged).2.1
        exact Option.some.inj (hp.symm.trans (hrank.symm.trans hr))
    | _ => cases hr
  · have hpq : p < q := (hranks less).mp hab
    refine iff_of_true (less_of_rank_lt hp hr (lt_of_lt_of_le hpq hqr)) ?_
    rintro ⟨m, n, x, hm, hn, -⟩
    exact hints m n ⟨hm, hn⟩

/-- **Comparison is a preorder but for merged integers.** A number that is not `NaN` is at most
itself. Of three such numbers, what is at most, equal or less over the number in between is so
itself, unless two of them are different integers that count as doubles equal to the third, a float;
then it is not. One of two such integers is beyond `2 ^ 53`. -/
theorem comparison_transitive (ha : a.isNumber = true) (hb : b.isNumber = true)
    (hc : c.isNumber = true) (hnana : a.isNaN = false) (hnanb : b.isNaN = false)
    (hnanc : c.isNaN = false) :
    atMost.Answers a a 1 ∧
    (atMost.Answers a b 1 → atMost.Answers b c 1 →
      (atMost.Answers a c 1 ↔ ¬ ∃ m n x, a = .integer m ∧ b = .float x ∧ c = .integer n ∧ n < m ∧
        Number.Merged m n x)) ∧
    (equal.Answers a b 1 → equal.Answers b c 1 →
      (equal.Answers a c 1 ↔ ¬ ∃ m n x, a = .integer m ∧ b = .float x ∧ c = .integer n ∧
        Number.Merged m n x)) ∧
    (less.Answers a b 1 → atMost.Answers b c 1 →
      (less.Answers a c 1 ↔ ¬ ∃ m n x, a = .integer m ∧ b = .integer n ∧ c = .float x ∧
        Number.Merged m n x)) ∧
    ∀ m n x, Number.Merged m n x → 2 ^ 53 < m.toInt.natAbs ∨ 2 ^ 53 < n.toInt.natAbs := by
  obtain ⟨p, hp⟩ := Value.exists_rank? ha hnana
  obtain ⟨q, hq⟩ := Value.exists_rank? hb hnanb
  obtain ⟨r, hr⟩ := Value.exists_rank? hc hnanc
  exact ⟨atMost_self hp, atMost_trans_iff hp hq hr, equal_trans_iff hp hq hr,
    less_trans_iff hp hq hr, fun _ _ _ => Number.Merged.beyond⟩

/-- Nine halves stand between four and five. -/
theorem comparison_transitive_halves :
    let a := Value.integer 4
    let b := Value.float 4.5
    let c := Value.integer 5
    atMost.Answers a b 1 ∧ atMost.Answers b c 1 ∧ atMost.Answers a c 1 ∧
      less.Answers a b 1 ∧ less.Answers a c 1 ∧
      equal.Answers c (.float 5.0) 1 ∧ equal.Answers (.float 5.0) c 1 ∧ equal.Answers c c 1 := by
  intro a b c
  have hab : atMost.Answers a b 1 := (answers_one_iff rfl rfl).mpr (by decide)
  have hbc : atMost.Answers b c 1 := (answers_one_iff rfl rfl).mpr (by decide)
  have hless : less.Answers a b 1 := (answers_one_iff rfl rfl).mpr (by decide)
  have hcf : equal.Answers c (.float 5.0) 1 := (answers_one_iff rfl rfl).mpr (by decide)
  have hfc : equal.Answers (.float 5.0) c 1 := (answers_one_iff rfl rfl).mpr (by decide)
  have hchain := comparison_transitive (a := a) (b := b) (c := c) rfl rfl rfl rfl rfl rfl
  have hsame := comparison_transitive (a := c) (b := .float 5.0) (c := c) rfl rfl rfl rfl rfl rfl
  refine ⟨hab, hbc, (hchain.2.1 hab hbc).mpr ?_, hless, (hchain.2.2.2.1 hless hbc).mpr ?_, hcf, hfc,
    (hsame.2.2.1 hcf hfc).mpr ?_⟩
  · rintro ⟨m, n, x, hm, -, hn, hlt, -⟩
    obtain rfl := Value.integer.inj hm
    obtain rfl := Value.integer.inj hn
    exact absurd hlt (by decide)
  · rintro ⟨m, n, x, -, hn, -⟩
    exact Value.noConfusion hn
  · rintro ⟨m, n, x, hm, -, hn, hmerged⟩
    exact hmerged.1 (Value.integer.inj (hm.symm.trans hn))

/-- `2 ^ 53` as a float is equal to the integers `2 ^ 53` and `2 ^ 53 + 1`, of which the second one
is greater. So a chain of comparisons over this float, or up to it, says nothing about its ends. -/
theorem comparison_not_transitive :
    let a := Value.integer 9007199254740993
    let b := Value.float 9007199254740992.0
    let c := Value.integer 9007199254740992
    ([a, b, c].all fun v => v.isNumber && !v.isNaN) = true ∧
      (atMost.Answers a b 1 ∧ atMost.Answers b c 1 ∧ ¬ atMost.Answers a c 1) ∧
      (equal.Answers a b 1 ∧ equal.Answers b c 1 ∧ ¬ equal.Answers a c 1) ∧
      (less.Answers c a 1 ∧ atMost.Answers a b 1 ∧ ¬ less.Answers c b 1) := by
  intro a b c
  have hatMost : atMost.Answers a b 1 := (answers_one_iff rfl rfl).mpr (by decide)
  refine ⟨rfl, ⟨hatMost, ?_, fun h => ?_⟩, ⟨?_, ?_, fun h => ?_⟩, ⟨?_, hatMost, fun h => ?_⟩⟩
  · exact (answers_one_iff rfl rfl).mpr (by decide)
  · exact absurd ((answers_one_iff rfl rfl).mp h) (by decide)
  · exact (answers_one_iff rfl rfl).mpr (by decide)
  · exact (answers_one_iff rfl rfl).mpr (by decide)
  · exact absurd ((answers_one_iff rfl rfl).mp h) (by decide)
  · exact (answers_one_iff rfl rfl).mpr (by decide)
  · exact absurd ((answers_one_iff rfl rfl).mp h) (by decide)

end Comparison

end ScopedLisp
