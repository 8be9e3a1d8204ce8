import ScopedLisp.Decimal.Fixed
import ScopedLisp.Proofs.Doubles

/-!
# Integers as doubles

The double that an integer counts as has 53 bits, and an integer with more of them is rounded to the
nearest one, ties to even. Rounding keeps the order, so a greater integer never has a lower rank
(`rankOfInteger_mono`). It may have the same rank, but not as long as both are within `2 ^ 53`
(`rankOfInteger_inj`).

The conversion works by shifts, with two bits that remember what has been shifted out. `Shifted`
says what these bits know after any number of shifts: enough to round the exact quotient.
-/

namespace ScopedLisp

open Decimal Float.Model Float.Model.UnpackedFloat

namespace Number

/-! ## Rounding a quotient -/

theorem roundDiv_mono {m n den : Nat} (hden : 0 < den) (h : m ≤ n) :
    roundDiv m den ≤ roundDiv n den := by
  have hm := Nat.div_add_mod m den
  have hn := Nat.div_add_mod n den
  have hmlt := Nat.mod_lt m hden
  have hnlt := Nat.mod_lt n hden
  have hdiv : m / den ≤ n / den := Nat.div_le_div_right h
  simp only [roundDiv]
  rcases Nat.eq_or_lt_of_le hdiv with heq | hlt
  · rw [heq] at hm ⊢
    split <;> split <;> omega
  · split <;> split <;> omega

theorem div_le_roundDiv (m den : Nat) : m / den ≤ roundDiv m den := by
  simp only [roundDiv]
  split <;> omega

theorem roundDiv_le (m den : Nat) : roundDiv m den ≤ m / den + 1 := by
  simp only [roundDiv]
  split <;> omega

theorem roundDiv_one (m : Nat) : roundDiv m 1 = m := by
  simp [roundDiv, Nat.mod_one]

/-! ## Shifting with a memory -/

/-- The mantissa is `m / 2 ^ k` without its fraction, and the two bits place the fraction: whether
it is a half or more, and whether it is neither nothing nor a half. -/
structure Shifted (em : ExtendedMantissa) (m k : Nat) : Prop where
  mantissa : em.mantissa = m / 2 ^ k
  round : em.roundBit = true ↔ 2 ^ k ≤ 2 * (m % 2 ^ k)
  sticky : em.stickyBit = true ↔ m % 2 ^ k ≠ 0 ∧ 2 * (m % 2 ^ k) ≠ 2 ^ k

theorem Shifted.exact (m : Nat) : Shifted (.ofMantissaAndAccuracy m .exact) m 0 where
  mantissa := by simp [ExtendedMantissa.ofMantissaAndAccuracy]
  round := by simp [ExtendedMantissa.ofMantissaAndAccuracy, Nat.mod_one]
  sticky := by simp [ExtendedMantissa.ofMantissaAndAccuracy, Nat.mod_one]

theorem Shifted.one {em : ExtendedMantissa} {m k : Nat} (h : Shifted em m k) :
    Shifted em.shiftRightOne m (k + 1) := by
  have hpow : 2 ^ (k + 1) = 2 * 2 ^ k := by rw [Nat.pow_succ, Nat.mul_comm]
  have hlt : m % 2 ^ k < 2 ^ k := Nat.mod_lt _ (Nat.two_pow_pos k)
  -- the last bit of the quotient goes over to the fraction
  have hfraction : m % 2 ^ (k + 1) = m % 2 ^ k + 2 ^ k * (m / 2 ^ k % 2) := by
    rw [Nat.pow_succ, Nat.mod_mul]
  have hbit := Nat.mod_two_eq_zero_or_one (m / 2 ^ k)
  refine ⟨?_, ?_, ?_⟩
  · rw [ExtendedMantissa.shiftRightOne, h.mantissa, Nat.div_div_eq_div_mul, ← Nat.pow_succ]
  · simp only [ExtendedMantissa.shiftRightOne, h.mantissa, bne_iff_ne]
    rw [hfraction, hpow]
    rcases hbit with hbit | hbit <;> rw [hbit] <;> omega
  · simp only [ExtendedMantissa.shiftRightOne, Bool.or_eq_true, h.round, h.sticky]
    rw [hfraction, hpow]
    rcases hbit with hbit | hbit <;> rw [hbit] <;> omega

theorem Shifted.shiftRight (m k : Nat) :
    Shifted (ExtendedMantissa.ofMantissaAndAccuracy m .exact >>> k) m k := by
  induction k with
  | zero => exact .exact m
  | succ k ih => exact ih.one

/-- The two bits are enough to round. -/
theorem Shifted.roundedMantissa {em : ExtendedMantissa} {m k : Nat} (h : Shifted em m k) :
    em.roundedMantissa = roundDiv m (2 ^ k) := by
  obtain ⟨mantissa, round, sticky⟩ := em
  obtain ⟨hmantissa, hround, hsticky⟩ := h
  simp only at hmantissa hround hsticky
  subst hmantissa
  cases round <;> cases sticky <;>
    simp only [ExtendedMantissa.roundedMantissa, ExtendedMantissa.accuracy,
      Accuracy.roundToNearestEven, roundDiv] <;>
    simp only [true_iff, Bool.false_eq_true, false_iff] at hround hsticky <;>
    split <;> omega

/-! ## Fifty-three bits -/

/-- The leading 53 bits of `n`, rounded. An `n` with fewer bits is filled up with zeros. -/
def significand (n : Nat) : Nat := roundDiv (n * 2 ^ (52 - n.log2)) (2 ^ (n.log2 - 52))

/-- Rounded up, the leading bits may be one too many, and then they are a power of two. -/
theorem significand_bounds {n : Nat} (hn : 0 < n) :
    2 ^ 52 ≤ significand n ∧ significand n ≤ 2 ^ 53 := by
  have hlow : 2 ^ n.log2 ≤ n := Nat.log2_self_le (Nat.ne_of_gt hn)
  have hhigh : n < 2 ^ (n.log2 + 1) := Nat.lt_log2_self
  have hquotient : 2 ^ 52 ≤ n * 2 ^ (52 - n.log2) / 2 ^ (n.log2 - 52) := by
    rw [Nat.le_div_iff_mul_le (Nat.two_pow_pos _), ← Nat.pow_add]
    calc 2 ^ (52 + (n.log2 - 52)) = 2 ^ n.log2 * 2 ^ (52 - n.log2) := by
          rw [← Nat.pow_add]
          congr 1
          omega
      _ ≤ n * 2 ^ (52 - n.log2) := Nat.mul_le_mul_right _ hlow
  have hquotient' : n * 2 ^ (52 - n.log2) / 2 ^ (n.log2 - 52) < 2 ^ 53 := by
    rw [Nat.div_lt_iff_lt_mul (Nat.two_pow_pos _), ← Nat.pow_add]
    calc n * 2 ^ (52 - n.log2) < 2 ^ (n.log2 + 1) * 2 ^ (52 - n.log2) :=
          Nat.mul_lt_mul_of_pos_right hhigh (Nat.two_pow_pos _)
      _ = 2 ^ (53 + (n.log2 - 52)) := by
          rw [← Nat.pow_add]
          congr 1
          omega
  exact ⟨hquotient.trans (div_le_roundDiv _ _), (roundDiv_le _ _).trans hquotient'⟩

/-- The mantissa of the double nearest to `n`. -/
def mantissaOf (n : Nat) : Nat := if significand n = 2 ^ 53 then 2 ^ 52 else significand n

/-- The exponent of the double nearest to `n`. -/
def exponentOf (n : Nat) : Int := if significand n = 2 ^ 53 then n.log2 - 51 else n.log2 - 52

theorem mantissaOf_bounds {n : Nat} (hn : 0 < n) :
    2 ^ 52 ≤ mantissaOf n ∧ mantissaOf n < 2 ^ 53 := by
  have hbounds := significand_bounds hn
  unfold mantissaOf
  split <;> omega

theorem log2_mul_two_pow {n : Nat} (hn : 0 < n) (k : Nat) : (n * 2 ^ k).log2 = n.log2 + k := by
  have hpos : n * 2 ^ k ≠ 0 := Nat.ne_of_gt (Nat.mul_pos hn (Nat.two_pow_pos k))
  rw [Nat.log2_eq_iff hpos, Nat.add_right_comm, Nat.pow_add, Nat.pow_add]
  exact ⟨Nat.mul_le_mul_right _ (Nat.log2_self_le (Nat.ne_of_gt hn)),
    Nat.mul_lt_mul_of_pos_right Nat.lt_log2_self (Nat.two_pow_pos k)⟩

/-- A mantissa with more than 53 bits is shifted to 53. -/
theorem shiftToTargetExponent_binary64 (m : Nat) {e : Int} (he : -1074 ≤ e) :
    shiftToTargetExponent Format.binary64 m e .exact =
      (ExtendedMantissa.ofMantissaAndAccuracy m .exact >>> (m.log2 - 52),
        e + (m.log2 - 52 : Nat)) := by
  have hbits : (Format.binary64.mantissaBits : Int) = 53 := rfl
  have hmin : Format.binary64.minExponent = -1074 := rfl
  have hshift : (Format.binary64.targetExponent (totalExponent m e) - e).toNat = m.log2 - 52 := by
    rw [Format.targetExponent, totalExponent, hbits, hmin]
    omega
  simp only [shiftToTargetExponent, shiftToExponent, hshift]

/-- After rounding there may be one bit too many again, which is a zero. -/
theorem roundWithAccuracy_binary64 (s : Sign) {m q : Nat} {e : Int} (he : -1074 ≤ e)
    (hq : roundDiv m (2 ^ (m.log2 - 52)) = q) (hpos : 0 < q / 2 ^ (q.log2 - 52)) :
    roundWithAccuracy Format.binary64 s m e .exact =
      .finite s (q / 2 ^ (q.log2 - 52)) (e + (m.log2 - 52 : Nat) + (q.log2 - 52 : Nat)) hpos := by
  have hrounded := (Shifted.shiftRight m (m.log2 - 52)).roundedMantissa
  have hmantissa := (Shifted.shiftRight q (q.log2 - 52)).mantissa
  have hagain := shiftToTargetExponent_binary64 q (e := e + (m.log2 - 52 : Nat)) (by omega)
  rw [hq] at hrounded
  simp only [roundWithAccuracy, shiftToTargetExponent_binary64 m he, hrounded, hagain, hmantissa]
  exact dif_neg (Nat.ne_of_gt hpos)

/-- The number `n` with either sign, rounded to a double. -/
theorem round_natural (s : Sign) {n : Nat} (hn : 0 < n) :
    ∃ h, UnpackedFloat.round Format.binary64 s n 0 =
      .finite s (mantissaOf n) (exponentOf n) h := by
  have hbits : (Format.binary64.mantissaBits : Int) = 53 := rfl
  have hmin : Format.binary64.minExponent = -1074 := rfl
  obtain ⟨hlow, hhigh⟩ := significand_bounds hn
  -- a short mantissa is filled up first
  have hfill : (0 - Format.binary64.targetExponent (totalExponent n 0)).toNat = 52 - n.log2 := by
    rw [Format.targetExponent, totalExponent, hbits, hmin]
    omega
  have hlog : (n * 2 ^ (52 - n.log2)).log2 - 52 = n.log2 - 52 := by
    rw [log2_mul_two_pow hn]
    omega
  have hq : roundDiv (n * 2 ^ (52 - n.log2)) (2 ^ ((n * 2 ^ (52 - n.log2)).log2 - 52)) =
      significand n := by rw [hlog, significand]
  have hparts : significand n / 2 ^ ((significand n).log2 - 52) = mantissaOf n ∧
      (0 - (52 - n.log2 : Nat) + (n.log2 - 52 : Nat) + ((significand n).log2 - 52 : Nat) : Int) =
        exponentOf n := by
    unfold mantissaOf exponentOf
    split
    · next heq =>
      rw [heq, Nat.log2_two_pow]
      exact ⟨rfl, by omega⟩
    · next hne =>
      have hlog' : (significand n).log2 = 52 :=
        (Nat.log2_eq_iff (by omega)).mpr ⟨hlow, by omega⟩
      rw [hlog', Nat.sub_self, Nat.pow_zero, Nat.div_one]
      exact ⟨rfl, by omega⟩
  have hpos : 0 < mantissaOf n := Nat.lt_of_lt_of_le (by decide) (mantissaOf_bounds hn).1
  refine ⟨hpos, ?_⟩
  simp only [UnpackedFloat.round, decreaseExponent, hfill, Nat.shiftLeft_eq]
  rw [roundWithAccuracy_binary64 s (by omega) hq (hparts.1 ▸ hpos)]
  simp only [hlog, hparts]

/-! ## Into bits and back -/

/-- The leading bit of a mantissa is not stored. -/
theorem toNat_append_ofNat {m : Nat} (hlow : 2 ^ 52 ≤ m) (hhigh : m < 2 ^ 53) :
    (1#1 ++ BitVec.ofNat 52 m).toNat = m := by
  rw [BitVec.toNat_append, ← Nat.shiftLeft_add_eq_or_of_lt (BitVec.isLt _), BitVec.toNat_ofNat,
    Nat.shiftLeft_eq]
  simp only [BitVec.toNat_ofNat]
  omega

/-- A double with 53 bits and an exponent in range comes back from its bits. -/
theorem unpack_pack_normal (s : Sign) {m : Nat} {e : Int} (hm : 0 < m) (hlow : 2 ^ 52 ≤ m)
    (hhigh : m < 2 ^ 53) (hel : -1074 ≤ e) (heh : e ≤ 971) :
    UnpackedFloat.unpack Format.binary64 (UnpackedFloat.pack Format.binary64 (.finite s m e hm)) =
      .finite s m e hm := by
  have hlog : m.log2 + 1 = Format.binary64.mantissaBits :=
    congrArg (· + 1) ((Nat.log2_eq_iff (Nat.ne_of_gt hm)).mpr ⟨hlow, hhigh⟩)
  have hbias : (Format.binary64.exponentBias : Int) = 1023 := rfl
  -- the exponent as it is stored
  obtain ⟨b, hb⟩ : ∃ b, (e + Format.binary64.exponentBias + 52).toNat = b := ⟨_, rfl⟩
  have htoNat : (BitVec.ofNat 11 b).toNat = b := by
    rw [BitVec.toNat_ofNat]
    omega
  have hfinite : BitVec.ofNat 11 b ≠ -1#11 := by
    intro h
    have hall : (BitVec.ofNat 11 b).toNat = 2047 := congrArg BitVec.toNat h
    omega
  have hnormal : BitVec.ofNat 11 b ≠ 0#11 := by
    intro h
    have hzero : (BitVec.ofNat 11 b).toNat = 0 := congrArg BitVec.toNat h
    omega
  have hpack : UnpackedFloat.pack Format.binary64 (.finite s m e hm) =
      packComponents Format.binary64 s (BitVec.ofNat 11 b) (BitVec.ofNat 52 m) := by
    rw [UnpackedFloat.pack, ← hb]
    simp only [hlog, if_true]
    exact if_neg (by show ¬ 2 ^ 11 ≤ (e + Format.binary64.exponentBias + 52).toNat + 1; omega)
  rw [hpack, UnpackedFloat.unpack]
  simp only [unpackMantissa_packComponents, unpackExponent_packComponents,
    unpackSign_packComponents, Sign.ofBitVec_toBitVec, hfinite, hnormal, if_false,
    toNat_append_ofNat hlow hhigh, htoNat]
  congr 1
  omega

/-! ## Integers -/

/-- The number `n` with either sign as a double taken apart. -/
def natural (s : Sign) (n : Nat) : UnpackedFloat :=
  if n = 0 then .zero s else UnpackedFloat.round Format.binary64 s n 0

theorem exponentOf_bounds {n : Nat} (hn : n < 2 ^ 64) : -52 ≤ exponentOf n ∧ exponentOf n ≤ 13 := by
  have hlog : n.log2 < 64 := by
    by_cases hzero : n = 0
    · simp [hzero]
    · exact (Nat.log2_lt hzero).mpr hn
  unfold exponentOf
  split <;> omega

theorem unpack_pack_natural (s : Sign) {n : Nat} (hn : n < 2 ^ 64) :
    UnpackedFloat.unpack Format.binary64 (UnpackedFloat.pack Format.binary64 (natural s n)) =
      natural s n := by
  unfold natural
  split
  · exact unpack_packedZero
  · next hzero =>
    have hpos : 0 < n := Nat.pos_of_ne_zero hzero
    obtain ⟨hlow, hhigh⟩ := mantissaOf_bounds hpos
    obtain ⟨hel, heh⟩ := exponentOf_bounds hn
    obtain ⟨hm, hround⟩ := round_natural s hpos
    rw [hround]
    exact unpack_pack_normal s hm hlow hhigh (by omega) (by omega)

theorem neg_natural (n : Nat) : (natural .positive n).neg = natural .negative n := by
  unfold natural
  split
  · rfl
  · next hzero =>
    obtain ⟨_, hpositive⟩ := round_natural .positive (Nat.pos_of_ne_zero hzero)
    obtain ⟨_, hnegative⟩ := round_natural .negative (Nat.pos_of_ne_zero hzero)
    rw [hpositive, hnegative]
    rfl

theorem ofNat_eq_natural (n : Nat) :
    UnpackedFloat.ofNat Format.binary64 n = natural .positive n := by
  unfold natural
  split
  · next hzero =>
    rw [hzero]
    rfl
  · next hzero =>
    have hpositive : compare (n : Int) 0 = .gt := compare_gt_iff_gt.mpr (by omega)
    simp only [UnpackedFloat.ofNat, UnpackedFloat.ofInt, UnpackedFloat.normalize, hpositive,
      Int.toNat_natCast]

theorem unpack_toFloat (n : UInt64) : n.toFloat.toModel.unpack = natural .positive n.toNat := by
  rw [← unpack_pack_natural .positive n.toNat_lt, ← ofNat_eq_natural]
  rfl

theorem unpack_neg_toFloat (n : UInt64) :
    (-n.toFloat).toModel.unpack = natural .negative n.toNat := by
  rw [← unpack_pack_natural .negative n.toNat_lt, ← neg_natural, ← unpack_toFloat]
  rfl

/-- An integer counts as its sign and the double nearest to its magnitude. -/
theorem unpack_ofInteger (n : Int64) :
    (ofInteger n).toModel.unpack =
      natural (if n.toInt < 0 then .negative else .positive) n.toInt.natAbs := by
  have hword : n.toInt = n.toBitVec.toInt := rfl
  have hsigned := BitVec.toInt_eq_toNat_cond n.toBitVec
  have hneg : (-n).toUInt64.toNat = (2 ^ 64 - n.toBitVec.toNat) % 2 ^ 64 := BitVec.toNat_neg _
  have hself : n.toUInt64.toNat = n.toBitVec.toNat := rfl
  have hlt := n.toBitVec.isLt
  unfold ofInteger
  by_cases hnegative : n.toInt < 0
  · rw [if_pos hnegative, if_pos (Int64.lt_iff_toInt_lt.mpr hnegative), unpack_neg_toFloat]
    congr 1
    omega
  · rw [if_neg hnegative, if_neg (mt Int64.lt_iff_toInt_lt.mp hnegative), unpack_toFloat]
    congr 1
    omega

/-! ## The order of integers -/

/-- The rank of the double nearest to `n`. -/
def rankOfNatural (n : Nat) : Rank :=
  if n = 0 then 0 else toLex (1, toLex (exponentOf n, (mantissaOf n : Int)))

/-- The rank of the double that an integer counts as. -/
def rankOfInteger (n : Int) : Rank :=
  if n < 0 then -rankOfNatural n.natAbs else rankOfNatural n.natAbs

theorem rankOf_natural_positive (n : Nat) :
    rankOf (natural .positive n) = some (rankOfNatural n) := by
  unfold natural rankOfNatural
  split
  · rfl
  · next hzero =>
    obtain ⟨_, hround⟩ := round_natural .positive (Nat.pos_of_ne_zero hzero)
    rw [hround]
    rfl

theorem rankOf_natural_negative (n : Nat) :
    rankOf (natural .negative n) = some (-rankOfNatural n) := by
  unfold natural rankOfNatural
  split
  · rfl
  · next hzero =>
    obtain ⟨_, hround⟩ := round_natural .negative (Nat.pos_of_ne_zero hzero)
    rw [hround]
    rfl

theorem rank?_ofInteger (n : Int64) : rank? (ofInteger n) = some (rankOfInteger n.toInt) := by
  rw [rank?, unpack_ofInteger, rankOfInteger]
  split
  · exact rankOf_natural_negative _
  · exact rankOf_natural_positive _

theorem rankOfNatural_of_pos {n : Nat} (hn : 0 < n) :
    rankOfNatural n = toLex (1, toLex (exponentOf n, (mantissaOf n : Int))) :=
  if_neg (Nat.ne_of_gt hn)

theorem rankOfNatural_pos {n : Nat} (hn : 0 < n) : 0 < rankOfNatural n := by
  rw [rankOfNatural_of_pos hn]
  exact Prod.Lex.toLex_lt_toLex.mpr (.inl Int.one_pos)

/-- With as many bits, a number that is not smaller has a significand that is not smaller. -/
theorem significand_mono {m n : Nat} (h : m ≤ n) (hlog : m.log2 = n.log2) :
    significand m ≤ significand n := by
  rw [significand, significand, hlog]
  exact roundDiv_mono (Nat.two_pow_pos _) (Nat.mul_le_mul_right _ h)

theorem rankOfNatural_mono {m n : Nat} (h : m ≤ n) : rankOfNatural m ≤ rankOfNatural n := by
  rcases Nat.eq_zero_or_pos m with rfl | hm
  · rcases Nat.eq_zero_or_pos n with rfl | hn
    · exact le_refl _
    · exact le_of_lt (rankOfNatural_pos hn)
  have hn : 0 < n := Nat.lt_of_lt_of_le hm h
  have hlog : m.log2 ≤ n.log2 :=
    (Nat.le_log2 (Nat.ne_of_gt hn)).mpr (Nat.le_trans (Nat.log2_self_le (Nat.ne_of_gt hm)) h)
  have hmbounds := significand_bounds hm
  have hnbounds := significand_bounds hn
  rw [rankOfNatural_of_pos hm, rankOfNatural_of_pos hn, Prod.Lex.toLex_le_toLex]
  refine .inr ⟨rfl, ?_⟩
  rw [Prod.Lex.toLex_le_toLex]
  simp only [exponentOf, mantissaOf]
  rcases Nat.eq_or_lt_of_le hlog with heq | hlt
  · have hsignificand := significand_mono h heq
    split <;> split <;> omega
  · split <;> split <;> omega

/-- A number below `2 ^ 53` keeps all its bits. -/
theorem significand_of_lt {n : Nat} (hn : 0 < n) (hlt : n < 2 ^ 53) :
    significand n = n * 2 ^ (52 - n.log2) ∧ significand n < 2 ^ 53 := by
  have hlog : n.log2 < 53 := (Nat.log2_lt (Nat.ne_of_gt hn)).mpr hlt
  have hexact : significand n = n * 2 ^ (52 - n.log2) := by
    have hnothing : n.log2 - 52 = 0 := by omega
    rw [significand, hnothing, Nat.pow_zero, roundDiv_one]
  refine ⟨hexact, ?_⟩
  calc significand n = n * 2 ^ (52 - n.log2) := hexact
    _ < 2 ^ (n.log2 + 1) * 2 ^ (52 - n.log2) :=
        Nat.mul_lt_mul_of_pos_right Nat.lt_log2_self (Nat.two_pow_pos _)
    _ = 2 ^ 53 := by
        rw [← Nat.pow_add]
        congr 1
        omega

theorem rankOfNatural_strictMono {m n : Nat} (h : m < n) (hn : n ≤ 2 ^ 53) :
    rankOfNatural m < rankOfNatural n := by
  have hnpos : 0 < n := Nat.lt_of_le_of_lt (Nat.zero_le m) h
  rcases Nat.eq_zero_or_pos m with rfl | hm
  · exact rankOfNatural_pos hnpos
  obtain ⟨hexact, hshort⟩ := significand_of_lt hm (by omega)
  have hlog : m.log2 ≤ n.log2 :=
    (Nat.le_log2 (Nat.ne_of_gt hnpos)).mpr
      (Nat.le_trans (Nat.log2_self_le (Nat.ne_of_gt hm)) (Nat.le_of_lt h))
  rw [rankOfNatural_of_pos hm, rankOfNatural_of_pos hnpos, Prod.Lex.toLex_lt_toLex]
  refine .inr ⟨rfl, ?_⟩
  rw [Prod.Lex.toLex_lt_toLex]
  simp only [exponentOf, mantissaOf, if_neg (Nat.ne_of_lt hshort)]
  rcases Nat.eq_or_lt_of_le hlog with heq | hlt
  · have hmlog : m.log2 < 53 := (Nat.log2_lt (Nat.ne_of_gt hm)).mpr (by omega)
    have hnlt : n < 2 ^ 53 := (Nat.log2_lt (Nat.ne_of_gt hnpos)).mp (heq ▸ hmlog)
    obtain ⟨hexact', hshort'⟩ := significand_of_lt hnpos hnlt
    have hless : significand m < significand n := by
      rw [hexact, hexact', heq]
      exact Nat.mul_lt_mul_of_pos_right h (Nat.two_pow_pos _)
    rw [if_neg (Nat.ne_of_lt hshort'), if_neg (Nat.ne_of_lt hshort')]
    omega
  · split <;> omega

/-- **A greater integer has no lower rank.** -/
theorem rankOfInteger_mono {m n : Int} (h : m ≤ n) : rankOfInteger m ≤ rankOfInteger n := by
  unfold rankOfInteger
  have hnonneg (k : Nat) : 0 ≤ rankOfNatural k := rankOfNatural_mono (Nat.zero_le k)
  by_cases hm : m < 0
  · rw [if_pos hm]
    by_cases hn : n < 0
    · rw [if_pos hn]
      exact neg_le_neg_iff.mpr (rankOfNatural_mono (by omega))
    · rw [if_neg hn]
      exact le_trans (neg_nonpos.mpr (hnonneg _)) (hnonneg _)
  · rw [if_neg hm, if_neg (by omega)]
    exact rankOfNatural_mono (by omega)

/-- Up to `2 ^ 53`, a greater integer has a greater rank. -/
theorem rankOfInteger_strictMono {m n : Int} (h : m < n) (hm : m.natAbs ≤ 2 ^ 53)
    (hn : n.natAbs ≤ 2 ^ 53) : rankOfInteger m < rankOfInteger n := by
  unfold rankOfInteger
  by_cases hmneg : m < 0
  · rw [if_pos hmneg]
    by_cases hnneg : n < 0
    · rw [if_pos hnneg]
      exact neg_lt_neg_iff.mpr (rankOfNatural_strictMono (by omega) hm)
    · rw [if_neg hnneg]
      exact lt_of_lt_of_le (neg_lt_zero.mpr (rankOfNatural_pos (Int.natAbs_pos.mpr (by omega))))
        (rankOfNatural_mono (Nat.zero_le _))
  · rw [if_neg hmneg, if_neg (by omega)]
    exact rankOfNatural_strictMono (by omega) hn

/-- **Up to `2 ^ 53`, integers of one rank are one integer.** -/
theorem rankOfInteger_inj {m n : Int} (hm : m.natAbs ≤ 2 ^ 53) (hn : n.natAbs ≤ 2 ^ 53)
    (h : rankOfInteger m = rankOfInteger n) : m = n := by
  rcases lt_trichotomy m n with hlt | heq | hgt
  · exact absurd h (ne_of_lt (rankOfInteger_strictMono hlt hm hn))
  · exact heq
  · exact absurd h (ne_of_gt (rankOfInteger_strictMono hgt hn hm))

end Number

end ScopedLisp
