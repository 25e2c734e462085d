import Mathlib
import Swarm.Number.Double

/-!
# Magnitudes under rounding

What rounding does to the magnitude of a double: a positive number stays a positive number of full
precision, and its leading bit moves up by at most one place. That is enough to know that the upper
bound of a coordinate, which is computed in doubles from the extent of a world, is a finite number
that is not below the lower bound, however wide the world is.

## Main definitions

* `Spans`: positive numbers of full precision with the leading bit in a range

## Main results

* `spans_round`: rounding keeps the leading bit or moves it up by one place
* `unpack_ofNat`, `not_ofNat_lt`: counts below `2 ^ 53` are doubles, in the same order
* `spans_ofNat`, `spans_sub_half`: larger counts, and half a unit less
* `finite_of_spans`: a number of full precision is finite, and not below zero
* `clamp_inside`: a number is finite once it is kept between bounds, unless it is undefined
-/

namespace Swarm.Number

open Float.Model Float.Model.UnpackedFloat

/-- A positive number of full precision whose leading bit stands for a power of two with an exponent
from `low` to `high`. -/
def Spans (u : UnpackedFloat) (low high : Int) : Prop :=
  ∃ m e h, u = .finite .positive m e h ∧ m.log2 = 52 ∧ low ≤ 52 + e ∧ 52 + e ≤ high

theorem Spans.mono {u : UnpackedFloat} {low high low' high' : Int} (h : Spans u low high)
    (hlow : low' ≤ low) (hhigh : high ≤ high') : Spans u low' high' := by
  obtain ⟨m, e, hm, hu, hlog, hl, hh⟩ := h
  exact ⟨m, e, hm, hu, hlog, by omega, by omega⟩

-- ════════════════════════════════════════════════════════════════════════
-- Rounding
-- ════════════════════════════════════════════════════════════════════════

theorem mantissa_shiftRight (em : ExtendedMantissa) (k : Nat) :
    (em >>> k).mantissa = em.mantissa / 2 ^ k := by
  induction k with
  | zero => simp [HShiftRight.hShiftRight, Nat.repeat]
  | succ k ih =>
    show (em >>> k).mantissa / 2 = _
    rw [ih, Nat.div_div_eq_div_mul, Nat.pow_succ]

theorem roundedMantissa_bounds (em : ExtendedMantissa) :
    em.mantissa ≤ em.roundedMantissa ∧ em.roundedMantissa ≤ em.mantissa + 1 := by
  obtain ⟨m, guard, sticky⟩ := em
  cases guard <;> cases sticky <;>
    simp only [ExtendedMantissa.roundedMantissa, ExtendedMantissa.accuracy,
      Accuracy.roundToNearestEven] <;> omega

/-- The exponent at which a number has full precision. -/
theorem targetExponent_eq {m : Nat} {e : Int} (h : -1000 ≤ m.log2 + e) :
    Format.binary64.targetExponent (totalExponent m e) = m.log2 + e - 52 := by
  have hbits : Format.binary64.mantissaBits = 53 := rfl
  have hleast : Format.binary64.minExponent = -1074 := rfl
  rw [Format.targetExponent, totalExponent, hbits, hleast]
  omega

/-- The first shift leaves a mantissa of full precision. -/
theorem shiftToTargetExponent_eq {m : Nat} {e : Int} (hlog : 52 ≤ m.log2)
    (h : -1000 ≤ m.log2 + e) :
    ∃ em, shiftToTargetExponent Format.binary64 m e .exact = (em, m.log2 + e - 52)
      ∧ em.mantissa = m / 2 ^ (m.log2 - 52) := by
  have hshift : (↑m.log2 + e - 52 - e).toNat = m.log2 - 52 := by omega
  rw [shiftToTargetExponent, targetExponent_eq h, shiftToExponent, hshift]
  refine ⟨_, Prod.ext rfl (by simp; omega), ?_⟩
  rw [mantissa_shiftRight]
  rfl

theorem log2_shift {m : Nat} (hlog : 52 ≤ m.log2) :
    2 ^ 52 ≤ m / 2 ^ (m.log2 - 52) ∧ m / 2 ^ (m.log2 - 52) < 2 ^ 53 := by
  have hm : m ≠ 0 := by rintro rfl; simp at hlog
  have hpow (k : Nat) : 2 ^ k * 2 ^ (m.log2 - 52) = 2 ^ (k + (m.log2 - 52)) := (Nat.pow_add ..).symm
  constructor
  · rw [Nat.le_div_iff_mul_le (Nat.two_pow_pos _), hpow]
    have : 52 + (m.log2 - 52) = m.log2 := by omega
    rw [this]
    exact Nat.log2_self_le hm
  · rw [Nat.div_lt_iff_lt_mul (Nat.two_pow_pos _), hpow]
    have : 53 + (m.log2 - 52) = m.log2 + 1 := by omega
    rw [this]
    exact Nat.lt_log2_self

/-- A number with enough bits is rounded to full precision, its leading bit stays or moves up by one
place. -/
theorem spans_roundWithAccuracy {m : Nat} {e : Int} (hlog : 52 ≤ m.log2) (h : -1000 ≤ m.log2 + e) :
    Spans (roundWithAccuracy Format.binary64 .positive m e .exact) (m.log2 + e)
      (m.log2 + e + 1) := by
  obtain ⟨em, hfirst, hmantissa⟩ := shiftToTargetExponent_eq hlog h
  have hshifted := log2_shift hlog
  have hrounded := roundedMantissa_bounds em
  rw [hmantissa] at hrounded
  -- rounding up may carry into a bit of its own, which the second shift takes back
  have hr : em.roundedMantissa ≠ 0 := by omega
  have hleast : 52 ≤ em.roundedMantissa.log2 := (Nat.le_log2 hr).2 (by omega)
  have hmost : em.roundedMantissa.log2 < 54 := (Nat.log2_lt hr).2 (by omega)
  obtain ⟨final, hsecond, hfinal⟩ := shiftToTargetExponent_eq (m := em.roundedMantissa)
    (e := m.log2 + e - 52) hleast (by omega)
  have hbits := log2_shift hleast
  have hpositive : final.mantissa ≠ 0 := by omega
  refine ⟨final.mantissa, em.roundedMantissa.log2 + (m.log2 + e - 52) - 52, by omega, ?_, ?_,
    by omega, by omega⟩
  · rw [roundWithAccuracy, hfirst]
    dsimp only
    rw [hsecond]
    dsimp only
    rw [dif_neg hpositive]
  · rw [Nat.log2_eq_iff hpositive, hfinal]
    exact hbits

theorem log2_mul_two_pow {m : Nat} (hm : m ≠ 0) (k : Nat) : (m * 2 ^ k).log2 = m.log2 + k := by
  have hpositive : m * 2 ^ k ≠ 0 := Nat.mul_ne_zero hm (Nat.ne_of_gt (Nat.two_pow_pos k))
  rw [Nat.log2_eq_iff hpositive, Nat.add_right_comm, Nat.pow_add, Nat.pow_add]
  exact ⟨Nat.mul_le_mul_right _ (Nat.log2_self_le hm),
    Nat.mul_lt_mul_of_pos_right Nat.lt_log2_self (Nat.two_pow_pos k)⟩

/-- Rounding keeps the leading bit of a number or moves it up by one place. -/
theorem spans_round {m : Nat} {e : Int} (hm : m ≠ 0) (h : -1000 ≤ m.log2 + e) :
    Spans (UnpackedFloat.round Format.binary64 .positive m e) (m.log2 + e) (m.log2 + e + 1) := by
  have hshift : (e - (m.log2 + e - 52)).toNat = 52 - m.log2 := by omega
  have hlog := log2_mul_two_pow hm (52 - m.log2)
  rw [UnpackedFloat.round, targetExponent_eq h, decreaseExponent, hshift, Nat.shiftLeft_eq]
  dsimp only
  refine (spans_roundWithAccuracy (by omega) (by omega)).mono ?_ ?_ <;> omega

/-- Zeros are shifted out without a trace. -/
theorem shiftRight_exact (m k : Nat) :
    ExtendedMantissa.ofMantissaAndAccuracy (m * 2 ^ k) .exact >>> k = ⟨m, false, false⟩ := by
  induction k generalizing m with
  | zero => simp [ExtendedMantissa.ofMantissaAndAccuracy, HShiftRight.hShiftRight, Nat.repeat]
  | succ k ih =>
    have htwice : m * 2 ^ (k + 1) = m * 2 * 2 ^ k := by
      rw [Nat.pow_succ, Nat.mul_comm (2 ^ k) 2, Nat.mul_assoc]
    show ExtendedMantissa.shiftRightOne
      (ExtendedMantissa.ofMantissaAndAccuracy (m * 2 ^ (k + 1)) .exact >>> k) = _
    rw [htwice, ih]
    simp [ExtendedMantissa.shiftRightOne]

/-- A number of full precision is rounded to itself, at whatever exponent it is given. -/
theorem roundWithAccuracy_exact {m : Nat} {e : Int} (hm : 0 < m) (hlog : m.log2 = 52)
    (h : -1000 ≤ 52 + e) (k : Nat) :
    roundWithAccuracy Format.binary64 .positive (m * 2 ^ k) (e - k) .exact =
      .finite .positive m e hm := by
  have hshift (k : Nat) : shiftToTargetExponent Format.binary64 (m * 2 ^ k) (e - k) .exact =
      (⟨m, false, false⟩, e) := by
    have hbits := log2_mul_two_pow (Nat.ne_of_gt hm) k
    have hamount : (↑(m * 2 ^ k).log2 + (e - k) - 52 - (e - k)).toNat = k := by omega
    rw [shiftToTargetExponent, targetExponent_eq (by omega), shiftToExponent, hamount,
      shiftRight_exact]
    exact Prod.ext rfl (by simp)
  have hsame : shiftToTargetExponent Format.binary64 m e .exact = (⟨m, false, false⟩, e) := by
    simpa using hshift 0
  have hrounded : (⟨m, false, false⟩ : ExtendedMantissa).roundedMantissa = m := rfl
  rw [roundWithAccuracy, hshift k]
  dsimp only
  rw [hrounded, hsame]
  exact dif_neg (Nat.ne_of_gt hm)

theorem ofBitVec_unpackSign (sign : Sign) (exponent : BitVec 11) (mantissa : BitVec 52) :
    Sign.ofBitVec (unpackSign (packComponents Format.binary64 sign exponent mantissa)) = sign := by
  rw [unpackSign, packComponents, BitVec.extractLsb,
    BitVec.extractLsb'_append_eq_of_le (by decide), BitVec.extractLsb'_append_eq_of_le (by decide)]
  cases sign <;> rfl

/-- A number of full precision is packed without loss. -/
theorem unpack_pack {u : UnpackedFloat} {low high : Int} (h : Spans u low high)
    (hlow : -1000 ≤ low) (hhigh : high ≤ 1000) : (Float.Model.pack u).unpack = u := by
  obtain ⟨m, e, hm, rfl, hlog, hl, hh⟩ := h
  obtain ⟨hleast, hmost⟩ := (Nat.log2_eq_iff (by omega)).1 hlog
  -- the biased exponent is neither zero nor the one of infinities
  have hbiased : (e + Format.binary64.exponentBias
      + Format.binary64.mantissaBitsWithoutImplicit).toNat = (e + 1075).toNat := by
    show (e + 1023 + 52).toNat = _
    omega
  have hexponent : (BitVec.ofNat 11 (e + 1075).toNat).toNat = (e + 1075).toNat := by
    rw [BitVec.toNat_ofNat]
    omega
  have hnormal (k : BitVec 11) (hk : k.toNat = 0 ∨ k.toNat = 2047) :
      BitVec.ofNat 11 (e + 1075).toNat ≠ k := by
    rintro rfl
    omega
  -- the leading bit of the mantissa is implicit
  have hmantissa : (1#1 ++ BitVec.ofNat 52 m).toNat = m := by
    rw [BitVec.toNat_append, BitVec.toNat_ofNat, Nat.shiftLeft_eq, Nat.or_comm]
    show m % 2 ^ 52 ||| 1 * 2 ^ 52 = m
    rw [Nat.one_mul, Nat.or_two_pow_eq_add_of_lt (Nat.mod_lt m (Nat.two_pow_pos 52))]
    omega
  have hpack : UnpackedFloat.pack Format.binary64 (.finite .positive m e hm) =
      packComponents Format.binary64 .positive (BitVec.ofNat 11 (e + 1075).toNat)
        (BitVec.ofNat 52 m) := by
    rw [UnpackedFloat.pack, hbiased, hlog]
    rw [if_neg (by show ¬ 2048 ≤ _; omega), if_pos (by rfl)]
  show UnpackedFloat.unpack _ (UnpackedFloat.pack _ _) = _
  rw [hpack, UnpackedFloat.unpack]
  simp only [unpackMantissa_packComponents, unpackExponent_packComponents, ofBitVec_unpackSign]
  rw [if_neg (hnormal _ (.inr rfl)), if_neg (hnormal _ (.inl rfl))]
  have hback : ((BitVec.ofNat 11 (e + 1075).toNat).toNat : Int)
      - (Format.binary64.exponentBias + Format.binary64.mantissaBitsWithoutImplicit) = e := by
    rw [hexponent]
    show ((e + 1075).toNat : Int) - (1023 + 52) = e
    omega
  simp only [hmantissa, hback]

-- ════════════════════════════════════════════════════════════════════════
-- Counts
-- ════════════════════════════════════════════════════════════════════════

section Exact

variable {n : Nat} (hn : n ≠ 0)
include hn

theorem scaled_positive : 0 < n * 2 ^ (52 - n.log2) :=
  Nat.mul_pos (Nat.pos_of_ne_zero hn) (Nat.two_pow_pos _)

variable (hsmall : n < 2 ^ 53)
include hsmall

theorem log2_scaled : (n * 2 ^ (52 - n.log2)).log2 = 52 := by
  have hlog : n.log2 < 53 := (Nat.log2_lt hn).2 hsmall
  rw [log2_mul_two_pow hn]
  omega

/-- A word below `2 ^ 53` is a double. -/
theorem unpack_toFloat :
    n.toUInt64.toFloat.toModel.unpack = .finite .positive (n * 2 ^ (52 - n.log2))
      (n.log2 - 52) (scaled_positive hn) := by
  have hword : n.toUInt64.toNat = n := by
    rw [Nat.toUInt64, UInt64.toNat_ofNat']
    omega
  have hlog : n.log2 < 53 := (Nat.log2_lt hn).2 hsmall
  have hround : UnpackedFloat.ofUInt64 Format.binary64 n.toUInt64 =
      .finite .positive (n * 2 ^ (52 - n.log2)) (n.log2 - 52) (scaled_positive hn) := by
    have hcompare : compare (n : Int) 0 = .gt := Int.compare_eq_gt.2 (by omega)
    have hshift : ((0 : Int) - (n.log2 + 0 - 52)).toNat = 52 - n.log2 := by omega
    have hexponent : (0 : Int) - (52 - n.log2 : Nat) = n.log2 - 52 := by omega
    rw [UnpackedFloat.ofUInt64, UnpackedFloat.ofNat, UnpackedFloat.ofInt, hword,
      UnpackedFloat.normalize, hcompare]
    show UnpackedFloat.round Format.binary64 .positive n 0 = _
    rw [UnpackedFloat.round, targetExponent_eq (by omega), decreaseExponent, hshift,
      Nat.shiftLeft_eq, hexponent]
    simpa using roundWithAccuracy_exact (scaled_positive hn) (log2_scaled hn hsmall)
      (by omega) 0
  show (Float.Model.pack (UnpackedFloat.ofUInt64 Format.binary64 n.toUInt64)).unpack = _
  rw [hround]
  exact unpack_pack ⟨_, _, _, rfl, log2_scaled hn hsmall, Int.le_refl _, Int.le_refl _⟩ (by omega)
    (by omega)

/-- A count below `2 ^ 53` is a double. -/
theorem unpack_ofNat :
    (Float.ofNat n).toModel.unpack = .finite .positive (n * 2 ^ (52 - n.log2)) (n.log2 - 52)
      (scaled_positive hn) := by
  have hone : (Float.ofBits 4607182418800017408).toModel.unpack =
      .finite .positive (2 ^ 52) (-52) (by decide) := rfl
  have hlog : n.log2 < 53 := (Nat.log2_lt hn).2 hsmall
  show (Float.ofScientific n false 0).toModel.unpack = _
  rw [Float.ofScientific, dif_pos ⟨hsmall, by decide⟩]
  -- a word times one
  show (Float.Model.pack (UnpackedFloat.mul Format.binary64 n.toUInt64.toFloat.toModel.unpack
    (Float.ofBits 4607182418800017408).toModel.unpack)).unpack = _
  rw [unpack_toFloat hn hsmall, hone]
  show (Float.Model.pack (roundWithAccuracy Format.binary64 .positive
    (n * 2 ^ (52 - n.log2) * 2 ^ 52) (n.log2 - 52 - (52 : Nat)) .exact)).unpack = _
  rw [roundWithAccuracy_exact (scaled_positive hn) (log2_scaled hn hsmall) (by omega)]
  exact unpack_pack ⟨_, _, _, rfl, log2_scaled hn hsmall, Int.le_refl _, Int.le_refl _⟩ (by omega)
    (by omega)

end Exact

/-- A positive count below `2 ^ 64` is a double of full precision. -/
theorem spans_ofNat {n : Nat} (hn : n ≠ 0) (hword : n < 2 ^ 64) :
    Spans (Float.ofNat n).toModel.unpack 0 64 := by
  have hlog : n.log2 < 64 := (Nat.log2_lt hn).2 hword
  by_cases hsmall : n < 2 ^ 53
  · rw [unpack_ofNat hn hsmall]
    exact ⟨_, _, _, rfl, log2_scaled hn hsmall, by omega, by omega⟩
  · -- a decimal numeral without a fraction
    have hbits : Format.binary64.mantissaBits = 53 := rfl
    have hnone : (10 : Nat) ^ (0 : Int).toNat = 1 := rfl
    have hlarge : ¬ (0 : Int) < -(2 ^ Format.binary64.exponentBits + n.log2) := by
      show ¬ (0 : Int) < -(2 ^ 11 + n.log2)
      omega
    have hsign : Sign.positive * Sign.positive = Sign.positive := rfl
    have hscaled := log2_mul_two_pow hn 53
    show Spans (Float.ofScientific n false 0).toModel.unpack 0 64
    rw [Float.ofScientific, dif_neg fun h => hsmall h.1]
    show Spans (Float.Model.pack (UnpackedFloat.ofScientific Format.binary64 n 0)).unpack 0 64
    rw [UnpackedFloat.ofScientific, dif_neg hn, if_neg (by decide), if_neg hlarge,
      if_pos (by decide)]
    simp only [UnpackedFloat.mul, hbits, hnone, hsign, Nat.mul_one, Nat.shiftLeft_eq]
    have hspans : Spans (roundWithAccuracy Format.binary64 .positive (n * 2 ^ 53)
        (-((53 : Nat) : Int) + 0) .exact) 0 64 :=
      (spans_roundWithAccuracy (by omega) (by omega)).mono (by omega) (by omega)
    rw [unpack_pack hspans (by decide) (by decide)]
    exact hspans

/-- Half a unit less. -/
theorem spans_sub_half {x : Float} (h : Spans x.toModel.unpack 0 64) :
    Spans (x - 0.5).toModel.unpack (-1) 65 := by
  obtain ⟨m, e, hm, hu, hbits, hlow, hhigh⟩ := h
  have hhalf : (0.5 : Float).toModel.unpack = .finite .positive (2 ^ 52) (-53) (by decide) := rfl
  obtain ⟨k, rfl⟩ : ∃ k : Nat, e = k - 52 := ⟨(e + 52).toNat, by omega⟩
  obtain ⟨hleast, hmost⟩ := (Nat.log2_eq_iff (by omega)).1 hbits
  have hlarge : 2 ^ 53 ≤ m * 2 ^ (k + 1) := by
    rw [Nat.pow_succ 2 k, Nat.mul_comm (2 ^ k) 2, ← Nat.mul_assoc]
    exact Nat.le_trans (by omega) (Nat.le_mul_of_pos_right (m * 2) (Nat.two_pow_pos k))
  -- both numbers are brought to the exponent of one half, where the difference is exact
  have hsub : UnpackedFloat.sub Format.binary64 (.finite .positive m (k - 52) hm)
      (.finite .positive (2 ^ 52) (-53) (by decide)) =
        UnpackedFloat.round Format.binary64 .positive (m * 2 ^ (k + 1) - 2 ^ 52) (-53) := by
    have hunit : min ((k : Int) - 52) (-53) = -53 := by omega
    have hshift : ((k : Int) - 52 - -53).toNat = k + 1 := by omega
    have hpositive : compare (((m * 2 ^ (k + 1) : Nat) : Int) - ((2 ^ 52 : Nat) : Int)) 0 = .gt :=
      Int.compare_eq_gt.2 (by omega)
    have hdifference : (((m * 2 ^ (k + 1) : Nat) : Int) - ((2 ^ 52 : Nat) : Int)).toNat =
        m * 2 ^ (k + 1) - 2 ^ 52 := by omega
    simp only [UnpackedFloat.sub, hunit, decreaseExponent, hshift, Sign.apply,
      UnpackedFloat.normalize, Nat.shiftLeft_eq, Int.sub_self, Int.toNat_zero, Nat.pow_zero,
      Nat.mul_one, hpositive, hdifference]
  have hdifference : m * 2 ^ (k + 1) - 2 ^ 52 ≠ 0 := by omega
  have hlog : 52 ≤ (m * 2 ^ (k + 1) - 2 ^ 52).log2 := (Nat.le_log2 hdifference).2 (by omega)
  have hlog' : (m * 2 ^ (k + 1) - 2 ^ 52).log2 ≤ 53 + k := by
    have hproduct := log2_mul_two_pow (Nat.ne_of_gt hm) (k + 1)
    have hbound : m * 2 ^ (k + 1) < 2 ^ ((m * 2 ^ (k + 1)).log2 + 1) := Nat.lt_log2_self
    refine Nat.le_of_lt_succ ((Nat.log2_lt hdifference).2 ?_)
    have hplace : (m * 2 ^ (k + 1)).log2 + 1 = (53 + k).succ := by omega
    rw [hplace] at hbound
    omega
  have hspans : Spans (UnpackedFloat.round Format.binary64 .positive
      (m * 2 ^ (k + 1) - 2 ^ 52) (-53)) (-1) 65 :=
    (spans_round hdifference (by omega)).mono (by omega) (by omega)
  show Spans (Float.Model.pack (UnpackedFloat.sub Format.binary64 x.toModel.unpack
    (0.5 : Float).toModel.unpack)).unpack (-1) 65
  rw [hu, hhalf, hsub, unpack_pack hspans (by decide) (by decide)]
  exact hspans

-- ════════════════════════════════════════════════════════════════════════
-- Comparisons
-- ════════════════════════════════════════════════════════════════════════

/-- What a double can be: infinite, undefined or finite. -/
theorem classify (x : Float) :
    ((∃ sign, x.toModel.unpack = .infinity sign) ∧ isFinite x = false)
      ∨ (x.toModel.unpack = .notANumber ∧ Double.ofFloat x = .nan)
      ∨ x.toModel.unpack.isFinite = true ∧ isFinite x = true := by
  have hexponent : (@unpackExponent Format.binary64 x.toModel.toBits.toBitVec).toNat =
      x.toBits.toNat / Nat.pow 2 52 % Nat.pow 2 11 := by
    simp [unpackExponent, BitVec.extractLsb, Nat.shiftRight_eq_div_pow, Float.toBits]
  have hmantissa : (@unpackMantissa Format.binary64 x.toModel.toBits.toBitVec).toNat =
      x.toBits.toNat % Nat.pow 2 52 := by
    simp [unpackMantissa, BitVec.extractLsb, Float.toBits]
  rw [Float.Model.unpack, UnpackedFloat.unpack, isFinite, Double.ofFloat, ← hexponent, ← hmantissa]
  dsimp only
  split
  · next hones =>
    have hbiased : (@unpackExponent Format.binary64 x.toModel.toBits.toBitVec).toNat = 2047 := by
      rw [hones]
      rfl
    rw [if_pos hbiased]
    split
    · next hfraction => exact .inl ⟨⟨_, rfl⟩, by rw [hfraction]; rfl⟩
    · next hfraction =>
      exact .inr (.inl ⟨rfl, if_neg fun h => hfraction (BitVec.eq_of_toNat_eq h)⟩)
  · next hones =>
    refine .inr (.inr ?_)
    have hbiased : (@unpackExponent Format.binary64 x.toModel.toBits.toBitVec).toNat ≠ 2047 :=
      fun h => hones (BitVec.eq_of_toNat_eq h)
    rw [if_neg hbiased]
    constructor
    · split
      · split <;> rfl
      · rfl
    · by_cases hzero : (@unpackExponent Format.binary64 x.toModel.toBits.toBitVec).toNat = 0
      · rw [if_pos hzero]
      · rw [if_neg hzero]

theorem lt_iff {x y : Float} : x < y ↔ x.toModel.unpack.compare y.toModel.unpack = some .lt := by
  show decide (x.toModel < y.toModel) = true ↔ _
  rw [decide_eq_true_iff]
  exact beq_iff_eq

theorem not_lt_self (x : Float) : ¬ x < x := by
  rw [lt_iff]
  cases x.toModel.unpack with
  | notANumber => simp [UnpackedFloat.compare]
  | infinity s => cases s <;> decide
  | zero s => simp [UnpackedFloat.compare]
  | finite s m e h => cases s <;> simp [UnpackedFloat.compare]

/-- An infinite number is beyond every finite one, on one side. -/
theorem lt_of_infinite {x low high : Float} {sign : Sign} (hx : x.toModel.unpack = .infinity sign)
    (hlow : isFinite low = true) (hhigh : isFinite high = true) : x < low ∨ high < x := by
  have hmodel {y : Float} (hy : isFinite y = true) : y.toModel.unpack.isFinite = true := by
    rcases classify y with ⟨-, hinfinite⟩ | ⟨-, hnan⟩ | ⟨hfinite, -⟩
    · cases hy.symm.trans hinfinite
    · rw [isFinite, hnan] at hy
      cases hy
    · exact hfinite
  cases sign with
  | negative =>
    have hfinite := hmodel hlow
    refine .inl (lt_iff.2 ?_)
    rw [hx]
    cases hu : low.toModel.unpack with
    | notANumber | infinity s => rw [hu] at hfinite; cases hfinite
    | zero s | finite s m e h => rfl
  | positive =>
    have hfinite := hmodel hhigh
    refine .inr (lt_iff.2 ?_)
    rw [hx]
    cases hu : high.toModel.unpack with
    | notANumber | infinity s => rw [hu] at hfinite; cases hfinite
    | zero s | finite s m e h => rfl

/-- Counts below `2 ^ 53` are ordered like their doubles. -/
theorem not_ofNat_lt {k n : Nat} (h : k ≤ n) (hn : n < 2 ^ 53) :
    ¬ Float.ofNat n < Float.ofNat k := by
  have hzero : (Float.ofNat 0).toModel.unpack = .zero .positive := rfl
  rw [lt_iff]
  by_cases hn₀ : n = 0
  · obtain rfl : k = 0 := by omega
    rw [hn₀, hzero]
    rintro ⟨⟩
  · rw [unpack_ofNat hn₀ hn]
    by_cases hk₀ : k = 0
    · rw [hk₀, hzero]
      rintro ⟨⟩
    · rw [unpack_ofNat hk₀ (by omega)]
      have hlog : k.log2 ≤ n.log2 :=
        (Nat.le_log2 hn₀).2 (Nat.le_trans (Nat.log2_self_le hk₀) h)
      show some ((compare ((n.log2 : Int) - 52) (k.log2 - 52)).then
        (compare (n * 2 ^ (52 - n.log2)) (k * 2 ^ (52 - k.log2)))) ≠ some .lt
      rcases Nat.lt_or_eq_of_le hlog with hless | hsame
      · rw [Int.compare_eq_gt.2 (by omega)]
        rintro ⟨⟩
      · have hmantissa := Nat.not_lt.2 (Nat.mul_le_mul_right (2 ^ (52 - n.log2)) h)
        rw [hsame, Int.compare_eq_eq.2 rfl]
        intro hlt
        exact hmantissa (Nat.compare_eq_lt.1 (Option.some.inj hlt))

/-- A number kept between finite bounds is finite and between them, unless it is undefined. -/
theorem clamp_inside {low high : Float} (hlow : isFinite low = true) (hhigh : isFinite high = true)
    (horder : ¬ high < low) (x : Float) :
    (isFinite (clamp low high x) = true ∧ ¬ clamp low high x < low ∧ ¬ high < clamp low high x)
      ∨ Double.ofFloat (clamp low high x) = .nan := by
  rw [clamp]
  split
  · exact .inl ⟨hlow, not_lt_self low, horder⟩
  · split
    · exact .inl ⟨hhigh, horder, not_lt_self high⟩
    · next hlow' hhigh' =>
      rcases classify x with ⟨⟨sign, hinfinite⟩, -⟩ | ⟨-, hnan⟩ | ⟨-, hfinite⟩
      · rcases lt_of_infinite hinfinite hlow hhigh with hbelow | habove
        · exact absurd hbelow hlow'
        · exact absurd habove hhigh'
      · exact .inr hnan
      · exact .inl ⟨hfinite, hlow', hhigh'⟩

/-- A positive number of full precision is finite, and neither below zero nor below minus one
half. -/
theorem finite_of_spans {x : Float} {low high : Int} (h : Spans x.toModel.unpack low high) :
    isFinite x = true ∧ ¬ x < 0 ∧ ¬ x < -0.5 := by
  obtain ⟨m, e, hm, hu, -⟩ := h
  have hzero : (0 : Float).toModel.unpack = .zero .positive := rfl
  have hhalf : (-0.5 : Float).toModel.unpack = .finite .negative (2 ^ 52) (-53) (by decide) := rfl
  refine ⟨?_, ?_, ?_⟩
  · rcases classify x with ⟨⟨sign, hx⟩, -⟩ | ⟨hx, -⟩ | ⟨-, hx⟩
    · cases hu.symm.trans hx
    · cases hu.symm.trans hx
    · exact hx
  · rw [lt_iff, hu, hzero]
    rintro ⟨⟩
  · rw [lt_iff, hu, hhalf]
    rintro ⟨⟩

end Swarm.Number
