import Mathlib.Algebra.Order.Ring.Nat
import Simnet.Network.Partition
import Simnet.Proofs.MapDistance

namespace Simnet

/-! Rounded products. A whole number is multiplied by a fraction below one, and the product is
rounded to the nearest floating-point number and then down to a whole one. A whole number of
fewer than 54 bits is a floating-point number itself, so rounding never gets past it. -/

open Float.Model (Format totalExponent UnpackedFloat)
open Float.Model.UnpackedFloat

/-- The number is finite and, apart from its sign, at most a whole number. -/
def UpTo (most : Nat) : UnpackedFloat → Prop
  | .zero _ => True
  | .finite _ mantissa exponent _ =>
      exponent ≤ 0 ∧ mantissa ≤ most * 2 ^ (-exponent).toNat
  | .infinity _ | .notANumber => False

theorem mantissa_shiftRight (extended : ExtendedMantissa) (places : Nat) :
    (extended >>> places).mantissa = extended.mantissa / 2 ^ places := by
  induction places with
  | zero => exact (Nat.div_one _).symm
  | succ places induction =>
      change (extended >>> places).mantissa / 2 = _
      rw [induction, Nat.div_div_eq_div_mul, Nat.pow_succ]

theorem mantissa_ofMantissaAndAccuracy (mantissa : Nat) (accuracy : Accuracy) :
    (ExtendedMantissa.ofMantissaAndAccuracy mantissa accuracy).mantissa = mantissa := by
  cases accuracy with
  | exact => rfl
  | inexact relative => cases relative <;> rfl

theorem roundedMantissa_le (extended : ExtendedMantissa) :
    extended.roundedMantissa ≤ extended.mantissa + 1 := by
  obtain ⟨mantissa, roundBit, stickyBit⟩ := extended
  cases roundBit <;> cases stickyBit <;>
    simp [ExtendedMantissa.roundedMantissa, ExtendedMantissa.accuracy,
      Accuracy.roundToNearestEven]
  omega

theorem shiftToTargetExponent_spec {mantissa : Nat} {exponent : Int} (fraction : exponent ≤ 0)
    (small : mantissa < 2 ^ (53 + (-exponent).toNat)) (accuracy : Accuracy) :
    ∃ places : Nat, exponent + places ≤ 0 ∧
      (shiftToTargetExponent .binary64 mantissa exponent accuracy).2 = exponent + places ∧
      (shiftToTargetExponent .binary64 mantissa exponent accuracy).1.mantissa =
        mantissa / 2 ^ places := by
  refine ⟨(Format.binary64.targetExponent (totalExponent mantissa exponent) - exponent).toNat,
    ?_, rfl, ?_⟩
  · have short : mantissa.log2 < 53 + (-exponent).toNat := by
      by_cases zero : mantissa = 0
      · rw [zero, Nat.log2_zero]
        omega
      · exact (Nat.log2_lt zero).mpr small
    have bits : Format.binary64.mantissaBits = 53 := rfl
    simp only [Format.targetExponent, totalExponent, bits, Format.minExponent]
    omega
  · simp only [shiftToTargetExponent, shiftToExponent]
    rw [mantissa_shiftRight, mantissa_ofMantissaAndAccuracy]

theorem scale_shift {exponent : Int} {places : Nat} (fraction : exponent + places ≤ 0) :
    2 ^ (-exponent).toNat = 2 ^ (-(exponent + places)).toNat * 2 ^ places := by
  rw [← Nat.pow_add]
  congr 1
  omega

section Most

variable {most : Nat}

theorem mantissa_lt_of_le (short : most < 2 ^ 53) {mantissa places : Nat}
    (bounded : mantissa ≤ most * 2 ^ places) : mantissa < 2 ^ (53 + places) := by
  rw [Nat.pow_add]
  exact Nat.lt_of_le_of_lt bounded
    (Nat.mul_lt_mul_of_pos_right short (Nat.two_pow_pos places))

/-- A number below the whole one has a smaller mantissa at the same exponent, so that it is
rounded up to the mantissa of the whole number at most. -/
theorem upTo_roundWithAccuracy (short : most < 2 ^ 53) (sign : Sign) {mantissa : Nat}
    {exponent : Int} (fraction : exponent ≤ 0)
    (below : mantissa < most * 2 ^ (-exponent).toNat) (accuracy : Accuracy) :
    UpTo most (roundWithAccuracy .binary64 sign mantissa exponent accuracy) := by
  obtain ⟨places, stays, exponentEq, mantissaEq⟩ :=
    shiftToTargetExponent_spec fraction (mantissa_lt_of_le short (Nat.le_of_lt below)) accuracy
  unfold roundWithAccuracy
  generalize shiftToTargetExponent .binary64 mantissa exponent accuracy = shifted at *
  obtain ⟨extended, shiftedExponent⟩ := shifted
  dsimp only at exponentEq mantissaEq ⊢
  subst exponentEq
  rw [scale_shift stays, ← Nat.mul_assoc] at below
  have rounded : extended.roundedMantissa ≤ most * 2 ^ (-(exponent + places)).toNat := by
    apply Nat.le_trans (roundedMantissa_le extended)
    rw [mantissaEq]
    exact Nat.div_lt_of_lt_mul (by rwa [Nat.mul_comm])
  -- A mantissa that got one bit too long is shifted once more.
  obtain ⟨more, staysAgain, exponentEqAgain, mantissaEqAgain⟩ :=
    shiftToTargetExponent_spec stays (mantissa_lt_of_le short rounded) .exact
  generalize shiftToTargetExponent .binary64 extended.roundedMantissa (exponent + places)
    .exact = final at *
  obtain ⟨finalExtended, finalExponent⟩ := final
  dsimp only at exponentEqAgain mantissaEqAgain ⊢
  subst exponentEqAgain
  by_cases zero : finalExtended.mantissa = 0
  · rw [dif_pos zero]
    trivial
  · rw [dif_neg zero]
    refine ⟨staysAgain, ?_⟩
    rw [scale_shift staysAgain, ← Nat.mul_assoc] at rounded
    rw [mantissaEqAgain]
    exact Nat.div_le_of_le_mul (by rwa [Nat.mul_comm])

theorem toNat_implicit (mantissa : BitVec 52) :
    (1#1 ++ mantissa).toNat = 2 ^ 52 + mantissa.toNat := by
  rw [BitVec.toNat_append, ← Nat.shiftLeft_add_eq_or_of_lt mantissa.isLt]
  rfl

theorem mantissa_lt_of_unpack {bits : BitVec Format.binary64.numBits} {sign : Sign}
    {mantissa : Nat} {exponent : Int} {positive : 0 < mantissa}
    (unpacked : unpack .binary64 bits = .finite sign mantissa exponent positive) :
    mantissa < 2 ^ 53 := by
  unfold unpack at unpacked
  dsimp only at unpacked
  by_cases last : unpackExponent bits = -1#11
  · rw [if_pos last] at unpacked
    by_cases zero : unpackMantissa bits = 0#52
    · rw [if_pos zero] at unpacked
      cases unpacked
    · rw [if_neg zero] at unpacked
      cases unpacked
  rw [if_neg last] at unpacked
  by_cases first : unpackExponent bits = 0#11
  · rw [if_pos first] at unpacked
    by_cases zero : unpackMantissa bits = 0#52
    · rw [dif_pos zero] at unpacked
      cases unpacked
    · rw [dif_neg zero] at unpacked
      cases unpacked
      exact Nat.lt_trans (BitVec.isLt _) (by decide)
  · rw [if_neg first] at unpacked
    cases unpacked
    exact BitVec.isLt _

theorem upTo_unpack_of_exponent_zero (positive : 0 < most) (sign : Sign)
    (mantissa : BitVec 52) :
    UpTo most (unpack .binary64 (packComponents .binary64 sign 0#11 mantissa)) := by
  unfold unpack
  dsimp only
  rw [if_neg (by rw [unpackExponent_packComponents]; decide),
    if_pos (unpackExponent_packComponents ..)]
  by_cases zero : unpackMantissa (packComponents .binary64 sign 0#11 mantissa) = 0#52
  · rw [dif_pos zero]
    trivial
  · rw [dif_neg zero]
    change ((unpackExponent _).toNat : Int) - 1075 + 1 ≤ 0 ∧
      (unpackMantissa _).toNat ≤
        most * 2 ^ (-(((unpackExponent _).toNat : Int) - 1075 + 1)).toNat
    rw [unpackExponent_packComponents, unpackMantissa_packComponents]
    refine ⟨by decide, Nat.le_trans ?_ (Nat.le_mul_of_pos_left _ positive)⟩
    have tiny : ∀ places, 52 ≤ places → mantissa.toNat ≤ 2 ^ places := fun places many =>
      Nat.le_trans (Nat.le_of_lt mantissa.isLt) (Nat.pow_le_pow_right (by decide) many)
    exact tiny _ (by decide)

/-- A mantissa of 53 bits is read as it was written, though its first bit is left out. -/
theorem upTo_unpack_of_exponent_pos {biased mantissa : Nat} (positive : 0 < biased)
    (low : biased ≤ 1075) (long : mantissa.log2 = 52)
    (bounded : mantissa ≤ most * 2 ^ (-((biased : Int) - 1075)).toNat) (sign : Sign) :
    UpTo most (unpack .binary64 (packComponents .binary64 sign (BitVec.ofNat 11 biased)
      (BitVec.ofNat 52 mantissa))) := by
  have nonzero : mantissa ≠ 0 := by
    rintro rfl
    cases long
  have least : 2 ^ 52 ≤ mantissa := long ▸ Nat.log2_self_le nonzero
  have greatest : mantissa < 2 ^ 53 := (Nat.log2_lt nonzero).mp (by omega)
  have exponentEq : (BitVec.ofNat 11 biased).toNat = biased := Nat.mod_eq_of_lt (by omega)
  have mantissaEq : (1#1 ++ BitVec.ofNat 52 mantissa).toNat = mantissa := by
    rw [toNat_implicit, BitVec.toNat_ofNat]
    omega
  have notLast : BitVec.ofNat 11 biased ≠ -1#11 := by
    rw [Ne, ← BitVec.toNat_inj, exponentEq]
    exact Nat.ne_of_lt (Nat.lt_of_le_of_lt low (by decide))
  have notFirst : BitVec.ofNat 11 biased ≠ 0#11 := by
    rw [Ne, ← BitVec.toNat_inj, exponentEq]
    exact Nat.ne_of_gt positive
  unfold unpack
  dsimp only
  rw [if_neg (by rwa [unpackExponent_packComponents]),
    if_neg (by rwa [unpackExponent_packComponents])]
  change ((unpackExponent _).toNat : Int) - 1075 ≤ 0 ∧
    (1#1 ++ unpackMantissa _).toNat ≤
      most * 2 ^ (-(((unpackExponent _).toNat : Int) - 1075)).toNat
  rw [unpackExponent_packComponents, unpackMantissa_packComponents, exponentEq, mantissaEq]
  exact ⟨by omega, bounded⟩

theorem upTo_unpack_pack (positive : 0 < most) {number : UnpackedFloat}
    (bounded : UpTo most number) : UpTo most (unpack .binary64 (pack .binary64 number)) := by
  cases number with
  | infinity _ | notANumber => exact bounded.elim
  | zero sign => exact upTo_unpack_of_exponent_zero positive sign 0
  | finite sign mantissa exponent nonzero =>
      obtain ⟨fraction, bounded⟩ := bounded
      unfold pack
      change UpTo most (unpack .binary64 (if 2048 ≤
        (exponent + (1023 : Nat) + (52 : Nat)).toNat + 1 then _ else
          if mantissa.log2 + 1 = 53 then
            packComponents .binary64 sign
              (BitVec.ofNat 11 (exponent + (1023 : Nat) + (52 : Nat)).toNat) _
          else _))
      rw [if_neg (by omega)]
      split
      · rename_i long
        by_cases tiny : (exponent + (1023 : Nat) + (52 : Nat)).toNat = 0
        · rw [tiny]
          exact upTo_unpack_of_exponent_zero positive sign _
        · refine upTo_unpack_of_exponent_pos (Nat.pos_of_ne_zero tiny) (by omega)
            (Nat.succ.inj long) ?_ sign
          have same : ((exponent + (1023 : Nat) + (52 : Nat)).toNat : Int) - 1075 = exponent := by
            omega
          rwa [same]
      · exact upTo_unpack_of_exponent_zero positive sign _

theorem toNat_apply_le (sign : Sign) (number : Nat) : (sign.apply number).toNat ≤ number := by
  cases sign <;> simp only [Sign.apply] <;> omega

theorem toInt_le {number : UnpackedFloat} (bounded : UpTo most number) (least greatest : Int) :
    (toInt least greatest number).toNat ≤ most := by
  cases number with
  | infinity _ | notANumber => exact bounded.elim
  | zero sign => exact Nat.zero_le most
  | finite sign mantissa exponent nonzero =>
      obtain ⟨fraction, bounded⟩ := bounded
      have unscaled : (exponent - 0).toNat = 0 := by omega
      have places : (0 - (exponent - ((0 : Nat) : Int))).toNat = (-exponent).toNat := by omega
      dsimp only [toInt, roundToInt, decreaseExponent, shiftToExponent]
      rw [unscaled, places]
      apply Nat.le_trans (toNat_apply_le sign _)
      rw [mantissa_shiftRight, mantissa_ofMantissaAndAccuracy]
      exact Nat.div_le_of_le_mul (by rwa [Nat.mul_comm])

theorem toNat_ofNatClamp_le (number : Nat) : (UInt32.ofNatClamp number).toNat ≤ number := by
  unfold UInt32.ofNatClamp
  split
  · exact Nat.le_refl number
  · rename_i large
    exact Nat.le_trans (Nat.sub_le UInt32.size 1) (Nat.not_lt.mp large)

end Most

/-! Fractions of the map -/

theorem compare_of_lt {first second : Float} (less : first < second) :
    first.toModel.unpack.compare second.toModel.unpack = some .lt :=
  eq_of_beq (of_decide_eq_true less)

theorem unpack_fraction {fraction : Float} (positive : 0 < fraction) (below : fraction < 1) :
    ∃ mantissa exponent nonzero,
      fraction.toModel.unpack = .finite .positive mantissa exponent nonzero ∧
      exponent ≤ 0 ∧ mantissa < 2 ^ (-exponent).toNat := by
  have aboveZero : UnpackedFloat.compare (.zero .positive) fraction.toModel.unpack = some .lt :=
    compare_of_lt positive
  have belowOne : UnpackedFloat.compare fraction.toModel.unpack
      (.finite .positive (2 ^ 52) (-52) (by decide)) = some .lt :=
    compare_of_lt below
  cases unpacked : fraction.toModel.unpack with
  | notANumber | zero _ =>
      rw [unpacked] at aboveZero
      cases aboveZero
  | infinity sign =>
      rw [unpacked] at aboveZero belowOne
      cases sign with
      | negative => cases aboveZero
      | positive => cases belowOne
  | finite sign mantissa exponent nonzero =>
      rw [unpacked] at aboveZero belowOne
      cases sign with
      | negative => cases aboveZero
      | positive =>
          refine ⟨mantissa, exponent, nonzero, rfl, ?_⟩
          have small : mantissa < 2 ^ 53 := mantissa_lt_of_unpack unpacked
          dsimp only [UnpackedFloat.compare] at belowOne
          simp only [Option.some.injEq, Ordering.then_eq_lt, Std.compare_eq_lt,
            compare_eq_iff_eq] at belowOne
          rcases belowOne with lower | ⟨rfl, smaller⟩
          · refine ⟨by omega, Nat.lt_of_lt_of_le small ?_⟩
            exact Nat.pow_le_pow_right (by decide) (by omega)
          · exact ⟨by decide, smaller⟩

namespace Network

theorem unpack_mapWidth : (Float.ofNat mapWidth).toModel.unpack =
    .finite .positive (mapWidth * 2 ^ 42) (-42) (by decide) := rfl

theorem upTo_product {fraction : Float} (positive : 0 < fraction) (below : fraction < 1) :
    UpTo mapWidth (Float.ofNat mapWidth * fraction).toModel.unpack := by
  obtain ⟨mantissa, exponent, nonzero, unpacked, behind, small⟩ :=
    unpack_fraction positive below
  change UpTo mapWidth (unpack .binary64 (pack .binary64
    (mul .binary64 (Float.ofNat mapWidth).toModel.unpack fraction.toModel.unpack)))
  apply upTo_unpack_pack mapWidth_pos
  rw [unpack_mapWidth, unpacked]
  apply upTo_roundWithAccuracy (by decide) _ (by omega)
  calc mapWidth * 2 ^ 42 * mantissa
    _ < mapWidth * 2 ^ 42 * 2 ^ (-exponent).toNat :=
        Nat.mul_lt_mul_of_pos_left small (by decide)
    _ = mapWidth * 2 ^ (-(-42 + exponent)).toNat := by
        rw [Nat.mul_assoc, ← Nat.pow_add]
        congr 2
        omega

theorem boundary_le {fraction : Float} (positive : 0 < fraction) (below : fraction < 1) :
    boundary fraction ≤ mapWidth :=
  Nat.le_trans (toNat_ofNatClamp_le _) (toInt_le (upTo_product positive below) _ _)

end Network

end Simnet
