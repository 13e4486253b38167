import Simnet.Rng.Draw

namespace Simnet

/-! Where draws lie. A raw number is a word of its width, so what it is scaled to stays in
the range, whichever raw number is accepted in the end. -/

namespace Rng

theorem raw_lt (width : Width) (rng : Rng) : (rng.raw width).1 < width.size := by
  cases width with
  | single => exact UInt32.toNat_lt rng.word.1
  | double => exact UInt64.toNat_lt rng.doubleWord.1

theorem scaled_lt {width : Width} {size : Nat} (positive : 0 < size) (rng : Rng) :
    (rng.raw width).1 * size / width.size < size := by
  have raw := rng.raw_lt width
  apply Nat.div_lt_of_lt_mul
  exact Nat.mul_lt_mul_of_pos_right raw positive

/-- The draw is below the size of its range after any number of rejections. -/
theorem scale_lt {width : Width} {size zone : Nat} (positive : 0 < size) (rejections : Nat)
    (rng : Rng) : (scale width size zone rejections rng).1 < size := by
  induction rejections generalizing rng with
  | zero => exact scaled_lt positive rng
  | succ rejections induction =>
      simp only [scale]
      split
      · exact scaled_lt positive rng
      · exact induction _

theorem below_lt {width : Width} {size : Nat} (positive : 0 < size) (rng : Rng) :
    (rng.below width size).1 < size :=
  scale_lt positive maxRejections rng

theorem lt_of_below {width : Width} {size index : Nat} {rng after : Rng} (positive : 0 < size)
    (drawn : rng.below width size = (index, after)) : index < size := by
  have below : (rng.below width size).1 < size := below_lt positive rng
  rwa [drawn] at below

theorem between_le {width : Width} {low high : Nat} (ordered : low ≤ high) (rng : Rng) :
    (rng.between width low high).1 ≤ high := by
  have drawn : (rng.below width (high - low + 1)).1 < high - low + 1 :=
    below_lt (Nat.succ_pos _) rng
  have sum : (rng.between width low high).1 = low + (rng.below width (high - low + 1)).1 := rfl
  omega

theorem le_between (width : Width) (low high : Nat) (rng : Rng) :
    low ≤ (rng.between width low high).1 :=
  Nat.le_add_right low _

end Rng

end Simnet
