namespace Simnet

/-! The integer square root, digit by digit in base four. -/

def floorSqrtDigits : (digits : Nat) → Nat → Nat
  | 0, _ => 0
  | digits + 1, number =>
      let root := 2 * floorSqrtDigits digits (number / 4)
      if (root + 1) * (root + 1) ≤ number then root + 1 else root

/-- The greatest number whose square does not exceed `number`. -/
def floorSqrt (number : Nat) : Nat :=
  floorSqrtDigits (number.log2 / 2 + 1) number

theorem floorSqrtDigits_le (digits number : Nat) :
    floorSqrtDigits digits number * floorSqrtDigits digits number ≤ number := by
  induction digits generalizing number with
  | zero => exact Nat.zero_le _
  | succ digits induction =>
      simp only [floorSqrtDigits]
      split
      · assumption
      · have smaller := induction (number / 4)
        have whole := Nat.div_mul_le_self number 4
        calc 2 * floorSqrtDigits digits (number / 4) *
              (2 * floorSqrtDigits digits (number / 4))
            = 4 * (floorSqrtDigits digits (number / 4) *
                floorSqrtDigits digits (number / 4)) := by
              rw [Nat.mul_mul_mul_comm]
          _ ≤ number := by omega

theorem floorSqrt_le (number : Nat) :
    floorSqrt number * floorSqrt number ≤ number :=
  floorSqrtDigits_le _ number

end Simnet
