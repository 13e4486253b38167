import Mathlib.Data.Nat.ModEq
import Mathlib.Data.Nat.Sqrt
import Mathlib.Tactic.Linarith
import Mathlib.Tactic.Ring
import Simnet.Proofs.MapDistance

namespace Simnet

/-! The distance as a metric. The map is a torus: what lies between two columns, or two rows,
obeys the triangle inequality, and so do the diagonals over them. A diagonal is rounded down,
so that the two parts of a way may together lose one against the whole of it. -/

/-! The square root -/

theorem lt_succ_floorSqrtDigits {digits number : Nat} (short : number < 4 ^ digits) :
    number < (floorSqrtDigits digits number + 1) * (floorSqrtDigits digits number + 1) := by
  induction digits generalizing number with
  | zero => exact short
  | succ digits induction =>
      have quarter : number / 4 <
          (floorSqrtDigits digits (number / 4) + 1) * (floorSqrtDigits digits (number / 4) + 1) :=
        induction (Nat.div_lt_of_lt_mul (by rwa [← Nat.pow_succ']))
      simp only [floorSqrtDigits]
      split
      · -- The last digit is one, and the next even root is too large.
        calc number
          _ < 4 * ((floorSqrtDigits digits (number / 4) + 1) *
                (floorSqrtDigits digits (number / 4) + 1)) := by omega
          _ = _ := by ring
      · exact Nat.not_le.mp ‹_›

theorem lt_succ_floorSqrt (number : Nat) :
    number < (floorSqrt number + 1) * (floorSqrt number + 1) := by
  apply lt_succ_floorSqrtDigits
  calc number
    _ < 2 ^ (number.log2 + 1) := Nat.lt_log2_self
    _ ≤ 2 ^ (2 * (number.log2 / 2 + 1)) := Nat.pow_le_pow_right (by decide) (by omega)
    _ = 4 ^ (number.log2 / 2 + 1) := Nat.pow_mul 2 2 _

theorem floorSqrt_eq_sqrt (number : Nat) : floorSqrt number = Nat.sqrt number :=
  Nat.eq_sqrt.mpr ⟨floorSqrt_le number, lt_succ_floorSqrt number⟩

theorem diagonal_eq_sqrt (horizontal vertical : Nat) :
    diagonal horizontal vertical =
      Nat.sqrt (horizontal * horizontal + vertical * vertical) :=
  floorSqrt_eq_sqrt _

theorem diagonal_eq_zero_iff {horizontal vertical : Nat} :
    diagonal horizontal vertical = 0 ↔ horizontal = 0 ∧ vertical = 0 := by
  rw [diagonal_eq_sqrt, Nat.sqrt_eq_zero, Nat.add_eq_zero_iff, mul_self_eq_zero,
    mul_self_eq_zero]

theorem diagonal_mono {horizontal vertical wider higher : Nat} (wide : horizontal ≤ wider)
    (high : vertical ≤ higher) : diagonal horizontal vertical ≤ diagonal wider higher := by
  rw [diagonal_eq_sqrt, diagonal_eq_sqrt]
  exact Nat.sqrt_le_sqrt (Nat.add_le_add (Nat.mul_self_le_mul_self wide)
    (Nat.mul_self_le_mul_self high))

/-- What the sides of two diagonals have in common stays below the product of the diagonals
rounded up. -/
theorem cross_lt_diagonals (width height further higher : Nat) :
    width * further + height * higher <
      (diagonal width height + 1) * (diagonal further higher + 1) := by
  have first : width * width + height * height < _ := lt_succ_floorSqrt _
  have second : further * further + higher * higher < _ := lt_succ_floorSqrt _
  have mixed := two_mul_le_add_sq (width * higher) (height * further)
  apply Nat.mul_self_lt_mul_self_iff.mp
  calc (width * further + height * higher) * (width * further + height * higher)
    _ ≤ (width * width + height * height) * (further * further + higher * higher) := by
        linarith
    _ < _ := Nat.mul_lt_mul'' first second
    _ = _ := by
        rw [diagonal, diagonal]
        ring

theorem diagonal_add_le (width height further higher : Nat) :
    diagonal (width + further) (height + higher) ≤
      diagonal width height + diagonal further higher + 1 := by
  have first : width * width + height * height <
      (diagonal width height + 1) * (diagonal width height + 1) := lt_succ_floorSqrt _
  have second : further * further + higher * higher <
      (diagonal further higher + 1) * (diagonal further higher + 1) := lt_succ_floorSqrt _
  have cross := cross_lt_diagonals width height further higher
  suffices below : diagonal (width + further) (height + higher) <
      diagonal width height + diagonal further higher + 2 from Nat.le_of_lt_succ below
  rw [diagonal_eq_sqrt (width + further), Nat.sqrt_lt]
  calc (width + further) * (width + further) + (height + higher) * (height + higher)
    _ = (width * width + height * height) + (further * further + higher * higher) +
          2 * (width * further + height * higher) := by ring
    _ < (diagonal width height + 1) * (diagonal width height + 1) +
          (diagonal further higher + 1) * (diagonal further higher + 1) +
          2 * ((diagonal width height + 1) * (diagonal further higher + 1)) := by omega
    _ = _ := by ring

section Gaps

variable {length : Nat}

theorem wrappedGap_congr {first second other another : Nat}
    (same : first ≡ other [MOD length]) (alsoSame : second ≡ another [MOD length]) :
    wrappedGap length first second = wrappedGap length other another := by
  rw [wrappedGap, same, alsoSame]
  rfl

theorem wrappedGap_eq_zero_iff (positive : 0 < length) (first second : Nat) :
    wrappedGap length first second = 0 ↔ first ≡ second [MOD length] := by
  have below := Nat.mod_lt first positive
  have alsoBelow := Nat.mod_lt second positive
  simp only [wrappedGap, gap, Nat.ModEq]
  omega

theorem gap_triangle (first second third : Nat) :
    gap first third ≤ gap first second + gap second third := by
  simp only [gap]
  omega

theorem gap_round_trip {first second third : Nat} (firstBelow : first < length)
    (secondBelow : second < length) (thirdBelow : third < length) :
    gap first second + gap second third + gap first third ≤ 2 * length := by
  simp only [gap]
  omega

theorem wrappedGap_triangle (positive : 0 < length) (first second third : Nat) :
    wrappedGap length first third ≤
      wrappedGap length first second + wrappedGap length second third := by
  have round := gap_round_trip (Nat.mod_lt first positive) (Nat.mod_lt second positive)
    (Nat.mod_lt third positive)
  have direct := gap_triangle (first % length) (second % length) (third % length)
  -- The gap of two places against the way over the third, in either order.
  have before := gap_triangle (second % length) (first % length) (third % length)
  have behind := gap_triangle (first % length) (third % length) (second % length)
  rw [gap_comm (second % length) (first % length)] at before
  rw [gap_comm (third % length) (second % length)] at behind
  simp only [wrappedGap]
  omega

theorem gap_moved {first second offset : Nat} (past : length ≤ first + offset)
    (short : second + offset < length) (firstBelow : first < length) :
    gap (first + offset - length) (second + offset) = length - gap first second := by
  simp only [gap]
  omega

theorem wrappedGap_add (positive : 0 < length) (first second offset : Nat) :
    wrappedGap length (first + offset) (second + offset) = wrappedGap length first second := by
  have firstBelow := Nat.mod_lt first positive
  have secondBelow := Nat.mod_lt second positive
  have direct := gap_lt firstBelow secondBelow
  simp only [wrappedGap, Nat.add_mod_eq_ite]
  generalize first % length = first at *
  generalize second % length = second at *
  generalize offset % length = offset at *
  by_cases past : length ≤ first + offset <;> by_cases alsoPast : length ≤ second + offset
  · have same : gap (first + offset - length) (second + offset - length) = gap first second := by
      simp only [gap]
      omega
    rw [if_pos past, if_pos alsoPast, same]
  · rw [if_pos past, if_neg alsoPast, gap_moved past (Nat.not_le.mp alsoPast) firstBelow]
    omega
  · rw [if_neg past, if_pos alsoPast, gap_comm,
      gap_moved alsoPast (Nat.not_le.mp past) secondBelow, gap_comm second first]
    omega
  · have same : gap (first + offset) (second + offset) = gap first second := by
      simp only [gap]
      omega
    rw [if_neg past, if_neg alsoPast, same]

end Gaps

namespace Location

/-- The two positions are one place of the map. -/
def SamePlace (first second : Location) : Prop :=
  first.x ≡ second.x [MOD mapWidth] ∧ first.y ≡ second.y [MOD mapHeight]

/-- The position that lies so far to the right and so far down, around the map. -/
def shifted (location : Location) (right down : Nat) : Location :=
  { location with
    x := (location.x + right) % mapWidth
    y := (location.y + down) % mapHeight }

theorem distance_eq_zero_iff {first second : Location} :
    first.distance second = 0 ↔ first.SamePlace second := by
  rw [distance, diagonal_eq_zero_iff, wrappedGap_eq_zero_iff mapWidth_pos,
    wrappedGap_eq_zero_iff mapHeight_pos, SamePlace]

theorem SamePlace.distance_eq {first second other another : Location}
    (same : first.SamePlace other) (alsoSame : second.SamePlace another) :
    first.distance second = other.distance another := by
  rw [distance, distance, wrappedGap_congr same.1 alsoSame.1, wrappedGap_congr same.2 alsoSame.2]

theorem distance_shifted (first second : Location) (right down : Nat) :
    (first.shifted right down).distance (second.shifted right down) =
      first.distance second := by
  have wraps := fun length place : Nat => Nat.mod_modEq place length
  simp only [distance, shifted]
  rw [wrappedGap_congr (wraps _ _) (wraps _ _), wrappedGap_congr (wraps _ _) (wraps _ _),
    wrappedGap_add mapWidth_pos, wrappedGap_add mapHeight_pos]

theorem distance_triangle (first second third : Location) :
    first.distance third ≤ first.distance second + second.distance third + 1 := by
  have across := wrappedGap_triangle mapWidth_pos first.x second.x third.x
  have along := wrappedGap_triangle mapHeight_pos first.y second.y third.y
  exact Nat.le_trans (diagonal_mono across along) (diagonal_add_le ..)

/-- The distance is a metric on the places of the map, but for a detour that may be shorter by
one. -/
theorem distance_nearMetric (first second third : Location) :
    first.distance second =
      Nat.sqrt (wrappedGap mapWidth first.x second.x ^ 2 +
        wrappedGap mapHeight first.y second.y ^ 2) ∧
    first.distance second = second.distance first ∧
    (∀ other another : Location, first.SamePlace other → second.SamePlace another →
      first.distance second = other.distance another) ∧
    (first.distance second = 0 ↔ first.SamePlace second) ∧
    first.distance second ≤ maxDistance ∧
    (∀ right down,
      (first.shifted right down).distance (second.shifted right down) =
        first.distance second) ∧
    first.distance third ≤ first.distance second + second.distance third + 1 := by
  refine ⟨?_, first.distance_comm second, fun _ _ => SamePlace.distance_eq,
    distance_eq_zero_iff, first.distance_le second, first.distance_shifted second,
    first.distance_triangle second third⟩
  rw [Nat.pow_two, Nat.pow_two]
  exact diagonal_eq_sqrt _ _

/-- The detour over the second place is shorter by one. -/
example : distance ⟨0, 0, none⟩ ⟨3, 3, none⟩ =
    distance ⟨0, 0, none⟩ ⟨1, 1, none⟩ + distance ⟨1, 1, none⟩ ⟨3, 3, none⟩ + 1 := by
  decide +kernel

end Location

end Simnet
