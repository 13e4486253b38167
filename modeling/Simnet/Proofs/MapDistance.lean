import Simnet.Node

namespace Simnet

/-! Distances on the map. Along each axis two positions are at most half of the map apart,
so no distance exceeds the one between the middle of the map and its corner. -/

theorem mapWidth_pos : 0 < mapWidth := by
  decide

theorem mapHeight_pos : 0 < mapHeight := by
  decide

theorem gap_lt {length first second : Nat} (within : first < length)
    (alsoWithin : second < length) : gap first second < length := by
  simp only [gap]
  omega

theorem gap_mod_lt {length : Nat} (positive : 0 < length) (first second : Nat) :
    gap (first % length) (second % length) < length :=
  gap_lt (Nat.mod_lt first positive) (Nat.mod_lt second positive)

theorem wrappedGap_le (length first second : Nat) :
    wrappedGap length first second ≤ length / 2 := by
  simp only [wrappedGap]
  omega

theorem diagonal_le_maxDistance {horizontal vertical : Nat}
    (narrow : horizontal ≤ mapWidth / 2) (low : vertical ≤ mapHeight / 2) :
    diagonal horizontal vertical ≤ maxDistance := by
  rw [maxDistance_eq]
  apply Nat.le_of_lt_succ
  apply Nat.mul_self_lt_mul_self_iff.mp
  calc diagonal horizontal vertical * diagonal horizontal vertical
    _ ≤ horizontal * horizontal + vertical * vertical := floorSqrt_le _
    _ ≤ mapWidth / 2 * (mapWidth / 2) + mapHeight / 2 * (mapHeight / 2) :=
        Nat.add_le_add (Nat.mul_le_mul narrow narrow) (Nat.mul_le_mul low low)
    _ < 1145 * 1145 := by decide

theorem Location.distance_le (first second : Location) :
    first.distance second ≤ maxDistance :=
  diagonal_le_maxDistance (wrappedGap_le ..) (wrappedGap_le ..)

end Simnet
