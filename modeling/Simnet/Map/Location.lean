import Simnet.Map.FloorSqrt
import Simnet.Map.Region

namespace Simnet

/-! Positions on a map that wraps in both directions. Coordinates past an edge
stand for the wrapped position. -/

def mapWidth : Nat := 2000

def mapHeight : Nat := 1112

structure Location where
  x : Nat
  y : Nat
  region : Option Region := none
deriving DecidableEq, Repr

def gap (first second : Nat) : Nat :=
  (first - second) + (second - first)

def wrappedGap (length first second : Nat) : Nat :=
  let direct := gap (first % length) (second % length)
  min direct (length - direct)

/-- The length of the diagonal, rounded down. -/
def diagonal (horizontal vertical : Nat) : Nat :=
  floorSqrt (horizontal * horizontal + vertical * vertical)

def maxDistance : Nat :=
  diagonal (mapWidth / 2) (mapHeight / 2)

namespace Location

def distance (first second : Location) : Nat :=
  diagonal (wrappedGap mapWidth first.x second.x)
    (wrappedGap mapHeight first.y second.y)

end Location

theorem gap_comm (first second : Nat) : gap first second = gap second first :=
  Nat.add_comm _ _

theorem wrappedGap_comm (length first second : Nat) :
    wrappedGap length first second = wrappedGap length second first := by
  simp only [wrappedGap, gap_comm]

theorem Location.distance_comm (first second : Location) :
    first.distance second = second.distance first := by
  simp only [Location.distance, wrappedGap_comm]

theorem maxDistance_eq : maxDistance = 1144 := by
  decide +kernel

end Simnet
