import Simnet.Map.Location
import Simnet.Rng.Draw

namespace Simnet

/-! Where new nodes are put on the map. A placement draws from the generator it
is given and from nothing else. -/

abbrev Placement := Rng → Location × Rng

namespace CloudRegion

def location (region : CloudRegion) : Location :=
  ⟨region.position.1, region.position.2, some (.cloud region)⟩

end CloudRegion

namespace City

def location (city : City) : Location :=
  ⟨city.position.1, city.position.2, some (.city city)⟩

end City

namespace Placement

def anywhere : Placement := fun rng =>
  let (x, rng) := rng.between .single 1 mapWidth
  let (y, rng) := rng.between .single 1 mapHeight
  (⟨x, y, none⟩, rng)

/-- One of the listed cloud regions; of the empty list, the first region there
is, without a draw. -/
def cloudRegions (regions : List CloudRegion) : Placement := fun rng =>
  match regions with
  | [] => (CloudRegion.usEast1.location, rng)
  | first :: rest =>
      let (index, rng) := rng.below .double (rest.length + 1)
      ((((first :: rest)[index]?).getD first).location, rng)

def cities (cities : List City) : Placement := fun rng =>
  let (city, rng) := rng.chooseWeighted City.population cities
  ((city.getD City.newYork).location, rng)

def fixed (location : Location) : Placement := fun rng =>
  (location, rng)

end Placement

inductive PlacementRule
  | anywhere
  | cloudRegions (regions : List CloudRegion)
  | cities (cities : List City)
  | fixed (location : Location)
deriving DecidableEq, Repr

namespace PlacementRule

/-- Only a choice among cities can be a choice among none. -/
def isValid : PlacementRule → Bool
  | cities listed => ! listed.isEmpty
  | _ => true

def placement : PlacementRule → Placement
  | anywhere => .anywhere
  | cloudRegions listed => .cloudRegions listed
  | cities listed => .cities listed
  | fixed location => .fixed location

end PlacementRule

end Simnet
