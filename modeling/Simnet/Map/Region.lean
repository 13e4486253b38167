namespace Simnet

/-! Places with measured delays: cloud regions and cities. Each has an index, in
the order of its list, a position on the map and a row in a table of round-trip
times in milliseconds. -/

inductive CloudRegion
  | usEast1
  | usWest2
  | euWest1
  | euCentral1
  | apNortheast1
  | apSoutheast1
  | apSoutheast2
  | saEast1
deriving DecidableEq, Repr

namespace CloudRegion

def all : List CloudRegion :=
  [usEast1, usWest2, euWest1, euCentral1, apNortheast1, apSoutheast1, apSoutheast2, saEast1]

def index : CloudRegion → Fin 8
  | usEast1 => 0
  | usWest2 => 1
  | euWest1 => 2
  | euCentral1 => 3
  | apNortheast1 => 4
  | apSoutheast1 => 5
  | apSoutheast2 => 6
  | saEast1 => 7

def name : CloudRegion → String
  | usEast1 => "us-east-1"
  | usWest2 => "us-west-2"
  | euWest1 => "eu-west-1"
  | euCentral1 => "eu-central-1"
  | apNortheast1 => "ap-northeast-1"
  | apSoutheast1 => "ap-southeast-1"
  | apSoutheast2 => "ap-southeast-2"
  | saEast1 => "sa-east-1"

def tag : CloudRegion → String
  | usEast1 => "UsEast1"
  | usWest2 => "UsWest2"
  | euWest1 => "EuWest1"
  | euCentral1 => "EuCentral1"
  | apNortheast1 => "ApNortheast1"
  | apSoutheast1 => "ApSoutheast1"
  | apSoutheast2 => "ApSoutheast2"
  | saEast1 => "SaEast1"

def ofTag? (text : String) : Option CloudRegion :=
  all.find? fun region => region.tag = text

def position : CloudRegion → Nat × Nat
  | usEast1 => (569, 316)
  | usWest2 => (336, 273)
  | euWest1 => (965, 227)
  | euCentral1 => (1048, 246)
  | apNortheast1 => (1776, 335)
  | apSoutheast1 => (1577, 548)
  | apSoutheast2 => (1840, 765)
  | saEast1 => (741, 701)

def roundTrips : Vector (Vector Nat 8) 8 :=
  #v[#v[4, 70, 68, 90, 145, 215, 200, 115],
    #v[70, 4, 125, 145, 100, 165, 140, 175],
    #v[68, 125, 4, 25, 210, 170, 255, 180],
    #v[90, 145, 25, 4, 225, 160, 280, 200],
    #v[145, 100, 210, 225, 4, 70, 105, 255],
    #v[215, 165, 170, 160, 70, 4, 90, 325],
    #v[200, 140, 255, 280, 105, 90, 4, 310],
    #v[115, 175, 180, 200, 255, 325, 310, 4]]

/-- The delay in one direction, half of the round trip rounded down. -/
def oneWay (origin target : CloudRegion) : Nat :=
  (roundTrips.get origin.index).get target.index / 2

end CloudRegion

inductive City
  | newYork
  | london
  | paris
  | tokyo
  | mumbai
  | saoPaulo
  | sydney
  | sanFrancisco
deriving DecidableEq, Repr

namespace City

def all : List City :=
  [newYork, london, paris, tokyo, mumbai, saoPaulo, sydney, sanFrancisco]

def index : City → Fin 8
  | newYork => 0
  | london => 1
  | paris => 2
  | tokyo => 3
  | mumbai => 4
  | saoPaulo => 5
  | sydney => 6
  | sanFrancisco => 7

def tag : City → String
  | newYork => "NewYork"
  | london => "London"
  | paris => "Paris"
  | tokyo => "Tokyo"
  | mumbai => "Mumbai"
  | saoPaulo => "SaoPaulo"
  | sydney => "Sydney"
  | sanFrancisco => "SanFrancisco"

def ofTag? (text : String) : Option City :=
  all.find? fun city => city.tag = text

def position : City → Nat × Nat
  | newYork => (589, 305)
  | london => (999, 238)
  | paris => (1013, 254)
  | tokyo => (1776, 335)
  | mumbai => (1405, 438)
  | saoPaulo => (741, 701)
  | sydney => (1840, 765)
  | sanFrancisco => (320, 322)

/-- Inhabitants in millions, the weight of the city in a placement. -/
def population : City → Nat
  | newYork => 19
  | london => 9
  | paris => 11
  | tokyo => 37
  | mumbai => 20
  | saoPaulo => 22
  | sydney => 5
  | sanFrancisco => 5

def roundTrips : Vector (Vector Nat 8) 8 :=
  #v[#v[2, 75, 80, 170, 190, 120, 205, 65],
    #v[75, 2, 10, 225, 115, 190, 260, 140],
    #v[80, 10, 2, 230, 110, 195, 280, 145],
    #v[170, 225, 230, 2, 120, 260, 110, 105],
    #v[190, 115, 110, 120, 2, 300, 150, 230],
    #v[120, 190, 195, 260, 300, 2, 310, 180],
    #v[205, 260, 280, 110, 150, 310, 2, 140],
    #v[65, 140, 145, 105, 230, 180, 140, 2]]

def oneWay (origin target : City) : Nat :=
  (roundTrips.get origin.index).get target.index / 2

end City

inductive Region
  | cloud (region : CloudRegion)
  | city (city : City)
deriving DecidableEq, Repr

end Simnet
