import Simnet.Proofs.DistanceDelay
import Simnet.Proofs.Draws

namespace Simnet

/-! Bounds on the delays of all models. Sums of times are kept within their range wherever a
delay is computed, but a few operations are left unguarded: the difference from the length of
an axis, the rounding of a distance to half a word, and the product of a measured delay with a
percentage. The delays are computed once more with these checked, and no check ever fails. -/

def difference? (left right : Nat) : Option Nat :=
  if right ≤ left then some (left - right) else none

def product? (left right : Nat) : Option Nat :=
  if left * right ≤ maxTime then some (left * right) else none

def halfWord? (number : Nat) : Option Nat :=
  if number ≤ maxHalfWord then some number else none

def wrappedGap? (length first second : Nat) : Option Nat :=
  let direct := gap (first % length) (second % length)
  (difference? length direct).map (min direct)

namespace Location

def distance? (first second : Location) : Option Nat :=
  (wrappedGap? mapWidth first.x second.x).bind fun horizontal =>
    (wrappedGap? mapHeight first.y second.y).bind fun vertical =>
      halfWord? (diagonal horizontal vertical)

end Location

def DistanceModel.delay? (model : DistanceModel) (sender receiver : NodeInfo) (rng : Rng) :
    Option (Nat × Rng) :=
  (sender.location.distance? receiver.location).map fun distance =>
    let steady :=
      cappedAdd model.base (cappedMul model.span distance / max 1 maxDistance)
    let (addition, rng) := Simnet.jitter model.jitter rng
    (cappedAdd steady addition, rng)

def proportionalDelay? (base percent : Nat) (rng : Rng) : Option (Nat × Rng) :=
  (product? base percent).map fun product =>
    let (addition, rng) := jitter (product / 100) rng
    (cappedAdd base addition, rng)

namespace LatencyModel

/-- The delay as `LatencyModel.delay` computes it, with every unguarded operation checked. -/
def delay? (model : LatencyModel) (sender receiver : NodeInfo) (rng : Rng) :
    Option (Nat × Rng) :=
  match model with
  | none => some (0, rng)
  | fixed delay => some (delay, rng)
  | uniform most => some (rng.between .double 0 most)
  | distance model => model.delay? sender receiver rng
  | cloudRegions percent fallback =>
      match sender.location.region, receiver.location.region with
      | some (.cloud origin), some (.cloud target) =>
          proportionalDelay? (origin.oneWay target) percent rng
      | _, _ => fallback.delay? sender receiver rng
  | cities percent fallback =>
      match sender.location.region, receiver.location.region with
      | some (.city origin), some (.city target) =>
          proportionalDelay? (origin.oneWay target) percent rng
      | _, _ => fallback.delay? sender receiver rng

end LatencyModel

structure DistanceModel.InRange (model : DistanceModel) : Prop where
  base : model.base ≤ maxTime
  span : model.span ≤ maxTime
  jitter : model.jitter ≤ maxTime

def LatencyModel.InRange : LatencyModel → Prop
  | none => True
  | fixed delay => delay ≤ maxTime
  | uniform most => most ≤ maxTime
  | distance model => model.InRange
  | cloudRegions percent fallback | cities percent fallback =>
      percent ≤ maxHalfWord ∧ fallback.InRange

theorem wrappedGap?_eq {length : Nat} (positive : 0 < length) (first second : Nat) :
    wrappedGap? length first second = some (wrappedGap length first second) := by
  have within : gap (first % length) (second % length) ≤ length :=
    Nat.le_of_lt (gap_mod_lt positive first second)
  simp only [wrappedGap?, difference?, if_pos within, Option.map_some, wrappedGap]

theorem Location.distance?_eq (first second : Location) :
    first.distance? second = some (first.distance second) := by
  have horizontal := wrappedGap?_eq mapWidth_pos first.x second.x
  have vertical := wrappedGap?_eq mapHeight_pos first.y second.y
  have narrow : first.distance second ≤ maxHalfWord := by
    apply Nat.le_trans (first.distance_le second)
    rw [maxDistance_eq]
    decide
  simp only [Location.distance?, horizontal, vertical, Option.bind_some]
  exact if_pos narrow

theorem jitter_le (most : Nat) (rng : Rng) : (jitter most rng).1 ≤ most := by
  simp only [jitter]
  split
  · exact Nat.zero_le most
  · exact Rng.between_le (Nat.zero_le most) rng

theorem cappedAdd_le (base delta : Nat) : cappedAdd base delta ≤ maxTime :=
  Nat.min_le_left _ _

theorem le_cappedAdd {base : Nat} (word : base ≤ maxTime) (delta : Nat) :
    base ≤ cappedAdd base delta := by
  simp only [cappedAdd]
  omega

theorem proportionalDelay?_eq {base percent : Nat} (fits : base * percent ≤ maxTime)
    (rng : Rng) :
    proportionalDelay? base percent rng = some (proportionalDelay base percent rng) := by
  simp only [proportionalDelay?, product?, if_pos fits, Option.map_some, proportionalDelay]

theorem proportionalDelay_le (base percent : Nat) (rng : Rng) :
    (proportionalDelay base percent rng).1 ≤ base + base * percent / 100 := by
  have added : (jitter (base * percent / 100) rng).1 ≤ base * percent / 100 := jitter_le _ rng
  calc (proportionalDelay base percent rng).1
    _ ≤ base + (jitter (base * percent / 100) rng).1 := Nat.min_le_right _ _
    _ ≤ base + base * percent / 100 := Nat.add_le_add_left added base

theorem CloudRegion.oneWay_le (origin target : CloudRegion) : origin.oneWay target ≤ 162 := by
  cases origin <;> cases target <;> decide

theorem City.oneWay_le (origin target : City) : origin.oneWay target ≤ 162 := by
  cases origin <;> cases target <;> decide

theorem product_le {measured percent : Nat} (table : measured ≤ 162)
    (word : percent ≤ maxHalfWord) : measured * percent ≤ maxTime :=
  Nat.le_trans (Nat.mul_le_mul table word) (by decide)

namespace DistanceModel

variable {model : DistanceModel} {sender receiver : NodeInfo}

theorem delay?_eq (model : DistanceModel) (sender receiver : NodeInfo) (rng : Rng) :
    model.delay? sender receiver rng = some (model.delay sender receiver rng) := by
  rw [delay?, Location.distance?_eq, Option.map_some]
  rfl

theorem steady_comm (model : DistanceModel) (sender receiver : NodeInfo) :
    model.steady sender receiver = model.steady receiver sender := by
  have same : sender.distance receiver = receiver.distance sender :=
    Location.distance_comm ..
  rw [steady, steady, same]

theorem steady_mono (model : DistanceModel) {otherSender otherReceiver : NodeInfo}
    (nearer : sender.distance receiver ≤ otherSender.distance otherReceiver) :
    model.steady sender receiver ≤ model.steady otherSender otherReceiver := by
  have scaled : model.span * sender.distance receiver / maxDistance ≤
      model.span * otherSender.distance otherReceiver / maxDistance :=
    Nat.div_le_div_right (Nat.mul_le_mul_left model.span nearer)
  rw [steady_eq, steady_eq]
  simp only [cappedAdd]
  omega

theorem steady_le (model : DistanceModel) (sender receiver : NodeInfo) :
    model.steady sender receiver ≤ cappedAdd model.base model.span := by
  have spanned := model.quotient_le_span sender receiver
  rw [steady_eq]
  simp only [cappedAdd]
  omega

/-- What a delay by distance is made of, and what it lies between. -/
structure Bounds (model : DistanceModel) (sender receiver : NodeInfo) (rng : Rng) : Prop where
  jittered : ∃ addition, addition ≤ model.jitter ∧
    (model.delay sender receiver rng).1 = cappedAdd (model.steady sender receiver) addition
  least : model.base ≤ (model.delay sender receiver rng).1
  most : (model.delay sender receiver rng).1 ≤
    min maxTime (model.base + model.span + model.jitter)
  symmetric : model.steady sender receiver = model.steady receiver sender
  monotone : ∀ otherSender otherReceiver : NodeInfo,
    sender.distance receiver ≤ otherSender.distance otherReceiver →
      model.steady sender receiver ≤ model.steady otherSender otherReceiver

theorem bounds (inRange : model.InRange) (sender receiver : NodeInfo) (rng : Rng) :
    model.Bounds sender receiver rng := by
  have made : (model.delay sender receiver rng).1 =
      cappedAdd (model.steady sender receiver) (Simnet.jitter model.jitter rng).1 := rfl
  have added : (Simnet.jitter model.jitter rng).1 ≤ model.jitter := jitter_le model.jitter rng
  have lower : model.base ≤ model.steady sender receiver := le_cappedAdd inRange.base _
  have upper := model.steady_le sender receiver
  simp only [cappedAdd] at upper
  constructor
  · exact ⟨_, added, made⟩
  · rw [made]
    exact Nat.le_trans lower (le_cappedAdd (cappedAdd_le ..) _)
  · rw [made]
    simp only [cappedAdd]
    omega
  · exact model.steady_comm sender receiver
  · exact fun _ _ => model.steady_mono

end DistanceModel

theorem proportionalDelay_bounds {base : Nat} (table : base ≤ 162) (percent : Nat) (rng : Rng) :
    base ≤ (proportionalDelay base percent rng).1 ∧
      (proportionalDelay base percent rng).1 ≤ base + base * percent / 100 := by
  have word : base ≤ maxTime := Nat.le_trans table (by decide)
  exact ⟨le_cappedAdd word _, proportionalDelay_le base percent rng⟩

section Tables

variable {ρ : Type} (mark : ρ → Region) (oneWay : ρ → ρ → Nat)
variable (model : Nat → DistanceModel → LatencyModel) (sender receiver : NodeInfo) (rng : Rng)

def Marked : Prop :=
  ∃ origin target, sender.location.region = some (mark origin) ∧
    receiver.location.region = some (mark target)

/-- What a model computes, with and without the checks, that reads a table for nodes which
both have its mark. -/
structure ReadsTable : Prop where
  measured : ∀ percent fallback origin target,
    sender.location.region = some (mark origin) →
    receiver.location.region = some (mark target) →
      (model percent fallback).delay sender receiver rng =
        proportionalDelay (oneWay origin target) percent rng ∧
      (model percent fallback).delay? sender receiver rng =
        proportionalDelay? (oneWay origin target) percent rng
  otherwise : ∀ percent fallback, ¬ Marked mark sender receiver →
    (model percent fallback).delay sender receiver rng = fallback.delay sender receiver rng ∧
    (model percent fallback).delay? sender receiver rng = fallback.delay? sender receiver rng

/-- A model adds a percentage at most of what it reads in a table for two nodes that both have
its mark; for all other nodes it is its fallback. -/
structure FollowsTable : Prop where
  measured : ∀ percent fallback origin target,
    sender.location.region = some (mark origin) →
    receiver.location.region = some (mark target) →
      oneWay origin target ≤ ((model percent fallback).delay sender receiver rng).1 ∧
      ((model percent fallback).delay sender receiver rng).1 ≤
        oneWay origin target + oneWay origin target * percent / 100
  otherwise : ∀ percent fallback, ¬ Marked mark sender receiver →
    (model percent fallback).delay sender receiver rng =
      (LatencyModel.distance fallback).delay sender receiver rng

variable {mark oneWay model sender receiver rng}

theorem ReadsTable.follows (reads : ReadsTable mark oneWay model sender receiver rng)
    (table : ∀ origin target, oneWay origin target ≤ 162) :
    FollowsTable mark oneWay model sender receiver rng := by
  constructor
  · intro percent fallback origin target marked alsoMarked
    rw [(reads.measured percent fallback origin target marked alsoMarked).1]
    exact proportionalDelay_bounds (table origin target) percent rng
  · intro percent fallback unmarked
    exact (reads.otherwise percent fallback unmarked).1

theorem ReadsTable.delay?_eq (reads : ReadsTable mark oneWay model sender receiver rng)
    (table : ∀ origin target, oneWay origin target ≤ 162) {percent : Nat}
    (word : percent ≤ maxHalfWord) (fallback : DistanceModel) :
    (model percent fallback).delay? sender receiver rng =
      some ((model percent fallback).delay sender receiver rng) := by
  by_cases marked : Marked mark sender receiver
  · obtain ⟨origin, target, originMarked, targetMarked⟩ := marked
    obtain ⟨plain, checked⟩ :=
      reads.measured percent fallback origin target originMarked targetMarked
    rw [plain, checked]
    exact proportionalDelay?_eq (product_le (table origin target) word) rng
  · obtain ⟨plain, checked⟩ := reads.otherwise percent fallback marked
    rw [plain, checked]
    exact fallback.delay?_eq sender receiver rng

end Tables

namespace LatencyModel

variable (sender receiver : NodeInfo) (rng : Rng)

theorem cloudRegions_reads :
    ReadsTable .cloud CloudRegion.oneWay cloudRegions sender receiver rng := by
  constructor
  · intro percent fallback origin target originMarked targetMarked
    simp only [delay, delay?, originMarked, targetMarked, and_self]
  · intro percent fallback unmarked
    constructor
    all_goals
      simp only [delay, delay?]
      split
      · rename_i origin target originMarked targetMarked
        exact absurd ⟨origin, target, originMarked, targetMarked⟩ unmarked
      · rfl

theorem cities_reads : ReadsTable .city City.oneWay cities sender receiver rng := by
  constructor
  · intro percent fallback origin target originMarked targetMarked
    simp only [delay, delay?, originMarked, targetMarked, and_self]
  · intro percent fallback unmarked
    constructor
    all_goals
      simp only [delay, delay?]
      split
      · rename_i origin target originMarked targetMarked
        exact absurd ⟨origin, target, originMarked, targetMarked⟩ unmarked
      · rfl

theorem delay?_eq {model : LatencyModel} (inRange : model.InRange) :
    model.delay? sender receiver rng = some (model.delay sender receiver rng) := by
  cases model with
  | none | fixed _ | uniform _ => rfl
  | distance model => exact model.delay?_eq sender receiver rng
  | cloudRegions percent fallback =>
      exact (cloudRegions_reads sender receiver rng).delay?_eq CloudRegion.oneWay_le inRange.1
        fallback
  | cities percent fallback =>
      exact (cities_reads sender receiver rng).delay?_eq City.oneWay_le inRange.1 fallback

theorem delay_le {model : LatencyModel} (inRange : model.InRange) :
    (model.delay sender receiver rng).1 ≤ maxTime := by
  cases model with
  | none => exact Nat.zero_le maxTime
  | fixed _ => exact inRange
  | uniform most => exact Nat.le_trans (Rng.between_le (Nat.zero_le most) rng) inRange
  | distance _ => exact cappedAdd_le ..
  | cloudRegions _ _ =>
      simp only [delay]
      split <;> exact cappedAdd_le ..
  | cities _ _ =>
      simp only [delay]
      split <;> exact cappedAdd_le ..

/-- Delays of words are computed without leaving a word, and lie between the bounds of their
model. -/
theorem delays_bounded (sender receiver : NodeInfo) (rng : Rng) :
    (∀ model : LatencyModel, model.InRange →
      model.delay? sender receiver rng = some (model.delay sender receiver rng) ∧
      (model.delay sender receiver rng).1 ≤ maxTime) ∧
    (none.delay sender receiver rng).1 = 0 ∧
    (∀ delay, ((fixed delay).delay sender receiver rng).1 = delay) ∧
    (∀ most, ((uniform most).delay sender receiver rng).1 ≤ most) ∧
    (∀ model : DistanceModel, model.InRange →
      (distance model).delay sender receiver rng = model.delay sender receiver rng ∧
      model.Bounds sender receiver rng) ∧
    FollowsTable .cloud CloudRegion.oneWay cloudRegions sender receiver rng ∧
    FollowsTable .city City.oneWay cities sender receiver rng := by
  refine ⟨?_, rfl, fun _ => rfl, ?_, ?_, ?_, ?_⟩
  · exact fun model inRange =>
      ⟨delay?_eq sender receiver rng inRange, delay_le sender receiver rng inRange⟩
  · exact fun most => Rng.between_le (Nat.zero_le most) rng
  · exact fun model inRange => ⟨rfl, model.bounds inRange sender receiver rng⟩
  · exact (cloudRegions_reads sender receiver rng).follows CloudRegion.oneWay_le
  · exact (cities_reads sender receiver rng).follows City.oneWay_le

def eastern : NodeInfo :=
  .new ⟨maxHalfWord, maxHalfWord, some (.cloud .usEast1)⟩ false

def western : NodeInfo :=
  .new ⟨336, 273, some (.cloud .usWest2)⟩ false

def greatest : DistanceModel where
  base := maxTime
  span := maxTime
  jitter := maxTime

/-- The greatest parameters there are: the table of regions has both nodes, and that of cities
has neither of them. -/
theorem greatest_delays_bounded :
    (cloudRegions maxHalfWord greatest).delay? eastern western (.ofSeed 1) =
      some ((cloudRegions maxHalfWord greatest).delay eastern western (.ofSeed 1)) ∧
    35 ≤ ((cloudRegions maxHalfWord greatest).delay eastern western (.ofSeed 1)).1 ∧
    ((cloudRegions maxHalfWord greatest).delay eastern western (.ofSeed 1)).1 ≤ 1503238588 ∧
    (cities maxHalfWord greatest).delay eastern western (.ofSeed 1) =
      (distance greatest).delay eastern western (.ofSeed 1) ∧
    ((distance greatest).delay eastern western (.ofSeed 1)).1 = maxTime := by
  obtain ⟨computed, -, -, -, apart, regions, towns⟩ :=
    delays_bounded eastern western (.ofSeed 1)
  have words : greatest.InRange := ⟨Nat.le_refl _, Nat.le_refl _, Nat.le_refl _⟩
  obtain ⟨least, most⟩ :=
    regions.measured maxHalfWord greatest .usEast1 .usWest2 rfl rfl
  have unmarked : ¬ Marked .city eastern western := by
    intro marked
    obtain ⟨origin, target, same, -⟩ := marked
    cases same
  obtain ⟨same, bounds⟩ := apart greatest words
  have inRange : (cloudRegions maxHalfWord greatest).InRange := And.intro (Nat.le_refl _) words
  refine ⟨(computed (cloudRegions maxHalfWord greatest) inRange).1, least, most,
    towns.otherwise maxHalfWord greatest unmarked, ?_⟩
  rw [same]
  exact Nat.le_antisymm (Nat.le_trans bounds.most (Nat.min_le_left ..)) bounds.least

end LatencyModel

end Simnet
