import Mathlib.Data.Nat.Basic
import Mathlib.Order.MinMax
import Simnet.Latency
import Simnet.Proofs.MapDistance

namespace Simnet

/-! The delay by distance before anything random is added to it. What is promised is
`base + span * distance / maxDistance`, within the range of times. The model keeps the product
within that range before it divides, so of a long span it loses what the product exceeds a
word by. -/

theorem maxDistance_pos : 0 < maxDistance := by
  rw [maxDistance_eq]
  decide

namespace DistanceModel

/-- The promised delay: the formula is computed without bounds, and its value is kept within
the range of times. -/
def promised (model : DistanceModel) (distance : Nat) : Nat :=
  cappedAdd model.base (model.span * distance / maxDistance)

variable (model : DistanceModel) (sender receiver : NodeInfo)

theorem steady_eq : model.steady sender receiver =
    cappedAdd model.base
      (min (model.span * sender.distance receiver / maxDistance) (maxTime / maxDistance)) := by
  have divides : Monotone fun number => number / maxDistance :=
    fun _ _ smaller => Nat.div_le_div_right smaller
  rw [steady, cappedMul, max_eq_right maxDistance_pos, Nat.min_comm maxTime, divides.map_min]

theorem steady_le_promised :
    model.steady sender receiver ≤ model.promised (sender.distance receiver) := by
  rw [steady_eq, promised]
  simp only [cappedAdd]
  omega

theorem steady_eq_promised_iff :
    model.steady sender receiver = model.promised (sender.distance receiver) ↔
      model.span * sender.distance receiver / maxDistance ≤ maxTime / maxDistance ∨
        maxTime ≤ model.base + maxTime / maxDistance := by
  rw [steady_eq, promised]
  simp only [cappedAdd]
  omega

theorem quotient_le_span : model.span * sender.distance receiver / maxDistance ≤ model.span := by
  have near : sender.distance receiver ≤ maxDistance := Location.distance_le ..
  calc model.span * sender.distance receiver / maxDistance
    _ ≤ model.span * maxDistance / maxDistance :=
        Nat.div_le_div_right (Nat.mul_le_mul_left model.span near)
    _ = model.span := Nat.mul_div_cancel model.span maxDistance_pos

theorem quotient_of_farthest (farthest : sender.distance receiver = maxDistance) :
    model.span * sender.distance receiver / maxDistance = model.span := by
  rw [farthest]
  exact Nat.mul_div_cancel model.span maxDistance_pos

end DistanceModel

def corner : NodeInfo :=
  .new ⟨0, 0, none⟩ false

def middle : NodeInfo :=
  .new ⟨1000, 556, none⟩ false

theorem distance_corner_middle : corner.distance middle = maxDistance := rfl

/-- The delay is the promised one just when what is added for the distance was not cut, or the
base alone makes up for the rest. -/
theorem DistanceModel.steady_cut (model : DistanceModel) :
    (∀ sender receiver : NodeInfo,
      model.steady sender receiver = cappedAdd model.base
        (min (model.span * sender.distance receiver / maxDistance) (maxTime / maxDistance)) ∧
      model.steady sender receiver ≤ model.promised (sender.distance receiver) ∧
      (model.steady sender receiver = model.promised (sender.distance receiver) ↔
        model.span * sender.distance receiver / maxDistance ≤ maxTime / maxDistance ∨
          maxTime ≤ model.base + maxTime / maxDistance) ∧
      (sender.distance receiver = maxDistance →
        model.promised (sender.distance receiver) = cappedAdd model.base model.span ∧
        model.steady sender receiver =
          cappedAdd model.base (min model.span (maxTime / maxDistance)))) ∧
    ((∀ sender receiver : NodeInfo,
        model.steady sender receiver = model.promised (sender.distance receiver)) ↔
      model.span ≤ maxTime / maxDistance ∨ maxTime ≤ model.base + maxTime / maxDistance) := by
  constructor
  · intro sender receiver
    refine ⟨model.steady_eq sender receiver, model.steady_le_promised sender receiver,
      model.steady_eq_promised_iff sender receiver, ?_⟩
    intro farthest
    have whole := model.quotient_of_farthest sender receiver farthest
    constructor
    · rw [promised, whole]
    · rw [steady_eq, whole]
  · constructor
    · intro always
      have kept := (model.steady_eq_promised_iff corner middle).mp (always corner middle)
      rwa [model.quotient_of_farthest corner middle distance_corner_middle] at kept
    · intro short sender receiver
      apply (model.steady_eq_promised_iff sender receiver).mpr
      apply short.imp_left
      exact Nat.le_trans (model.quotient_le_span sender receiver)

/-- The longest span there is, at the greatest distance: hardly a thousandth of it is left. -/
theorem longest_span_cut :
    ({ base := 0, span := maxTime, jitter := 0 } : DistanceModel).steady corner middle =
      16124776288207650 ∧
    ({ base := 0, span := maxTime, jitter := 0 } : DistanceModel).promised
      (corner.distance middle) = maxTime ∧
    ({ base := 0, span := maxTime, jitter := 0 } : DistanceModel).steady corner middle ≠
      ({ base := 0, span := maxTime, jitter := 0 } : DistanceModel).promised
        (corner.distance middle) := by
  decide +kernel

end Simnet
