import Mathlib.Tactic.SplitIfs
import Simnet.Overlay

namespace Simnet

/-! The ledger of the floods. A flood has a row of bits that is widened when nodes have
joined since it was last marked, so a mark always finds the bit that it sets. -/

namespace Overlay

variable {overlay : Overlay} {messageId node : Nat}

theorem lookup_filter_ne {flood : Nat} (different : flood ≠ messageId)
    (rows : List (Nat × List Bool)) :
    (rows.filter fun row => row.1 ≠ messageId).lookup flood = rows.lookup flood := by
  induction rows with
  | nil => rfl
  | cons row rest induction =>
      obtain ⟨marked, bits⟩ := row
      by_cases same : marked = messageId
      · subst same
        rw [List.filter_cons_of_neg (by simp), induction, List.lookup_cons,
          beq_eq_false_iff_ne.mpr different]
      · rw [List.filter_cons_of_pos (by simpa using same), List.lookup_cons, List.lookup_cons,
          induction]

theorem seenBits?_setBits (overlay : Overlay) (messageId flood : Nat) (bits : List Bool) :
    (overlay.setBits messageId bits).seenBits? flood =
      if flood = messageId then some bits else overlay.seenBits? flood := by
  unfold seenBits? setBits
  rw [List.lookup_cons]
  split_ifs with same
  · rw [beq_iff_eq.mpr same]
  · rw [beq_eq_false_iff_ne.mpr same]
    exact lookup_filter_ne same overlay.seen

theorem nodeCount_le_length_widenedBits (overlay : Overlay) (messageId : Nat) :
    overlay.nodeCount ≤ (overlay.widenedBits messageId).length := by
  unfold widenedBits nodeCount
  split
  · exact Nat.le_of_eq List.length_replicate.symm
  · dsimp only
    split
    · rw [List.length_append, List.length_replicate]
      omega
    · omega

theorem getElem?_widenedBits (overlay : Overlay) (messageId node : Nat) :
    ((overlay.widenedBits messageId)[node]?).getD false = overlay.hasSeen messageId node := by
  have unset : ∀ width : Nat, ((List.replicate width false)[node]?).getD false = false := by
    intro width
    rw [List.getElem?_replicate]
    split <;> rfl
  unfold widenedBits hasSeen
  cases overlay.seenBits? messageId with
  | none => exact unset _
  | some bits =>
      dsimp only
      split
      · by_cases inside : node < bits.length
        · rw [List.getElem?_append_left inside]
        · have beyond : bits.length ≤ node := Nat.not_lt.mp inside
          rw [List.getElem?_append_right beyond, List.getElem?_eq_none beyond,
            List.getElem?_replicate]
          split <;> rfl
      · rfl

theorem hasSeen_markSeen (known : node < overlay.nodeCount) (flood other : Nat) :
    (overlay.markSeen messageId node).hasSeen flood other = true ↔
      (flood = messageId ∧ other = node) ∨ overlay.hasSeen flood other = true := by
  have inside : node < (overlay.widenedBits messageId).length :=
    Nat.lt_of_lt_of_le known (overlay.nodeCount_le_length_widenedBits messageId)
  unfold markSeen
  rw [hasSeen, seenBits?_setBits]
  by_cases sameFlood : flood = messageId
  · subst sameFlood
    rw [if_pos rfl]
    by_cases sameNode : other = node
    · subst sameNode
      simp [List.getElem?_set_self inside]
    · simp [List.getElem?_set_ne (Ne.symm sameNode), getElem?_widenedBits, sameNode]
  · rw [if_neg sameFlood]
    simp [hasSeen, sameFlood]

/-- No row is wider than there are nodes. -/
def Narrow (overlay : Overlay) : Prop :=
  ∀ row ∈ overlay.seen, row.2.length ≤ overlay.nodeCount

theorem Narrow.of_seen_eq {after : Overlay} (narrow : overlay.Narrow)
    (same : after.seen = overlay.seen) (wider : overlay.nodeCount ≤ after.nodeCount) :
    after.Narrow := by
  intro row member
  rw [same] at member
  exact Nat.le_trans (narrow row member) wider

theorem Narrow.markSeen (narrow : overlay.Narrow) (messageId node : Nat) :
    (overlay.markSeen messageId node).Narrow := by
  intro row member
  rcases List.mem_cons.mp member with rfl | kept
  · rw [List.length_set]
    unfold widenedBits
    split
    · exact Nat.le_of_eq (List.length_replicate ..)
    · rename_i bits found
      obtain ⟨earlier, later, rows, -⟩ := List.lookup_eq_some_iff.mp found
      have fits : bits.length ≤ overlay.nodeCount :=
        narrow (messageId, bits) (by rw [rows]; simp)
      dsimp only
      split
      · rw [List.length_append, List.length_replicate]
        unfold nodeCount at fits
        change _ ≤ overlay.peerLists.length
        omega
      · exact fits
  · exact narrow row (List.mem_filter.mp kept).1

end Overlay

end Simnet
