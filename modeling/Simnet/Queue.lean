import Simnet.Clock

namespace Simnet

/-! Pending work in order of execution. Items are kept sorted by time, and items
of one time in the order in which they came in; the count of all pushes gives
each item its sequence number. -/

structure EventKey where
  time : Nat
  sequence : Nat
deriving DecidableEq, Repr

namespace EventKey

/-- Execution order: earlier times first, then earlier pushes. -/
def Before (first second : EventKey) : Prop :=
  first.time < second.time ∨
    first.time = second.time ∧ first.sequence < second.sequence

instance (first second : EventKey) : Decidable (first.Before second) :=
  inferInstanceAs (Decidable (_ ∨ _))

end EventKey

structure EventQueue (α : Type) where
  items : List (EventKey × α) := []
  enqueued : Nat := 0
deriving DecidableEq, Repr

namespace EventQueue

variable {α : Type}

def empty : EventQueue α := {}

/-- Places an item behind all that are due no later than it is. -/
def insertByTime (entry : EventKey × α) : List (EventKey × α) → List (EventKey × α)
  | [] => [entry]
  | head :: tail =>
      if entry.1.time < head.1.time then
        entry :: head :: tail
      else
        head :: insertByTime entry tail

def nextKey (queue : EventQueue α) (time : Nat) : EventKey :=
  ⟨time, queue.enqueued⟩

def push (queue : EventQueue α) (time : Nat) (item : α) : EventQueue α where
  items := insertByTime (queue.nextKey time, item) queue.items
  enqueued := queue.enqueued + 1

def peekTime (queue : EventQueue α) : Option Nat :=
  queue.items.head?.map (·.1.time)

def popDue (queue : EventQueue α) (deadline : Nat) :
    Option ((EventKey × α) × EventQueue α) :=
  match queue.items with
  | [] => none
  | head :: tail =>
      if head.1.time ≤ deadline then
        some (head, { queue with items := tail })
      else
        none

def length (queue : EventQueue α) : Nat :=
  queue.items.length

def isEmpty (queue : EventQueue α) : Bool :=
  queue.items.isEmpty

def toList (queue : EventQueue α) : List (EventKey × α) :=
  queue.items

theorem insertByTime_perm (entry : EventKey × α) (items : List (EventKey × α)) :
    (insertByTime entry items).Perm (entry :: items) := by
  induction items with
  | nil => exact .refl _
  | cons head tail induction =>
      simp only [insertByTime]
      split
      · exact .refl _
      · exact (induction.cons head).trans (.swap entry head tail)

end EventQueue

end Simnet
