import Mathlib.Data.List.Nodup
import Simnet.Proofs.Queue

namespace Simnet

/-! The queue as an ordered map from keys to items. In a map an item can be lost: one that
is placed under a key in use replaces what the key held. As long as the count has not
started over, the next key is in use nowhere, and then the map lists what the queue lists. -/

namespace EventKey

/-- Execution order as a comparison: by time, and within one time by number. -/
def order : EventKey → EventKey → Ordering :=
  compareLex (compareOn time) (compareOn sequence)

instance : Std.TransCmp order :=
  inferInstanceAs (Std.TransCmp (compareLex _ _))

instance : Std.LawfulEqCmp order where
  eq_of_compare := by
    intro first second same
    obtain ⟨time, sequence⟩ := compareLex_eq_eq.mp same
    obtain ⟨firstTime, firstSequence⟩ := first
    obtain ⟨secondTime, secondSequence⟩ := second
    exact (EventKey.mk.injEq ..).mpr ⟨Nat.compare_eq_eq.mp time, Nat.compare_eq_eq.mp sequence⟩

theorem order_eq_lt_iff {first second : EventKey} :
    order first second = .lt ↔ first.Before second := by
  unfold order compareLex compareOn Before
  rw [Ordering.then_eq_lt, Nat.compare_eq_lt, Nat.compare_eq_lt, Nat.compare_eq_eq]

end EventKey

/-- Pending items under their keys; the count is a word, and after the largest word it
starts over. -/
structure KeyedQueue (α : Type) where
  items : Std.TreeMap EventKey α EventKey.order := ∅
  count : UInt64 := 0

namespace KeyedQueue

variable {α : Type}

def empty : KeyedQueue α := {}

def enqueued (queue : KeyedQueue α) : Nat :=
  queue.count.toNat

def nextKey (queue : KeyedQueue α) (time : Nat) : EventKey :=
  ⟨time, queue.enqueued⟩

/-- Places an item under the next key, in place of what the key may hold. -/
def push (queue : KeyedQueue α) (time : Nat) (item : α) : KeyedQueue α where
  items := queue.items.insert (queue.nextKey time) item
  count := queue.count + 1

def peekTime (queue : KeyedQueue α) : Option Nat :=
  queue.items.minKey?.map (·.time)

def withoutKey (queue : KeyedQueue α) (key : EventKey) : KeyedQueue α :=
  { queue with items := queue.items.erase key }

def popDue (queue : KeyedQueue α) (deadline : Nat) :
    Option ((EventKey × α) × KeyedQueue α) :=
  match queue.items.minKey? with
  | none => none
  | some key =>
      if key.time ≤ deadline then
        queue.items[key]?.map fun item => ((key, item), queue.withoutKey key)
      else
        none

def length (queue : KeyedQueue α) : Nat :=
  queue.items.size

def toList (queue : KeyedQueue α) : List (EventKey × α) :=
  queue.items.toList

theorem mem_toList_iff {queue : KeyedQueue α} {key : EventKey} {item : α} :
    (key, item) ∈ queue.toList ↔ queue.items[key]? = some item :=
  Std.TreeMap.mem_toList_iff_getElem?_eq_some

theorem mem_items_iff {queue : KeyedQueue α} {key : EventKey} :
    key ∈ queue.items ↔ ∃ entry ∈ queue.toList, entry.1 = key := by
  rw [← Std.TreeMap.mem_keys, ← Std.TreeMap.map_fst_toList_eq_keys]
  exact List.mem_map

theorem ordered_toList (queue : KeyedQueue α) :
    queue.toList.Pairwise fun first second => first.1.Before second.1 :=
  Std.TreeMap.ordered_keys_toList.imp EventKey.order_eq_lt_iff.mp

theorem minKey?_eq_head? (queue : KeyedQueue α) :
    queue.items.minKey? = queue.toList.head?.map (·.1) := by
  rw [Std.TreeMap.minKey?_eq_head?_keys, ← Std.TreeMap.map_fst_toList_eq_keys, List.head?_map]
  rfl

theorem peekTime_eq_head? (queue : KeyedQueue α) :
    queue.peekTime = queue.toList.head?.map (·.1.time) := by
  rw [peekTime, minKey?_eq_head?, Option.map_map]
  rfl

theorem push_perm {queue : KeyedQueue α} {time : Nat}
    (fresh : queue.nextKey time ∉ queue.items) (item : α) :
    (queue.push time item).toList.Perm ((queue.nextKey time, item) :: queue.toList) := by
  have others : queue.items.toList.filter
      (fun entry => decide ¬(queue.nextKey time == entry.1) = true) = queue.toList := by
    refine List.filter_eq_self.mpr fun entry member => ?_
    rw [decide_eq_true_eq, beq_iff_eq]
    exact fun same => fresh (mem_items_iff.mpr ⟨entry, member, same.symm⟩)
  rw [← others]
  exact Std.TreeMap.toList_insert_perm

theorem toList_withoutKey {queue : KeyedQueue α} {entry : EventKey × α}
    {tail : List (EventKey × α)} (listed : queue.toList = entry :: tail) :
    (queue.withoutKey entry.1).toList = tail := by
  have ordered := queue.ordered_toList
  rw [listed] at ordered
  obtain ⟨first, tailOrdered⟩ := List.pairwise_cons.mp ordered
  have erased := (queue.withoutKey entry.1).ordered_toList
  refine EventQueue.eq_of_perm_of_ordered ?_ erased tailOrdered
  refine (List.perm_ext_iff_of_nodup (EventQueue.nodup_of_ordered erased)
    (EventQueue.nodup_of_ordered tailOrdered)).mpr ?_
  rintro ⟨key, item⟩
  have known : queue.items[key]? = some item ↔ (key, item) = entry ∨ (key, item) ∈ tail := by
    rw [← mem_toList_iff, listed, List.mem_cons]
  rw [mem_toList_iff, withoutKey, Std.TreeMap.getElem?_erase]
  by_cases same : EventKey.order entry.1 key = .eq
  · rw [if_pos same]
    have equal : entry.1 = key := Std.LawfulEqCmp.eq_of_compare same
    constructor
    · exact nofun
    · intro inTail
      exact absurd equal (first _ inTail).ne
  · rw [if_neg same, known]
    constructor
    · rintro (rfl | inTail)
      · exact absurd Std.ReflCmp.compare_self same
      · exact inTail
    · exact .inr

theorem popDue_of_toList_eq_nil {queue : KeyedQueue α} (listed : queue.toList = [])
    (deadline : Nat) : queue.popDue deadline = none := by
  rw [popDue, minKey?_eq_head?, listed]
  rfl

theorem popDue_of_toList_eq_cons {queue : KeyedQueue α} {entry : EventKey × α}
    {tail : List (EventKey × α)} (listed : queue.toList = entry :: tail) (deadline : Nat) :
    queue.popDue deadline =
      if entry.1.time ≤ deadline then
        some (entry, queue.withoutKey entry.1)
      else
        none := by
  have held : queue.items[entry.1]? = some entry.2 := by
    rw [← mem_toList_iff, listed]
    exact List.mem_cons_self
  rw [popDue, minKey?_eq_head?, listed]
  simp only [List.head?_cons, Option.map_some, held]

/-- A map and a list of the same entries, and one count of the pushes. -/
structure Represents (keyed : KeyedQueue α) (queue : EventQueue α) : Prop where
  contents : keyed.toList = queue.toList
  enqueued : keyed.enqueued = queue.enqueued

namespace Represents

variable {keyed : KeyedQueue α} {queue : EventQueue α}

theorem start : (empty : KeyedQueue α).Represents .empty where
  contents := rfl
  enqueued := rfl

theorem nextKey (represents : keyed.Represents queue) (time : Nat) :
    keyed.nextKey time = queue.nextKey time := by
  rw [KeyedQueue.nextKey, EventQueue.nextKey, represents.enqueued]

theorem peekTime (represents : keyed.Represents queue) : keyed.peekTime = queue.peekTime := by
  rw [peekTime_eq_head?, represents.contents]
  rfl

theorem length (represents : keyed.Represents queue) : keyed.length = queue.length := by
  rw [KeyedQueue.length, ← Std.TreeMap.length_toList]
  exact congrArg List.length represents.contents

theorem fresh (represents : keyed.Represents queue) (wellFormed : queue.WellFormed)
    (time : Nat) : keyed.nextKey time ∉ keyed.items := by
  rw [mem_items_iff, represents.contents, represents.nextKey]
  rintro ⟨entry, member, used⟩
  exact wellFormed.ne_nextKey member time used

theorem push (represents : keyed.Represents queue) (wellFormed : queue.WellFormed)
    (counted : queue.enqueued < maxTime) (time : Nat) (item : α) :
    (keyed.push time item).Represents (queue.push time item) where
  contents := by
    refine EventQueue.eq_of_perm_of_ordered ?_ (ordered_toList _) (wellFormed.push time item).ordered
    have kept := push_perm (represents.fresh wellFormed time) item
    rw [represents.nextKey, represents.contents] at kept
    exact kept.trans (EventQueue.push_perm queue time item).symm
  enqueued := by
    have count : keyed.count.toNat = queue.enqueued := represents.enqueued
    have within : keyed.count.toNat + 1 < 18446744073709551616 := by
      rw [count]
      exact Nat.succ_lt_succ counted
    calc (keyed.count + 1).toNat
      _ = (keyed.count.toNat + 1) % 18446744073709551616 := UInt64.toNat_add _ _
      _ = keyed.count.toNat + 1 := Nat.mod_eq_of_lt within
      _ = queue.enqueued + 1 := congrArg (· + 1) count

theorem popDue (represents : keyed.Represents queue) (deadline : Nat) :
    (keyed.popDue deadline = none ∧ queue.popDue deadline = none) ∨
      ∃ entry keyedRest rest, keyed.popDue deadline = some (entry, keyedRest) ∧
        queue.popDue deadline = some (entry, rest) ∧ keyedRest.Represents rest := by
  have contents := represents.contents
  obtain ⟨items, enqueued⟩ := queue
  cases items with
  | nil => exact .inl ⟨popDue_of_toList_eq_nil contents deadline, rfl⟩
  | cons entry tail =>
      have taken := popDue_of_toList_eq_cons contents deadline
      by_cases due : entry.1.time ≤ deadline
      · rw [if_pos due] at taken
        exact .inr ⟨entry, _, ⟨tail, enqueued⟩, taken, if_pos due,
          toList_withoutKey contents, represents.enqueued⟩
      · rw [if_neg due] at taken
        exact .inl ⟨taken, if_neg due⟩

end Represents

end KeyedQueue

end Simnet
