import Simnet.Queue

namespace Simnet

/-! The queue as a list in execution order. A push puts its item behind all that
are due no later, and the number it gives is larger than every number given
before, so the order of the keys and the order of the list are one. -/

namespace EventKey

theorem Before.irrefl (key : EventKey) : ¬ key.Before key := by
  unfold Before
  omega

theorem Before.trans {first second third : EventKey}
    (left : first.Before second) (right : second.Before third) :
    first.Before third := by
  unfold Before at *
  omega

theorem Before.asymm {first second : EventKey} (before : first.Before second) :
    ¬ second.Before first :=
  fun after => Before.irrefl first (before.trans after)

theorem Before.ne {first second : EventKey} (before : first.Before second) :
    first ≠ second := by
  rintro rfl
  exact Before.irrefl first before

theorem Before.time_le {first second : EventKey} (before : first.Before second) :
    first.time ≤ second.time := by
  unfold Before at before
  omega

theorem before_of_time_le {first second : EventKey} (time : first.time ≤ second.time)
    (sequence : first.sequence < second.sequence) : first.Before second := by
  unfold Before
  omega

end EventKey

namespace EventQueue

open scoped List

variable {α : Type}

theorem eq_of_perm_of_ordered {first second : List (EventKey × α)} (perm : first.Perm second)
    (ordered : first.Pairwise fun earlier later => earlier.1.Before later.1)
    (alsoOrdered : second.Pairwise fun earlier later => earlier.1.Before later.1) :
    first = second :=
  perm.eq_of_pairwise (fun _ _ _ _ before after => absurd after before.asymm)
    ordered alsoOrdered

theorem nodup_of_ordered {entries : List (EventKey × α)}
    (ordered : entries.Pairwise fun earlier later => earlier.1.Before later.1) :
    entries.Nodup :=
  ordered.imp fun before same => before.ne (congrArg Prod.fst same)

/-- The items stand in execution order, and their numbers have been given out. -/
structure WellFormed (queue : EventQueue α) : Prop where
  ordered : queue.items.Pairwise fun first second => first.1.Before second.1
  numbered : ∀ entry ∈ queue.items, entry.1.sequence < queue.enqueued

theorem wellFormed_empty : (empty : EventQueue α).WellFormed where
  ordered := .nil
  numbered := by
    intro entry member
    cases member

@[simp] theorem mem_insertByTime {entry other : EventKey × α}
    {items : List (EventKey × α)} :
    other ∈ insertByTime entry items ↔ other = entry ∨ other ∈ items := by
  rw [(insertByTime_perm entry items).mem_iff, List.mem_cons]

theorem insertByTime_ordered {entry : EventKey × α} {items : List (EventKey × α)}
    (ordered : items.Pairwise fun first second => first.1.Before second.1)
    (latest : ∀ other ∈ items, other.1.sequence < entry.1.sequence) :
    (insertByTime entry items).Pairwise
      fun first second => first.1.Before second.1 := by
  induction items with
  | nil => exact List.pairwise_singleton _ _
  | cons head tail induction =>
      obtain ⟨headFirst, tailOrdered⟩ := List.pairwise_cons.mp ordered
      simp only [insertByTime]
      split
      · rename_i earlier
        refine List.pairwise_cons.mpr ⟨?_, ordered⟩
        intro other member
        rcases List.mem_cons.mp member with rfl | inTail
        · exact .inl earlier
        · exact EventKey.Before.trans (.inl earlier) (headFirst other inTail)
      · rename_i notEarlier
        refine List.pairwise_cons.mpr ⟨?_, ?_⟩
        · intro other member
          rcases mem_insertByTime.mp member with rfl | inTail
          · exact EventKey.before_of_time_le (by omega) (latest head (by simp))
          · exact headFirst other inTail
        · exact induction tailOrdered fun other inTail =>
            latest other (List.mem_cons_of_mem head inTail)

@[simp] theorem mem_push {queue : EventQueue α} {time : Nat} {item : α}
    {entry : EventKey × α} :
    entry ∈ (queue.push time item).items ↔
      entry = (queue.nextKey time, item) ∨ entry ∈ queue.items := by
  simp [push]

@[simp] theorem enqueued_push (queue : EventQueue α) (time : Nat) (item : α) :
    (queue.push time item).enqueued = queue.enqueued + 1 := rfl

theorem push_perm (queue : EventQueue α) (time : Nat) (item : α) :
    (queue.push time item).items.Perm ((queue.nextKey time, item) :: queue.items) :=
  insertByTime_perm _ _

theorem WellFormed.push {queue : EventQueue α} (wellFormed : queue.WellFormed)
    (time : Nat) (item : α) : (queue.push time item).WellFormed where
  ordered := insertByTime_ordered wellFormed.ordered wellFormed.numbered
  numbered := by
    intro entry member
    rw [enqueued_push]
    rcases mem_push.mp member with rfl | earlier
    · simp [nextKey]
    · have := wellFormed.numbered entry earlier
      omega

theorem WellFormed.ne_nextKey {queue : EventQueue α} (wellFormed : queue.WellFormed)
    {entry : EventKey × α} (member : entry ∈ queue.items) (time : Nat) :
    entry.1 ≠ queue.nextKey time := by
  intro same
  have below := wellFormed.numbered entry member
  rw [same] at below
  exact Nat.lt_irrefl _ below

theorem popDue_eq_some_iff {queue rest : EventQueue α} {deadline : Nat}
    {entry : EventKey × α} :
    queue.popDue deadline = some (entry, rest) ↔
      queue.items = entry :: rest.items ∧ rest.enqueued = queue.enqueued ∧
        entry.1.time ≤ deadline := by
  obtain ⟨items, enqueued⟩ := queue
  cases items with
  | nil => simp [popDue]
  | cons head tail =>
      by_cases due : head.1.time ≤ deadline
      · obtain ⟨restItems, restEnqueued⟩ := rest
        simp only [popDue, if_pos due, Option.some.injEq, Prod.mk.injEq, mk.injEq,
          List.cons.injEq]
        constructor
        · rintro ⟨rfl, rfl, rfl⟩
          exact ⟨⟨rfl, rfl⟩, rfl, due⟩
        · rintro ⟨⟨rfl, rfl⟩, rfl, -⟩
          exact ⟨rfl, rfl, rfl⟩
      · simp only [popDue, if_neg due, reduceCtorEq, List.cons.injEq, false_iff]
        rintro ⟨⟨rfl, -⟩, -, isDue⟩
        exact due isDue

theorem mem_of_popDue {queue rest : EventQueue α} {deadline : Nat} {entry : EventKey × α}
    (popped : queue.popDue deadline = some (entry, rest)) : entry ∈ queue.items := by
  obtain ⟨items, -, -⟩ := popDue_eq_some_iff.mp popped
  rw [items]
  exact List.mem_cons_self

theorem WellFormed.popDue_eq_none_iff {queue : EventQueue α}
    (wellFormed : queue.WellFormed) {deadline : Nat} :
    queue.popDue deadline = none ↔
      ∀ entry ∈ queue.items, deadline < entry.1.time := by
  obtain ⟨items, enqueued⟩ := queue
  cases items with
  | nil => simp [popDue]
  | cons head tail =>
      obtain ⟨headFirst, -⟩ := List.pairwise_cons.mp wellFormed.ordered
      by_cases due : head.1.time ≤ deadline
      · simp only [popDue, if_pos due, reduceCtorEq, false_iff]
        intro later
        have := later head (by simp)
        omega
      · simp only [popDue, if_neg due, true_iff]
        intro entry member
        rcases List.mem_cons.mp member with rfl | inTail
        · omega
        · have := (headFirst entry inTail).time_le
          omega

theorem WellFormed.popDue {queue rest : EventQueue α} {deadline : Nat}
    {entry : EventKey × α} (wellFormed : queue.WellFormed)
    (popped : queue.popDue deadline = some (entry, rest)) :
    rest.WellFormed ∧ ∀ other ∈ rest.items, entry.1.Before other.1 := by
  obtain ⟨items, enqueued, -⟩ := popDue_eq_some_iff.mp popped
  have ordered := wellFormed.ordered
  have numbered := wellFormed.numbered
  rw [items] at ordered numbered
  obtain ⟨entryFirst, restOrdered⟩ := List.pairwise_cons.mp ordered
  refine ⟨⟨restOrdered, ?_⟩, entryFirst⟩
  intro other member
  rw [enqueued]
  exact numbered other (List.mem_cons_of_mem entry member)

def pushAll (queue : EventQueue α) (pushes : List (Nat × α)) : EventQueue α :=
  pushes.foldl (fun queue pushed => queue.push pushed.1 pushed.2) queue

def numberFrom : (first : Nat) → List (Nat × α) → List (EventKey × α)
  | _, [] => []
  | first, pushed :: rest =>
      (⟨pushed.1, first⟩, pushed.2) :: numberFrom (first + 1) rest

/-- The pending items that came in after the first `count` ones. -/
def since (queue : EventQueue α) (count : Nat) : List (EventKey × α) :=
  queue.items.filter fun entry => count ≤ entry.1.sequence

@[simp] theorem pushAll_nil (queue : EventQueue α) : queue.pushAll [] = queue := rfl

@[simp] theorem pushAll_cons (queue : EventQueue α) (pushed : Nat × α)
    (rest : List (Nat × α)) :
    queue.pushAll (pushed :: rest) = (queue.push pushed.1 pushed.2).pushAll rest := rfl

theorem pushAll_append (queue : EventQueue α) (first second : List (Nat × α)) :
    queue.pushAll (first ++ second) = (queue.pushAll first).pushAll second :=
  List.foldl_append

@[simp] theorem enqueued_pushAll (queue : EventQueue α) (pushes : List (Nat × α)) :
    (queue.pushAll pushes).enqueued = queue.enqueued + pushes.length := by
  induction pushes generalizing queue with
  | nil => rfl
  | cons pushed rest induction =>
      rw [pushAll_cons, induction, enqueued_push, List.length_cons]
      omega

theorem WellFormed.pushAll {queue : EventQueue α} (wellFormed : queue.WellFormed)
    (pushes : List (Nat × α)) : (queue.pushAll pushes).WellFormed := by
  induction pushes generalizing queue with
  | nil => exact wellFormed
  | cons pushed rest induction => exact induction (wellFormed.push pushed.1 pushed.2)

theorem pushAll_perm (queue : EventQueue α) (pushes : List (Nat × α)) :
    (queue.pushAll pushes).items.Perm
      (queue.items ++ numberFrom queue.enqueued pushes) := by
  induction pushes generalizing queue with
  | nil => simp [numberFrom]
  | cons pushed rest induction =>
      calc (queue.pushAll (pushed :: rest)).items
        _ ~ (queue.push pushed.1 pushed.2).items ++
              numberFrom (queue.enqueued + 1) rest := induction _
        _ ~ ((queue.nextKey pushed.1, pushed.2) :: queue.items) ++
              numberFrom (queue.enqueued + 1) rest := (push_perm ..).append_right _
        _ ~ queue.items ++ numberFrom queue.enqueued (pushed :: rest) :=
              List.perm_middle.symm

theorem mem_pushAll {queue : EventQueue α} {pushes : List (Nat × α)}
    {entry : EventKey × α} :
    entry ∈ (queue.pushAll pushes).items ↔
      entry ∈ queue.items ∨ entry ∈ numberFrom queue.enqueued pushes := by
  rw [(pushAll_perm queue pushes).mem_iff, List.mem_append]

theorem le_sequence_of_mem_numberFrom {first : Nat} {pushes : List (Nat × α)}
    {entry : EventKey × α} (member : entry ∈ numberFrom first pushes) :
    first ≤ entry.1.sequence := by
  induction pushes generalizing first with
  | nil => cases member
  | cons pushed rest induction =>
      rcases List.mem_cons.mp member with rfl | inRest
      · exact Nat.le_refl _
      · have := induction inRest
        omega

theorem exists_of_mem_numberFrom {first : Nat} {pushes : List (Nat × α)}
    {entry : EventKey × α} (member : entry ∈ numberFrom first pushes) :
    (entry.1.time, entry.2) ∈ pushes := by
  induction pushes generalizing first with
  | nil => cases member
  | cons pushed rest induction =>
      rcases List.mem_cons.mp member with rfl | inRest
      · exact List.mem_cons_self
      · exact List.mem_cons_of_mem pushed (induction inRest)

@[simp] theorem map_item_numberFrom (first : Nat) (pushes : List (Nat × α)) :
    (numberFrom first pushes).map (·.2) = pushes.map (·.2) := by
  induction pushes generalizing first with
  | nil => rfl
  | cons pushed rest induction => simp [numberFrom, induction]

theorem map_sequence_numberFrom (first : Nat) (pushes : List (Nat × α)) :
    (numberFrom first pushes).map (·.1.sequence) = List.range' first pushes.length := by
  induction pushes generalizing first with
  | nil => rfl
  | cons pushed rest induction =>
      rw [numberFrom, List.map_cons, induction, List.length_cons, List.range'_succ]

theorem numberFrom_append (first : Nat) (left right : List (Nat × α)) :
    numberFrom first (left ++ right) =
      numberFrom first left ++ numberFrom (first + left.length) right := by
  induction left generalizing first with
  | nil => rfl
  | cons pushed rest induction =>
      rw [List.cons_append, numberFrom, numberFrom, induction, List.length_cons,
        List.cons_append, Nat.add_assoc, Nat.add_comm 1]

theorem length_numberFrom (first : Nat) (pushes : List (Nat × α)) :
    (numberFrom first pushes).length = pushes.length := by
  have items := congrArg List.length (map_item_numberFrom first pushes)
  rwa [List.length_map, List.length_map] at items

theorem numberFrom_increasing (first : Nat) (pushes : List (Nat × α)) :
    (numberFrom first pushes).Pairwise fun earlier later =>
      earlier.1.sequence < later.1.sequence := by
  have numbers := List.pairwise_lt_range' (s := first) (n := pushes.length)
  rw [← map_sequence_numberFrom first pushes, List.pairwise_map] at numbers
  exact numbers

theorem nodup_keys_numberFrom (first : Nat) (pushes : List (Nat × α)) :
    ((numberFrom first pushes).map (·.1)).Nodup := by
  refine List.pairwise_map.mpr ((numberFrom_increasing first pushes).imp ?_)
  intro earlier later below same
  rw [same] at below
  exact Nat.lt_irrefl _ below

theorem WellFormed.since_pushAll {queue : EventQueue α} (wellFormed : queue.WellFormed)
    (pushes : List (Nat × α)) :
    ((queue.pushAll pushes).since queue.enqueued).Perm
      (numberFrom queue.enqueued pushes) := by
  have old : queue.items.filter (fun entry => queue.enqueued ≤ entry.1.sequence) = [] := by
    rw [List.filter_eq_nil_iff]
    intro entry member
    have := wellFormed.numbered entry member
    simp only [decide_eq_true_eq]
    omega
  have new : (numberFrom queue.enqueued pushes).filter
      (fun entry => queue.enqueued ≤ entry.1.sequence) =
        numberFrom queue.enqueued pushes := by
    rw [List.filter_eq_self]
    intro entry member
    simpa only [decide_eq_true_eq] using le_sequence_of_mem_numberFrom member
  calc (queue.pushAll pushes).since queue.enqueued
    _ ~ (queue.items ++ numberFrom queue.enqueued pushes).filter
          (fun entry => queue.enqueued ≤ entry.1.sequence) :=
        (pushAll_perm queue pushes).filter _
    _ = numberFrom queue.enqueued pushes := by
        rw [List.filter_append, old, new, List.nil_append]

theorem WellFormed.since_popDue {queue rest : EventQueue α} {deadline : Nat}
    {entry : EventKey × α} (wellFormed : queue.WellFormed)
    (popped : queue.popDue deadline = some (entry, rest)) :
    rest.since queue.enqueued = [] := by
  obtain ⟨items, -, -⟩ := popDue_eq_some_iff.mp popped
  rw [since, List.filter_eq_nil_iff]
  intro other member
  have := wellFormed.numbered other (by rw [items]; exact List.mem_cons_of_mem entry member)
  simp only [decide_eq_true_eq]
  omega

end EventQueue

end Simnet
