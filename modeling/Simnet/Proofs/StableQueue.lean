import Simnet.Proofs.KeyedQueue

namespace Simnet

/-! The queue as a stable priority queue. After any calls it holds what was pushed and not
yet taken, stably sorted by time; a pop takes the first of that if it is due and else
changes nothing; and the ordered map by key gives the same answers for as long as its
count lasts. -/

namespace EventQueue

open scoped List

variable {α : Type}

inductive Call (α : Type)
  | push (time : Nat) (item : α)
  | popDue (deadline : Nat)

/-- A push answers with its key, a pop with the entry that it took, if any. -/
inductive Reply (α : Type)
  | pushed (key : EventKey)
  | popped (entry : Option (EventKey × α))
deriving DecidableEq

def Call.pushed? : Call α → Option (Nat × α)
  | .push time item => some (time, item)
  | .popDue _ => none

def Reply.key? : Reply α → Option EventKey
  | .pushed key => some key
  | .popped _ => none

def Reply.taken? : Reply α → Option (EventKey × α)
  | .pushed _ => none
  | .popped entry => entry

/-- A pop that takes nothing leaves the state as it was. -/
def Reply.ofPop {σ : Type} (state : σ) : Option ((EventKey × α) × σ) → Reply α × σ
  | none => (.popped none, state)
  | some (entry, rest) => (.popped (some entry), rest)

def answer (queue : EventQueue α) : Call α → Reply α × EventQueue α
  | .push time item => (.pushed (queue.nextKey time), queue.push time item)
  | .popDue deadline => Reply.ofPop queue (queue.popDue deadline)

def answerAll {σ : Type} (answer : σ → Call α → Reply α × σ) :
    σ → List (Call α) → List (Reply α) × σ
  | state, [] => ([], state)
  | state, call :: rest =>
      let first := answer state call
      let others := answerAll answer first.2 rest
      (first.1 :: others.1, others.2)

def pushes (calls : List (Call α)) : List (Nat × α) :=
  calls.filterMap Call.pushed?

def takes (replies : List (Reply α)) : List (EventKey × α) :=
  replies.filterMap Reply.taken?

def keys (replies : List (Reply α)) : List EventKey :=
  replies.filterMap Reply.key?

theorem pushes_cons (call : Call α) (rest : List (Call α)) :
    pushes (call :: rest) = pushes [call] ++ pushes rest :=
  List.filterMap_append (l := [call])

theorem takes_cons (reply : Reply α) (rest : List (Reply α)) :
    takes (reply :: rest) = takes [reply] ++ takes rest :=
  List.filterMap_append (l := [reply])

def remaining (pushed : List (Nat × α)) (taken : List (EventKey × α)) :
    List (EventKey × α) :=
  (numberFrom 0 pushed).filter fun entry => entry.1 ∉ taken.map (·.1)

def pending (calls : List (Call α)) (replies : List (Reply α)) : List (EventKey × α) :=
  remaining (pushes calls) (takes replies)

def notLater (first second : EventKey × α) : Bool :=
  first.1.time ≤ second.1.time

/-- Sorts by time alone; the sort is stable. -/
def sortByTime (entries : List (EventKey × α)) : List (EventKey × α) :=
  entries.mergeSort notLater

theorem notLater_trans (first second third : EventKey × α) (left : notLater first second)
    (right : notLater second third) : notLater first third :=
  decide_eq_true (Nat.le_trans (of_decide_eq_true left) (of_decide_eq_true right))

theorem notLater_total (first second : EventKey × α) :
    (notLater first second || notLater second first) = true := by
  simp only [notLater, Bool.or_eq_true, decide_eq_true_eq]
  exact Nat.le_total ..

theorem sortByTime_ordered {entries : List (EventKey × α)}
    (increasing : entries.Pairwise fun first second => first.1.sequence < second.1.sequence) :
    (sortByTime entries).Pairwise fun first second => first.1.Before second.1 := by
  induction entries with
  | nil => simp [sortByTime]
  | cons entry rest induction =>
      obtain ⟨below, restIncreasing⟩ := List.pairwise_cons.mp increasing
      -- The sort puts the entry in front of all that are not earlier.
      obtain ⟨earlier, others, sorted, restSorted, front⟩ :=
        List.mergeSort_cons notLater_trans notLater_total entry rest
      have byTime := List.pairwise_mergeSort notLater_trans notLater_total (entry :: rest)
      have ordered := induction restIncreasing
      rw [sortByTime, restSorted] at ordered
      rw [sorted] at byTime
      rw [sortByTime, sorted]
      obtain ⟨earlierOrdered, othersOrdered, apart⟩ := List.pairwise_append.mp ordered
      obtain ⟨-, entryFirst, -⟩ := List.pairwise_append.mp byTime
      have inRest : ∀ other ∈ others, other ∈ rest := by
        intro other member
        apply (List.mergeSort_perm rest notLater).mem_iff.mp
        rw [restSorted]
        exact List.mem_append_right earlier member
      refine List.pairwise_append.mpr
        ⟨earlierOrdered, List.pairwise_cons.mpr ⟨?_, othersOrdered⟩, ?_⟩
      · intro other member
        have time := (List.pairwise_cons.mp entryFirst).1 other member
        exact EventKey.before_of_time_le (of_decide_eq_true time)
          (below other (inRest other member))
      · intro other member later inLater
        rcases List.mem_cons.mp inLater with rfl | inOthers
        · have time := front other member
          simp only [notLater, Bool.not_eq_true', decide_eq_false_iff_not] at time
          exact .inl (Nat.lt_of_not_le time)
        · exact apart other member later inOthers

/-- A queue that was given `pushed` and gave up `taken`: it holds all the others, under the
numbers of their pushes. -/
structure Settled (pushed : List (Nat × α)) (taken : List (EventKey × α))
    (queue : EventQueue α) : Prop where
  wellFormed : queue.WellFormed
  enqueued : queue.enqueued = pushed.length
  kept : (queue.items ++ taken).Perm (numberFrom 0 pushed)

namespace Settled

variable {pushed : List (Nat × α)} {taken : List (EventKey × α)} {queue : EventQueue α}

theorem start : Settled [] [] (empty : EventQueue α) where
  wellFormed := wellFormed_empty
  enqueued := rfl
  kept := .nil

theorem push (settled : Settled pushed taken queue) (time : Nat) (item : α) :
    Settled (pushed ++ [(time, item)]) taken (queue.push time item) where
  wellFormed := settled.wellFormed.push time item
  enqueued := by
    rw [enqueued_push, settled.enqueued, List.length_append, List.length_singleton]
  kept := by
    have number : numberFrom 0 (pushed ++ [(time, item)]) =
        numberFrom 0 pushed ++ [(queue.nextKey time, item)] := by
      rw [numberFrom_append, Nat.zero_add, nextKey, settled.enqueued]
      rfl
    calc (queue.push time item).items ++ taken
      _ ~ (queue.nextKey time, item) :: (queue.items ++ taken) :=
          (push_perm queue time item).append_right taken
      _ ~ (queue.nextKey time, item) :: numberFrom 0 pushed := settled.kept.cons _
      _ ~ numberFrom 0 (pushed ++ [(time, item)]) :=
          number ▸ (List.perm_append_singleton ..).symm

theorem take (settled : Settled pushed taken queue) {deadline : Nat} {entry : EventKey × α}
    {rest : EventQueue α} (popped : queue.popDue deadline = some (entry, rest)) :
    Settled pushed (taken ++ [entry]) rest := by
  obtain ⟨items, enqueued, -⟩ := popDue_eq_some_iff.mp popped
  constructor
  · exact (settled.wellFormed.popDue popped).1
  · rw [enqueued, settled.enqueued]
  · calc rest.items ++ (taken ++ [entry])
      _ ~ entry :: (rest.items ++ taken) := by
          rw [← List.append_assoc]
          exact List.perm_append_singleton ..
      _ = queue.items ++ taken := by rw [items, List.cons_append]
      _ ~ numberFrom 0 pushed := settled.kept

theorem answer (settled : Settled pushed taken queue) (call : Call α) :
    Settled (pushed ++ pushes [call]) (taken ++ takes [(queue.answer call).1])
      (queue.answer call).2 := by
  cases call with
  | push time item =>
      have placed := settled.push time item
      rwa [← List.append_nil taken] at placed
  | popDue deadline =>
      rw [show pushed ++ pushes [.popDue deadline] = pushed from List.append_nil pushed,
        EventQueue.answer]
      cases popped : queue.popDue deadline with
      | none => rwa [← List.append_nil taken] at settled
      | some result => exact settled.take popped

theorem answerAll (settled : Settled pushed taken queue) (calls : List (Call α)) :
    Settled (pushed ++ pushes calls)
      (taken ++ takes (answerAll EventQueue.answer queue calls).1)
      (answerAll EventQueue.answer queue calls).2 := by
  induction calls generalizing queue pushed taken with
  | nil => rwa [← List.append_nil pushed, ← List.append_nil taken] at settled
  | cons call rest induction =>
      have later := induction (settled.answer call)
      rwa [List.append_assoc, List.append_assoc, ← pushes_cons, ← takes_cons] at later

theorem distinct (settled : Settled pushed taken queue) :
    ((queue.items ++ taken).map (·.1)).Nodup :=
  (settled.kept.map _).nodup_iff.mpr (nodup_keys_numberFrom 0 pushed)

theorem remaining_perm (settled : Settled pushed taken queue) :
    queue.items.Perm (remaining pushed taken) := by
  have distinct := settled.distinct
  rw [List.map_append] at distinct
  have apart := (List.nodup_append.mp distinct).2.2
  have here : queue.items.filter (fun entry => entry.1 ∉ taken.map (·.1)) = queue.items := by
    refine List.filter_eq_self.mpr fun entry member => decide_eq_true ?_
    exact fun gone => apart _ (List.mem_map_of_mem member) _ gone rfl
  have gone : taken.filter (fun entry => entry.1 ∉ taken.map (·.1)) = [] := by
    refine List.filter_eq_nil_iff.mpr fun entry member absent => ?_
    exact of_decide_eq_true absent (List.mem_map_of_mem member)
  calc queue.items
    _ = (queue.items ++ taken).filter (fun entry => entry.1 ∉ taken.map (·.1)) := by
        rw [List.filter_append, here, gone, List.append_nil]
    _ ~ remaining pushed taken := settled.kept.filter _

theorem contents (settled : Settled pushed taken queue) :
    queue.items = sortByTime (remaining pushed taken) :=
  eq_of_perm_of_ordered (settled.remaining_perm.trans (List.mergeSort_perm ..).symm)
    settled.wellFormed.ordered
    (sortByTime_ordered ((numberFrom_increasing 0 pushed).sublist List.filter_sublist))

theorem length (settled : Settled pushed taken queue) :
    queue.length + taken.length = pushed.length := by
  have length := settled.kept.length_eq
  rwa [List.length_append, length_numberFrom] at length

end Settled

theorem keys_answerAll (queue : EventQueue α) (calls : List (Call α)) :
    keys (answerAll answer queue calls).1 =
      (numberFrom queue.enqueued (pushes calls)).map (·.1) := by
  induction calls generalizing queue with
  | nil => rfl
  | cons call rest induction =>
      cases call with
      | push time item => exact congrArg (queue.nextKey time :: ·) (induction _)
      | popDue deadline =>
          rw [answerAll, answer, pushes_cons]
          cases popped : queue.popDue deadline with
          | none => exact induction queue
          | some result =>
              rw [← (popDue_eq_some_iff.mp popped).2.1]
              exact induction result.2

/-- A queue that has given `replies` to `calls` since it was empty is a stable priority
queue of what was pushed. -/
structure IsStable (calls : List (Call α)) (replies : List (Reply α))
    (queue : EventQueue α) : Prop where
  contents : queue.toList = sortByTime (pending calls replies)
  ordered : queue.toList.Pairwise fun first second => first.1.Before second.1
  /-- A pop takes the first entry, and nothing else, just when that is due. -/
  takesFirst : ∀ deadline entry rest,
    queue.popDue deadline = some (entry, rest) ↔
      sortByTime (pending calls replies) = entry :: rest.toList ∧
        rest.enqueued = queue.enqueued ∧ entry.1.time ≤ deadline
  /-- Else it changes nothing, and that is just when nothing is due. -/
  declines : ∀ deadline,
    queue.answer (.popDue deadline) = (.popped none, queue) ↔
      ∀ entry ∈ pending calls replies, deadline < entry.1.time
  kept : (queue.toList ++ takes replies).Perm (numberFrom 0 (pushes calls))
  distinct : ((queue.toList ++ takes replies).map (·.1)).Nodup
  numbered : ∀ entry ∈ queue.toList, entry.1.sequence < queue.enqueued
  /-- A push comes under a key of its own and keeps what is pending. -/
  adds : ∀ time item, queue.nextKey time ∉ queue.toList.map (·.1) ∧
    (queue.push time item).toList.Perm ((queue.nextKey time, item) :: queue.toList)
  answered : keys replies = (numberFrom 0 (pushes calls)).map (·.1)
  length : queue.length + (takes replies).length = (pushes calls).length
  enqueued : queue.enqueued = (pushes calls).length

theorem answer_eq_declined_iff {queue : EventQueue α} {deadline : Nat} :
    queue.answer (.popDue deadline) = (.popped none, queue) ↔
      queue.popDue deadline = none := by
  rw [answer]
  cases queue.popDue deadline with
  | none => exact ⟨fun _ => rfl, fun _ => rfl⟩
  | some result => exact ⟨nofun, nofun⟩

theorem Settled.isStable {calls : List (Call α)} {replies : List (Reply α)}
    {queue : EventQueue α} (settled : Settled (pushes calls) (takes replies) queue)
    (answered : keys replies = (numberFrom 0 (pushes calls)).map (·.1)) :
    IsStable calls replies queue where
  contents := settled.contents
  ordered := settled.wellFormed.ordered
  takesFirst := by
    intro deadline entry rest
    rw [pending, ← settled.contents]
    exact popDue_eq_some_iff
  declines := by
    intro deadline
    rw [answer_eq_declined_iff, settled.wellFormed.popDue_eq_none_iff]
    constructor
    · exact fun later entry member => later entry (settled.remaining_perm.mem_iff.mpr member)
    · exact fun later entry member => later entry (settled.remaining_perm.mem_iff.mp member)
  kept := settled.kept
  distinct := settled.distinct
  numbered := settled.wellFormed.numbered
  adds := by
    intro time item
    refine ⟨?_, push_perm queue time item⟩
    intro used
    obtain ⟨entry, member, same⟩ := List.mem_map.mp used
    exact settled.wellFormed.ne_nextKey member time same
  answered := answered
  length := settled.length
  enqueued := settled.enqueued

def served (calls : List (Call α)) : List (Reply α) × EventQueue α :=
  answerAll answer empty calls

theorem isStable_served (calls : List (Call α)) :
    IsStable calls (served calls).1 (served calls).2 :=
  (Settled.start.answerAll calls).isStable (keys_answerAll empty calls)

end EventQueue

namespace KeyedQueue

open EventQueue (Call Reply Settled answerAll pushes)

variable {α : Type}

def answer (queue : KeyedQueue α) : Call α → Reply α × KeyedQueue α
  | .push time item => (.pushed (queue.nextKey time), queue.push time item)
  | .popDue deadline => Reply.ofPop queue (queue.popDue deadline)

theorem Represents.answer {keyed : KeyedQueue α} {queue : EventQueue α}
    (represents : keyed.Represents queue) (wellFormed : queue.WellFormed) (call : Call α)
    (room : queue.enqueued + (pushes [call]).length ≤ maxTime) :
    (keyed.answer call).1 = (queue.answer call).1 ∧
      (keyed.answer call).2.Represents (queue.answer call).2 := by
  cases call with
  | push time item =>
      exact ⟨congrArg Reply.pushed (represents.nextKey time),
        represents.push wellFormed room time item⟩
  | popDue deadline =>
      rw [KeyedQueue.answer, EventQueue.answer]
      obtain ⟨declined, alsoDeclined⟩ | ⟨entry, keyedRest, rest, popped, alsoPopped, left⟩ :=
        represents.popDue deadline
      · rw [declined, alsoDeclined]
        exact ⟨rfl, represents⟩
      · rw [popped, alsoPopped]
        exact ⟨rfl, left⟩

theorem Represents.answerAll {keyed : KeyedQueue α} {queue : EventQueue α}
    {pushed : List (Nat × α)} {taken : List (EventKey × α)}
    (represents : keyed.Represents queue) (settled : Settled pushed taken queue)
    (calls : List (Call α)) (room : (pushed ++ pushes calls).length ≤ maxTime) :
    (answerAll KeyedQueue.answer keyed calls).1 = (answerAll EventQueue.answer queue calls).1 ∧
      (answerAll KeyedQueue.answer keyed calls).2.Represents
        (answerAll EventQueue.answer queue calls).2 := by
  induction calls generalizing keyed queue pushed taken with
  | nil => exact ⟨rfl, represents⟩
  | cons call rest induction =>
      rw [EventQueue.pushes_cons, ← List.append_assoc] at room
      have near : queue.enqueued + (pushes [call]).length ≤ maxTime := by
        rw [settled.enqueued, ← List.length_append]
        exact Nat.le_trans (List.sublist_append_left ..).length_le room
      obtain ⟨reply, next⟩ := represents.answer settled.wellFormed call near
      obtain ⟨replies, last⟩ := induction next (settled.answer call) room
      refine ⟨?_, last⟩
      rw [EventQueue.answerAll, EventQueue.answerAll, reply, replies]

def served (calls : List (Call α)) : List (Reply α) × KeyedQueue α :=
  answerAll answer empty calls

end KeyedQueue

namespace EventQueue

/-- A queue is a stable priority queue after any calls, and so is an ordered map by key as long
as its count tells the pushes apart. -/
theorem stably_sorted {α : Type} (calls : List (Call α)) :
    IsStable calls (served calls).1 (served calls).2 ∧
    ((pushes calls).length ≤ maxTime →
      (KeyedQueue.served calls).1 = (served calls).1 ∧
      (KeyedQueue.served calls).2.Represents (served calls).2 ∧
      (KeyedQueue.served calls).2.peekTime = (served calls).2.peekTime ∧
      (KeyedQueue.served calls).2.length = (served calls).2.length ∧
      ∀ time, (KeyedQueue.served calls).2.nextKey time ∉ (KeyedQueue.served calls).2.items) := by
  refine ⟨isStable_served calls, fun room => ?_⟩
  obtain ⟨replies, represents⟩ :=
    KeyedQueue.Represents.start.answerAll Settled.start calls room
  have settled := Settled.start.answerAll calls
  exact ⟨replies, represents, represents.peekTime, represents.length,
    represents.fresh settled.wellFormed⟩

def errands : List (Call String) :=
  [.push 10 "late", .push 3 "early", .popDue 2, .popDue 5, .push 10 "later", .popDue 9,
    .popDue 10, .push 12 "last", .push 10 "latest"]

/-- The map takes what is due in order of time, and what is due at one time in the order of
the pushes. -/
theorem errands_stably_sorted :
    (pushes errands).length ≤ maxTime ∧
    (KeyedQueue.served errands).1 =
      [.pushed ⟨10, 0⟩, .pushed ⟨3, 1⟩, .popped none, .popped (some (⟨3, 1⟩, "early")),
        .pushed ⟨10, 2⟩, .popped none, .popped (some (⟨10, 0⟩, "late")), .pushed ⟨12, 3⟩,
        .pushed ⟨10, 4⟩] ∧
    (KeyedQueue.served errands).2.toList =
      [(⟨10, 2⟩, "later"), (⟨10, 4⟩, "latest"), (⟨12, 3⟩, "last")] ∧
    sortByTime (pending errands (served errands).1) =
      [(⟨10, 2⟩, "later"), (⟨10, 4⟩, "latest"), (⟨12, 3⟩, "last")] := by
  obtain ⟨stable, keyed⟩ := stably_sorted errands
  have room : (pushes errands).length ≤ maxTime := by decide
  obtain ⟨replies, represents, -⟩ := keyed room
  exact ⟨room, replies.trans rfl, represents.contents.trans rfl, stable.contents.symm.trans rfl⟩

end EventQueue

end Simnet
