import Simnet.Proofs.Abort

namespace Simnet

/-! Bodies in a history. When an event is taken off whose body runs, the history goes on with
all that the body does, and if the body fails the network halts. So what is known of a body
as a program is known of every place in a history at which it runs. -/

section Bodies

variable {P : Protocol} {α β : Type}

theorem Recording.bind_assoc {γ : Type} (first : Recording P α)
    (next : α → Network P → Recording P β) (last : β → Network P → Recording P γ) :
    (first.bind next).bind last =
      first.bind fun value network => (next value network).bind last := by
  unfold bind
  cases first.result with
  | none => rfl
  | some ended =>
      dsimp only
      cases (next ended.1 ended.2).result with
      | none => rfl
      | some _ => simp only [List.append_assoc]

theorem Recording.history_bind_eq (first : Recording P α)
    (next : α → Network P → Recording P β) :
    (first.bind next).history = first.history ++
      match first.result with
      | none => []
      | some (value, network) => (next value network).history := by
  unfold bind
  cases first.result with
  | none => exact (List.append_nil _).symm
  | some ended => rfl

def Moment.actsOn? (moment : Moment P) : Option (Event P) :=
  match moment.happening with
  | .took _ event (.acted _) => some event
  | _ => none

/-- The history in which each body that runs runs to its end, or fails and halts the
network. -/
inductive Carried (behaviour : Behaviour P) : List (Moment P) → Prop
  | nil : Carried behaviour []
  | other {moment : Moment P} {rest : List (Moment P)} (idle : moment.actsOn? = none)
      (later : Carried behaviour rest) : Carried behaviour (moment :: rest)
  | acted {moment : Moment P} {event : Event P} {rest : List (Moment P)}
      (acts : moment.actsOn? = some event) (recorder : Recorder P)
      (halts : ∀ error final,
        ((event.body behaviour).run.record recorder moment.after).result =
          some (.error error, final) → ∃ halt ∈ rest, halt.happening = .halted)
      (later : Carried behaviour rest) :
      Carried behaviour (moment ::
        (((event.body behaviour).run.record recorder moment.after).history ++ rest))

namespace Carried

variable {behaviour : Behaviour P} {past rest : List (Moment P)} {moment : Moment P}

theorem of_idle (idle : ∀ moment ∈ past, moment.actsOn? = none) : Carried behaviour past := by
  induction past with
  | nil => exact .nil
  | cons moment past induction =>
      rw [List.forall_mem_cons] at idle
      exact .other idle.1 (induction idle.2)

theorem append (first : Carried behaviour past) (second : Carried behaviour rest) :
    Carried behaviour (past ++ rest) := by
  induction first with
  | nil => exact second
  | other idle _ induction => exact .other idle induction
  | acted acts recorder halts _ induction =>
      rw [List.cons_append, List.append_assoc]
      refine .acted acts recorder ?_ induction
      intro error final failed
      obtain ⟨halt, member, halted⟩ := halts error final failed
      exact ⟨halt, List.mem_append_left _ member, halted⟩

theorem bind {first : Recording P α} {next : α → Network P → Recording P β}
    (carried : Carried behaviour first.history)
    (continues : ∀ value network, first.result = some (value, network) →
      Carried behaviour (next value network).history) :
    Carried behaviour (first.bind next).history := by
  rw [Recording.history_bind_eq]
  cases result : first.result with
  | none => exact carried.append .nil
  | some ended => exact carried.append (continues ended.1 ended.2 result)

theorem exists_body (carried : Carried behaviour past) (calm : behaviour.Calm)
    (member : moment ∈ past) {event : Event P} (acts : moment.actsOn? = some event) :
    ∃ recorder : Recorder P,
      (∀ inner ∈ ((event.body behaviour).run.record recorder moment.after).history,
        inner ∈ past) ∧
      ∀ error final,
        ((event.body behaviour).run.record recorder moment.after).result =
          some (.error error, final) → ∃ halt ∈ past, halt.happening = .halted := by
  induction carried with
  | nil => cases member
  | other idle _ induction =>
      rcases List.mem_cons.mp member with rfl | later
      · rw [idle] at acts
        cases acts
      · obtain ⟨recorder, inside, halts⟩ := induction later
        refine ⟨recorder, fun inner within => List.mem_cons_of_mem _ (inside inner within), ?_⟩
        intro error final failed
        obtain ⟨halt, halting, halted⟩ := halts error final failed
        exact ⟨halt, List.mem_cons_of_mem _ halting, halted⟩
  | @acted first other rest firstActs recorder halts _ induction =>
      have wider : ∀ inner ∈ rest, inner ∈ first ::
          (((other.body behaviour).run.record recorder first.after).history ++ rest) :=
        fun inner within => List.mem_cons_of_mem _ (List.mem_append_right _ within)
      rcases List.mem_cons.mp member with rfl | within
      · rw [firstActs] at acts
        cases acts
        refine ⟨recorder, fun inner within =>
          List.mem_cons_of_mem _ (List.mem_append_left _ within), ?_⟩
        intro error final failed
        obtain ⟨halt, halting, halted⟩ := halts error final failed
        exact ⟨halt, wider halt halting, halted⟩
      rcases List.mem_append.mp within with inBody | later
      · -- A body that does not run the network takes nothing off.
        have subsides := Network.record_subsides calm recorder first.after other moment inBody
        cases subsides <;> cases acts
      · obtain ⟨found, inside, halting⟩ := induction later
        refine ⟨found, fun inner within => wider inner (inside inner within), ?_⟩
        intro error final failed
        obtain ⟨halt, member, halted⟩ := halting error final failed
        exact ⟨halt, wider halt member, halted⟩

end Carried

variable {behaviour : Behaviour P} {recorder : Recorder P}

namespace Network

theorem recordRearm_idle (network : Network P) (event : Event P) (next : Option Nat) :
    ∀ moment ∈ (network.recordRearm event next).history, moment.actsOn? = none := by
  unfold recordRearm
  split
  · exact List.forall_mem_singleton.mpr rfl
  · exact List.forall_mem_nil _

theorem recordOutcome_idle (network : Network P) (key : EventKey) (event : Event P)
    (outcome : Except Error Unit) :
    ∀ moment ∈ (network.recordOutcome key event outcome).history, moment.actsOn? = none := by
  cases outcome with
  | ok _ => exact List.forall_mem_nil _
  | error source => exact List.forall_mem_singleton.mpr rfl

theorem recordExecute_carried (network : Network P) (queue : EventQueue (Event P))
    (key : EventKey) (event : Event P) :
    Carried behaviour (network.recordExecute behaviour recorder queue key event).history := by
  unfold recordExecute
  dsimp only
  generalize (network.arrive queue key.time).reaction behaviour key.time event = reaction
  generalize (network.arrive queue key.time).countEvent event reaction = counted
  rw [Recording.history_bind (Recording.result_single ..), Recording.history_single,
    List.singleton_append]
  cases reaction with
  | refused error => exact .other rfl (.other rfl .nil)
  | dropped | retired => exact .other rfl .nil
  | skipped next =>
      refine .other rfl (.bind (.of_idle (counted.recordRearm_idle event next)) ?_)
      exact fun outcome after _ => .of_idle (after.recordOutcome_idle key event outcome)
  | acted next =>
      rw [recordReaction, Recording.bind_assoc, Recording.history_bind_eq]
      refine .acted rfl recorder ?_ ?_
      · intro error final failed
        rw [failed]
        exact ⟨_, List.mem_singleton_self _, rfl⟩
      · cases ((event.body behaviour).run.record recorder counted).result with
        | none => exact .nil
        | some ended =>
            obtain ⟨outcome, after⟩ := ended
            refine .bind (.of_idle ?_) fun outcome after _ =>
              .of_idle (after.recordOutcome_idle key event outcome)
            cases outcome with
            | error error => exact List.forall_mem_nil _
            | ok _ => exact after.recordRearm_idle event next

theorem recordDrain_carried (fuel deadline : Nat) (network : Network P) :
    Carried behaviour (recordDrain behaviour fuel deadline network).history := by
  induction fuel generalizing network with
  | zero => exact .nil
  | succ fuel induction =>
      unfold recordDrain
      cases network.queue.popDue deadline with
      | none => exact .other rfl .nil
      | some taken =>
          refine .bind (network.recordExecute_carried _ _ _) fun outcome after _ => ?_
          cases outcome with
          | error error => exact .nil
          | ok _ => exact induction after

theorem recordRun_carried (fuel deadline : Nat) (network : Network P) :
    Carried behaviour (recordRun behaviour fuel deadline network).history := by
  unfold recordRun recordStart
  cases network.start deadline with
  | error error => exact .nil
  | ok started =>
      exact .bind (.other rfl .nil) fun _ middle _ => recordDrain_carried fuel deadline middle

end Network

theorem Op.record_carried (op : Op P) (fuel : Nat) (network : Network P) :
    Carried behaviour (op.record (Network.recordRun behaviour fuel) network).history := by
  cases quiet : op.isRun with
  | false =>
      rw [record_of_quiet quiet]
      cases op.perform idle network with
      | none => exact .nil
      | some ended => exact .other rfl .nil
  | true =>
      cases op with
      | runUntil deadline => exact Network.recordRun_carried fuel deadline network
      | runFor milliseconds =>
          simp only [record]
          split
          · exact .nil
          · exact Network.recordRun_carried fuel _ network
      | runSeconds seconds =>
          simp only [record]
          split
          · exact .nil
          · exact Network.recordRun_carried fuel _ network
      | _ => cases quiet

theorem Program.life_carried (behaviour : Behaviour P) (life : Program P α) (fuel : Nat)
    (network : Network P) :
    Carried behaviour (life.record (Network.recordRun behaviour fuel) network).history := by
  induction life generalizing network with
  | pure value => exact .nil
  | call op next induction =>
      exact .bind (op.record_carried fuel network) fun answer after _ => induction answer after

end Bodies

end Simnet
