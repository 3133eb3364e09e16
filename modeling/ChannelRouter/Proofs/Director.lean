import ChannelRouter.Director
import ChannelRouter.Proofs.Router.Run

/-!
# Runs of the director

The queue in front of the router decides when a datagram is processed, never
what comes of it.  All that waits may be dispatched at once, or only the oldest,
so that other things happen before the next.  Every step of a director moves its
router as some events do and puts out the same, so whatever holds of all runs of
routers holds of the router of every director.
-/

namespace ChannelRouter

namespace Director

/-- What can happen to a director. -/
inductive Event where
  | register (participant : Participant)
  | call (id : ParticipantId) (instruction : Instruction)
  | enqueue (queued : Queued)
  | dispatch
  /-- Only the oldest of what waits is dispatched. -/
  | dispatchOldest
  | terminate (id : ParticipantId)
  | shutDown
deriving DecidableEq, Repr

/-- What an event does to the director.  What is refused does nothing. -/
def step (director : Director) : Event → Emitting Director
  | .register participant => pure (director.register participant)
  | .call id instruction =>
      match director.call (director.router.obey id instruction) with
      | .ok done => done
      | .error _ => pure director
  | .enqueue queued =>
      match director.enqueue queued with
      | .ok done => done
      | .error _ => pure director
  | .dispatch => director.dispatch
  | .dispatchOldest => director.dispatchOldest
  | .terminate id => Prod.fst <$> director.terminate id
  | .shutDown => pure director.shutDown

/-- What a sequence of events does to the director. -/
def run (director : Director) (events : List Event) : Emitting Director :=
  events.foldlM step director

/-- The event registers nobody who is registered. -/
def Event.Orderly (director : Director) : Event → Prop
  | register participant => director.router.isRegistered participant.id = false
  | _ => True

/-- No event of the run registers somebody who is registered by then. -/
def Orderly : Director → List Event → Prop
  | _, [] => True
  | director, event :: events =>
      event.Orderly director ∧ Orderly (director.step event).value events

theorem run_cons (director : Director) (event : Event) (events : List Event) :
    director.run (event :: events) = director.step event >>= (run · events) :=
  List.foldlM_cons

theorem run_append (director : Director) (earlier later : List Event) :
    director.run (earlier ++ later) = director.run earlier >>= (run · later) :=
  List.foldlM_append

theorem orderly_append_iff (director : Director) (earlier later : List Event) :
    director.Orderly (earlier ++ later) ↔
      director.Orderly earlier ∧
        (director.run earlier).value.Orderly later := by
  induction earlier generalizing director with
  | nil => simp [Orderly, run]
  | cons event rest ih =>
      simp only [List.cons_append, Orderly, ih, run_cons,
        Emitting.value_bind, and_assoc]

instance (director : Director) :
    (event : Event) → Decidable (event.Orderly director)
  | .register participant =>
      inferInstanceAs
        (Decidable (director.router.isRegistered participant.id = false))
  | .call _ _ => instDecidableTrue
  | .enqueue _ => instDecidableTrue
  | .dispatch => instDecidableTrue
  | .dispatchOldest => instDecidableTrue
  | .terminate _ => instDecidableTrue
  | .shutDown => instDecidableTrue

instance decidableOrderly : (director : Director) → (events : List Event) →
    Decidable (director.Orderly events)
  | _, [] => instDecidableTrue
  | director, event :: events =>
      have := decidableOrderly (director.step event).value events
      inferInstanceAs (Decidable (event.Orderly director ∧ _))

theorem dispatchOldest_of_stopped
    {director : Director} (stopped : director.running = false) :
    director.dispatchOldest = pure director := by
  rw [dispatchOldest]
  split
  · rfl
  · exact if_neg (by simp [stopped])

theorem dispatchOldest_of_waiting
    {director : Director} (running : director.running = true)
    {queued : Queued} {waiting : List Queued}
    (waits : director.queue = queued :: waiting) :
    director.dispatchOldest =
      director.router.process queued.body queued.origin >>= fun router =>
        pure { director with router, queue := waiting } := by
  rw [dispatchOldest, waits]
  exact if_pos running

/-- Everything is dispatched by dispatching the oldest again and again. -/
theorem run_replicate_dispatchOldest (director : Director) :
    director.run (List.replicate director.queue.length .dispatchOldest) =
      director.dispatch := by
  cases running : director.running with
  | false =>
      rw [dispatch, if_neg (by simp [running])]
      induction director.queue.length with
      | zero => rfl
      | succ count ih =>
          rw [List.replicate_succ, run_cons]
          show director.dispatchOldest >>= _ = _
          rw [dispatchOldest_of_stopped running, pure_bind]
          exact ih
  | true =>
      obtain ⟨waiting, isQueue⟩ : ∃ waiting, director.queue = waiting :=
        ⟨_, rfl⟩
      rw [isQueue]
      induction waiting generalizing director with
      | nil =>
          have same : { director with queue := [] } = director := by
            rw [← isQueue]
          rw [dispatch, if_pos running, isQueue, List.foldlM_nil, pure_bind]
          exact congrArg pure same.symm
      | cons queued later ih =>
          rw [List.length_cons, List.replicate_succ, run_cons]
          show director.dispatchOldest >>= _ = _
          rw [dispatchOldest_of_waiting running isQueue, bind_assoc, dispatch,
            if_pos running, isQueue, List.foldlM_cons, bind_assoc]
          apply bind_congr
          intro router
          rw [pure_bind, ih { director with router, queue := later }
            running rfl, dispatch]
          exact if_pos running

/-- A call is a matter of the router. -/
theorem step_call (director : Director) (id : ParticipantId)
    (instruction : Instruction) : director.step (.call id instruction) =
      (fun router => { director with router }) <$>
        director.router.step (.call id instruction) := by
  rw [step, call, Router.step]
  cases director.router.obey id instruction with
  | ok done => rfl
  | error refusal => rfl

/--
The router moves as in a run of its own that registers nobody, with the same
outputs.
-/
def Traces (before : Director) (said : List Output) (after : Director) : Prop :=
  ∃ events : List Router.Event,
    (∀ event ∈ events, ∀ participant, event ≠ .register participant) ∧
    (before.router.run events).value = after.router ∧
      (before.router.run events).outputs = said

/-- What registers nobody is orderly. -/
theorem orderly_of_registersNobody
    {events : List Router.Event}
    (registersNobody : ∀ event ∈ events, ∀ participant, event ≠
      .register participant)
    (router : Router) : router.Orderly events := by
  apply Router.orderly_of_forall
  intro event listed router
  cases event with
  | register participant =>
      exact absurd rfl (registersNobody _ listed participant)
  | call id instruction => trivial
  | process body origin => trivial
  | terminate id => trivial
  | withdraw channel => trivial

/-- What every move of a router respects, every step of its director does. -/
theorem Traces.respects
    {relation : Router → List Output → Router → Prop}
    (respected : Router.Respected relation)
    {before after : Director} {said : List Output}
    (traces : Traces before said after) :
    relation before.router said after.router := by
  rcases traces with ⟨events, registersNobody, reaches, emits⟩
  rw [← reaches, ← emits]
  apply respected.toComposes.foldlM
  intro router event listed
  apply respected.step
  intro participant registers
  exact absurd registers (registersNobody event listed participant)

theorem traces_of_event
    {before after : Director} {said : List Output} (event : Router.Event)
    (registersNobody : ∀ participant, event ≠ .register participant)
    (reaches : (before.router.step event).value = after.router)
    (emits : (before.router.step event).outputs = said) :
    Traces before said after := by
  refine ⟨[event], ?_, ?_, ?_⟩
  · intro other listed
    rwa [List.mem_singleton.mp listed]
  · rw [Router.run_cons, Emitting.value_bind, reaches]
    rfl
  · rw [Router.run_cons, Emitting.outputs_bind, emits]
    exact List.append_nil said

theorem composes_traces : Emitting.Composes Traces where
  stay := fun _ => ⟨[], by simp, rfl, rfl⟩
  append := by
    rintro first second third said more
      ⟨earlier, registersNobody, reaches, emits⟩
      ⟨later, registersNobodyLater, reachesLater, emitsLater⟩
    refine ⟨earlier ++ later, ?_, ?_, ?_⟩
    · intro event listed
      rcases List.mem_append.mp listed with inEarlier | inLater
      · exact registersNobody event inEarlier
      · exact registersNobodyLater event inLater
    · rw [Router.run_append, Emitting.value_bind, reaches, reachesLater]
    · rw [Router.run_append, Emitting.outputs_bind, reaches, emits, emitsLater]

/-- Only the router matters. -/
theorem Traces.congr
    {before after other : Director} {said : List Output}
    (traces : Traces before said after) (same : other.router = after.router) :
    Traces before said other := by
  rcases traces with ⟨events, registersNobody, reaches, emits⟩
  exact ⟨events, registersNobody, reaches.trans same.symm, emits⟩

theorem traces_dispatch (director : Director) :
    Traces director director.dispatch.outputs director.dispatch.value := by
  rw [dispatch]
  split
  · refine ⟨director.queue.map fun queued =>
      .process queued.body queued.origin, ?_, ?_, ?_⟩
    · intro event listed participant registers
      rcases List.mem_map.mp listed with ⟨queued, _, rfl⟩
      cases registers
    · rw [Router.run, List.foldlM_map]
      rfl
    · rw [Router.run, List.foldlM_map, Emitting.outputs_bind]
      exact (List.append_nil _).symm
  · exact composes_traces.stay director

theorem traces_dispatchOldest (director : Director) :
    Traces director director.dispatchOldest.outputs
      director.dispatchOldest.value := by
  rw [dispatchOldest]
  split
  · exact composes_traces.stay director
  · rename_i queued waiting _
    split
    · rw [Emitting.outputs_bind, Emitting.outputs_pure, List.append_nil]
      exact traces_of_event (.process queued.body queued.origin)
        (fun _ => nofun) rfl rfl
    · exact composes_traces.stay director

theorem traces_enqueue
    {director : Director} {queued : Queued} {done : Emitting Director}
    (enqueued : director.enqueue queued = .ok done) :
    Traces director done.outputs done.value := by
  rw [enqueue] at enqueued
  split at enqueued
  · cases enqueued
  · split at enqueued
    · injection enqueued with isDone
      subst isDone
      exact (composes_traces.stay director).congr rfl
    · injection enqueued with isDone
      subst isDone
      rw [Emitting.outputs_bind, Emitting.outputs_pure, List.append_nil]
      exact (traces_dispatch director).congr rfl

/--
What composes and holds of queueing each datagram holds of queueing them all.
-/
theorem enqueueAll_of_each
    {relation : Director → List Output → Director → Prop}
    (composes : Emitting.Composes relation) {waiting : List Queued}
    (each : ∀ director, ∀ queued ∈ waiting, ∀ done,
      director.enqueue queued = .ok done →
      relation director done.outputs done.value)
    (director : Director) :
    relation director (director.enqueueAll waiting).outputs
      (director.enqueueAll waiting).value.1 := by
  induction waiting generalizing director with
  | nil => exact composes.stay director
  | cons queued others ih =>
      rw [enqueueAll]
      cases enqueued : director.enqueue queued with
      | error refusal => exact composes.stay director
      | ok emitting =>
          apply composes.append
          · exact each director queued List.mem_cons_self emitting enqueued
          · apply ih
            intro director other listed
            exact each director other (List.mem_cons_of_mem queued listed)

theorem queueLeftBehind_of_each
    {relation : Director → List Output → Director → Prop}
    (composes : Emitting.Composes relation) {id : ParticipantId}
    {groups : List (Channel × List Datagram)}
    (each : ∀ director, ∀ group ∈ groups, ∀ body ∈ group.2, ∀ done,
      director.enqueue ⟨body, some id⟩ = .ok done →
        relation director done.outputs done.value)
    (withdraws : ∀ (director : Director) (channel : Channel),
      relation director
      (director.router.units.announce (.clearPostRemoves channel)) director)
    (director : Director) :
    relation director (director.queueLeftBehind id groups).outputs
      (director.queueLeftBehind id groups).value.1 := by
  induction groups generalizing director with
  | nil => exact composes.stay director
  | cons group others ih =>
      have eachQueued : ∀ director,
          ∀ queued ∈ group.2.map fun body => ⟨body, some id⟩, ∀ done,
          director.enqueue queued = .ok done →
          relation director done.outputs done.value := by
        intro director queued listed
        rcases List.mem_map.mp listed with ⟨body, inside, rfl⟩
        exact each director group List.mem_cons_self body inside
      have queued := enqueueAll_of_each composes eachQueued director
      rcases attempt :
        director.enqueueAll (group.2.map fun body => ⟨body, some id⟩) with
        ⟨⟨reached, result⟩, said⟩
      rw [attempt] at queued
      rw [queueLeftBehind, attempt]
      apply composes.append queued
      cases result with
      | error refusal => exact composes.stay reached
      | ok =>
          apply composes.append
          · exact withdraws reached group.1
          · apply ih
            intro director other listed
            exact each director other (List.mem_cons_of_mem group listed)

theorem traces_withdraw (director : Director) (channel : Channel) :
    Traces director (director.router.units.announce (.clearPostRemoves channel))
      director :=
  traces_of_event (.withdraw channel) (fun _ => nofun) rfl rfl

theorem traces_queueLeftBehind
    (director : Director) (id : ParticipantId)
    (groups : List (Channel × List Datagram)) :
    Traces director (director.queueLeftBehind id groups).outputs
      (director.queueLeftBehind id groups).value.1 := by
  apply queueLeftBehind_of_each composes_traces
  · intro director _ _ _ _ done enqueued
    exact traces_enqueue enqueued
  · exact traces_withdraw

theorem traces_terminate (director : Director) (id : ParticipantId) :
    Traces director (director.terminate id).outputs
      (director.terminate id).value.1 := by
  rw [terminate]
  cases detached : director.router.detach? id with
  | none => exact composes_traces.stay director
  | some detaching =>
      have detaches : Traces director detaching.outputs
          { director with router := detaching.value.1 } := by
        apply traces_of_event (.terminate id) (fun _ => nofun)
        · simp [Router.step, detached]
        · simp [Router.step, detached]
      exact composes_traces.append detaches (traces_queueLeftBehind _ id _)

/-- A step that registers nobody. -/
theorem traces_step
    (director : Director) (event : Event)
    (registersNobody : ∀ participant, event ≠ .register participant) :
    Traces director (director.step event).outputs
      (director.step event).value := by
  cases event with
  | register participant => exact absurd rfl (registersNobody participant)
  | call id instruction =>
      rw [step_call, Emitting.outputs_map, Emitting.value_map]
      exact traces_of_event (.call id instruction) (fun _ => nofun) rfl rfl
  | enqueue queued =>
      cases enqueued : director.enqueue queued with
      | ok done => simpa [step, enqueued] using traces_enqueue enqueued
      | error refusal =>
          simpa [step, enqueued] using composes_traces.stay director
  | dispatch => exact traces_dispatch director
  | dispatchOldest => exact traces_dispatchOldest director
  | terminate id =>
      rw [step, Emitting.outputs_map]
      exact traces_terminate director id
  | shutDown => exact (composes_traces.stay director).congr rfl

theorem exists_router_run_step (director : Director) (event : Event) :
    ∃ moves : List Router.Event,
      (director.router.run moves).value = (director.step event).value.router ∧
      (director.router.run moves).outputs = (director.step event).outputs ∧
      (event.Orderly director → director.router.Orderly moves) := by
  by_cases registers : ∃ participant, event = .register participant
  · rcases registers with ⟨participant, rfl⟩
    exact ⟨[.register participant], rfl, rfl, fun unregistered =>
      ⟨unregistered, trivial⟩⟩
  · rcases traces_step director event (not_exists.mp registers) with
      ⟨moves, registersNone, reaches, emits⟩
    exact ⟨moves, reaches, emits, fun _ =>
      orderly_of_registersNobody registersNone _⟩

/--
The router of a director is one that a run of its own leads to, with the same
outputs; and if the director registers nobody twice, neither does that run.
-/
theorem exists_router_run (director : Director) (events : List Event) :
    ∃ moves : List Router.Event,
      (director.router.run moves).value = (director.run events).value.router ∧
      (director.router.run moves).outputs = (director.run events).outputs ∧
      (director.Orderly events → director.router.Orderly moves) := by
  induction events generalizing director with
  | nil => exact ⟨[], rfl, rfl, fun _ => trivial⟩
  | cons event rest ih =>
      rcases exists_router_run_step director event
        with ⟨first, reaches, emits, orderly⟩
      rcases ih (director.step event).value
        with ⟨others, reachesAfter, emitsAfter, orderlyAfter⟩
      refine ⟨first ++ others, ?_, ?_, ?_⟩
      · rw [Router.run_append, Emitting.value_bind, reaches, reachesAfter]
        rfl
      · rw [Router.run_append, Emitting.outputs_bind, reaches,
          emits, emitsAfter]
        rfl
      · rintro ⟨orderlyHere, orderlyThere⟩
        rw [Router.orderly_append_iff, reaches]
        exact ⟨orderly orderlyHere, orderlyAfter orderlyThere⟩

end Director

end ChannelRouter
