import ChannelRouter.Proofs.Emitting
import ChannelRouter.Proofs.Wire.Reading
import ChannelRouter.Router.Dispatch

/-!
# Runs of the router

Participants register, call, send and are terminated in any order.  Each such
event is made of a few moves of the router: obeying an instruction, forwarding a
datagram, detaching a member, expelling it, and withdrawing at the parent what a
member left behind.  A relation that composes and holds of every move holds of
every run.
-/

namespace ChannelRouter

namespace Router

/-! ## Moves -/

/--
The datagram has a whole header that names its recipients, and it is no
instruction.
-/
def Addressed (body : Datagram) (recipients : List Channel) : Prop :=
  ∃ cursor senderAndType,
    Read.recipients.runAt (Cursor.start body) = (.ok recipients, cursor) ∧
      (Read.senderAndType.runAt cursor).1 = .ok senderAndType ∧
      recipients ≠ [Channel.control]

/-- What comes of a datagram for the given recipients. -/
def forward (router : Router) (recipients : List Channel) (body : Datagram)
    (origin : Option ParticipantId) : List Output :=
  router.route recipients (body.drop (1 + 8 * recipients.length)) origin ++
    router.relay body origin

/-- A datagram that is handled is obeyed or forwarded. -/
theorem handle_eq_ok
    {router : Router} {body : Datagram} {origin : Option ParticipantId}
    {done : Emitting Router} (handled : router.handle body origin = .ok done) :
    (∃ id instruction, origin = some id ∧
      router.obey id instruction = .ok done) ∨
      ∃ recipients, Addressed body recipients ∧
        done = ⟨router, router.forward recipients body origin⟩ := by
  rw [Router.handle] at handled
  rcases reading : Read.recipients.runAt (Cursor.start body)
    with ⟨result, cursor⟩
  rw [reading] at handled
  cases result with
  | error cause => cases handled
  | ok recipients =>
      simp only at handled
      split at handled
      · cases origin with
        | none => cases handled
        | some id =>
            simp only at handled
            split at handled
            · cases handled
            · exact Or.inl ⟨id, _, rfl, handled⟩
      · rename_i notControl
        cases complete : (Read.senderAndType.runAt cursor).1 with
        | error cause =>
            rw [complete] at handled
            cases handled
        | ok senderAndType =>
            rw [complete] at handled
            injection handled with isDone
            rw [Read.position_recipients reading] at isDone
            exact Or.inr ⟨recipients,
              ⟨cursor, senderAndType, reading, complete, notControl⟩,
              isDone.symm⟩

/-- A datagram with a whole header that is no instruction is forwarded. -/
theorem handle_of_header
    {body : Datagram} {recipients : List Channel} {cursor : Cursor}
    {senderAndType : Channel × UInt16}
    (addressed : Read.recipients.runAt (Cursor.start body) =
      (.ok recipients, cursor))
    (complete : (Read.senderAndType.runAt cursor).1 = .ok senderAndType)
    (notControl : recipients ≠ [Channel.control])
    (router : Router) (origin : Option ParticipantId) :
    router.handle body origin =
      .ok ⟨router, router.forward recipients body origin⟩ := by
  rw [Router.handle, addressed]
  simp only
  rw [if_neg notControl, complete, Read.position_recipients addressed]
  rfl

/-- What an instruction asks for is done on behalf of its origin. -/
theorem handle_encode
    {instruction : Instruction} (counted : instruction.Counted)
    (router : Router) (id : ParticipantId) :
    router.handle instruction.encode (some id) =
      router.obey id instruction := by
  rw [Router.handle, Read.runAt_recipients_encode]
  simp only [if_true, Read.runAt_instruction_encode counted]

/--
A relation between the router before a move, what comes out of it, and the
router after, that holds of every move and composes.
-/
structure Respected (relation : Router → List Output → Router → Prop) : Prop
    extends Emitting.Composes relation where
  obey : ∀ {router : Router} {id : ParticipantId} {instruction : Instruction}
    {done : Emitting Router}, router.obey id instruction = .ok done →
      relation router done.outputs done.value
  forward : ∀ (router : Router) {body : Datagram} {recipients : List Channel}
    (origin : Option ParticipantId), Addressed body recipients →
      relation router (router.forward recipients body origin) router
  detach :
    ∀ {router : Router} {id : ParticipantId}
      {detaching : Emitting (Router × Member)},
    router.detach? id = some detaching →
      relation router detaching.outputs detaching.value.1
  expel : ∀ (router : Router) (participant : Participant) (reason : String),
    relation router [.expel participant reason] router
  withdraw : ∀ (router : Router) (channel : Channel),
    relation router (router.units.announce (.clearPostRemoves channel)) router

namespace Respected

variable {relation : Router → List Output → Router → Prop}

theorem handle
    (respected : Respected relation)
    {router : Router} {body : Datagram} {origin : Option ParticipantId}
    {done : Emitting Router} (handled : router.handle body origin = .ok done) :
    relation router done.outputs done.value := by
  rcases handle_eq_ok handled
    with ⟨id, instruction, _, obeyed⟩ | ⟨recipients, addressed, rfl⟩
  · exact respected.obey obeyed
  · exact respected.forward router origin addressed

theorem handleLeftBehind
    (respected : Respected relation) (id : ParticipantId) (router : Router)
    (body : Datagram) :
    relation router (router.handleLeftBehind id body).outputs
      (router.handleLeftBehind id body).value := by
  rw [Router.handleLeftBehind]
  cases handled : router.handle body (some id) with
  | ok done => exact respected.handle handled
  | error refusal => exact respected.stay router

theorem routeLeftBehind
    (respected : Respected relation) (router : Router) (id : ParticipantId)
    (groups : List (Channel × List Datagram)) :
    relation router (router.routeLeftBehind id groups).outputs
      (router.routeLeftBehind id groups).value := by
  apply respected.toComposes.foldlM
  intro before group _
  apply respected.append
  · apply respected.toComposes.foldlM
    intro between body _
    exact respected.handleLeftBehind id between body
  · simpa using respected.withdraw _ group.1

theorem disconnect
    (respected : Respected relation) (router : Router) (id : ParticipantId)
    (reason : String) :
    relation router (router.disconnect id reason).outputs
      (router.disconnect id reason).value := by
  rw [Router.disconnect]
  cases detached : router.detach? id with
  | none => exact respected.stay router
  | some detaching =>
      apply respected.append (respected.detach detached)
      apply respected.append (respected.expel _ _ reason)
      exact respected.routeLeftBehind _ id _

theorem process
    (respected : Respected relation) (router : Router) (body : Datagram)
    (origin : Option ParticipantId) :
    relation router (router.process body origin).outputs
      (router.process body origin).value := by
  unfold Router.process
  cases handled : router.handle body origin with
  | ok done => exact respected.handle handled
  | error cause =>
      cases origin with
      | none => exact respected.stay router
      | some id =>
          simp only
          split
          · exact respected.disconnect router id cause.message
          · exact respected.stay router

end Respected

/-! ## Runs -/

/-- What can happen to a router. -/
inductive Event where
  | register (participant : Participant)
  /-- A call on behalf of a participant, outside any datagram. -/
  | call (id : ParticipantId) (instruction : Instruction)
  | process (body : Datagram) (origin : Option ParticipantId)
  /--
  A participant is terminated; what it left behind is processed later, if at
  all.
  -/
  | terminate (id : ParticipantId)
  /--
  What a terminated participant filed under a channel is withdrawn at the
  parent.
  -/
  | withdraw (channel : Channel)
deriving DecidableEq, Repr

/-- What an event does to the router.  A refused call does nothing. -/
def step (router : Router) : Event → Emitting Router
  | .register participant => pure (router.register participant)
  | .call id instruction =>
      match router.obey id instruction with
      | .ok done => done
      | .error _ => pure router
  | .process body origin => router.process body origin
  | .terminate id =>
      match router.detach? id with
      | none => pure router
      | some detaching => Prod.fst <$> detaching
  | .withdraw channel =>
      ⟨router, router.units.announce (.clearPostRemoves channel)⟩

/-- What a sequence of events does to the router. -/
def run (router : Router) (events : List Event) : Emitting Router :=
  events.foldlM step router

theorem run_cons (router : Router) (event : Event) (events : List Event) :
    router.run (event :: events) = router.step event >>= (run · events) :=
  List.foldlM_cons

theorem run_append (router : Router) (earlier later : List Event) :
    router.run (earlier ++ later) = router.run earlier >>= (run · later) :=
  List.foldlM_append

/-- The event registers nobody who is registered. -/
def Event.Orderly (router : Router) : Event → Prop
  | register participant => router.isRegistered participant.id = false
  | _ => True

instance (router : Router) : (event : Event) → Decidable (event.Orderly router)
  | .register participant =>
      inferInstanceAs (Decidable (router.isRegistered participant.id = false))
  | .call _ _ => instDecidableTrue
  | .process _ _ => instDecidableTrue
  | .terminate _ => instDecidableTrue
  | .withdraw _ => instDecidableTrue

/-- No event of the run registers somebody who is registered by then. -/
def Orderly : Router → List Event → Prop
  | _, [] => True
  | router, event :: events =>
      event.Orderly router ∧ Orderly (router.step event).value events

instance decidableOrderly : (router : Router) → (events : List Event) →
    Decidable (router.Orderly events)
  | _, [] => instDecidableTrue
  | router, event :: events =>
      have := decidableOrderly (router.step event).value events
      inferInstanceAs (Decidable (event.Orderly router ∧ _))

theorem orderly_of_forall
    {events : List Event}
    (each : ∀ event ∈ events, ∀ router, event.Orderly router)
    (router : Router) : router.Orderly events := by
  induction events generalizing router with
  | nil => trivial
  | cons event rest ih =>
      constructor
      · exact each event List.mem_cons_self router
      · exact ih (fun other listed =>
          each other (List.mem_cons_of_mem event listed)) _

theorem orderly_append_iff (router : Router) (earlier later : List Event) :
    router.Orderly (earlier ++ later) ↔
      router.Orderly earlier ∧ (router.run earlier).value.Orderly later := by
  induction earlier generalizing router with
  | nil => simp [Orderly, run]
  | cons event rest ih =>
      simp only [List.cons_append, Orderly, ih, run_cons,
        Emitting.value_bind, and_assoc]

namespace Respected

variable {relation : Router → List Output → Router → Prop}

theorem step
    (respected : Respected relation) (router : Router) (event : Event)
    (registers : ∀ participant, event = .register participant →
      relation router [] (router.register participant)) :
    relation router (router.step event).outputs (router.step event).value := by
  cases event with
  | register participant => exact registers participant rfl
  | call id instruction =>
      cases obeyed : router.obey id instruction with
      | ok done => simpa [Router.step, obeyed] using respected.obey obeyed
      | error refusal => simpa [Router.step, obeyed] using respected.stay router
  | process body origin => exact respected.process router body origin
  | terminate id =>
      cases detached : router.detach? id with
      | none => simpa [Router.step, detached] using respected.stay router
      | some detaching =>
          simpa [Router.step, detached] using respected.detach detached
  | withdraw channel => exact respected.withdraw router channel

/-- A run in which participants may register under any identifier. -/
theorem run
    (respected : Respected relation)
    (registers : ∀ router participant,
      relation router [] (Router.register router participant))
    (router : Router) (events : List Event) :
    relation router (router.run events).outputs (router.run events).value := by
  apply respected.toComposes.foldlM
  intro before event _
  exact respected.step before event fun participant _ =>
    registers before participant

/-- A run in which participants register under identifiers that are free. -/
theorem run_of_orderly
    (respected : Respected relation)
    (registers : ∀ router participant,
      router.isRegistered participant.id = false →
      relation router [] (router.register participant))
    {router : Router} {events : List Event} (orderly : router.Orderly events) :
    relation router (router.run events).outputs (router.run events).value := by
  induction events generalizing router with
  | nil => exact respected.stay router
  | cons event rest ih =>
      rw [run_cons]
      apply respected.append
      · apply respected.step router event
        rintro participant rfl
        exact registers router participant orderly.1
      · exact ih orderly.2

end Respected

end Router

end ChannelRouter
