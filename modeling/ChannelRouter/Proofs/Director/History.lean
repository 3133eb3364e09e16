import ChannelRouter.Proofs.Director
import ChannelRouter.Proofs.Director.Journal

/-!
# The history of a director

A director forgets why a datagram was queued and what it has dispatched.  A
record is a router that keeps a journal and all datagrams it has been asked to
handle, each with the cause.  What a participant leaves behind is handled
because of its departure, whether that happens at once or through the queue.

Nothing is decided by the journal or by the causes: a history without them is
the director that goes through the same.
-/

namespace ChannelRouter

/--
Why a datagram is handled; a departure is known by its place in the journal.
-/
inductive Cause where
  | sent
  | leftBehind (departure : Nat) (channel : Channel)
deriving DecidableEq, Repr

/-- A datagram with its origin, and why it is handled. -/
structure Parcel where
  queued : Queued
  cause : Cause
deriving DecidableEq, Repr

/--
A router, what has been noted of it, and what it has been asked to handle.
-/
structure Record where
  router : Router
  journal : List Note
  handled : List Parcel
deriving DecidableEq, Repr

namespace Record

/-- Nothing has been noted and nothing handled. -/
def start (parent : Option ParentLink) : Record := ⟨.empty parent, [], []⟩

/-- Register a participant and note that it has joined. -/
def register (record : Record) (participant : Participant) : Record :=
  { record with
    router := record.router.register participant
    journal := record.journal ++ [.joined participant.id] }

/--
The outcome of what was asked of the router; what is refused is not noted.
-/
def settle (record : Record) (outcome : Except RoutingError (Emitting Router))
    (notes : List Note) : Emitting Record :=
  match outcome with
  | .ok done =>
      (fun router =>
        { record with router, journal := record.journal ++ notes }) <$> done
  | .error _ => pure record

/-- Obey an instruction that is called for outside any datagram. -/
def call (record : Record) (id : ParticipantId) (instruction : Instruction) :
    Emitting Record :=
  record.settle (record.router.obey id instruction)
    (Note.ofInstruction id instruction)

/--
Handle a parcel; it is one of those handled even if the router refuses it.
-/
def handle (record : Record) (parcel : Parcel) : Emitting Record :=
  { record with handled := record.handled ++ [parcel] }.settle
    (record.router.handle parcel.queued.body parcel.queued.origin)
      (Note.ofQueued parcel.queued)

/-- The record once a participant is gone, with the router that remains. -/
def without (record : Record) (id : ParticipantId)
    (remaining : Router) : Record :=
  { record with router := remaining, journal := record.journal ++ [.left id] }

/-- What somebody leaves behind under one channel. -/
def parcels (id : ParticipantId) (departure : Nat)
    (group : Channel × List Datagram) : List Parcel :=
  group.2.map fun body => ⟨⟨body, some id⟩, .leftBehind departure group.1⟩

/-- Handle at once what somebody leaves behind, group after group. -/
def routeLeftBehind (record : Record) (id : ParticipantId) (departure : Nat)
    (groups : List (Channel × List Datagram)) : Emitting Record :=
  groups.foldlM
    (fun record group => do
      let record ← (parcels id departure group).foldlM handle record
      Emitting.emit (record.router.units.announce (.clearPostRemoves group.1))
      pure record)
    record

/--
Expel a member and handle what it leaves behind, for the sake of this departure.
-/
def disconnect (record : Record) (id : ParticipantId) (reason : String) :
    Emitting Record :=
  match record.router.detach? id with
  | none => pure record
  | some detaching => do
    let (remaining, member) ← detaching
    Emitting.emit [.expel member.participant reason]
    (record.without id remaining).routeLeftBehind id record.journal.length
      member.postRemoves.groups

/-- Handle a parcel and, if its origin is at fault, expel the origin. -/
def process (record : Record) (parcel : Parcel) : Emitting Record :=
  match record.router.handle parcel.queued.body parcel.queued.origin,
    parcel.queued.origin with
  | .error cause, some id =>
      if cause.isMalformed then do
        let record ← record.handle parcel
        record.disconnect id cause.message
      else record.handle parcel
  | _, _ => record.handle parcel

/-! ## A record is a router with notes -/

theorem map_settle (record : Record)
    (outcome : Except RoutingError (Emitting Router)) (notes : List Note) :
    Record.router <$> record.settle outcome notes =
      match outcome with
      | .ok done => done
      | .error _ => pure record.router := by
  cases outcome with
  | ok done =>
      rw [settle, ← comp_map]
      exact id_map done
  | error refusal => rfl

theorem map_handle (record : Record) (parcel : Parcel) :
    Record.router <$> record.handle parcel =
      match record.router.handle parcel.queued.body parcel.queued.origin with
      | .ok done => done
      | .error _ => pure record.router := by
  rw [handle, map_settle]

theorem map_handle_parcels (id : ParticipantId) (departure : Nat)
    (group : Channel × List Datagram) (record : Record) :
    Record.router <$> (parcels id departure group).foldlM handle record =
      group.2.foldlM (Router.handleLeftBehind id) record.router := by
  have each : ∀ (record : Record) (body : Datagram),
      Record.router <$> record.handle
        ⟨⟨body, some id⟩, .leftBehind departure group.1⟩ =
        Router.handleLeftBehind id record.router body := by
    intro record body
    rw [map_handle]
    rfl
  rw [parcels, List.foldlM_map, Emitting.map_foldlM each]

theorem map_routeLeftBehind (record : Record) (id : ParticipantId)
    (departure : Nat) (groups : List (Channel × List Datagram)) :
    Record.router <$> record.routeLeftBehind id departure groups =
      record.router.routeLeftBehind id groups := by
  rw [routeLeftBehind, Router.routeLeftBehind]
  apply Emitting.map_foldlM
  intro record group
  rw [← map_handle_parcels id departure group record, bind_map_left]
  simp only [map_bind, map_pure]

theorem map_disconnect (record : Record) (id : ParticipantId)
    (reason : String) :
    Record.router <$> record.disconnect id reason =
      record.router.disconnect id reason := by
  rw [disconnect, Router.disconnect]
  cases record.router.detach? id with
  | none => rfl
  | some detaching =>
      simp only [map_bind, map_routeLeftBehind]
      rfl

theorem map_process (record : Record) (parcel : Parcel) :
    Record.router <$> record.process parcel =
      record.router.process parcel.queued.body parcel.queued.origin := by
  have handled := map_handle record parcel
  unfold process Router.process
  cases outcome :
    record.router.handle parcel.queued.body parcel.queued.origin with
  | ok done =>
      rw [outcome] at handled
      exact handled
  | error cause =>
      rw [outcome] at handled
      cases parcel.queued.origin with
      | none => exact handled
      | some id =>
          simp only at handled ⊢
          split
          · rw [map_bind]
            simp only [map_disconnect]
            rw [← bind_map_left Record.router _ fun router =>
              Router.disconnect router id cause.message, handled, pure_bind]
          · exact handled

end Record

/-- A record behind a queue of parcels. -/
structure History where
  record : Record
  waiting : List Parcel
  capacity : Nat
deriving DecidableEq, Repr

namespace History

open Director (Event)

/-- Nothing has happened and nothing waits. -/
def start (capacity : Nat) (parent : Option ParentLink) : History :=
  ⟨.start parent, [], capacity⟩

/-- The director that has gone through this. -/
def director (history : History) : Director where
  router := history.record.router
  queue := history.waiting.map Parcel.queued
  capacity := history.capacity
  nextId := 1
  running := true

/-- Process all parcels that wait. -/
def dispatch (history : History) : Emitting History :=
  (fun record => { history with record, waiting := [] }) <$>
    history.waiting.foldlM Record.process history.record

/-- Process only the parcel that has waited longest. -/
def dispatchOldest (history : History) : Emitting History :=
  match history.waiting with
  | [] => pure history
  | parcel :: waiting =>
      (fun record => { history with record, waiting }) <$>
        history.record.process parcel

/-- One parcel more, behind those that wait. -/
def concat (parcel : Parcel) (history : History) : History :=
  { history with waiting := history.waiting ++ [parcel] }

/-- Let a parcel wait, after there is room for it. -/
def enqueue (history : History) (parcel : Parcel) : Emitting History :=
  if history.waiting.length <
    max history.capacity 1 then pure (history.concat parcel)
  else concat parcel <$> history.dispatch

/-- Let wait what somebody leaves behind, group after group. -/
def queueLeftBehind (history : History) (id : ParticipantId) (departure : Nat)
    (groups : List (Channel × List Datagram)) : Emitting History :=
  groups.foldlM
    (fun history group => do
      let history ← (Record.parcels id departure group).foldlM enqueue history
      Emitting.emit
        (history.record.router.units.announce (.clearPostRemoves group.1))
      pure history)
    history

/--
Remove a participant and let wait what it leaves behind, for the sake of this
departure.
-/
def terminate (history : History) (id : ParticipantId) : Emitting History :=
  match history.record.router.detach? id with
  | none => pure history
  | some detaching => do
    let (remaining, member) ← detaching
    { history with record :=
      history.record.without id remaining }.queueLeftBehind id
      history.record.journal.length member.postRemoves.groups

/-- What an event does, unless it stops the dispatching. -/
def step (history : History) : Event → Emitting History
  | .register participant =>
      pure { history with record := history.record.register participant }
  | .call id instruction =>
      (fun record => { history with record }) <$>
        history.record.call id instruction
  | .enqueue queued => history.enqueue ⟨queued, .sent⟩
  | .dispatch => history.dispatch
  | .dispatchOldest => history.dispatchOldest
  | .terminate id => history.terminate id
  | .shutDown => pure history

/-- What a sequence of events does, as long as none stops the dispatching. -/
def run (history : History) (events : List Event) : Emitting History :=
  events.foldlM step history

/-! ## A history is a director with notes -/

theorem map_dispatch (history : History) :
    director <$> history.dispatch = history.director.dispatch := by
  have records :
      Record.router <$> history.waiting.foldlM Record.process history.record =
      history.waiting.foldlM
        (fun router parcel =>
          router.process parcel.queued.body parcel.queued.origin)
        history.record.router :=
    Emitting.map_foldlM Record.map_process history.waiting history.record
  show director <$> ((fun record => { history with record, waiting := [] }) <$>
      history.waiting.foldlM Record.process history.record) =
    ((history.waiting.map Parcel.queued).foldlM
      (fun router queued => router.process queued.body queued.origin)
        history.record.router >>=
        fun router => pure { history.director with router, queue := [] })
  rw [List.foldlM_map, ← records, bind_map_left, bind_pure_comp, ← comp_map]
  rfl

theorem map_dispatchOldest (history : History) :
    director <$> history.dispatchOldest = history.director.dispatchOldest := by
  rcases history with ⟨record, waiting, capacity⟩
  cases waiting with
  | nil => rfl
  | cons parcel later =>
      show director <$> (fun record => ⟨record, later, capacity⟩) <$>
          record.process parcel =
        record.router.process parcel.queued.body parcel.queued.origin >>= _
      rw [← Record.map_process, bind_map_left, ← comp_map]
      exact (bind_pure_comp _ _).symm

theorem enqueue_director (history : History) (parcel : Parcel) :
    history.director.enqueue parcel.queued =
      .ok (director <$> history.enqueue parcel) := by
  have concatenated : ∀ history : History, director (concat parcel history) =
      { history.director with queue := history.director.queue ++
        [parcel.queued] } := by
    intro history
    simp [director, concat]
  have sameLength : history.director.queue.length = history.waiting.length :=
    List.length_map Parcel.queued
  rw [Director.enqueue, enqueue, if_neg (by simp [director]), sameLength]
  show (if history.waiting.length < max history.capacity 1 then _ else _) = _
  split
  · rw [map_pure, concatenated]
  · rw [← map_dispatch, bind_map_left, bind_pure_comp, ← comp_map]
    congr 2
    funext after
    exact (concatenated after).symm

theorem enqueueAll_director (history : History) (parcels : List Parcel) :
    history.director.enqueueAll (parcels.map Parcel.queued) =
      (fun after => (director after, .ok ())) <$>
        parcels.foldlM enqueue history := by
  induction parcels generalizing history with
  | nil => rfl
  | cons parcel rest ih =>
      rw [List.map_cons, Director.enqueueAll, enqueue_director,
        List.foldlM_cons, map_bind]
      show director <$> history.enqueue parcel >>= _ = _
      rw [bind_map_left]
      simp only [ih]

theorem queueLeftBehind_director (history : History) (id : ParticipantId)
    (departure : Nat) (groups : List (Channel × List Datagram)) :
    history.director.queueLeftBehind id groups =
      (fun after => (director after, .ok ())) <$>
        history.queueLeftBehind id departure groups := by
  induction groups generalizing history with
  | nil => rfl
  | cons group rest ih =>
      have bodies : group.2.map (fun body => (⟨body, some id⟩ : Queued)) =
          (Record.parcels id departure group).map Parcel.queued := by
        simp [Record.parcels]
      rw [Director.queueLeftBehind, bodies, enqueueAll_director, bind_map_left,
        queueLeftBehind, List.foldlM_cons, bind_assoc, map_bind]
      simp only [bind_assoc, pure_bind, map_bind]
      congr 1
      funext after
      congr 1
      funext done
      exact ih after

theorem map_terminate (history : History) (id : ParticipantId) :
    director <$> history.terminate id =
      Prod.fst <$> history.director.terminate id := by
  rw [terminate, Director.terminate]
  show _ = Prod.fst <$> match history.record.router.detach? id
    with | none => _ | some _ => _
  cases history.record.router.detach? id with
  | none => rfl
  | some detaching =>
      simp only [map_bind]
      congr 1
      funext detached
      have queued := queueLeftBehind_director
        { history with record := history.record.without id detached.1 } id
        history.record.journal.length detached.2.postRemoves.groups
      show _ = Prod.fst <$>
        (director { history with
          record := history.record.without id detached.1 }).queueLeftBehind
          id detached.2.postRemoves.groups
      rw [queued, ← comp_map]
      rfl

theorem map_step (history : History) {event : Event}
    (staysUp : event ≠ .shutDown) :
    director <$> history.step event = history.director.step event := by
  cases event with
  | register participant => rfl
  | call id instruction =>
      have sameRouter : history.director.router = history.record.router := rfl
      rw [step, Record.call, Director.step, Director.call, sameRouter]
      cases history.record.router.obey id instruction with
      | ok done =>
          rw [Record.settle, ← comp_map, ← comp_map]
          exact (bind_pure_comp _ done).symm
      | error refusal => rfl
  | enqueue queued =>
      rw [Director.step, enqueue_director history ⟨queued, .sent⟩]
      rfl
  | dispatch => exact map_dispatch history
  | dispatchOldest => exact map_dispatchOldest history
  | terminate id => exact map_terminate history id
  | shutDown => exact absurd rfl staysUp

/-- Without the notes, the history of a run is the run. -/
theorem map_run (history : History) {events : List Event}
    (staysUp : .shutDown ∉ events) :
    director <$> history.run events = history.director.run events := by
  induction events generalizing history with
  | nil => rfl
  | cons event rest ih =>
      rw [List.mem_cons, not_or] at staysUp
      rw [Director.run_cons, ← map_step history (Ne.symm staysUp.1),
        bind_map_left, run, List.foldlM_cons, map_bind]
      simp only [← ih _ staysUp.2]
      rfl

end History

end ChannelRouter
