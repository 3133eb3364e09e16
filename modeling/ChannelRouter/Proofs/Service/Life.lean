import ChannelRouter.Proofs.Service.Handing
import ChannelRouter.Proofs.Wire.Streaming

/-!
# The life of a connection

Reading, queueing and dispatching take turns: bytes arrive in pieces, frames
wait in a queue with little room, and rounds come when they come.  At any time
what the service has handed on for a newcomer, together with what its director
has yet to dispatch, is what comes of the newcomer's frames so far, one after
the other.  So when its reading has ended, in whatever way, and everything that
is due has happened, the newcomer has lived the life of a participant that sent
its frames and was dismissed.
-/

namespace ChannelRouter

namespace Service

open Director (Attends)

variable {around service : Service} {id : ConnectionId}
  {connection : Connection} {goal : Emitting Director}

/--
Once reading has ended, nothing that comes is taken in, and nothing can end it
again.
-/
theorem Serves.inert
    (serves : service.Serves id connection)
    (hasEnded : connection.stage ≠ .reading) :
    (∀ body, service.receive id body = service) ∧
      (∀ piece, service.receiveBytes id piece = service) ∧
        service.endReading id = service ∧
        ∀ failure, service.failReading id failure = service := by
  have own := serves.own
  have notReading : service.isReading id = false := by
    simp only [isReading, own, hasEnded, decide_false]
  refine ⟨fun body => ?_, fun piece => ?_, ?_, fun failure => ?_⟩
  · simp only [Service.receive, own, hasEnded, if_false]
  · simp only [Service.receiveBytes, own, hasEnded, false_and, if_false]
  · simp only [Service.endReading, own, hasEnded, if_false]
  · rw [Service.failReading, notReading]
    rfl

/-! ## What has been done and what is still to be dispatched -/

/--
What the service has handed on, and what its director has yet to dispatch, make
up what a computation says; and the director will end up with what it computes.
-/
structure Follows (around : Service) (id : ConnectionId)
    (goal : Emitting Director)
    (connection : Connection) (service : Service) : Prop where
  serves : service.Serves id connection
  spared : Spared connection.participant goal.outputs
  handed : ∃ said metrics,
    service.besides id =
      { around.hand said with director := service.director, metrics } ∧
      (⟨service.director, said⟩ : Emitting Director) >>=
        Director.dispatch = goal

namespace Follows

theorem put
    (follows : Follows around id goal connection service) {updated : Connection}
    (same : updated.participant = connection.participant)
    (idle : updated.outlet.waiting = none) :
    Follows around id goal updated (service.put id updated) where
  serves := follows.serves.toCalm.serves_put idle
  spared := same ▸ follows.spared
  handed := by
    rw [follows.serves.toCalm.besides_put]
    exact follows.handed

theorem measure
    (follows : Follows around id goal connection service)
    (step : Metrics → Metrics) :
    Follows around id goal connection (service.measure step) where
  serves := follows.serves.regardless _ _ _
  spared := follows.spared
  handed := by
    rcases follows.handed with ⟨said, metrics, handed, reached⟩
    refine ⟨said, step service.metrics, ?_, reached⟩
    exact congrArg (fun other => { other with metrics := step service.metrics })
      handed

/--
The director goes on, and what comes of it belongs to what is still to be said.
-/
theorem absorb
    (follows : Follows around id goal connection service)
    {emitting : Emitting Director} {next : Director → Emitting Director}
    (proceeds : emitting >>= Director.dispatch =
      service.director.dispatch >>= next)
    (spared : Spared connection.participant (next goal.value).outputs) :
    Follows around id (goal >>= next) connection (service.absorb emitting) ∧
      (service.absorb emitting).director = emitting.value := by
  rcases follows.handed with ⟨said, metrics, handed, reached⟩
  have spares : Spared connection.participant (goal >>= next).outputs :=
    follows.spared.append spared
  have reaches :
      (⟨emitting.value, said ++ emitting.outputs⟩ : Emitting Director) >>=
      Director.dispatch = goal >>= next := by
    calc (⟨emitting.value, said ++ emitting.outputs⟩ : Emitting Director) >>=
        Director.dispatch
        = (⟨service.director, said⟩ : Emitting Director) >>=
            fun _ => emitting >>= Director.dispatch :=
          Emitting.ext rfl (List.append_assoc ..)
      _ = goal >>= next := by
          rw [proceeds, ← reached, bind_assoc]
          rfl
  have sparedNow : Spared connection.participant emitting.outputs := by
    intro output listed
    apply spares output
    rw [← reaches]
    exact List.mem_append_left _ (List.mem_append_right _ listed)
  rcases follows.serves.absorb sparedNow with ⟨taken, serves⟩
  have reachedDirector : (service.absorb emitting).director =
      emitting.value := by
    rw [taken, director_hand]
  -- Without the connection, the service goes on where it has handed on what was
  -- said before.
  have alike : { service with director := emitting.value }.besides id =
      { around.hand said with director := emitting.value, metrics } :=
    congrArg (fun other => { other with director := emitting.value }) handed
  rcases hand_with (around.hand said) emitting.value metrics emitting.outputs
    with ⟨counted, handedAll⟩
  refine ⟨⟨serves, spares, said ++ emitting.outputs, counted, ?_, ?_⟩,
    reachedDirector⟩
  · have apart := ((follows.serves.regardless emitting.value service.metrics
      service.outbox).hand sparedNow).2
    rw [reachedDirector, taken, apart, alike, handedAll, hand_append]
  · rw [reachedDirector]
    exact reaches

/--
Dispatching says some of what is still to be said, and leaves nothing to be
dispatched.
-/
theorem dispatch (follows : Follows around id goal connection service) :
    Follows around id goal connection service.dispatch ∧
      service.dispatch.director.dispatch = pure service.dispatch.director := by
  have proceeds : service.director.dispatch >>= Director.dispatch =
      service.director.dispatch >>= pure :=
    Emitting.bind_congr_value service.director.dispatch_dispatch
  rcases follows.absorb proceeds spared_nil with ⟨after, reached⟩
  rw [bind_pure] at after
  refine ⟨after, ?_⟩
  rw [Service.dispatch, reached]
  exact service.director.dispatch_dispatch

/-- Whether the director runs is settled by what it will end up with. -/
theorem running (follows : Follows around id goal connection service) :
    service.director.running = goal.value.running := by
  rcases follows.handed with ⟨said, _, _, reached⟩
  rw [← reached, Emitting.value_bind, Director.running_dispatch]

theorem endReading
    (follows : Follows around id goal connection service)
    (reading : connection.stage = .reading) :
    Follows around id goal { connection with stage := .leaving }
      (service.endReading id) := by
  have ended : service.endReading id =
      service.put id { connection with stage := .leaving } := by
    simp only [Service.endReading, follows.serves.own, reading, if_true]
  rw [ended]
  exact follows.put rfl follows.serves.idle

theorem receive_of_running
    (follows : Follows around id goal connection service)
    (reading : connection.stage = .reading)
    (running : service.director.running = true) {body : Datagram}
    (spared : Spared connection.participant
      (goal.value.process ⟨body, some connection.participant⟩).outputs) :
    Follows around id
      (goal >>= (Director.process · ⟨body, some connection.participant⟩))
      connection (service.receive id body) := by
  have received : service.receive id body =
      (service.measure (·.carried .inbound body)).absorb
        (service.director.step
          (.enqueue ⟨body, some connection.participant⟩)) := by
    simp only [Service.receive, Service.enqueue, Service.measure,
      follows.serves.own, reading, if_true, Director.enqueue_of_running running]
    rfl
  rw [received]
  exact ((follows.measure _).absorb
    (service.director.enqueue_and_process _) spared).1

/--
A director that has shut down refuses what is received, and that ends the
reading.
-/
theorem receive_of_stopped
    (follows : Follows around id goal connection service)
    (reading : connection.stage = .reading)
    (stopped : service.director.running = false) (body : Datagram) :
    Follows around id goal { connection with stage := .leaving }
      (service.receive id body) := by
  have received : service.receive id body =
      (service.measure (·.carried .inbound body)).endReading id := by
    simp only [Service.receive, Service.enqueue, Service.measure,
      follows.serves.own, reading, if_true, Director.enqueue_of_stopped stopped]
    rfl
  rw [received]
  exact (follows.measure _).endReading reading

/-- All frames that are complete are received one after the other. -/
theorem receiveAll
    {welcomed : Director} (attends : welcomed.Attends connection.participant)
    {heard bodies : List Datagram}
    (follows : Follows around id (welcomed.hear connection.participant heard)
      connection service)
    (reading : connection.stage = .reading)
    (taken : welcomed.running = true ∨ bodies = [])
    (grammatical : ∀ body ∈ heard ++ bodies, body.Grammatical) :
    Follows around id (welcomed.hear connection.participant (heard ++ bodies))
      connection (bodies.foldl (·.receive id) service) := by
  induction bodies generalizing heard service with
  | nil =>
      rw [List.append_nil]
      exact follows
  | cons body rest ih =>
      have earlier := attends.hear fun other listed =>
        grammatical other (List.mem_append_left (body :: rest) listed)
      have isGrammatical :=
        grammatical body (List.mem_append_right heard List.mem_cons_self)
      have running := taken.resolve_right (List.cons_ne_nil body rest)
      have stillRunning : service.director.running = true := by
        rw [follows.running, Director.running_hear, running]
      have first := follows.receive_of_running reading stillRunning
        (earlier.1.process isGrammatical).2
      rw [← Director.hear_concat] at first
      rw [List.append_cons] at grammatical ⊢
      exact ih first (Or.inl running) grammatical

/-- If the director has shut down, no frame is received after the first. -/
theorem receiveAll_of_stopped
    (follows : Follows around id goal connection service)
    (reading : connection.stage = .reading)
    (stopped : service.director.running = false)
    {bodies : List Datagram} (something : bodies ≠ []) :
    Follows around id goal { connection with stage := .leaving }
      (bodies.foldl (·.receive id) service) := by
  cases bodies with
  | nil => exact absurd rfl something
  | cons body rest =>
      have ended := follows.receive_of_stopped reading stopped body
      have unmoved : rest.foldl (·.receive id) (service.receive id body) =
          service.receive id body :=
        List.foldl_fixed' (ended.serves.inert nofun).1 rest
      rw [List.foldl_cons, unmoved]
      exact ended

/--
Whoever has left is terminated, and what that queued is still to be dispatched.
-/
theorem retire
    (follows : Follows around id goal connection service)
    (settled : service.director.dispatch = pure service.director)
    (spared : Spared connection.participant
      (goal.value.dismiss connection.participant).outputs) :
    Follows around id (goal >>= (Director.dismiss · connection.participant))
      { connection with stage := .done, outlet := connection.outlet.finish }
      (service.retire id) := by
  have proceeds : service.director.step (.terminate connection.participant) >>=
      Director.dispatch =
        service.director.dispatch >>=
          (Director.dismiss · connection.participant) := by
    rw [settled, pure_bind, Director.dismiss]
  have after := (follows.absorb proceeds spared).1
  have retired : service.retire id =
      ((service.absorb
        (service.director.step (.terminate connection.participant))).put id
        { connection with stage := .done, outlet :=
          connection.outlet.finish }).measure Metrics.ended := by
    have stillThere := after.serves.own
    rw [Director.step] at stillThere ⊢
    simp only [Service.retire, follows.serves.own, stillThere]
  rw [retired]
  refine (after.put ?_ ?_).measure _
  · rfl
  · exact (Outlet.waiting_finish _).trans after.serves.idle

theorem failReading
    (follows : Follows around id goal connection service)
    (reading : connection.stage = .reading) (failure : StreamError) :
    Follows around id goal { connection with stage := .leaving }
      (service.failReading id failure) := by
  have isReading : service.isReading id = true := by
    simp only [Service.isReading, follows.serves.own, reading, decide_true]
  rw [Service.failReading, if_pos isReading]
  split
  · exact follows.endReading reading
  · exact (follows.measure _).endReading reading

end Follows

/-! ## Who leaves -/

theorem Serves.leaving_eq_nil
    (serves : service.Serves id connection)
    (stays : connection.stage ≠ .leaving) :
    service.leaving = [] := by
  apply List.map_eq_nil_iff.mpr
  apply List.filter_eq_nil_iff.mpr
  rintro ⟨other, reached⟩ listed
  have present := (serves.ordered.mem_entries_iff other reached).mp listed
  by_cases same : other = id
  · rw [same, serves.own] at present
    cases present
    simpa using stays
  · simpa using (serves.others other reached same present).1

theorem Serves.leaving_eq_singleton
    (serves : service.Serves id connection)
    (leaves : connection.stage = .leaving) :
    service.leaving = [id] := by
  have only : service.connections.entries.filter (·.2.stage = .leaving) =
      [(id, connection)] := by
    apply List.perm_singleton.mp
    apply (List.perm_ext_iff_of_nodup (serves.ordered.nodup_entries.filter _)
      (List.nodup_singleton _)).mpr
    rintro ⟨other, reached⟩
    rw [List.mem_filter, List.mem_singleton, serves.ordered.mem_entries_iff]
    constructor
    · rintro ⟨present, isLeaving⟩
      by_cases same : other = id
      · rw [same, serves.own] at present
        cases present
        rw [same]
      · exact absurd (of_decide_eq_true isLeaving)
          (serves.others other reached same present).1
    · rintro ⟨⟩
      exact ⟨serves.own, decide_eq_true leaves⟩
  rw [leaving, only]
  rfl

/-! ## The stages of a connection -/

/--
Reading goes on as long as nothing is refused: neither by the stream, nor by a
director that has shut down.
-/
structure GoesOn (welcomed : Director) (drained : Frame.Drained) : Prop where
  unrefused : drained.refusal = none
  taken : welcomed.running = true ∨ drained.bodies = []

/-- What a participant has brought about at a stage of its connection. -/
def broughtAbout (welcomed : Director) (newcomer : ParticipantId)
    (bodies : List Datagram) : ConnectionStage → Emitting Director
  | .reading | .leaving => welcomed.hear newcomer bodies
  | .done => welcomed.hear newcomer bodies >>= (Director.dismiss · newcomer)

/--
Nothing that is sent to a director that has shut down brings anything about.
-/
theorem broughtAbout_of_stopped
    {welcomed : Director} (stopped : welcomed.running = false)
    (newcomer : ParticipantId)
    (bodies others : List Datagram) (stage : ConnectionStage) :
    broughtAbout welcomed newcomer bodies stage =
      broughtAbout welcomed newcomer others stage := by
  cases stage with
  | _ => simp only [broughtAbout, Director.hear_of_stopped stopped]

/--
How a service stands to the connection of a newcomer, which it began to serve
when it was as given and whose stream was drained as given.
-/
structure Stands (opened : Service) (id : ConnectionId)
    (newcomer : ParticipantId)
    (drained : Frame.Drained) (connection : Connection) (service : Service) :
    Prop where
  participant : connection.participant = newcomer
  follows : Follows (opened.besides id)
    id (broughtAbout opened.director newcomer drained.bodies connection.stage)
      connection service
  reader : connection.stage = .reading →
    connection.reader = ⟨drained.rest, opened.settings.maxDatagram⟩

namespace Stands

variable {opened : Service} {newcomer : ParticipantId} {drained : Frame.Drained}

theorem round_of_staying
    (stands : Stands opened id newcomer drained connection service)
    (stays : connection.stage ≠ .leaving) :
    Stands opened id newcomer drained connection service.round ∧
      service.round.director.dispatch = pure service.round.director := by
  rw [round, stands.follows.serves.leaving_eq_nil stays, List.foldl_nil]
  rcases stands.follows.dispatch with ⟨dispatched, settled⟩
  exact ⟨⟨stands.participant, dispatched, stands.reader⟩, settled⟩

theorem round_of_leaving
    (stands : Stands opened id newcomer drained connection service)
    (leaves : connection.stage = .leaving)
    (goes : (opened.director.hear newcomer drained.bodies).value.Goes
      newcomer) :
    Stands opened id newcomer drained
      { connection with stage := .done, outlet := connection.outlet.finish }
        service.round := by
  rcases stands with ⟨rfl, follows, reader⟩
  rw [leaves] at follows
  rcases follows.dispatch with ⟨dispatched, settled⟩
  rw [round, follows.serves.leaving_eq_singleton leaves,
    List.foldl_cons, List.foldl_nil]
  exact ⟨rfl, dispatched.retire settled goes.spared, nofun⟩

/-- Rounds neither end the reading of a connection nor begin it. -/
theorem rounds
    (stands : Stands opened id newcomer drained connection service)
    (goes : (opened.director.hear newcomer drained.bodies).value.Goes newcomer)
    (count : Nat) :
    ∃ updated, Stands opened id newcomer drained updated
      (service.rounds count) ∧
      (updated.stage = .reading ↔ connection.stage = .reading) := by
  induction count generalizing service connection with
  | zero => exact ⟨connection, stands, Iff.rfl⟩
  | succ count ih =>
      rw [Service.rounds]
      by_cases leaves : connection.stage = .leaving
      · rcases ih (stands.round_of_leaving leaves goes)
          with ⟨updated, stillStands, same⟩
        refine ⟨updated, stillStands, same.trans ?_⟩
        rw [leaves]
        exact iff_of_false nofun nofun
      · exact ih (stands.round_of_staying leaves).1

/-- Once the participant is gone, more rounds only keep what is settled. -/
theorem rounds_of_done
    (stands : Stands opened id newcomer drained connection service)
    (isDone : connection.stage = .done)
    (settled : service.director.dispatch = pure service.director)
    (count : Nat) :
    Stands opened id newcomer drained connection (service.rounds count) ∧
      (service.rounds count).director.dispatch =
        pure (service.rounds count).director := by
  induction count generalizing service with
  | zero => exact ⟨stands, settled⟩
  | succ count ih =>
      rcases stands.round_of_staying (by rw [isDone]; exact nofun)
        with ⟨next, stillSettled⟩
      exact ih next stillSettled

/-- Once reading has ended, everything that is due lets the participant go. -/
theorem settle
    (stands : Stands opened id newcomer drained connection service)
    (goes : (opened.director.hear newcomer drained.bodies).value.Goes newcomer)
    (hasEnded : connection.stage ≠ .reading) :
    ∃ updated, Stands opened id newcomer drained updated service.settle ∧
      updated.stage = .done ∧ service.settle.director.dispatch =
        pure service.settle.director := by
  -- After one round the participant is gone, and after two nothing waits any
  -- more.
  have gone :
      ∃ updated, Stands opened id newcomer drained updated service.round ∧
      updated.stage = .done := by
    cases stage : connection.stage with
    | reading => exact absurd stage hasEnded
    | leaving => exact ⟨_, stands.round_of_leaving stage goes, rfl⟩
    | done =>
        exact ⟨connection,
          (stands.round_of_staying (by rw [stage]; exact nofun)).1, stage⟩
  rcases gone with ⟨updated, first, isDone⟩
  rcases first.round_of_staying (by rw [isDone]; exact nofun)
    with ⟨second, settled⟩
  rcases second.rounds_of_done isDone settled service.connections.size
    with ⟨last, isSettled⟩
  exact ⟨updated, last, isDone, isSettled⟩

theorem failReading
    (stands : Stands opened id newcomer drained connection service)
    (reading : connection.stage = .reading) (failure : StreamError) :
    Stands opened id newcomer drained { connection with stage := .leaving }
      (service.failReading id failure) := by
  have follows := stands.follows
  rw [reading] at follows
  exact ⟨stands.participant, follows.failReading reading failure, nofun⟩

theorem endReading
    (stands : Stands opened id newcomer drained connection service)
    (reading : connection.stage = .reading) :
    Stands opened id newcomer drained { connection with stage := .leaving }
      (service.endReading id) := by
  have follows := stands.follows
  rw [reading] at follows
  exact ⟨stands.participant, follows.endReading reading, nofun⟩

/--
What has been drained makes no difference to a director that has shut down.
-/
theorem of_stopped
    (stands : Stands opened id newcomer drained connection service)
    (stopped : opened.director.running = false)
    (hasEnded : connection.stage ≠ .reading)
    (other : Frame.Drained) :
    Stands opened id newcomer other connection service where
  participant := stands.participant
  follows := by
    rw [broughtAbout_of_stopped stopped newcomer other.bodies drained.bodies]
    exact stands.follows
  reader := fun reading => absurd reading hasEnded

/-- More bytes are drained after what was left. -/
theorem receiveBytes
    (stands : Stands opened id newcomer drained connection service)
    (attends : opened.director.Attends newcomer)
    (reading : connection.stage = .reading)
    (goesOn : GoesOn opened.director drained)
    {piece : List UInt8} (something : piece ≠ [])
    (grammatical :
      ∀ body ∈ (drained.feed opened.settings.maxDatagram piece).bodies,
      body.Grammatical) :
    ∃ updated, Stands opened id newcomer
        (drained.feed opened.settings.maxDatagram piece) updated
        (service.receiveBytes id piece) ∧
      (updated.stage = .reading ↔
        GoesOn opened.director
          (drained.feed opened.settings.maxDatagram piece)) := by
  rcases stands with ⟨rfl, follows, reader⟩
  rw [reading] at follows
  obtain ⟨later, isLater⟩ : ∃ later,
      Frame.drain opened.settings.maxDatagram (drained.rest ++ piece) =
        later := ⟨_, rfl⟩
  obtain ⟨taken, isTaken⟩ : ∃ taken : Connection,
      { connection with
        reader := ⟨later.rest, opened.settings.maxDatagram⟩
        deadline := service.readDeadline } = taken := ⟨_, rfl⟩
  have readingTaken : taken.stage = .reading := isTaken ▸ reading
  have sameParticipant : taken.participant = connection.participant := by
    rw [← isTaken]
  rw [Frame.Drained.feed, isLater] at grammatical ⊢
  -- What is left is put aside, and what was drained is received.
  have putTaken : Follows (opened.besides id) id
      (opened.director.hear taken.participant drained.bodies) taken
        (service.put id taken) := by
    rw [sameParticipant]
    exact follows.put sameParticipant (isTaken ▸ follows.serves.idle)
  obtain ⟨received, isReceived⟩ : ∃ received,
      later.bodies.foldl (·.receive id) (service.put id taken) =
        received := ⟨_, rfl⟩
  have reads :
      (later.refusal = none → service.receiveBytes id piece = received) ∧
      ∀ cause, later.refusal = some cause →
        service.receiveBytes id piece =
          received.failReading id (.malformed cause) := by
    constructor
    · intro refusal
      simp only [Service.receiveBytes, follows.serves.own,
        if_pos (And.intro reading something), reader reading, isLater, isTaken,
        isReceived, refusal]
    · intro cause refusal
      simp only [Service.receiveBytes, follows.serves.own,
        if_pos (And.intro reading something), reader reading, isLater, isTaken,
        isReceived, refusal]
  have hasLeft : ConnectionStage.leaving ≠ .reading := by decide
  by_cases takes : opened.director.running = true ∨ later.bodies = []
  · have heard := putTaken.receiveAll (sameParticipant ▸ attends) readingTaken
      takes grammatical
    rw [isReceived] at heard
    cases refusal : later.refusal with
    | none =>
        rw [reads.1 refusal]
        refine ⟨taken, ⟨sameParticipant, ?_, fun _ => ?_⟩,
          iff_of_true readingTaken ⟨rfl, ?_⟩⟩
        · rw [readingTaken, ← sameParticipant]
          exact heard
        · rw [← isTaken]
        · rcases goesOn.taken with running | unheard
          · exact Or.inl running
          · exact takes.imp_right fun nothing => by
              rw [unheard, nothing, List.append_nil]
    | some cause =>
        rw [reads.2 cause refusal]
        refine ⟨{ taken with stage := .leaving },
          ⟨sameParticipant, ?_, (absurd · hasLeft)⟩,
          iff_of_false hasLeft fun other =>
            Option.some_ne_none cause other.unrefused⟩
        rw [← sameParticipant]
        exact heard.failReading readingTaken (.malformed cause)
  · -- The director has shut down, and the first datagram that it refuses ends
    -- the reading.
    rw [not_or, Bool.not_eq_true] at takes
    have stopped : (service.put id taken).director.running = false := by
      rw [putTaken.running, Director.running_hear, takes.1]
    have refused := putTaken.receiveAll_of_stopped readingTaken stopped takes.2
    rw [isReceived] at refused
    have unmoved : service.receiveBytes id piece = received := by
      cases refusal : later.refusal with
      | none => exact reads.1 refusal
      | some cause =>
          rw [reads.2 cause refusal]
          exact (refused.serves.inert hasLeft).2.2.2 _
    rw [unmoved]
    refine ⟨{ taken with stage := .leaving },
      ⟨sameParticipant, ?_, (absurd · hasLeft)⟩,
      iff_of_false hasLeft fun other => ?_⟩
    · rw [← sameParticipant, broughtAbout_of_stopped takes.1 _ _ drained.bodies]
      exact refused
    · rcases other.taken with running | nothing
      · rw [takes.1] at running
        cases running
      · exact takes.2 (List.append_eq_nil_iff.mp nothing).2

end Stands

/-! ## A whole life -/

/-- What may happen while a connection is read. -/
inductive Moment where
  /-- The next bytes of the stream arrive. -/
  | arrives (piece : List UInt8)
  /-- So many rounds take place. -/
  | rounds (count : Nat)

/-- The bytes that arrive at a moment. -/
def Moment.bytes : Moment → List UInt8
  | arrives piece => piece
  | rounds _ => []

/-- What becomes of a service at a moment in the life of a connection. -/
def pass (id : ConnectionId) (service : Service) : Moment → Service
  | .arrives piece => service.receiveBytes id piece
  | .rounds count => service.rounds count

/-- The stream that has arrived. -/
def stream (moments : List Moment) : List UInt8 :=
  moments.flatMap Moment.bytes

/--
The reading of a connection ends: the peer hangs up, inside a frame or between
two, or reading fails, or it has ended already, because something was refused.
-/
inductive Ends (id : ConnectionId) (service : Service) : Service → Prop
  | hungUp : Ends id service (service.hangUp id)
  | failed (failure : StreamError) :
      Ends id service (service.failReading id failure)
  | refused : service.isReading id = false → Ends id service service

/--
To hang up inside a frame is a failure, and otherwise it is an ordinary end.
-/
theorem hangUp_eq (service : Service) (id : ConnectionId) :
    service.hangUp id = service.endReading id ∨
      ∃ failure, service.hangUp id = service.failReading id failure := by
  rw [hangUp]
  cases present : service.connections.get? id with
  | none => exact Or.inl (by rw [endReading, present])
  | some connection =>
      simp only
      cases connection.reader.outcome .closed with
      | ok answer => exact Or.inl rfl
      | error failure => exact Or.inr ⟨failure, rfl⟩

namespace Stands

variable {opened : Service} {newcomer : ParticipantId} {drained : Frame.Drained}

/-- Whoever connects is welcomed, and nothing has been read from it. -/
theorem connect
    (calm : service.Calm id) {outlet : Outlet} (idle : outlet.waiting = none)
    (nothing : service.director.queue = []) :
    ∃ connection, Stands (service.connect id outlet) id
        service.director.nextId ⟨[], [], none⟩
        connection (service.connect id outlet) ∧
          connection.stage = .reading := by
  let newcomer : Connection :=
    { participant := service.director.nextId
      stage := .reading
      reader := .start service.settings.maxDatagram
      outlet
      deadline := service.readDeadline }
  let welcoming :=
    { service with director := service.director.welcome }.measure Metrics.opened
  have alsoCalm : welcoming.Calm id := { calm with }
  refine ⟨newcomer, ⟨rfl,
    ⟨alsoCalm.serves_put idle, spared_nil, [], welcoming.metrics, rfl, ?_⟩,
    fun _ => rfl⟩, rfl⟩
  have settled := (Director.attends_welcome nothing).settled
  exact settled

/--
Whether reading goes on or has ended, what arrives is drained after what was
left.
-/
theorem arrives
    (stands : Stands opened id newcomer drained connection service)
    (attends : opened.director.Attends newcomer) {arrived : List UInt8}
    (drains : Frame.Drains opened.settings.maxDatagram arrived drained)
    (reading_iff : connection.stage = .reading ↔ GoesOn opened.director drained)
    (piece : List UInt8)
    (grammatical :
      ∀ body ∈ (drained.feed opened.settings.maxDatagram piece).bodies,
      body.Grammatical) :
    ∃ updated, Stands opened id newcomer
        (drained.feed opened.settings.maxDatagram piece) updated
        (service.receiveBytes id piece) ∧
      (updated.stage = .reading ↔
        GoesOn opened.director
          (drained.feed opened.settings.maxDatagram piece)) := by
  by_cases reading : connection.stage = .reading
  · by_cases something : piece = []
    · -- Bytes that are none are no news.
      have same : drained.feed opened.settings.maxDatagram [] = drained := by
        have fed := drains.feed []
        rw [List.append_nil] at fed
        exact fed.eq_of_drains drains
      have unread : service.receiveBytes id [] = service := by
        simp only [Service.receiveBytes, stands.follows.serves.own, ne_eq,
          not_true_eq_false, and_false, if_false]
      rw [something, same, unread]
      exact ⟨connection, stands, reading_iff⟩
    · exact stands.receiveBytes attends reading (reading_iff.mp reading)
        something grammatical
  · rw [(stands.follows.serves.inert reading).2.1 piece]
    cases refusal : drained.refusal with
    | some cause =>
        rw [drains.feed_of_refused refusal]
        refine ⟨connection,
          ⟨stands.participant, stands.follows, (absurd · reading)⟩,
          iff_of_false reading fun other => Option.some_ne_none cause ?_⟩
        exact refusal.symm.trans other.unrefused
    | none =>
        -- What ended the reading is a director that has shut down.
        have untaken :
            ¬ (opened.director.running = true ∨ drained.bodies = []) :=
          fun taken => reading (reading_iff.mpr ⟨refusal, taken⟩)
        rw [not_or, Bool.not_eq_true] at untaken
        refine ⟨connection, stands.of_stopped untaken.1 reading _,
          iff_of_false reading ?_⟩
        rintro ⟨_, running | nothing⟩
        · rw [untaken.1] at running
          cases running
        · exact untaken.2 (List.append_eq_nil_iff.mp nothing).1

/--
What has been received before reading ends is what the stream is drained of.
-/
theorem stands_at_moments
    (begun : ∃ connection,
      Stands opened id newcomer ⟨[], [], none⟩ connection opened ∧
      connection.stage = .reading)
    (attends : opened.director.Attends newcomer)
    (goes : ∀ bodies : List Datagram, (∀ body ∈ bodies, body.Grammatical) →
      (opened.director.hear newcomer bodies).value.Goes newcomer)
    (moments : List Moment)
    (grammatical :
      ∀ body ∈
        (Frame.drain opened.settings.maxDatagram (stream moments)).bodies,
      body.Grammatical) :
    ∃ connection, Stands opened id newcomer
        (Frame.drain opened.settings.maxDatagram (stream moments)) connection
        (moments.foldl (pass id) opened) ∧
      (connection.stage = .reading ↔ GoesOn opened.director
        (Frame.drain opened.settings.maxDatagram (stream moments))) := by
  induction moments using List.reverseRecOn with
  | nil =>
      rcases begun with ⟨connection, stands, reading⟩
      rw [show stream [] = [] from rfl, (Frame.Drains.starved rfl).eq_drain]
      exact ⟨connection, stands, iff_of_true reading ⟨rfl, Or.inr rfl⟩⟩
  | append_singleton earlier moment ih =>
      have drains :=
        Frame.drains_drain opened.settings.maxDatagram (stream earlier)
      rw [List.foldl_concat]
      rw [show stream (earlier ++ [moment]) = stream earlier ++ moment.bytes by
        rw [stream, List.flatMap_append, List.flatMap_singleton, stream]]
          at grammatical ⊢
      cases moment with
      | rounds count =>
          rw [Moment.bytes, List.append_nil] at grammatical ⊢
          rcases ih grammatical with ⟨connection, stands, reading_iff⟩
          rcases stands.rounds (goes _ grammatical) count
            with ⟨updated, stillStands, same⟩
          exact ⟨updated, stillStands, same.trans reading_iff⟩
      | arrives piece =>
          rw [Moment.bytes, (drains.feed piece).eq_drain] at grammatical ⊢
          rcases ih fun body listed =>
            grammatical body (List.mem_append_left _ listed)
            with ⟨connection, stands, reading_iff⟩
          exact stands.arrives attends drains reading_iff piece grammatical

theorem ends
    (stands : Stands opened id newcomer drained connection service)
    {ended : Service} (ends : Ends id service ended) :
    ∃ updated, Stands opened id newcomer drained updated ended ∧
      updated.stage ≠ .reading := by
  by_cases reading : connection.stage = .reading
  · cases ends with
    | failed failure => exact ⟨_, stands.failReading reading failure, nofun⟩
    | refused notReading =>
        simp [isReading, stands.follows.serves.own, reading] at notReading
    | hungUp =>
        rcases service.hangUp_eq id with same | ⟨failure, same⟩
        · rw [same]
          exact ⟨_, stands.endReading reading, nofun⟩
        · rw [same]
          exact ⟨_, stands.failReading reading failure, nofun⟩
  · rcases stands.follows.serves.inert reading
      with ⟨_, _, sameEnding, sameFailing⟩
    have unchanged : ended = service := by
      cases ends with
      | failed failure => exact sameFailing failure
      | refused _ => rfl
      | hungUp =>
          rcases service.hangUp_eq id with same | ⟨failure, same⟩
          · rw [same, sameEnding]
          · rw [same, sameFailing failure]
    exact ⟨connection, unchanged ▸ stands, reading⟩

/--
Once nothing is to be dispatched, all of what the participant brought about has
been said.
-/
theorem complete
    {newConnection : Connection} (opens : opened.Serves id newConnection)
    (newcomes : newConnection.participant = newcomer)
    (stands : Stands opened id newcomer drained connection service)
    (isDone : connection.stage = .done)
    (settled : service.director.dispatch = pure service.director) :
    let lived := opened.director.hear newcomer drained.bodies >>=
      (Director.dismiss · newcomer)
    service.director = lived.value ∧
      (∃ said metrics, service.besides id =
          { (opened.besides id).hand said with
            director := service.director, metrics } ∧
        lived = ⟨service.director, said⟩) ∧
      ∃ metrics, service.besides id =
        { (opened.absorb lived).besides id with metrics } := by
  intro lived
  have follows : Follows (opened.besides id) id lived connection service := by
    have follows := stands.follows
    rw [isDone] at follows
    exact follows
  rcases follows.handed with ⟨said, metrics, handed, reached⟩
  have isLived : lived = ⟨service.director, said⟩ := by
    rw [← reached]
    apply Emitting.ext
    · rw [Emitting.value_bind, settled]
      rfl
    · rw [Emitting.outputs_bind, settled]
      exact List.append_nil said
  refine ⟨by rw [isLived], ⟨said, metrics, handed, isLived⟩, metrics, ?_⟩
  have spared : Spared newConnection.participant lived.outputs := by
    rw [newcomes, ← stands.participant]
    exact follows.spared
  have apart :=
    ((opens.regardless lived.value opened.metrics opened.outbox).hand spared).2
  rcases hand_with (opened.besides id) lived.value opened.metrics lived.outputs
    with ⟨counted, handedAll⟩
  have expected : (opened.absorb lived).besides id =
      { (opened.besides id).hand lived.outputs with
        director := lived.value, metrics := counted } := by
    rw [(opens.absorb spared).1]
    exact apart.trans handedAll
  rw [expected, handed, isLived]

end Stands

/--
What remains of a newcomer's connection when its life is over: its datagrams
have been processed in their order, each while the newcomer was there, and then
the newcomer was dismissed.  The director, the other connections and what has
become visible are as if that had been done at once.
-/
structure LifeOver (opened : Service) (id : ConnectionId)
    (newcomer : ParticipantId)
    (bodies : List Datagram) (lived : Emitting Director) (served : Service) :
    Prop where
  director : served.director = lived.value
  /--
  What the director has said since then, to whomever, is what it says in that
  life.
  -/
  said : ∃ said metrics, served.besides id =
      { (opened.besides id).hand said with
        director := served.director, metrics } ∧
    lived = ⟨served.director, said⟩
  outbox : served.outbox = (opened.absorb lived).outbox
  others : ∀ other, other ≠ id →
    served.connections.get? other = (opened.absorb lived).connections.get? other
  own : ∃ connection, served.connections.get? id = some connection ∧
    connection.participant = newcomer ∧ connection.stage = .done
  /-- Each of its datagrams is processed while it is registered. -/
  present : ∀ earlier body later, bodies = earlier ++ body :: later →
    (opened.director.hear newcomer earlier).value.router.isRegistered newcomer =
      true
  /-- All that it left behind can be queued. -/
  queued :
    ((opened.director.hear newcomer bodies).value.terminate newcomer).value.2 =
      .ok ()
  gone : served.director.router.isRegistered newcomer = false
  spared : Spared newcomer lived.outputs
  /-- What it files with its last datagram is routed once it is gone. -/
  routed : opened.director.running = true → ∀ earlier last channel left,
    bodies = earlier ++ [last] →
    Request.of last = .instruct (.addPostRemove channel left) →
      (Router.handleLeftBehind newcomer served.director.router left).outputs ⊆
        lived.outputs

/--
Whatever the bytes that a newcomer sends, in whatever pieces and with whatever
rounds in between, if its frames are in the grammar and nothing else goes on:
however reading ends, once everything that is due has happened its life has been
that of a participant whose datagrams are processed one after the other, and who
is then dismissed.
-/
theorem connection_lives_as_its_frames_in_order
    (calm : service.Calm id) (nothing : service.director.queue = [])
    {outlet : Outlet} (idle : outlet.waiting = none)
    {moments : List Moment} {drained : Frame.Drained}
    (drains : Frame.Drains service.settings.maxDatagram
      (stream moments) drained)
    (grammatical : ∀ body ∈ drained.bodies, body.Grammatical)
    {ended : Service}
    (ends :
      Ends id (moments.foldl (pass id) (service.connect id outlet)) ended) :
    LifeOver (service.connect id outlet) id
      service.director.nextId drained.bodies
      (service.director.life drained.bodies) ended.settle := by
  let opened := service.connect id outlet
  have attends : opened.director.Attends service.director.nextId :=
    Director.attends_welcome nothing
  have goes : ∀ bodies : List Datagram, (∀ body ∈ bodies, body.Grammatical) →
      (opened.director.hear service.director.nextId bodies).value.Goes
        service.director.nextId :=
    fun _ => Director.goes_heard nothing
  have begun := Stands.connect calm idle nothing
  rw [← drains.eq_drain] at grammatical
  rcases Stands.stands_at_moments begun attends goes moments grammatical
    with ⟨_, atEnd, _⟩
  rw [show Frame.drain opened.settings.maxDatagram (stream moments) =
    drained from drains.eq_drain] at atEnd
  rw [drains.eq_drain] at grammatical
  rcases atEnd.ends ends with ⟨_, leaves, hasEnded⟩
  rcases leaves.settle (goes _ grammatical) hasEnded
    with ⟨connection, stands, isDone, settled⟩
  rcases begun with ⟨newConnection, opens, _⟩
  rcases stands.complete opens.follows.serves opens.participant isDone settled
    with ⟨director, said, metrics, besides⟩
  refine ⟨director, said, ?_, ?_,
    ⟨connection, stands.follows.serves.own, stands.participant, isDone⟩, ?_,
    (goes _ grammatical).queued, ?_,
    Director.spared_life nothing grammatical, ?_⟩
  · have outbox := congrArg Service.outbox besides
    exact outbox
  · intro other different
    have looked :=
      congrArg (fun service => service.connections.get? other) besides
    simp only [Service.besides, Table.get?_erase, if_neg different] at looked
    exact looked
  · intro earlier body later split
    exact (attends.hear fun other listed =>
      grammatical other (split ▸ List.mem_append_left _ listed)).1.registered
  · rw [director]
    exact Director.isRegistered_dismiss _ _
  · intro running earlier last channel left isLast files
    rw [director]
    rw [isLast] at grammatical ⊢
    exact Director.routes_last_filed nothing running grammatical files

/--
Two frames, the second to be routed later, and a third cut short, with room for
one.
-/
theorem connection_lives_as_its_frames_in_order_up_to_a_cut_frame :
    let settings : ServiceSettings := ⟨1000, none, 100⟩
    let listening :=
      (start settings (.start 1 (some .new)) (.start false)).connect 0 .start
    let service := { listening with
      director := (listening.director.step (.call 1 (.addChannel 7))).value }
    let news := (Field.header [7] 100 1).encode
    let filing := Instruction.addPostRemove 7 news
    let bodies : List Datagram := [news, filing.encode]
    let bytes := bodies.flatMap Frame.ofBody ++ [9]
    let moments : List Moment :=
      [.arrives (bytes.take 3), .rounds 1, .arrives (bytes.drop 3)]
    let opened := service.connect 5 .start
    let served := ((moments.foldl (pass 5) opened).hangUp 5).settle
    (service.Calm 5 ∧ service.director.queue = []) ∧
      Frame.Drains service.settings.maxDatagram (stream moments)
        ⟨bodies, [9], none⟩ ∧
      (∀ body ∈ bodies, Datagram.Grammatical body) ∧
      LifeOver opened 5 2 bodies (service.director.life bodies) served ∧
      served.outbox.reverse =
        [.arrived 0 (news.drop 9), .toParent news, .toParent filing.encode,
        .toParent (Instruction.clearPostRemoves 7).encode,
          .arrived 0 (news.drop 9),
        .toParent news] := by
  intro settings listening service news filing bodies bytes
    moments opened served
  have calm : service.Calm 5 := by
    have before :
        (start settings (.start 1 (some .new)) (.start false)).Calm 5 :=
      calm_start (by decide) _ _ 5
    have welcoming :
        ({ start settings (.start 1 (some .new)) (.start false) with
        director := (Director.start 1 (some .new)).welcome }.measure
          Metrics.opened).Calm 5 :=
      { before with }
    have connected : listening.Calm 5 :=
      welcoming.put_other ⟨nofun, nofun, Outlet.inTime_of_idle rfl _⟩
    exact { connected with }
  have nothing : service.director.queue = [] := by decide
  have grammatical : ∀ body ∈ bodies, Datagram.Grammatical body := by decide
  have drains : Frame.Drains service.settings.maxDatagram (stream moments)
      ⟨bodies, [9], none⟩ := by
    have allowed : ∀ body ∈ bodies, body.length ≤
        min 100 maxDatagramSize := by decide
    have isStream : stream moments =
        bodies.flatMap Frame.ofBody ++ [9] := by decide
    rw [isStream]
    exact (Frame.drains_flatMap_ofBody allowed).append (.starved rfl)
  have idle : Outlet.start.waiting = none := rfl
  have lived := connection_lives_as_its_frames_in_order calm nothing idle drains
    grammatical .hungUp
  refine ⟨⟨calm, nothing⟩, drains, grammatical, lived, ?_⟩
  rw [lived.outbox]
  decide

end Service

end ChannelRouter
