import ChannelRouter.Router.Dispatch

/-!
# The message director

The director puts a bounded queue in front of the router.  Whoever sends waits
while the queue is full, and since nothing else takes datagrams out of it, a
full queue is dispatched before one more is accepted.  Datagrams are dispatched
in the order in which they were queued.

A participant leaves in two ways.  Expelled from inside the dispatching, it has
what it left behind routed at once.  Terminated from outside, it has that queued
like anything else it sent.

A director that has shut down still takes subscription calls, but accepts no
datagram.
-/

namespace ChannelRouter

/-- A datagram waiting to be dispatched, and who sent it. -/
structure Queued where
  body : Datagram
  /-- The participant it came from; nothing for a datagram from the parent. -/
  origin : Option ParticipantId
deriving DecidableEq, Repr

/-- The router behind its queue. -/
structure Director where
  router : Router
  /-- The datagrams that wait, the oldest first. -/
  queue : List Queued
  /-- The capacity that was asked for. -/
  capacity : Nat
  nextId : ParticipantId
  running : Bool
deriving DecidableEq, Repr

/-- What a director has to say about itself. -/
structure DirectorStats where
  participants : Nat
  channels : Nat
  rangeIntervals : Nat
  rangeSubscribers : Nat
  queued : Nat
  federated : Bool
deriving DecidableEq, Repr

namespace Director

/-- How many datagrams may wait unless something else is configured. -/
def defaultCapacity : Nat := 4096

/-- A director that has just started. -/
def start (capacity : Nat) (parent : Option ParentLink) : Director where
  router := .empty parent
  queue := []
  capacity
  nextId := 1
  running := true

/-- How many datagrams may wait: at least one. -/
def room (director : Director) : Nat := max director.capacity 1

/-- Take the identifier for a new participant. -/
def takeId (director : Director) : ParticipantId × Director :=
  (director.nextId, { director with nextId := director.nextId + 1 })

/-- Make a participant known. -/
def register (director : Director) (participant : Participant) : Director :=
  { director with router := director.router.register participant }

/-- Dispatch everything that waits. -/
def dispatch (director : Director) : Emitting Director :=
  if director.running then do
    let router ← director.queue.foldlM
      (fun router queued => router.process queued.body queued.origin)
        director.router
    pure { director with router, queue := [] }
  else pure director

/-- Dispatch only the datagram that has waited longest. -/
def dispatchOldest (director : Director) : Emitting Director :=
  match director.queue with
  | [] => pure director
  | queued :: waiting =>
    if director.running then do
      let router ← director.router.process queued.body queued.origin
      pure { director with router, queue := waiting }
    else pure director

/-- Queue a datagram, after the queue has room for it. -/
def enqueue (director : Director) (queued : Queued) :
    Except RoutingError (Emitting Director) :=
  if !director.running then .error .shutdown
  else if director.queue.length < director.room then
    .ok (pure { director with queue := director.queue ++ [queued] })
  else
    .ok do
      let director ← director.dispatch
      pure { director with queue := director.queue ++ [queued] }

/-- Wait until everything queued so far is dispatched. -/
def sync (director : Director) : Except RoutingError (Emitting Director) :=
  if director.running then .ok director.dispatch else .error .shutdown

/-- Apply a subscription call to the router. -/
def call (director : Director)
    (result : Except RoutingError (Emitting Router)) :
    Except RoutingError (Emitting Director) :=
  result.map fun emitting => do
    let router ← emitting
    pure { director with router }

/-- Queue datagrams one after the other, up to the first that is refused. -/
def enqueueAll (director : Director) :
    List Queued → Emitting (Director × Except RoutingError Unit)
  | [] => pure (director, .ok ())
  | queued :: others =>
    match director.enqueue queued with
    | .error refusal => pure (director, .error refusal)
    | .ok emitting => do
      let director ← emitting
      director.enqueueAll others

/--
Queue what a participant left behind, withdrawing each group at the parent.
-/
def queueLeftBehind (director : Director) (id : ParticipantId) :
    List (Channel × List Datagram) →
      Emitting (Director × Except RoutingError Unit)
  | [] => pure (director, .ok ())
  | (channel, bodies) :: others => do
    let (director, result) ← director.enqueueAll
        (bodies.map fun body => ⟨body, some id⟩)
    match result with
    | .error refusal => pure (director, .error refusal)
    | .ok () =>
      Emitting.emit (director.router.units.announce (.clearPostRemoves channel))
      director.queueLeftBehind id others

/--
Remove a participant and queue what it left behind.  The result tells whether
all of that could be queued; the participant is gone in any case.
-/
def terminate (director : Director) (id : ParticipantId) :
    Emitting (Director × Except RoutingError Unit) :=
  match director.router.detach? id with
  | none => pure (director, .ok ())
  | some detaching => do
    let (router, member) ← detaching
    { director with router }.queueLeftBehind id member.postRemoves.groups

/-- Stop dispatching for good and forget what waits. -/
def shutDown (director : Director) : Director :=
  { director with queue := [], running := false }

/-- What the director has to say about itself. -/
def stats (director : Director) : DirectorStats where
  participants := director.router.members.size
  channels := director.router.units.size
  rangeIntervals := director.router.ranges.pieceCount
  rangeSubscribers := director.router.ranges.holderCount
  queued := director.queue.length
  federated := director.router.parent.isSome

/-- A summary in one line. -/
def summary (director : Director) : String :=
  s!"MessageDirector \x7b participants: {director.router.members.size}, " ++
    s!"channels: {director.router.units.summary}, " ++
    s!"upstream: {director.router.parent.isSome} \x7d"

end Director

/-- A summary in one line of what a participant's owner holds. -/
def ParticipantId.summary (id : ParticipantId) : String :=
  s!"ParticipantBase \x7b id: {id} \x7d"

end ChannelRouter
