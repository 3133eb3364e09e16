import ChannelRouter.Router.Basic

/-!
# Dispatching a datagram

`Router.handle` does what one datagram asks for: an instruction is obeyed on
behalf of its origin, anything else goes to everybody who holds one of its
recipients, once each and never back to its origin, and on to the parent if it
did not come from there.  Receivers see the datagram from the sender on; the
parent sees all of it.

`Router.process` adds what a malformed datagram costs: its origin is expelled,
and what it left behind is routed at once.
-/

namespace ChannelRouter

namespace Read

/-- Pass over the sender and the message type of a datagram. -/
def senderAndType : Read (Channel × UInt16) := do
  let sender ← channel
  let messageType ← u16
  pure (sender, messageType)

end Read

namespace Router

/--
Everybody who holds one of the channels, once per identifier.  Where a unit and
a piece know an identifier by different participants, the unit's counts.
-/
def receivers (router : Router) (channels : List Channel) :
    Table ParticipantId Participant :=
  (channels.flatMap router.ranges.resolve ++
      channels.flatMap fun channel =>
        (router.units.resolve? channel).getD []).foldl
    (fun found participant => found.insert participant.id participant) ∅

/-- Hand a datagram to everybody who holds a recipient, its origin excepted. -/
def route (router : Router) (recipients : List Channel) (body : Datagram)
    (origin : Option ParticipantId) : List Output :=
  match Ascending.ofList recipients with
  | [channel] =>
    router.units.deliver channel body origin ++
      router.ranges.send channel body origin
  | channels =>
    ((router.receivers channels).values.filter (some ·.id ≠ origin)).map
      (Output.deliver · body)

/-- Queue a datagram for the parent, unless that is where it came from. -/
def relay (router : Router) (body : Datagram) (origin : Option ParticipantId) :
    List Output :=
  match origin, router.parent with
  | some _, some link => link.relay body
  | _, _ => []

/-- Do what a datagram asks for, or say why it is refused. -/
def handle (router : Router) (body : Datagram) (origin : Option ParticipantId) :
    Except RoutingError (Emitting Router) :=
  match Read.recipients.runAt (Cursor.start body) with
  | (.error cause, _) => .error (.malformed cause)
  | (.ok recipients, cursor) =>
    if recipients = [Channel.control] then
      match origin with
      | none => .error .controlWithoutOrigin
      | some id =>
        match (Read.instruction.runAt cursor).1 with
        | .error cause => .error (.malformed cause)
        | .ok instruction => router.obey id instruction
    else
      match (Read.senderAndType.runAt cursor).1 with
      | .error cause => .error (.malformed cause)
      | .ok _ =>
        .ok
          { value := router
            outputs :=
              router.route recipients (body.drop cursor.position) origin ++
                router.relay body origin }

/-- Handle a datagram that somebody left behind; a bad one is passed over. -/
def handleLeftBehind (id : ParticipantId) (router : Router) (body : Datagram) :
    Emitting Router :=
  match router.handle body (some id) with
  | .ok done => done
  | .error _ => pure router

/--
Route what a participant left behind, withdrawing each group at the parent.
-/
def routeLeftBehind (router : Router) (id : ParticipantId)
    (groups : List (Channel × List Datagram)) : Emitting Router :=
  groups.foldlM
    (fun router group => do
      let router ← group.2.foldlM (handleLeftBehind id) router
      Emitting.emit (router.units.announce (.clearPostRemoves group.1))
      pure router)
    router

/-- Expel a member and route what it left behind.  Others are left alone. -/
def disconnect (router : Router) (id : ParticipantId) (reason : String) :
    Emitting Router :=
  match router.detach? id with
  | none => pure router
  | some detaching => do
    let (router, member) ← detaching
    Emitting.emit [.expel member.participant reason]
    router.routeLeftBehind id member.postRemoves.groups

/-- Handle a datagram and, if its origin is at fault, expel the origin. -/
def process (router : Router) (body : Datagram)
    (origin : Option ParticipantId) : Emitting Router :=
  match router.handle body origin, origin with
  | .ok done, _ => done
  | .error cause, some id =>
    if cause.isMalformed then router.disconnect id cause.message
    else pure router
  | .error _, none => pure router

end Router

end ChannelRouter
