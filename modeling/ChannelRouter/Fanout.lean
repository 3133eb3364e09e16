import ChannelRouter.Director

/-!
# Fanning out a load

To measure routing, one datagram is sent many times by somebody who is not
registered, to participants that hold some of its recipients: counting ones,
which hold channels one by one, and a forwarding one, which holds a range.
-/

namespace ChannelRouter

/-- A load, and the participants it is for. -/
structure Fanout where
  recipients : List Channel
  /-- The number of zero bytes the datagram carries. -/
  payload : Nat
  messages : Nat
  /-- The channels that each counting participant holds. -/
  counting : List (List Channel)
  /-- The range that the forwarding participant holds. -/
  forwarding : ChannelRange
deriving DecidableEq, Repr

namespace Fanout

/-- The sender named in the datagram. -/
def sender : Channel := 1

/-- The type of the datagram. -/
def messageType : UInt16 := 1000

/-- The datagram that is sent. -/
def datagram (fanout : Fanout) : Datagram :=
  Datagram.ofFields
    [.header fanout.recipients sender messageType,
      .data (List.replicate fanout.payload 0)]

/--
Register one more participant and make its calls, as long as none is refused.
-/
def join (director : Director)
    (calls : List (ParticipantId → Router →
      Except RoutingError (Emitting Router))) : Director :=
  let (id, taken) := director.takeId
  calls.foldl
    (fun director call =>
      match director.call (call id director.router) with
      | .ok emitting => emitting.value
      | .error _ => director)
    (taken.register ⟨id, 1⟩)

/-- The director with all participants, the counting ones first. -/
def prepared (fanout : Fanout) : Director :=
  join
    (fanout.counting.foldl
      (fun director channels =>
        join director (channels.map fun channel id router =>
          router.subscribeChannel id channel))
      (.start Director.defaultCapacity none))
    [fun id router => router.subscribeRange id fanout.forwarding]

/-- What comes of sending the datagram as often as the load says. -/
def outputs (fanout : Fanout) : List Output :=
  let (origin, director) := fanout.prepared.takeId
  let queued : List Queued :=
    List.replicate fanout.messages ⟨fanout.datagram, some origin⟩
  (director.enqueueAll queued >>= fun done => done.1.dispatch).outputs

/-- The bodies delivered to a participant. -/
def deliveredTo (fanout : Fanout) (id : ParticipantId) : List Datagram :=
  fanout.outputs.filterMap fun
    | .deliver receiver body => if receiver.id = id then some body else none
    | _ => none

/-- How many deliveries each counting participant got. -/
def delivered (fanout : Fanout) : List Nat :=
  (List.range fanout.counting.length).map fun index =>
    (fanout.deliveredTo (index + 1)).length

/-- What the forwarding participant got. -/
def forwarded (fanout : Fanout) : List Datagram :=
  fanout.deliveredTo (fanout.counting.length + 1)

end Fanout

end ChannelRouter
