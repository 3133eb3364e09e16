import ChannelRouter.FormatError
import ChannelRouter.Participant

/-!
# Why routing fails

A datagram or a call can be refused because it is malformed, because the
participant it is about is unknown, because an instruction came from the
parent, or because the director no longer runs.  Only the first is a fault of
the sender, and only that one costs a participant its place.
-/

namespace ChannelRouter

/-- Why the router refuses a datagram or a call. -/
inductive RoutingError where
  | malformed (cause : FormatError)
  | unknownParticipant (id : ParticipantId)
  /-- An instruction came from the parent, which is nobody's participant. -/
  | controlWithoutOrigin
  /-- The director has stopped dispatching. -/
  | shutdown
deriving DecidableEq, Repr

namespace RoutingError

/-- Whether the sender is at fault. -/
def isMalformed : RoutingError → Bool
  | malformed _ => true
  | _ => false

/-- The wording of a refusal. -/
def message : RoutingError → String
  | malformed cause => cause.message
  | unknownParticipant id => s!"Unknown participant {id}"
  | controlWithoutOrigin => "Control message without an originating participant"
  | shutdown => "Message director has shut down"

end RoutingError

end ChannelRouter
