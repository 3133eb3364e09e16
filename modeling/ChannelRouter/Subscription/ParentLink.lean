import ChannelRouter.Participant
import ChannelRouter.Wire.Control

/-!
# The link to a parent

A router may stand below another.  It announces to the parent what is wanted
down here, as instructions, and relays what is sent down here.  The link itself
only queues datagrams: as long as somebody drains the queue they are outputs,
and afterwards they vanish.  A link that is lost stays lost.
-/

namespace ChannelRouter

/-- The state of the link to a parent. -/
structure ParentLink where
  /-- Whether the queue is still drained. -/
  drained : Bool
  lost : Bool
deriving DecidableEq, Repr

namespace ParentLink

/-- A link in working order. -/
def new : ParentLink := ⟨true, false⟩

/-- Queue a datagram for the parent. -/
def relay (link : ParentLink) (body : Datagram) : List Output :=
  if link.drained then [.toParent body] else []

/-- Queue an instruction for the parent. -/
def announce (link : ParentLink) (instruction : Instruction) : List Output :=
  link.relay instruction.encode

/-- Mark the link lost. -/
def lose (link : ParentLink) : ParentLink := { link with lost := true }

/-- Stop draining the queue. -/
def abandon (link : ParentLink) : ParentLink := { link with drained := false }

end ParentLink

end ChannelRouter
