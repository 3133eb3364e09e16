import ChannelRouter.Channel
import ChannelRouter.Table
import ChannelRouter.Wire.Word

/-!
# Post-removes

A participant may leave datagrams behind that are routed on its behalf once it
is gone.  They are filed under channels, so that those of one channel can be
withdrawn together, and within a channel they keep the order of filing.
-/

namespace ChannelRouter

/-- The datagrams a participant leaves behind, by the channel they are under. -/
structure PostRemoves where
  filed : Table Channel (List Datagram)
deriving DecidableEq, Repr

namespace PostRemoves

/-- Nothing left behind. -/
def empty : PostRemoves := ⟨∅⟩

/-- The datagrams under a channel, the oldest first. -/
def under (postRemoves : PostRemoves) (channel : Channel) : List Datagram :=
  (postRemoves.filed.get? channel).getD []

/-- File a datagram under a channel. -/
def add (postRemoves : PostRemoves) (channel : Channel) (body : Datagram) :
    PostRemoves :=
  ⟨postRemoves.filed.insert channel (postRemoves.under channel ++ [body])⟩

/-- Withdraw what is under a channel. -/
def clear (postRemoves : PostRemoves) (channel : Channel) : PostRemoves :=
  ⟨postRemoves.filed.erase channel⟩

/-- Everything filed, channel by channel in ascending order. -/
def groups (postRemoves : PostRemoves) : List (Channel × List Datagram) :=
  postRemoves.filed.entries

/-- The number of datagrams. -/
def size (postRemoves : PostRemoves) : Nat :=
  postRemoves.filed.values.flatten.length

/-- Whether no channel has datagrams under it. -/
def isEmpty (postRemoves : PostRemoves) : Bool := postRemoves.filed.isEmpty

/-- Filing adds one datagram under its channel and leaves the others alone. -/
@[simp]
theorem under_add (postRemoves : PostRemoves) (channel other : Channel)
    (body : Datagram) : (postRemoves.add channel body).under other =
      if other = channel then postRemoves.under channel ++ [body]
      else postRemoves.under other := by
  simp only [under, add, Table.get?_insert]
  split <;> rfl

/-- Withdrawing empties one channel and leaves the others alone. -/
@[simp]
theorem under_clear (postRemoves : PostRemoves) (channel other : Channel) :
    (postRemoves.clear channel).under other =
      if other = channel then [] else postRemoves.under other := by
  simp only [under, clear, Table.get?_erase]
  split <;> rfl

end PostRemoves

end ChannelRouter
