import ChannelRouter.Ascending
import ChannelRouter.ChannelRange

/-!
# Channels held one by one

The channels that a participant subscribed to individually, as an ascending
list.  When a range takes over, the channels inside it are taken out together.
-/

namespace ChannelRouter

/-- A finite set of channels. -/
structure ChannelSet where
  /-- The members, in ascending order. -/
  channels : List Channel
deriving DecidableEq, Repr

namespace ChannelSet

/-- The set without channels. -/
def empty : ChannelSet := ⟨[]⟩

/-- Whether a channel is a member. -/
def contains (set : ChannelSet) (channel : Channel) : Bool :=
  set.channels.contains channel

/-- The set with one more channel. -/
def insert (set : ChannelSet) (channel : Channel) : ChannelSet :=
  ⟨Ascending.insert channel set.channels⟩

/-- The set with one channel less. -/
def erase (set : ChannelSet) (channel : Channel) : ChannelSet :=
  ⟨Ascending.erase channel set.channels⟩

/-- The members inside a range, in ascending order. -/
def inside (set : ChannelSet) (range : ChannelRange) : List Channel :=
  set.channels.filter range.contains

/-- The set without the members inside a range. -/
def outside (set : ChannelSet) (range : ChannelRange) : ChannelSet :=
  ⟨set.channels.filter fun channel => !range.contains channel⟩

/-- The number of members. -/
def size (set : ChannelSet) : Nat := set.channels.length

@[simp]
theorem mem_insert (set : ChannelSet) (channel other : Channel) :
    other ∈ (set.insert channel).channels ↔
      other = channel ∨ other ∈ set.channels :=
  Ascending.mem_insert channel other set.channels

@[simp]
theorem mem_erase (set : ChannelSet) (channel other : Channel) :
    other ∈ (set.erase channel).channels ↔
      other ∈ set.channels ∧ other ≠ channel :=
  Ascending.mem_erase channel other set.channels

end ChannelSet

end ChannelRouter
