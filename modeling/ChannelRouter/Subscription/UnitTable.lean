import ChannelRouter.Ascending
import ChannelRouter.Subscription.ParentLink
import ChannelRouter.Table

/-!
# Channel units

A channel that somebody holds individually has a unit, which lists its members
in the order of their subscription.  The table opens a unit with the first
subscription, counts subscriptions, and closes the unit with the last one.
Opening and closing are announced to the parent, if there is one.

Beside the units stands an ordered index of the channels that have one, from
which those between two channels are taken.

The count follows the calls and the members follow the identifiers: a caller
that subscribes an identifier twice is counted twice and listed once.
-/

namespace ChannelRouter

/-- The members of a channel and the number of its subscriptions. -/
structure ChannelUnit where
  members : List Participant
  /--
  How many subscriptions there are.  The count is a word of 64 bits that begins
  again at zero.  Here it goes on, and it takes `2 ^ 64` subscriptions of one
  channel to see the difference.
  -/
  count : Nat
deriving DecidableEq, Repr

namespace ChannelUnit

/-- The unit of a first member. -/
def ofMember (member : Participant) : ChannelUnit := ⟨[member], 1⟩

/-- One more subscription; a member already listed is not listed again. -/
def join (unit : ChannelUnit) (member : Participant) : ChannelUnit where
  members :=
    if unit.members.any (·.id == member.id) then unit.members
    else unit.members ++ [member]
  count := unit.count + 1

/-- One subscription less, and the identifier off the list. -/
def leave (unit : ChannelUnit) (id : ParticipantId) : ChannelUnit where
  members := unit.members.filter (·.id ≠ id)
  count := unit.count - 1

end ChannelUnit

/--
The units by channel, their index, and the link on which they are announced.
-/
structure UnitTable where
  units : Table Channel ChannelUnit
  /-- The channels with a unit, in ascending order. -/
  index : List Channel
  parent : Option ParentLink
deriving DecidableEq, Repr

namespace UnitTable

/-- The table without units. -/
def empty (parent : Option ParentLink) : UnitTable := ⟨∅, [], parent⟩

/-- Tell the parent, if there is one. -/
def announce (table : UnitTable) (instruction : Instruction) : List Output :=
  match table.parent with
  | none => []
  | some link => link.announce instruction

/--
Subscribe a participant to a channel, saying whether that opened its unit.
-/
def subscribe (table : UnitTable) (channel : Channel) (member : Participant) :
    Emitting (UnitTable × Bool) :=
  match table.units.get? channel with
  | some unit =>
    ⟨({ table with units := table.units.insert channel (unit.join member) },
      false), []⟩
  | none =>
    ⟨({ table with
          units := table.units.insert channel (.ofMember member)
          index := Ascending.insert channel table.index }, true),
      table.announce (.addChannel channel)⟩

/--
Unsubscribe an identifier from a channel, saying whether that closed its unit.
-/
def unsubscribe (table : UnitTable) (channel : Channel) (id : ParticipantId) :
    Emitting (UnitTable × Bool) :=
  match table.units.get? channel with
  | none => ⟨(table, false), []⟩
  | some unit =>
    if (unit.leave id).count = 0 then
      ⟨({ table with
            units := table.units.erase channel
            index := Ascending.erase channel table.index }, true),
        table.announce (.removeChannel channel)⟩
    else
      ⟨({ table with units := table.units.insert channel (unit.leave id) },
        false), []⟩

/-- Unsubscribe an identifier from several channels, one after the other. -/
def unsubscribeAll (table : UnitTable) (channels : List Channel)
    (id : ParticipantId) : Emitting UnitTable :=
  channels.foldlM (fun table channel =>
    Prod.fst <$> table.unsubscribe channel id) table

/-- Whether a channel has a unit. -/
def contains (table : UnitTable) (channel : Channel) : Bool :=
  table.units.contains channel

/-- The members of a channel's unit, if it has one. -/
def resolve? (table : UnitTable) (channel : Channel) :
    Option (List Participant) :=
  (table.units.get? channel).map ChannelUnit.members

/-- Hand a datagram to the members of a channel, one of them excepted. -/
def deliver (table : UnitTable) (channel : Channel) (body : Datagram)
    (excluded : Option ParticipantId) : List Output :=
  (((table.resolve? channel).getD []).filter (some ·.id ≠ excluded)).map
    (Output.deliver · body)

/-- The number of subscriptions to a channel. -/
def count (table : UnitTable) (channel : Channel) : Nat :=
  ((table.units.get? channel).map ChannelUnit.count).getD 0

/-- The channels with a unit between two channels, in ascending order. -/
def between (table : UnitTable) (first last : Channel) : List Channel :=
  table.index.filter fun channel => first ≤ channel && channel ≤ last

/-- The number of units. -/
def size (table : UnitTable) : Nat := table.units.size

/-- Whether there are no units. -/
def isEmpty (table : UnitTable) : Bool := table.units.isEmpty

/-- A summary in one line. -/
def summary (table : UnitTable) : String :=
  s!"ChannelTable \x7b units: {table.size}, upstream: {table.parent.isSome} \x7d"

end UnitTable

end ChannelRouter
