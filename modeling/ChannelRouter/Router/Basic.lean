import ChannelRouter.Router.RoutingError
import ChannelRouter.Subscription.ChannelSet
import ChannelRouter.Subscription.PostRemoves
import ChannelRouter.Subscription.RangeTable
import ChannelRouter.Subscription.UnitTable

/-!
# The router's state and its subscription calls

The router knows its members, the units of the channels they hold one by one,
and the pieces they hold by ranges.  A participant holds a channel in one way
only: taking a range retracts the channels inside it, and a channel inside a
range of one's own is not taken again.

With a parent, the router announces what is wanted here: a channel with its
first member and after its last, and the portions of ranges that gain or lose
all coverage.  When a portion loses coverage the parent drops the channels
inside it as well, so those that still have members are announced again.

A call is refused for an identifier that is not a member's; a refused call has
no effect, since no new state comes with the refusal.
-/

namespace ChannelRouter

/-- What the router keeps for a registered participant. -/
structure Member where
  participant : Participant
  channels : ChannelSet
  postRemoves : PostRemoves
  name : Option String
  url : Option String
deriving DecidableEq, Repr

namespace Member

/-- A participant that holds nothing yet. -/
def new (participant : Participant) : Member :=
  ⟨participant, .empty, .empty, none, none⟩

end Member

/-- The state that decides who receives what. -/
structure Router where
  members : Table ParticipantId Member
  units : UnitTable
  ranges : RangeTable
deriving DecidableEq, Repr

namespace Router

/-- The router nobody is registered with. -/
def empty (parent : Option ParentLink) : Router := ⟨∅, .empty parent, .empty⟩

/-- The link to the parent. -/
def parent (router : Router) : Option ParentLink := router.units.parent

/-- Replace the link to the parent by a later state of it. -/
def updateParent (router : Router)
    (change : ParentLink → ParentLink) : Router :=
  { router with units :=
    { router.units with parent := router.units.parent.map change } }

/-- Make a participant a member that holds nothing. -/
def register (router : Router) (participant : Participant) : Router :=
  { router with members :=
    router.members.insert participant.id (.new participant) }

/-- Whether an identifier is a member's. -/
def isRegistered (router : Router) (id : ParticipantId) : Bool :=
  router.members.contains id

/-- The member with an identifier. -/
def member (router : Router) (id : ParticipantId) :
    Except RoutingError Member :=
  match router.members.get? id with
  | some member => .ok member
  | none => .error (.unknownParticipant id)

/-- Tell the parent which portions gained or lost all coverage. -/
def announceCoverage (units : UnitTable) (change : CoverageChange) :
    List Output :=
  change.added.flatMap (fun range => units.announce (.addRange range)) ++
    change.removed.flatMap fun range =>
      units.announce (.removeRange range) ++
        (units.between range.first range.last).flatMap fun channel =>
          units.announce (.addChannel channel)

/-- Subscribe a member to a channel, unless it holds the channel already. -/
def subscribeChannel (router : Router) (id : ParticipantId)
    (channel : Channel) : Except RoutingError (Emitting Router) := do
  let member ← router.member id
  if member.channels.contains channel || router.ranges.covers id channel then
    return pure router
  return do
    let (units, _) ← router.units.subscribe channel member.participant
    pure
      { router with
        units
        members := router.members.insert id
          { member with channels := member.channels.insert channel } }

/-- Unsubscribe a member from a channel it holds individually. -/
def unsubscribeChannel (router : Router) (id : ParticipantId)
    (channel : Channel) : Except RoutingError (Emitting Router) := do
  let member ← router.member id
  if !member.channels.contains channel then
    return pure router
  return do
    let (units, _) ← router.units.unsubscribe channel id
    pure
      { router with
        units
        members := router.members.insert id
          { member with channels := member.channels.erase channel } }

/-- Subscribe a member to a range, in place of the channels it holds inside. -/
def subscribeRange (router : Router) (id : ParticipantId)
    (range : ChannelRange) : Except RoutingError (Emitting Router) := do
  let member ← router.member id
  let (ranges, change) := router.ranges.add range member.participant
  return do
    Emitting.emit (announceCoverage router.units change)
    let units ← router.units.unsubscribeAll (member.channels.inside range) id
    pure
      { units
        ranges
        members := router.members.insert id
          { member with channels := member.channels.outside range } }

/-- Unsubscribe a member from every channel of a range, however it holds it. -/
def unsubscribeRange (router : Router) (id : ParticipantId)
    (range : ChannelRange) : Except RoutingError (Emitting Router) := do
  let member ← router.member id
  let (ranges, change) := router.ranges.remove range id
  return do
    let units ← router.units.unsubscribeAll (member.channels.inside range) id
    Emitting.emit (announceCoverage units change)
    pure
      { units
        ranges
        members := router.members.insert id
          { member with channels := member.channels.outside range } }

/--
File a datagram to be routed once the member is gone.  If there is a parent,
that is announced, which stops the program for a body of `2 ^ 32` bytes or more;
here the call goes on with what `Instruction.encode` makes of such a body.
-/
def addPostRemove (router : Router) (id : ParticipantId) (channel : Channel)
    (body : Datagram) : Except RoutingError (Emitting Router) := do
  let member ← router.member id
  return do
    Emitting.emit (router.units.announce (.addPostRemove channel body))
    pure
      { router with
        members := router.members.insert id
          { member with postRemoves := member.postRemoves.add channel body } }

/-- Withdraw what a member filed under a channel. -/
def clearPostRemoves (router : Router) (id : ParticipantId)
    (channel : Channel) : Except RoutingError (Emitting Router) := do
  let member ← router.member id
  return do
    Emitting.emit (router.units.announce (.clearPostRemoves channel))
    pure
      { router with
        members := router.members.insert id
          { member with postRemoves := member.postRemoves.clear channel } }

/-- Give a member a name. -/
def setName (router : Router) (id : ParticipantId) (name : String) :
    Except RoutingError (Emitting Router) := do
  let member ← router.member id
  return pure
    { router with members :=
      router.members.insert id { member with name := some name } }

/-- Note the address a member gives for itself. -/
def setUrl (router : Router) (id : ParticipantId) (url : String) :
    Except RoutingError (Emitting Router) := do
  let member ← router.member id
  return pure
    { router with members :=
      router.members.insert id { member with url := some url } }

/-- Do what a member says. -/
def obey (router : Router) (id : ParticipantId) :
    Instruction → Except RoutingError (Emitting Router)
  | .addChannel channel => router.subscribeChannel id channel
  | .removeChannel channel => router.unsubscribeChannel id channel
  | .addRange range => router.subscribeRange id range
  | .removeRange range => router.unsubscribeRange id range
  | .addPostRemove channel body => router.addPostRemove id channel body
  | .clearPostRemoves channel => router.clearPostRemoves id channel
  | .setName name => router.setName id name
  | .setUrl url => router.setUrl id url

/-- Strike a member off and drop all it holds, giving what it left behind. -/
def detach? (router : Router) (id : ParticipantId) :
    Option (Emitting (Router × Member)) :=
  (router.members.get? id).map fun member => do
    let units ← router.units.unsubscribeAll member.channels.channels id
    let (ranges, change) := router.ranges.removeHolder id
    Emitting.emit (announceCoverage units change)
    pure ({ units, ranges, members := router.members.erase id }, member)

/-- The name a member goes by. -/
def nameOf (router : Router) (id : ParticipantId) : Option String :=
  (router.members.get? id).bind Member.name

/-- The address a member gave. -/
def urlOf (router : Router) (id : ParticipantId) : Option String :=
  (router.members.get? id).bind Member.url

/-- The channels a member holds individually, in ascending order. -/
def channelsOf (router : Router) (id : ParticipantId) : List Channel :=
  ((router.members.get? id).map (·.channels.channels)).getD []

/-- The channels a participant holds by ranges, as maximal runs. -/
def rangesOf (router : Router) (id : ParticipantId) : List ChannelRange :=
  router.ranges.rangesOf id

end Router

end ChannelRouter
