/-!
# Channels

A channel is a 64-bit address.  Participants subscribe to channels and
datagrams name the channels they are for; nothing else identifies a receiver.

A few channels have a fixed meaning.  Distributed objects have channels of
their own: an object and its zones share the high half of the address, and two
reserved bases lead to the children of an object and to its database record.
-/

namespace ChannelRouter

/-- The address by which datagrams reach their receivers. -/
abbrev Channel := UInt64

/-- The number of a distributed object. -/
abbrev ObjectId := UInt32

/-- A subdivision of the space below a parent object. -/
abbrev Zone := UInt32

namespace Channel

/-- The bytes a channel takes on the wire. -/
def width : Nat := 8

/-- The greatest channel. -/
def greatest : Channel := 0xFFFFFFFFFFFFFFFF

/-- The channel that belongs to nobody. -/
def invalid : Channel := 0

/-- The channel whose datagrams are instructions to the router itself. -/
def control : Channel := 1

/-- The channel on which every client agent listens. -/
def clients : Channel := 10

/-- The channel on which every state server listens. -/
def stateServers : Channel := 12

/-- The channel on which every database server listens. -/
def databaseServers : Channel := 13

/-- The base of the channels that lead to the children of an object. -/
def childrenBase : Channel := 0x100000000

/-- The base of the channels that lead to an object's database record. -/
def databaseBase : Channel := 0x200000000

/-- The channel of a location: the parent in the high half, the zone below. -/
def ofLocation (parent : ObjectId) (zone : Zone) : Channel :=
  parent.toUInt64 <<< 32 ||| zone.toUInt64

/-- The channel that reaches every child of an object. -/
def childrenOf (object : ObjectId) : Channel :=
  childrenBase ||| object.toUInt64

/-- The channel that leads from a database to one of its objects. -/
def databaseObject (object : ObjectId) : Channel :=
  databaseBase ||| object.toUInt64

/-- Below a greater channel there is room for the next one. -/
theorem toNat_add_one_of_lt {channel bound : Channel}
    (below : channel < bound) : (channel + 1).toNat = channel.toNat + 1 := by
  have limit := bound.toNat_lt
  rw [UInt64.lt_iff_toNat_lt] at below
  rw [UInt64.toNat_add]
  simp only [UInt64.toNat_one]
  omega

/-- Above a smaller channel there is room for the previous one. -/
theorem toNat_sub_one_of_lt {channel bound : Channel}
    (above : bound < channel) : (channel - 1).toNat = channel.toNat - 1 := by
  rw [UInt64.lt_iff_toNat_lt] at above
  rw [UInt64.toNat_sub_of_le]
  · simp
  · rw [UInt64.le_iff_toNat_le]
    simp only [UInt64.toNat_one]
    omega

end Channel

namespace ObjectId

/-- The object number that belongs to no object. -/
def invalid : ObjectId := 0

/-- The greatest object number. -/
def greatest : ObjectId := 0xFFFFFFFF

end ObjectId

namespace Zone

/-- The greatest zone. -/
def greatest : Zone := 0xFFFFFFFF

/-- The bits a zone takes in the channel of a location. -/
def bits : Nat := 32

end Zone

end ChannelRouter
