import ChannelRouter.Wire.Cursor

/-!
# Headers

A datagram begins with the number of its recipients in one byte and their
channels.  Then follow the sender's channel, the message type and the payload,
except in an instruction to the router, whose single recipient is the control
channel and which has no sender.

Besides the read that takes the recipients one after the other there are peeks,
which compute positions from the count alone and leave the cursor where it is.
-/

namespace ChannelRouter

namespace Read

/-- So many channels, one after the other. -/
def channels : Nat → Read (List Channel)
  | 0 => pure []
  | count + 1 => do
    let next ← channel
    let others ← channels count
    pure (next :: others)

/-- The recipients, which stand at the very beginning. -/
def recipients : Read (List Channel) := do
  seek 0
  let count ← u8
  channels count.toNat

end Read

namespace Cursor

/-- The number of recipients the first byte announces, none without one. -/
def recipientCount (cursor : Cursor) : UInt8 :=
  cursor.body.headD 0

/-- The position right after the recipients. -/
def payloadPosition (cursor : Cursor) : Nat :=
  1 + cursor.recipientCount.toNat * Channel.width

/-- Whether the datagram is an instruction to the router. -/
def isControl (cursor : Cursor) : Bool :=
  cursor.recipientCount == 1 &&
    (cursor.body.drop 1).take Channel.width ==
      Word.bytes Channel.width Channel.control.toNat

/-- The sender, wherever the cursor stands. -/
def sender (cursor : Cursor) : Except FormatError Channel :=
  (Read.channel.runAt (cursor.seek cursor.payloadPosition)).1

/-- The message type, wherever the cursor stands. -/
def messageType (cursor : Cursor) : Except FormatError UInt16 :=
  (Read.u16.runAt (cursor.seek (cursor.payloadPosition + Channel.width))).1

/-- The cursor moved to right after the recipients. -/
def seekPayload (cursor : Cursor) : Cursor :=
  cursor.seek cursor.payloadPosition

end Cursor

end ChannelRouter
