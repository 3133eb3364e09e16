import ChannelRouter.Channel
import ChannelRouter.Wire.Word

/-!
# Fields of a datagram

A datagram is written field by field.  `Field` lists what can be written, and
`Field.encode` says how: numbers little-endian in their own width, a blob, a
text or an embedded datagram behind the `u32` count of its bytes, raw data
without any count, and headers as the channels they name.

What does not fit into its count is refused: the recipients of a header are
counted in one byte, and the bytes of a blob, a text or an embedded datagram in
four.
-/

namespace ChannelRouter

/-- One thing to write into a datagram. -/
inductive Field where
  | bool (value : Bool)
  | u8 (value : UInt8)
  | u16 (value : UInt16)
  | u32 (value : UInt32)
  | u64 (value : UInt64)
  | i8 (value : Int8)
  | i16 (value : Int16)
  | i32 (value : Int32)
  | i64 (value : Int64)
  /-- A single-precision number, by its bits. -/
  | f32 (bits : UInt32)
  /-- A double-precision number, by its bits. -/
  | f64 (bits : UInt64)
  | channel (value : Channel)
  | object (value : ObjectId)
  | zone (value : Zone)
  | size (value : UInt32)
  /-- Bytes whose number the reader knows. -/
  | data (bytes : List UInt8)
  | blob (bytes : List UInt8)
  | text (value : String)
  | datagram (body : Datagram)
  /-- The header of a datagram: whom it is for, who sent it, and what it is. -/
  | header (recipients : List Channel) (sender : Channel) (messageType : UInt16)
  /-- The header of an instruction to the router, which names no sender. -/
  | controlHeader (messageType : UInt16)
deriving DecidableEq, Repr

namespace Field

/-- The bytes of a channel. -/
def channelBytes (channel : Channel) : List UInt8 :=
  Word.bytes Channel.width channel.toNat

/-- The bytes of a message type. -/
def typeBytes (messageType : UInt16) : List UInt8 :=
  Word.bytes 2 messageType.toNat

/-- Bytes behind the count of them. -/
def counted (bytes : List UInt8) : List UInt8 :=
  Word.bytes 4 bytes.length ++ bytes

/-- How a field is written. -/
def encode : Field → List UInt8
  | bool value => [if value then 1 else 0]
  | u8 value => [value]
  | u16 value => Word.bytes 2 value.toNat
  | u32 value => Word.bytes 4 value.toNat
  | u64 value => Word.bytes 8 value.toNat
  | i8 value => [value.toUInt8]
  | i16 value => Word.bytes 2 value.toUInt16.toNat
  | i32 value => Word.bytes 4 value.toUInt32.toNat
  | i64 value => Word.bytes 8 value.toUInt64.toNat
  | f32 bits => Word.bytes 4 bits.toNat
  | f64 bits => Word.bytes 8 bits.toNat
  | channel value => channelBytes value
  | object value => Word.bytes 4 value.toNat
  | zone value => Word.bytes 4 value.toNat
  | size value => Word.bytes 4 value.toNat
  | data bytes => bytes
  | blob bytes => counted bytes
  | text value => counted value.toUTF8.toList
  | datagram body => counted body
  | header recipients sender messageType =>
    UInt8.ofNat recipients.length ::
      (recipients.flatMap channelBytes ++ channelBytes sender ++
        typeBytes messageType)
  | controlHeader messageType =>
    1 :: (channelBytes Channel.control ++ typeBytes messageType)

/-- Whether a field can be written: what it counts fits into the count. -/
def Writable : Field → Prop
  | blob bytes => bytes.length < UInt32.size
  | text value => value.utf8ByteSize < UInt32.size
  | datagram body => body.length < UInt32.size
  | header recipients _ _ => recipients.length ≤ 255
  | _ => True

instance (field : Field) : Decidable field.Writable := by
  cases field <;> simp only [Writable] <;> infer_instance

end Field

namespace Datagram

/-- The datagram of a list of fields. -/
def ofFields (fields : List Field) : Datagram :=
  fields.flatMap Field.encode

/-- Write one more field, unless it cannot be written. -/
def add? (body : Datagram) (field : Field) : Option Datagram :=
  if field.Writable then some (body ++ field.encode) else none

end Datagram

end ChannelRouter
