import ChannelRouter.Wire.Control

/-!
# What can be asked of a cursor

`Access` lists the reads, the moves and the peeks that a cursor offers, and a
run does one after the other, whatever the earlier ones came to.

A numeral is a field of fixed width.  All numerals are read alike: so many bytes
are taken, and the value is what they denote.
-/

namespace ChannelRouter

/-- The fields of fixed width. -/
inductive Numeral where
  | bool
  | u8
  | u16
  | u32
  | u64
  | i8
  | i16
  | i32
  | i64
  | f32
  | f64
  | channel
  | object
  | zone
  | size
deriving DecidableEq, Repr

namespace Numeral

/-- What a numeral denotes. -/
def Value : Numeral → Type
  | bool => Bool
  | u8 => UInt8
  | u16 => UInt16
  | u32 => UInt32
  | u64 => UInt64
  | i8 => Int8
  | i16 => Int16
  | i32 => Int32
  | i64 => Int64
  | f32 => UInt32
  | f64 => UInt64
  | channel => Channel
  | object => ObjectId
  | zone => Zone
  | size => UInt32

/-- The bytes a numeral takes. -/
def width : Numeral → Nat
  | bool => 1
  | u8 => 1
  | u16 => 2
  | u32 => 4
  | u64 => 8
  | i8 => 1
  | i16 => 2
  | i32 => 4
  | i64 => 8
  | f32 => 4
  | f64 => 8
  | channel => 8
  | object => 4
  | zone => 4
  | size => 4

/-- The value that bytes denote, the least significant byte first. -/
def ofBytes (numeral : Numeral) (bytes : List UInt8) : numeral.Value :=
  let value := Word.value bytes
  match numeral with
  | bool => UInt8.ofNat value != 0
  | u8 => UInt8.ofNat value
  | u16 => UInt16.ofNat value
  | u32 => UInt32.ofNat value
  | u64 => UInt64.ofNat value
  | i8 => (UInt8.ofNat value).toInt8
  | i16 => (UInt16.ofNat value).toInt16
  | i32 => (UInt32.ofNat value).toInt32
  | i64 => (UInt64.ofNat value).toInt64
  | f32 => UInt32.ofNat value
  | f64 => UInt64.ofNat value
  | channel => UInt64.ofNat value
  | object => UInt32.ofNat value
  | zone => UInt32.ofNat value
  | size => UInt32.ofNat value

/-- How a numeral is read. -/
def read : (numeral : Numeral) → Read numeral.Value
  | bool => Read.bool
  | u8 => Read.u8
  | u16 => Read.u16
  | u32 => Read.u32
  | u64 => Read.u64
  | i8 => Read.i8
  | i16 => Read.i16
  | i32 => Read.i32
  | i64 => Read.i64
  | f32 => Read.f32
  | f64 => Read.f64
  | channel => Read.channel
  | object => Read.object
  | zone => Read.zone
  | size => Read.size

/-- A numeral is read by taking its bytes. -/
theorem read_eq (numeral : Numeral) :
    numeral.read = numeral.ofBytes <$> Read.take numeral.width := by
  cases numeral <;>
    simp only [read, Read.bool, Read.u8, Read.u16, Read.u32, Read.u64, Read.i8,
      Read.i16, Read.i32, Read.i64, Read.f32, Read.f64, Read.channel,
      Read.object, Read.zone, Read.size, Read.number,
      Functor.map_map] <;>
    rfl

end Numeral

/-- A read, a move or a peek. -/
inductive Access where
  | number (numeral : Numeral)
  | skip (count : Nat)
  | data (count : Nat)
  | blob
  | text
  | datagram
  | remainder
  | recipients
  /-- Move to any position, within the datagram or not. -/
  | seek (place : Nat)
  /-- Move to right after the recipients. -/
  | seekPayload
  | recipientCount
  | isControl
  | sender
  | messageType
  | position
  | remaining
  /-- The datagram itself. -/
  | whole
deriving DecidableEq, Repr

namespace Access

/-- What an access gives when it succeeds. -/
def Answer : Access → Type
  | number numeral => numeral.Value
  | skip _ => Unit
  | data _ => List UInt8
  | blob => List UInt8
  | text => String
  | datagram => Datagram
  | remainder => List UInt8
  | recipients => List Channel
  | seek _ => Unit
  | seekPayload => Unit
  | recipientCount => UInt8
  | isControl => Bool
  | sender => Channel
  | messageType => UInt16
  | position => Nat
  | remaining => Nat
  | whole => Datagram

/-- The accesses that move the cursor without reading. -/
def moves : Access → Bool
  | seek _ => true
  | seekPayload => true
  | _ => false

/-- The accesses that only look. -/
def peeks : Access → Bool
  | recipientCount => true
  | isControl => true
  | sender => true
  | messageType => true
  | position => true
  | remaining => true
  | whole => true
  | _ => false

/-- What an access does at a cursor. -/
def read : (access : Access) → Read access.Answer
  | number numeral => numeral.read
  | skip count => Read.skip count
  | data count => Read.data count
  | blob => Read.blob
  | text => Read.text
  | datagram => Read.datagram
  | remainder => Read.remainder
  | recipients => Read.recipients
  | seek place => Read.seek place
  | seekPayload => ExceptT.mk fun cursor => (.ok (), cursor.seekPayload)
  | recipientCount =>
      ExceptT.mk fun cursor => (.ok cursor.recipientCount, cursor)
  | isControl => ExceptT.mk fun cursor => (.ok cursor.isControl, cursor)
  | sender => ExceptT.mk fun cursor => (cursor.sender, cursor)
  | messageType => ExceptT.mk fun cursor => (cursor.messageType, cursor)
  | position => Read.position
  | remaining => ExceptT.mk fun cursor => (.ok cursor.remaining, cursor)
  | whole => ExceptT.mk fun cursor => (.ok cursor.body, cursor)

/-- An access with what came of it. -/
abbrev Answered := (access : Access) × Except FormatError access.Answer

/-- One access after the other, also behind one that failed. -/
def run : List Access → Cursor → List Answered × Cursor
  | [], cursor => ([], cursor)
  | access :: others, cursor =>
    let (answer, reached) := access.read.runAt cursor
    let (answers, last) := run others reached
    (⟨access, answer⟩ :: answers, last)

end Access

end ChannelRouter
