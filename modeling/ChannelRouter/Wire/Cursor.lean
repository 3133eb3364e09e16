import ChannelRouter.FormatError
import ChannelRouter.Wire.Word

/-!
# Reading a datagram

A cursor is a datagram with a position in it.  Reading is bounds-checked: a
field that does not fit into what is left is refused and the cursor stays where
it was.  The position may be set anywhere, even past the end, where not even a
field of no bytes can be read.

A read that is made of several keeps the progress of the parts that succeeded.
That is why `Read` carries its cursor through a failure.
-/

namespace ChannelRouter

/-- A datagram and the position of the next byte to read. -/
structure Cursor where
  body : Datagram
  position : Nat
deriving DecidableEq, Repr

/-- A read, which leaves the cursor somewhere whether it succeeds or not. -/
abbrev Read (α : Type) := ExceptT FormatError (StateM Cursor) α

namespace Cursor

/-- A cursor at the beginning of a datagram. -/
def start (body : Datagram) : Cursor := ⟨body, 0⟩

/-- The bytes from the position to the end. -/
def remaining (cursor : Cursor) : Nat := cursor.body.length - cursor.position

/-- The same datagram, read from another position. -/
def seek (cursor : Cursor) (position : Nat) : Cursor := { cursor with position }

/-- Whether so many bytes can be read. -/
def holds (cursor : Cursor) (count : Nat) : Bool :=
  count ≤ cursor.remaining && cursor.position ≤ cursor.body.length

end Cursor

namespace Read

/-- Run a read at a cursor, giving its result and where it left the cursor. -/
def runAt {α : Type} (read : Read α) (cursor : Cursor) :
    Except FormatError α × Cursor :=
  (ExceptT.run read).run cursor

/-- The next bytes, or a refusal that names what was missing. -/
def take (count : Nat) : Read (List UInt8) :=
  ExceptT.mk fun cursor =>
    if cursor.holds count then
      (.ok ((cursor.body.drop cursor.position).take count),
        cursor.seek (cursor.position + count))
    else
      (.error (.truncated count cursor.remaining), cursor)

/-- A number in the given number of bytes. -/
def number (width : Nat) : Read Nat :=
  Word.value <$> take width

def u8 : Read UInt8 := UInt8.ofNat <$> number 1

def u16 : Read UInt16 := UInt16.ofNat <$> number 2

def u32 : Read UInt32 := UInt32.ofNat <$> number 4

def u64 : Read UInt64 := UInt64.ofNat <$> number 8

def i8 : Read Int8 := UInt8.toInt8 <$> u8

def i16 : Read Int16 := UInt16.toInt16 <$> u16

def i32 : Read Int32 := UInt32.toInt32 <$> u32

def i64 : Read Int64 := UInt64.toInt64 <$> u64

/-- A truth value: every byte but zero is true. -/
def bool : Read Bool := (· != 0) <$> u8

/-- A single-precision number, by its bits. -/
def f32 : Read UInt32 := u32

/-- A double-precision number, by its bits. -/
def f64 : Read UInt64 := u64

def channel : Read Channel := u64

def object : Read ObjectId := u32

def zone : Read Zone := u32

def size : Read UInt32 := u32

/-- Raw bytes whose number is known. -/
def data (count : Nat) : Read (List UInt8) := take count

/-- Bytes behind the count of them. -/
def blob : Read (List UInt8) := do
  let count ← size
  take count.toNat

/-- A datagram inside this one. -/
def datagram : Read Datagram := blob

/-- UTF-8 behind the count of its bytes. -/
def text : Read String := do
  let bytes ← blob
  match String.fromUTF8? ⟨bytes.toArray⟩ with
  | some value => pure value
  | none => throw .invalidText

/-- Pass over bytes without looking at them. -/
def skip (count : Nat) : Read Unit := discard (take count)

/-- Move the cursor. -/
def seek (position : Nat) : Read Unit :=
  ExceptT.mk fun cursor => (.ok (), cursor.seek position)

/-- Where the cursor stands. -/
def position : Read Nat :=
  ExceptT.mk fun cursor => (.ok cursor.position, cursor)

/-- Everything to the end.  A cursor past the end comes back to it. -/
def remainder : Read (List UInt8) :=
  ExceptT.mk fun cursor =>
    (.ok (cursor.body.drop cursor.position), cursor.seek cursor.body.length)

end Read

end ChannelRouter
