import ChannelRouter.FormatError
import ChannelRouter.Wire.Word

/-!
# Framing

On a byte stream each datagram stands behind the `u32` count of its bytes.
`Frame.encode` frames one body, `Frame.decode` takes one from bytes that should
hold it whole, and `Frame.next` looks at the front of a buffer that may still
grow.  Decoding a buffer consumes nothing unless a whole frame is there.
-/

namespace ChannelRouter

namespace Frame

/-- The bytes of the count before each body. -/
def countWidth : Nat := 4

/-- The frame of a body, for bodies that may be framed. -/
def ofBody (body : Datagram) : List UInt8 :=
  Word.bytes countWidth body.length ++ body

/-- Frame a body, refusing one that is too large. -/
def encode (body : Datagram) : Except FormatError (List UInt8) :=
  if body.length ≤ maxDatagramSize then .ok (ofBody body)
  else .error (.frameTooLarge body.length)

/-- The count in front of a buffer that is long enough to have one. -/
def announced (buffer : List UInt8) : Option Nat :=
  if (buffer.take countWidth).length = countWidth then
    some (Word.value (buffer.take countWidth))
  else none

/-- Take the frame that bytes begin with.  Bytes after it are ignored. -/
def decode (bytes : List UInt8) : Except FormatError Datagram :=
  match announced bytes with
  | none => .error (.incomplete (countWidth - bytes.length))
  | some size =>
    if size ≤ maxDatagramSize then
      if (bytes.drop countWidth).length < size then
        .error (.incomplete (countWidth + size - bytes.length))
      else .ok ((bytes.drop countWidth).take size)
    else .error (.frameTooLarge size)

/-- A frame found at the front of a buffer. -/
structure Found where
  body : Datagram
  rest : List UInt8
deriving DecidableEq, Repr

/--
Look for a frame at the front of a buffer, with a limit on its body.  The
answer is a frame and what follows it, or that more bytes are needed, or that
the frame announced is larger than the limit.
-/
def next (limit : Nat) (buffer : List UInt8) :
    Except FormatError (Option Found) :=
  match announced buffer with
  | none => .ok none
  | some size =>
    if size ≤ min limit maxDatagramSize then
      let body := (buffer.drop countWidth).take size
      if body.length = size then
        .ok (some ⟨body, (buffer.drop countWidth).drop size⟩)
      else .ok none
    else .error (.frameTooLarge size)

/-- What follows a frame is shorter than the buffer that began with it. -/
theorem length_rest_lt_of_next {limit : Nat}
    {buffer : List UInt8} {found : Found}
    (present : next limit buffer = .ok (some found)) :
    found.rest.length < buffer.length := by
  unfold next announced at present
  split at present
  · simp at present
  · rename_i size announcement
    split at announcement
    · rename_i whole
      split at present
      · simp only at present
        split at present
        · simp only [Except.ok.injEq, Option.some.injEq] at present
          subst present
          simp only [List.length_take, countWidth] at whole
          simp only [List.length_drop, countWidth]
          omega
        · simp at present
      · simp at present
    · simp at announcement

/--
All that a buffer holds: its frames, what is left of it, and how it stops.
-/
structure Drained where
  bodies : List Datagram
  rest : List UInt8
  refusal : Option FormatError
deriving DecidableEq, Repr

/-- Take frames from a buffer, in front of which others were taken already. -/
def drainAfter (limit : Nat) (taken : List Datagram) (buffer : List UInt8) :
    Drained :=
  match _found : next limit buffer with
  | .ok (some ⟨body, rest⟩) => drainAfter limit (body :: taken) rest
  | .ok none => ⟨taken.reverse, buffer, none⟩
  | .error refusal => ⟨taken.reverse, buffer, some refusal⟩
termination_by buffer.length
decreasing_by exact length_rest_lt_of_next ‹_›

/-- Take frames from a buffer until more bytes are needed or one is refused. -/
def drain (limit : Nat) (buffer : List UInt8) : Drained :=
  drainAfter limit [] buffer

end Frame

end ChannelRouter
