import ChannelRouter.Transport.StreamError
import ChannelRouter.Wire.Frame

/-!
# Reading frames from a stream

The bytes of a stream arrive in pieces, and a frame may be spread over any
number of them.  A reader keeps what it has received and not yet given out; it
gives out a frame as soon as one is complete, and takes another piece only when
none is.  After the last piece the stream is closed or falls silent.

`FrameReader.receive` gives the next frame or tells how the stream ended.
`FrameReader.receiveAll` asks again until it ends.
-/

namespace ChannelRouter

/-- What comes after the last piece of a stream. -/
inductive StreamEnding where
  /-- The peer closes its side. -/
  | closed
  /-- Nothing, for longer than the reader waits. -/
  | silent
deriving DecidableEq, Repr

/-- Received bytes that were not given out, and the limit on a frame. -/
structure FrameReader where
  buffer : List UInt8
  limit : Nat
deriving DecidableEq, Repr

namespace FrameReader

/-- The largest body accepted unless something else is configured. -/
def defaultLimit : Nat := 1048576

/-- A reader that has received nothing. -/
def start (limit : Nat) : FrameReader := ⟨[], limit⟩

/-- Take in a piece of the stream. -/
def feed (reader : FrameReader) (piece : List UInt8) : FrameReader :=
  { reader with buffer := reader.buffer ++ piece }

/-- How a stream ends, given whether it ends inside a frame. -/
def outcome (reader : FrameReader) :
    StreamEnding → Except StreamError (Option Datagram)
  | .silent => .error .timedOut
  | .closed => if reader.buffer.isEmpty then .ok none else .error .closed

/--
The result of asking for a frame: the answer, the reader, the pieces to come.
-/
structure Receipt where
  /-- A frame, nothing at the end of the stream, or a failure. -/
  result : Except StreamError (Option Datagram)
  reader : FrameReader
  pieces : List (List UInt8)

/-- Give out the next frame of a stream, of which these pieces are to come. -/
def receive (ending : StreamEnding) (reader : FrameReader) :
    List (List UInt8) → Receipt
  | [] =>
    match Frame.next reader.limit reader.buffer with
    | .error cause => ⟨.error (.malformed cause), reader, []⟩
    | .ok (some found) =>
      ⟨.ok (some found.body), { reader with buffer := found.rest }, []⟩
    | .ok none => ⟨reader.outcome ending, reader, []⟩
  | piece :: pieces =>
    match Frame.next reader.limit reader.buffer with
    | .error cause => ⟨.error (.malformed cause), reader, piece :: pieces⟩
    | .ok (some found) =>
      ⟨.ok (some found.body), { reader with buffer := found.rest },
        piece :: pieces⟩
    | .ok none => receive ending (reader.feed piece) pieces

/-- The bytes not given out, whether they have arrived or not. -/
def outstanding (reader : FrameReader) (pieces : List (List UInt8)) : Nat :=
  reader.buffer.length + pieces.flatten.length

/-- Giving out a frame leaves fewer bytes to give out. -/
theorem outstanding_receive_lt {ending : StreamEnding} {reader : FrameReader}
    {pieces : List (List UInt8)} {body : Datagram}
    (given : (reader.receive ending pieces).result = .ok (some body)) :
    (reader.receive ending pieces).reader.outstanding
      (reader.receive ending pieces).pieces < reader.outstanding pieces := by
  induction pieces generalizing reader with
  | nil =>
    unfold receive at given ⊢
    cases look : Frame.next reader.limit reader.buffer with
    | error cause => simp [look] at given
    | ok answer =>
      cases answer with
      | some found =>
        have shorter := Frame.length_rest_lt_of_next look
        simpa [outstanding] using shorter
      | none =>
        simp only [look, outcome] at given
        split at given
        · simp at given
        · split at given <;> simp at given
  | cons piece pieces ih =>
    unfold receive at given ⊢
    cases look : Frame.next reader.limit reader.buffer with
    | error cause => simp [look] at given
    | ok answer =>
      cases answer with
      | some found =>
        have shorter := Frame.length_rest_lt_of_next look
        simp only [outstanding]
        omega
      | none =>
        simp only [look] at given
        have smaller := ih given
        simp only
        refine Nat.lt_of_lt_of_le smaller ?_
        simp only [outstanding, feed, List.length_append, List.flatten_cons]
        omega

/-- The frames of a stream after those already given out, and how it ends. -/
def receiveAfter (ending : StreamEnding) (given : List Datagram)
    (reader : FrameReader)
    (pieces : List (List UInt8)) : List Datagram × Option StreamError :=
  match _answer : reader.receive ending pieces with
  | ⟨.ok (some body), reader, pieces⟩ =>
    receiveAfter ending (body :: given) reader pieces
  | ⟨.ok none, _, _⟩ => (given.reverse, none)
  | ⟨.error failure, _, _⟩ => (given.reverse, some failure)
termination_by reader.outstanding pieces
decreasing_by
  have smaller := outstanding_receive_lt (congrArg Receipt.result _answer)
  rw [_answer] at smaller
  exact smaller

/-- All frames of a stream, and the failure it ends with unless it ends well. -/
def receiveAll (reader : FrameReader) (ending : StreamEnding)
    (pieces : List (List UInt8)) : List Datagram × Option StreamError :=
  receiveAfter ending [] reader pieces

end FrameReader

end ChannelRouter
