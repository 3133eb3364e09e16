import ChannelRouter.Transport.StreamError
import ChannelRouter.Wire.Frame

/-!
# Writing frames to a stream

A writer frames datagrams and puts the frames on the wire in the order of the
calls.  A body too large to be framed is refused before anything of it is
written, so it does not disturb the frames around it.

A peer that does not read takes a limited number of bytes.  A frame that does
not fit fills what is left and times out.
-/

namespace ChannelRouter

/-- The bytes a connection takes from a writer while the peer does not read. -/
def windowSize : Nat := 65536

/-- The writing side of a connection. -/
structure FrameWriter where
  /-- What was put on the wire, frame by frame, the latest first. -/
  written : List (List UInt8)
  /--
  The bytes the peer still takes; without a number, it reads all the time.
  -/
  room : Option Nat
  isOpen : Bool
deriving DecidableEq, Repr

namespace FrameWriter

/--
How long a write may take unless something else is configured, in milliseconds.
-/
def defaultPatience : Nat := 5000

/-- A writer whose peer reads everything. -/
def start : FrameWriter := ⟨[], none, true⟩

/-- A writer whose peer reads nothing. -/
def stalled : FrameWriter := ⟨[], some windowSize, true⟩

/-- The bytes on the wire. -/
def wire (writer : FrameWriter) : List UInt8 := writer.written.reverse.flatten

/-- Put a frame on the wire, or as much of it as the peer takes. -/
def put (writer : FrameWriter) (frame : List UInt8) :
    Except StreamError Unit × FrameWriter :=
  match writer.room with
  | none => (.ok (), { writer with written := frame :: writer.written })
  | some room =>
    if frame.length ≤ room then
      (.ok (),
        { writer with written := frame ::
          writer.written, room := some (room - frame.length) })
    else
      (.error .timedOut,
        { writer with written := frame.take room ::
          writer.written, room := some 0 })

/-- Send a datagram. -/
def send (writer : FrameWriter) (body : Datagram) :
    Except StreamError Unit × FrameWriter :=
  match Frame.encode body with
  | .error cause => (.error (.malformed cause), writer)
  | .ok frame =>
    if writer.isOpen then writer.put frame else (.error .failed, writer)

/-- Send nothing more. -/
def close (writer : FrameWriter) : FrameWriter :=
  { writer with isOpen := false }

end FrameWriter

end ChannelRouter
