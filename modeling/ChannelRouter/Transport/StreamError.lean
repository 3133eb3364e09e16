import ChannelRouter.FormatError

/-!
# Why a stream fails

A connection ends badly in a few ways: the peer hangs up inside a frame, nothing
happens for too long, a frame is refused, or the system reports a failure of
its own, whose wording is not ours.
-/

namespace ChannelRouter

/-- Why nothing more is read from, or written to, a connection. -/
inductive StreamError where
  /-- The peer hung up inside a frame. -/
  | closed
  /-- A read or a write took longer than allowed. -/
  | timedOut
  /-- A frame is not acceptable. -/
  | malformed (cause : FormatError)
  /-- The system could not do it. -/
  | failed
deriving DecidableEq, Repr

namespace StreamError

/-- The wording of a failure. -/
def message : StreamError → String
  | closed => "Connection closed"
  | timedOut => "Connection timed out"
  | malformed cause => "Protocol error: " ++ cause.message
  | failed => "I/O error"

end StreamError

end ChannelRouter
