import ChannelRouter.Metrics
import ChannelRouter.Transport.FrameReader

/-!
# The link to a parent over a stream

What the director queues for its parent is written to a stream, and what the
parent writes to it is queued at the director.  Either side failing loses the
link for good: then nothing more is written, and nothing more is read.
-/

namespace ChannelRouter

/-- A director whose link to the parent runs over a stream. -/
structure Federation where
  director : Director
  metrics : Metrics
  /-- Whether the parent takes what is written. -/
  writable : Bool
deriving DecidableEq, Repr

namespace Federation

/-- A director whose link has just been made. -/
def start (capacity : Nat) : Federation where
  director := Director.start capacity (some .new)
  metrics := .start false
  writable := true

/-- Whether the link is lost. -/
def lost (federation : Federation) : Bool :=
  (federation.director.router.parent.map ParentLink.lost).getD true

/-- Lose the link. -/
def lose (federation : Federation) : Federation :=
  { federation with
    director :=
      { federation.director with
        router := federation.director.router.updateParent .lose } }

/-- Write a datagram to the parent, telling whether it got there. -/
def write (federation : Federation) (body : Datagram) : Bool × Federation :=
  if federation.lost then (false, federation)
  else if federation.writable then
    (true,
      { federation with metrics := federation.metrics.carried .toParent body })
  else
    (false, { federation with
      metrics := federation.metrics.faulted .parentWrite }.lose)

/-- The datagrams among outputs that are for the parent. -/
def parentBound (outputs : List Output) : List Datagram :=
  outputs.filterMap fun
    | .toParent body => some body
    | _ => none

/-- Take over a director and write to the parent what it queued for it. -/
def absorb (federation : Federation) (emitting : Emitting Director) :
    List Output × Federation :=
  (emitting.outputs,
    (parentBound emitting.outputs).foldl
      (fun federation body => (federation.write body).2)
      { federation with director := emitting.value })

/-- Queue a datagram and dispatch what is queued. -/
def handle (federation : Federation) (queued : Queued) :
    List Output × Federation :=
  match federation.director.enqueue queued with
  | .error _ => ([], federation)
  | .ok emitting => federation.absorb (emitting >>= Director.dispatch)

/--
Handle what the parent sends, one datagram after the other.  If one is refused,
the link is lost and nothing more is read.
-/
def receive (federation : Federation) : List Datagram → List Output × Federation
  | [] => ([], federation)
  | body :: others =>
    let federation :=
      { federation with metrics := federation.metrics.carried .fromParent body }
    match federation.director.enqueue ⟨body, none⟩ with
    | .error _ => ([], federation.lose)
    | .ok emitting =>
      let (outputs, federation) :=
        federation.absorb (emitting >>= Director.dispatch)
      let (more, federation) := federation.receive others
      (outputs ++ more, federation)

/-- The parent writes pieces of a stream and then closes it. -/
def receiveStream (federation : Federation) (limit : Nat)
    (pieces : List (List UInt8)) : List Output × Federation :=
  let (bodies, failure) := (FrameReader.start limit).receiveAll .closed pieces
  let (outputs, federation) := federation.receive bodies
  let federation :=
    if failure.isSome then
      { federation with metrics := federation.metrics.faulted .parentRead }
    else federation
  (outputs, federation.lose)

/-- The parent writes pieces of a stream and then takes nothing more. -/
def receiveHalted (federation : Federation) (limit : Nat)
    (pieces : List (List UInt8)) : List Output × Federation :=
  let (bodies, failure) := (FrameReader.start limit).receiveAll .silent pieces
  let (outputs, federation) := federation.receive bodies
  let federation := { federation with writable := false }
  match failure with
  | some (.malformed _) =>
    (outputs,
      { federation with metrics :=
        federation.metrics.faulted .parentRead }.lose)
  | _ => (outputs, federation)

end Federation

end ChannelRouter
