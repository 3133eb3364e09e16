import ChannelRouter.Transport.FrameWriter

/-!
# The writing side of a connection

Deliveries for a participant are written in their order.  A peer that reads gets
each one at once.  A peer that does not read has a window of limited size in
front of it: what fits goes into the window, the first datagram that does not
fit keeps the writer waiting, and later ones line up behind it.  A write that
waits too long fails, and after a failure nothing more is written.

Once the participant is gone the outlet finishes: it is closed when nothing is
waiting any more.
-/

namespace ChannelRouter

/-- How far the life of an outlet has come. -/
inductive OutletStage where
  | writing
  /-- The next write will fail. -/
  | failing
  /-- A write has failed. -/
  | broken
  /-- Everything was written, and the peer is told that nothing follows. -/
  | closed
deriving DecidableEq, Repr

/-- What is in front of a peer that does not read. -/
structure Window where
  /-- The bytes that still fit. -/
  room : Nat
  /-- The datagrams it holds whole, the latest first. -/
  unread : List Datagram
deriving DecidableEq, Repr

/-- A write that has not succeeded yet, and what lines up behind it. -/
structure Waiting where
  body : Datagram
  /-- When the write fails. -/
  deadline : Nat
  behind : List Datagram
deriving DecidableEq, Repr

/-- The writing side of a connection. -/
structure Outlet where
  stage : OutletStage
  /-- The window in front of a peer that does not read. -/
  window : Option Window
  waiting : Option Waiting
  /-- The bytes the peer has of a frame that was not written to its end. -/
  torn : Nat
  /-- Whether the participant is gone. -/
  finishing : Bool
  /-- Whether the peer left before it saw the end. -/
  deserted : Bool
deriving DecidableEq, Repr

/-- What an operation on an outlet brings about. -/
structure OutletEffect where
  outlet : Outlet
  /-- The datagrams that were written. -/
  written : List Datagram
  /-- The datagrams that reached the peer. -/
  arrived : List Datagram
  /-- Whether a write failed. -/
  failed : Bool
deriving DecidableEq, Repr

namespace Outlet

/-- An outlet to a peer that reads. -/
def start : Outlet := ⟨.writing, none, none, 0, false, false⟩

/-- An outlet to a peer that does not read. -/
def deaf : Outlet := { start with window := some ⟨windowSize, []⟩ }

/-- Nothing is brought about beyond a new state. -/
def quietly (outlet : Outlet) : OutletEffect := ⟨outlet, [], [], false⟩

/-- A write fails. -/
def fail (outlet : Outlet) : OutletEffect :=
  { outlet.quietly with
    outlet := { outlet with stage := .broken, waiting := none }
    failed := true }

/-- Close the outlet if its participant is gone and nothing is waiting. -/
def settle (outlet : Outlet) : Outlet :=
  if outlet.finishing && outlet.waiting.isNone then
    match outlet.stage with
    | .writing | .failing => { outlet with stage := .closed }
    | .broken | .closed => outlet
  else outlet

/-- The bytes of a datagram's frame. -/
def frameSize (body : Datagram) : Nat := Frame.countWidth + body.length

/-- Write into the window, or begin to wait until the given time. -/
def fill (outlet : Outlet) (window : Window) (deadline : Nat)
    (body : Datagram) : OutletEffect :=
  if frameSize body ≤ window.room then
    { outlet.quietly with
      outlet :=
        { outlet with
          window := some ⟨window.room - frameSize body, body :: window.unread⟩ }
      written := [body] }
  else
    { outlet with
      window := some { window with room := 0 }
      waiting := some ⟨body, deadline, []⟩
      torn := window.room }.quietly

/-- Write a datagram, which may take until the given time. -/
def write (outlet : Outlet) (deadline : Nat) (body : Datagram) : OutletEffect :=
  match outlet.stage with
  | .broken | .closed => outlet.quietly
  | .failing => outlet.fail
  | .writing =>
    match outlet.window, outlet.waiting with
    | none, _ => ⟨outlet, [body], [body], false⟩
    | some window, none => outlet.fill window deadline body
    | some _, some waiting =>
      { outlet with
        waiting :=
          some { waiting with behind := waiting.behind ++ [body] } }.quietly

/-- Fail a write that has waited until now. -/
def expire (outlet : Outlet) (now : Nat) : OutletEffect :=
  match outlet.waiting with
  | some waiting =>
    if waiting.deadline ≤ now then outlet.fail else outlet.quietly
  | none => outlet.quietly

/-- The peer begins to read. -/
def listen (outlet : Outlet) : OutletEffect :=
  match outlet.window with
  | none => outlet.quietly
  | some window =>
    if outlet.deserted then outlet.quietly
    else
      match outlet.waiting with
      | none =>
        ⟨{ outlet with window := none }, [], window.unread.reverse, false⟩
      | some waiting =>
        ⟨{ outlet with window := none, waiting := none, torn := 0 }.settle,
          waiting.body :: waiting.behind,
          window.unread.reverse ++ waiting.body :: waiting.behind, false⟩

/-- Whether a peer that reads sees the end of what is written. -/
def isOver (outlet : Outlet) : Bool :=
  match outlet.stage, outlet.window with
  | .broken, none | .closed, none => !outlet.deserted
  | _, _ => false

/--
The peer takes nothing more: a waiting write fails now, the next one later.
-/
def sever (outlet : Outlet) : OutletEffect :=
  let deserted := { outlet with deserted := !outlet.isOver }
  match outlet.stage with
  | .writing =>
    if outlet.waiting.isSome then deserted.fail
    else { deserted with stage := .failing }.quietly
  | _ => deserted.quietly

/-- The participant is gone. -/
def finish (outlet : Outlet) : Outlet :=
  { outlet with finishing := true }.settle

/-- The bytes of an incomplete frame that a peer that reads has. -/
def partialBytes (outlet : Outlet) : Nat :=
  match outlet.window with
  | none => outlet.torn
  | some _ => 0

end Outlet

end ChannelRouter
