import ChannelRouter.Wire.Word

/-!
# Participants and what reaches them

A participant is anything that can hold subscriptions.  The router knows it by
an identifier; the incarnation tells apart participants that were registered
under one identifier at different times.

Routing has three kinds of consequence outside the router itself: a datagram is
handed to a participant, a datagram is queued for the parent, or a participant
is expelled.  `Emitting` pairs a value with such consequences, in their order.
-/

namespace ChannelRouter

/--
The number under which a participant is known.  Numbers are given out in a word
of 64 bits, one after the other, and begin again after the last.  Here they go
on, and it takes `2 ^ 64` newcomers to see the difference.
-/
abbrev ParticipantId := Nat

/-- A receiver of datagrams. -/
structure Participant where
  id : ParticipantId
  incarnation : Nat
deriving DecidableEq, Repr

/-- The identifier of the link to a parent, which no participant is given. -/
def parentId : ParticipantId := 0

/-- A consequence of routing outside the router. -/
inductive Output where
  | deliver (receiver : Participant) (body : Datagram)
  | toParent (body : Datagram)
  | expel (participant : Participant) (reason : String)
deriving DecidableEq, Repr

/-- A value together with the outputs that came about while computing it. -/
structure Emitting (α : Type) where
  value : α
  outputs : List Output
deriving DecidableEq, Repr

namespace Emitting

/-- Outputs alone. -/
def emit (outputs : List Output) : Emitting Unit := ⟨(), outputs⟩

/-- Continue with the value, after the outputs so far. -/
def andThen {α β : Type} (first : Emitting α) (next : α → Emitting β) :
    Emitting β :=
  ⟨(next first.value).value, first.outputs ++ (next first.value).outputs⟩

instance : Monad Emitting where
  pure value := ⟨value, []⟩
  bind := andThen

instance : LawfulMonad Emitting :=
  .mk' Emitting
    (fun computation => by simp [Functor.map, andThen])
    (fun value next => by simp [Bind.bind, Pure.pure, andThen])
    (fun first second third => by simp [Bind.bind, andThen, List.append_assoc])

end Emitting

end ChannelRouter
