import ChannelRouter.Ascending
import ChannelRouter.ChannelRange
import ChannelRouter.Participant
import ChannelRouter.Table

/-!
# Range subscriptions

The channels that anybody holds by a range are kept as disjoint pieces in
ascending order.  A piece carries the set of participants that hold all of it,
so a channel is resolved by finding the one piece it lies in.  Beside the
pieces stands an index from each participant to the pieces it holds.

Every operation first cuts pieces along the ends of the range it is about, in
the pieces and in the index alike; then every remaining piece lies wholly inside
that range or wholly outside.  Adding fills the portions of the range that no
piece takes and enters the participant into the others.  Removing takes the
participant out of the pieces inside, and a piece nobody holds is dropped.

An operation reports the portions that gained a first holder or lost the last
one, as maximal runs.
-/

namespace ChannelRouter

/-- A run of channels that the same participants hold. -/
structure Piece where
  range : ChannelRange
  /-- The holders, in ascending order. -/
  holders : List ParticipantId
deriving DecidableEq, Repr

namespace Piece

/-- The piece with one more holder. -/
def enter (id : ParticipantId) (piece : Piece) : Piece :=
  { piece with holders := Ascending.insert id piece.holders }

/-- The piece with one holder less, unless nobody is left. -/
def leave? (id : ParticipantId) (piece : Piece) : Option Piece :=
  match Ascending.erase id piece.holders with
  | [] => none
  | others => some { piece with holders := others }

end Piece

/-- A part of a range: one that no piece takes, or a piece. -/
inductive Portion where
  | vacant (range : ChannelRange)
  | taken (piece : Piece)
deriving DecidableEq, Repr

namespace Portion

/-- The channels of a portion. -/
def range : Portion → ChannelRange
  | vacant range => range
  | taken piece => piece.range

/-- The channels of a portion that nobody holds. -/
def vacancy? : Portion → Option ChannelRange
  | vacant range => some range
  | taken _ => none

/-- The piece a portion becomes when a participant takes hold of it. -/
def settle (id : ParticipantId) : Portion → Piece
  | vacant range => ⟨range, [id]⟩
  | taken piece => piece.enter id

end Portion

/--
The portions of a range, in ascending order, given the pieces inside it in
ascending order: each piece, and the runs of channels between them.
-/
def ChannelRange.portions (range : ChannelRange) : List Piece → List Portion
  | [] => [.vacant range]
  | piece :: others =>
    ((range.before piece.range.first).toList.map .vacant) ++
      .taken piece ::
        (match range.after piece.range.last with
          | none => []
          | some rest => rest.portions others)

/-- What the index knows of a participant. -/
structure Holding where
  /-- Where deliveries for its ranges go. -/
  contact : Participant
  /-- The pieces it holds, in ascending order. -/
  pieces : List ChannelRange
deriving DecidableEq, Repr

/-- The portions whose coverage an operation changed. -/
structure CoverageChange where
  /-- What had no holder and has one now. -/
  added : List ChannelRange
  /-- What had a holder and has none now. -/
  removed : List ChannelRange
deriving DecidableEq, Repr

namespace CoverageChange

/-- Whether no channel changed. -/
def isEmpty (change : CoverageChange) : Bool :=
  change.added.isEmpty && change.removed.isEmpty

end CoverageChange

/-- The pieces held by ranges, and the index of their holders. -/
structure RangeTable where
  pieces : List Piece
  index : Table ParticipantId Holding
deriving DecidableEq, Repr

namespace RangeTable

/-- The table in which nobody holds a range. -/
def empty : RangeTable := ⟨[], ∅⟩

/-- The pieces the index lists for a participant. -/
def indexed (table : RangeTable) (id : ParticipantId) : List ChannelRange :=
  ((table.index.get? id).map Holding.pieces).getD []

/-- Replace each piece by parts of it, in the pieces and in the index. -/
def refine (parts : ChannelRange → List ChannelRange) (table : RangeTable) :
    RangeTable where
  pieces := table.pieces.flatMap fun piece =>
    (parts piece.range).map fun range => { piece with range }
  index := table.index.map fun holding =>
    { holding with pieces := holding.pieces.flatMap parts }

/-- The pieces wholly inside a range. -/
def inside (table : RangeTable) (range : ChannelRange) : List Piece :=
  table.pieces.filter (range.encloses ·.range)

/-- Put ranges in place of all that an ascending list has inside a range. -/
def overlay (range : ChannelRange) (within : List ChannelRange)
    (ranges : List ChannelRange) : List ChannelRange :=
  ranges.filter (·.precedes range) ++ within ++ ranges.filter range.precedes

/-- Subscribe a participant to every channel of a range. -/
def add (table : RangeTable) (range : ChannelRange)
    (participant : Participant) : RangeTable × CoverageChange :=
  let cut := table.refine (·.cutAlong range)
  let portions := range.portions (cut.inside range)
  let contact :=
    ((cut.index.get? participant.id).map Holding.contact).getD participant
  ( { pieces :=
        cut.pieces.filter (·.range.precedes range) ++
          portions.map (Portion.settle participant.id) ++
          cut.pieces.filter (range.precedes ·.range)
      index := cut.index.insert participant.id
        { contact
          pieces := overlay range (portions.map Portion.range)
            (cut.indexed participant.id) } },
    { added := ChannelRange.coalesce (portions.filterMap Portion.vacancy?)
      removed := [] } )

/-- Take a participant out of the pieces that satisfy a condition. -/
def release (table : RangeTable) (id : ParticipantId)
    (condition : ChannelRange → Bool) : RangeTable × CoverageChange :=
  let kept := (table.indexed id).filter fun range => !condition range
  ( { pieces := table.pieces.filterMap fun piece =>
        if condition piece.range then piece.leave? id else some piece
      index :=
        match table.index.get? id with
        | none => table.index
        | some holding =>
          if kept.isEmpty then table.index.erase id
          else table.index.insert id { holding with pieces := kept } },
    { added := []
      removed := ChannelRange.coalesce
        ((table.pieces.filter fun piece =>
          condition piece.range &&
            (piece.leave? id).isNone).map Piece.range) } )

/--
Unsubscribe a participant from every channel of a range.  Only pieces it holds
are cut; portions it does not hold stay as they are.
-/
def remove (table : RangeTable) (range : ChannelRange) (id : ParticipantId) :
    RangeTable × CoverageChange :=
  let held := (table.indexed id).filter range.overlaps
  let cut := table.refine fun piece =>
    if held.contains piece then piece.cutAlong range else [piece]
  cut.release id range.encloses

/-- Drop every range a participant holds. -/
def removeHolder (table : RangeTable) (id : ParticipantId) :
    RangeTable × CoverageChange :=
  table.release id fun _ => true

/-- The piece a channel lies in. -/
def covering? (table : RangeTable) (channel : Channel) : Option Piece :=
  table.pieces.find? (·.range.contains channel)

/-- The participants that hold a channel by a range, in ascending order. -/
def holdersAt (table : RangeTable) (channel : Channel) : List ParticipantId :=
  ((table.covering? channel).map Piece.holders).getD []

/-- Whether a participant holds a channel by a range. -/
def covers (table : RangeTable) (id : ParticipantId)
    (channel : Channel) : Bool :=
  (table.holdersAt channel).contains id

/-- Where deliveries for a channel go. -/
def resolve (table : RangeTable) (channel : Channel) : List Participant :=
  (table.holdersAt channel).filterMap fun id =>
    (table.index.get? id).map Holding.contact

/-- Hand a datagram to everybody who holds the channel, one of them excepted. -/
def send (table : RangeTable) (channel : Channel) (body : Datagram)
    (excluded : Option ParticipantId) : List Output :=
  ((table.resolve channel).filter (some ·.id ≠ excluded)).map
    (Output.deliver · body)

/-- The channels a participant holds by ranges, as maximal runs. -/
def rangesOf (table : RangeTable) (id : ParticipantId) : List ChannelRange :=
  ChannelRange.coalesce (table.indexed id)

/-- The number of pieces. -/
def pieceCount (table : RangeTable) : Nat := table.pieces.length

/-- The number of participants that hold a range. -/
def holderCount (table : RangeTable) : Nat := table.index.size

/-- Whether nobody holds a range. -/
def isEmpty (table : RangeTable) : Bool := table.pieces.isEmpty

/-- A summary in one line. -/
def summary (table : RangeTable) : String :=
  s!"RangeMap \x7b intervals: {table.pieceCount}, subscribers: {table.holderCount} \x7d"

end RangeTable

end ChannelRouter
