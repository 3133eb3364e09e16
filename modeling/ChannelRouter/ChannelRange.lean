import ChannelRouter.FormatError

/-!
# Channel ranges

A channel range is a closed, non-empty run of channels.  That it does not end
before it begins is part of the type, so every operation that makes a range
from others has to say why its ends are in order.

The module holds the comparisons of two ranges, the cutting of one range along
another, and the joining of a list of ranges into its maximal runs.  The ends
that cutting computes never leave the address space: a channel is only
decremented above another channel and only incremented below one.
-/

namespace ChannelRouter

/-- Every channel from the first to the last. -/
structure ChannelRange where
  first : Channel
  last : Channel
  first_le_last : first ≤ last
deriving DecidableEq, Repr

namespace ChannelRange

/-- Make a range from its ends, refusing ends in the wrong order. -/
def ofEnds (first last : Channel) : Except FormatError ChannelRange :=
  if ordered : first ≤ last then .ok ⟨first, last, ordered⟩
  else .error (.invertedRange first last)

/-- The range of one channel. -/
def single (channel : Channel) : ChannelRange :=
  ⟨channel, channel, UInt64.le_refl channel⟩

/-- Whether a channel lies in the range. -/
def contains (range : ChannelRange) (channel : Channel) : Bool :=
  range.first ≤ channel && channel ≤ range.last

/-- Whether two ranges share a channel. -/
def overlaps (range other : ChannelRange) : Bool :=
  range.first ≤ other.last && other.first ≤ range.last

/-- Whether every channel of the other range lies in this one. -/
def encloses (range other : ChannelRange) : Bool :=
  range.first ≤ other.first && other.last ≤ range.last

/-- Whether the range lies wholly below the other. -/
def precedes (range other : ChannelRange) : Bool :=
  range.last < other.first

/-- The order of ranges: by first channel, then by last. -/
def order (range other : ChannelRange) : Ordering :=
  (compare range.first other.first).then (compare range.last other.last)

/-- The range in interval notation. -/
def text (range : ChannelRange) : String :=
  s!"[{range.first.toNat}, {range.last.toNat}]"

theorem greatest_first_le_least_last {range other : ChannelRange}
    (overlap : range.overlaps other = true) :
    (if range.first ≤ other.first then other.first else range.first) ≤
      (if range.last ≤ other.last then range.last else other.last) := by
  simp only [overlaps, Bool.and_eq_true, decide_eq_true_eq] at overlap
  have here := range.first_le_last
  have there := other.first_le_last
  split <;> split <;>
    first | exact here | exact there | exact overlap.1 | exact overlap.2

/-- The channels that two ranges share. -/
def meet? (range other : ChannelRange) : Option ChannelRange :=
  if overlap : range.overlaps other = true then
    some
      { first := if range.first ≤ other.first then other.first else range.first
        last := if range.last ≤ other.last then range.last else other.last
        first_le_last := greatest_first_le_least_last overlap }
  else none

theorem first_le_sub_one {range : ChannelRange} {channel : Channel}
    (above : range.first < channel) : range.first ≤ channel - 1 := by
  have step := Channel.toNat_sub_one_of_lt above
  rw [UInt64.lt_iff_toNat_lt] at above
  rw [UInt64.le_iff_toNat_le, step]
  omega

theorem add_one_le_last {range : ChannelRange} {channel : Channel}
    (below : channel < range.last) : channel + 1 ≤ range.last := by
  have step := Channel.toNat_add_one_of_lt below
  rw [UInt64.lt_iff_toNat_lt] at below
  rw [UInt64.le_iff_toNat_le, step]
  omega

/-- What the range has before the channel at which another begins. -/
def before (range : ChannelRange) (channel : Channel) : Option ChannelRange :=
  if above : range.first < channel then
    some ⟨range.first, channel - 1, first_le_sub_one above⟩
  else none

/-- What the range has after the channel at which another ends. -/
def after (range : ChannelRange) (channel : Channel) : Option ChannelRange :=
  if below : channel < range.last then
    some ⟨channel + 1, range.last, add_one_le_last below⟩
  else none

/--
Cut a range along the ends of another, giving its parts in ascending order.  A
range that shares no channel with the other stays in one part.
-/
def cutAlong (range other : ChannelRange) : List ChannelRange :=
  match range.meet? other with
  | none => [range]
  | some shared =>
    (range.before other.first).toList ++
      shared :: (range.after other.last).toList

/-- Whether the other range begins at the channel after this one's last. -/
def Touches (range other : ChannelRange) : Prop :=
  range.last < other.first ∧ range.last + 1 = other.first

instance (range other : ChannelRange) : Decidable (range.Touches other) :=
  inferInstanceAs (Decidable (_ ∧ _))

/-- Two touching ranges as one. -/
def joined (range other : ChannelRange) (touch : range.Touches other) :
    ChannelRange where
  first := range.first
  last := other.last
  first_le_last :=
    UInt64.le_trans range.first_le_last
      (UInt64.le_trans (UInt64.le_of_lt touch.1) other.first_le_last)

/--
Join the neighbours in an ascending list of ranges that touch, so that between
any two ranges of the result there is a channel in neither.
-/
def coalesce : List ChannelRange → List ChannelRange
  | [] => []
  | range :: rest =>
    match coalesce rest with
    | [] => [range]
    | next :: others =>
      if touch : range.Touches next then range.joined next touch :: others
      else range :: next :: others

end ChannelRange

end ChannelRouter
