import ChannelRouter.Proofs.ChannelRange
import ChannelRouter.Subscription.RangeTable
import Mathlib.Data.List.Sort

/-!
# The portions of a range

Given the pieces that lie inside a range, the portions of the range are these
pieces and the vacant runs between them: they stand in ascending order, contain
every channel of the range between them, and no channel twice.
-/

namespace ChannelRouter

namespace ChannelRange

theorem encloses_refl (range : ChannelRange) : range.encloses range = true :=
  (encloses_iff _ _).mpr ⟨UInt64.le_refl _, UInt64.le_refl _⟩

theorem encloses_trans
    {outer middle inner : ChannelRange}
    (outside : outer.encloses middle = true)
    (inside : middle.encloses inner = true) :
    outer.encloses inner = true := by
  rw [encloses_iff_forall] at *
  intro channel inInner
  exact outside channel (inside channel inInner)

/-- Parts of two ranges in order are in order themselves. -/
theorem precedes_of_encloses
    {lower upper lowerPart upperPart : ChannelRange}
    (order : lower.precedes upper = true)
    (lowerInside : lower.encloses lowerPart = true)
    (upperInside : upper.encloses upperPart = true) :
    lowerPart.precedes upperPart = true := by
  simp only [precedes_iff, encloses_iff] at *
  grind

theorem before_encloses
    {range part : ChannelRange} {channel : Channel}
    (left : range.before channel = some part)
    (reached : channel ≤ range.last) :
    range.encloses part = true := by
  rw [encloses_iff_forall]
  intro other inPart
  exact ((contains_of_before left reached other).mp inPart).1

theorem after_encloses
    {range part : ChannelRange} {channel : Channel}
    (left : range.after channel = some part)
    (reached : range.first ≤ channel) :
    range.encloses part = true := by
  rw [encloses_iff_forall]
  intro other inPart
  exact ((contains_of_after left reached other).mp inPart).1

/-- A range above one inside lies in what is left after it. -/
theorem after_encloses_of_precedes
    {range piece other rest : ChannelRange}
    (left : range.after piece.last = some rest)
    (inside : range.encloses piece = true)
    (otherInside : range.encloses other = true)
    (order : piece.precedes other = true) :
    rest.encloses other = true := by
  have reached : range.first ≤ piece.last := by
    have pieceOrder := piece.first_le_last
    rw [encloses_iff] at inside
    grind
  rw [encloses_iff_forall] at *
  intro channel inOther
  rw [contains_of_after left reached]
  refine ⟨otherInside channel inOther, ?_⟩
  rw [precedes_iff] at order
  rw [contains_iff] at inOther
  exact UInt64.lt_of_lt_of_le order inOther.1

/-- Nothing above a piece lies inside when nothing is left after the piece. -/
theorem not_encloses_of_after_eq_none
    {range piece other : ChannelRange}
    (exhausted : range.after piece.last = none)
    (order : piece.precedes other = true) :
    range.encloses other = false := by
  by_contra inside
  rw [Bool.not_eq_false, encloses_iff] at inside
  rw [after_eq_none_iff] at exhausted
  rw [precedes_iff] at order
  have otherOrder := other.first_le_last
  grind

end ChannelRange

/-- The piece that takes a portion. -/
def Portion.taken? : Portion → Option Piece
  | vacant _ => none
  | taken piece => some piece

/-- Pieces in ascending order, no two of which share a channel. -/
def Piece.Ascending (pieces : List Piece) : Prop :=
  pieces.Pairwise (·.range.precedes ·.range = true)

namespace ChannelRange

/--
Pieces in ascending order inside a range, as the portions of the range find
them: after the lowest piece either nothing is left of the range, and it is the
last piece, or the others fit into what is left.
-/
inductive Fits : ChannelRange → List Piece → Prop where
  | vacant (range : ChannelRange) : Fits range []
  | exhausted {range : ChannelRange} {piece : Piece}
      (inside : range.encloses piece.range = true)
      (exhausted : range.after piece.range.last = none) :
      Fits range [piece]
  | continued {range rest : ChannelRange} {piece : Piece} {others : List Piece}
      (inside : range.encloses piece.range = true)
      (continued : range.after piece.range.last = some rest)
      (fits : Fits rest others) :
      Fits range (piece :: others)

theorem fits_of_ascending
    {range : ChannelRange} {pieces : List Piece}
    (ascending : Piece.Ascending pieces)
    (inside : ∀ piece ∈ pieces, range.encloses piece.range = true) :
    Fits range pieces := by
  induction pieces generalizing range with
  | nil => exact .vacant range
  | cons piece others ih =>
      rcases List.pairwise_cons.mp ascending with ⟨below, othersAscending⟩
      have pieceInside := inside piece List.mem_cons_self
      cases left : range.after piece.range.last with
      | none =>
          cases others with
          | nil => exact .exhausted pieceInside left
          | cons next later =>
              have outside :=
                not_encloses_of_after_eq_none left
                  (below next List.mem_cons_self)
              rw [inside next (by simp)] at outside
              cases outside
      | some rest =>
          refine .continued pieceInside left (ih othersAscending ?_)
          intro other listed
          exact after_encloses_of_precedes left pieceInside
            (inside other (List.mem_cons_of_mem _ listed)) (below other listed)

theorem portions_of_exhausted
    {range : ChannelRange} {piece : Piece}
    (exhausted : range.after piece.range.last = none) :
    range.portions [piece] =
      (range.before piece.range.first).toList.map .vacant ++
        [.taken piece] := by
  simp [portions, exhausted]

theorem portions_of_continued
    {range rest : ChannelRange} {piece : Piece} (others : List Piece)
    (continued : range.after piece.range.last = some rest) :
    range.portions (piece :: others) =
      (range.before piece.range.first).toList.map .vacant ++
        .taken piece :: rest.portions others := by
  simp [portions, continued]

theorem first_le_of_encloses
    {range inner : ChannelRange} (inside : range.encloses inner = true) :
    range.first ≤ inner.last := by
  rw [encloses_iff] at inside
  exact UInt64.le_trans inside.1 inner.first_le_last

theorem le_last_of_encloses
    {range inner : ChannelRange} (inside : range.encloses inner = true) :
    inner.first ≤ range.last := by
  rw [encloses_iff] at inside
  exact UInt64.le_trans inner.first_le_last inside.2

variable {range : ChannelRange} {pieces : List Piece}

theorem encloses_of_mem_portions
    (fits : Fits range pieces) :
    ∀ portion ∈ range.portions pieces, range.encloses portion.range = true := by
  induction fits with
  | vacant range =>
      intro portion listed
      rw [portions, List.mem_singleton] at listed
      subst listed
      exact encloses_refl range
  | exhausted inside exhausted =>
      intro portion listed
      rw [portions_of_exhausted exhausted] at listed
      simp only [List.mem_append, List.mem_map, Option.mem_toList,
        List.mem_singleton] at listed
      rcases listed with ⟨part, left, rfl⟩ | rfl
      · exact before_encloses left (le_last_of_encloses inside)
      · exact inside
  | continued inside continued fits ih =>
      intro portion listed
      rw [portions_of_continued _ continued] at listed
      simp only [List.mem_append, List.mem_map, Option.mem_toList,
        List.mem_cons] at listed
      rcases listed with ⟨part, left, rfl⟩ | rfl | later
      · exact before_encloses left (le_last_of_encloses inside)
      · exact inside
      · exact encloses_trans
          (after_encloses continued (first_le_of_encloses inside))
            (ih portion later)

/-- The portions stand in ascending order. -/
theorem pairwise_portions
    (fits : Fits range pieces) :
    (range.portions pieces).Pairwise (·.range.precedes ·.range = true) := by
  have leftBelow : ∀ {range inner part : ChannelRange},
      range.encloses inner = true →
      range.before inner.first = some part →
      part.precedes inner = true := by
    intro range inner part inside left
    refine precedes_of_forall fun lower upper inPart inInner => ?_
    have below :=
      ((contains_of_before left (le_last_of_encloses inside) lower).mp inPart).2
    exact UInt64.lt_of_lt_of_le below ((contains_iff _ _).mp inInner).1
  induction fits with
  | vacant range => simp [portions]
  | exhausted inside exhausted =>
      rename_i range piece
      rw [portions_of_exhausted exhausted]
      cases left : range.before piece.range.first with
      | none => simp
      | some part => simpa [Portion.range] using leftBelow inside left
  | continued inside continued fits ih =>
      rename_i range rest piece others
      rw [portions_of_continued _ continued]
      have restAbove : piece.range.precedes rest = true := by
        refine precedes_of_forall fun lower upper inPiece inRest => ?_
        have above :=
          ((contains_of_after continued (first_le_of_encloses inside) upper).mp
            inRest).2
        exact UInt64.lt_of_le_of_lt ((contains_iff _ _).mp inPiece).2 above
      have above : ∀ portion ∈ rest.portions others,
          piece.range.precedes portion.range = true := by
        intro portion listed
        exact precedes_of_encloses restAbove (encloses_refl _)
          (encloses_of_mem_portions fits portion listed)
      cases left : range.before piece.range.first with
      | none => exact List.pairwise_cons.mpr ⟨above, ih⟩
      | some part =>
          refine List.pairwise_cons.mpr ⟨?_, List.pairwise_cons.mpr ⟨above, ih⟩⟩
          intro portion listed
          have below := leftBelow inside left
          rcases List.mem_cons.mp listed with rfl | later
          · exact below
          · exact precedes_trans below (above portion later)

/-- The portions contain every channel of the range between them. -/
theorem exists_mem_portions_iff
    (fits : Fits range pieces) (channel : Channel) :
    (∃ portion ∈ range.portions pieces, portion.range.contains channel = true) ↔
      range.contains channel = true := by
  constructor
  · rintro ⟨portion, listed, inPortion⟩
    exact (encloses_iff_forall _ _).mp
      (encloses_of_mem_portions fits portion listed) channel inPortion
  intro inRange
  have beforePiece : ∀ {range inner : ChannelRange},
      range.encloses inner = true →
      range.contains channel = true →
      channel < inner.first →
      ∃ part, range.before inner.first = some part ∧
        part.contains channel = true := by
    intro range inner inside inRange below
    cases left : range.before inner.first with
    | none =>
        rw [before_eq_none_iff] at left
        rw [contains_iff] at inRange
        exact absurd (UInt64.lt_of_le_of_lt inRange.1 below)
          (UInt64.not_lt.mpr left)
    | some part =>
        exact ⟨part, rfl,
          (contains_of_before left (le_last_of_encloses inside) channel).mpr
            ⟨inRange, below⟩⟩
  induction fits with
  | vacant range => exact ⟨.vacant range, by simp [portions], inRange⟩
  | exhausted inside exhausted =>
      rename_i range piece
      rw [portions_of_exhausted exhausted]
      by_cases below : channel < piece.range.first
      · rcases beforePiece inside inRange below with ⟨part, left, inPart⟩
        exact ⟨.vacant part, by simp [left], inPart⟩
      · refine ⟨.taken piece, by simp, ?_⟩
        rw [after_eq_none_iff] at exhausted
        rw [contains_iff] at inRange
        exact (contains_iff _ _).mpr
          ⟨UInt64.not_lt.mp below, UInt64.le_trans inRange.2 exhausted⟩
  | continued inside continued fits ih =>
      rename_i range rest piece others
      rw [portions_of_continued _ continued]
      by_cases below : channel < piece.range.first
      · rcases beforePiece inside inRange below with ⟨part, left, inPart⟩
        exact ⟨.vacant part, by simp [left], inPart⟩
      · by_cases above : piece.range.last < channel
        · have inRest :=
            (contains_of_after continued
              (first_le_of_encloses inside) channel).mpr ⟨inRange, above⟩
          rcases ih inRest with ⟨portion, listed, inPortion⟩
          exact ⟨portion, by simp [listed], inPortion⟩
        · refine ⟨.taken piece, by simp, ?_⟩
          exact (contains_iff _ _).mpr
            ⟨UInt64.not_lt.mp below, UInt64.not_lt.mp above⟩

/-- The pieces among the portions are those that were given. -/
theorem filterMap_taken?_portions
    (fits : Fits range pieces) :
    (range.portions pieces).filterMap Portion.taken? = pieces := by
  have vacantDropped : ∀ parts : List ChannelRange,
      (parts.map Portion.vacant).filterMap Portion.taken? = [] := by
    intro parts
    simp [List.filterMap_map, Function.comp_def, Portion.taken?]
  induction fits with
  | vacant range => rfl
  | exhausted inside exhausted =>
      rw [portions_of_exhausted exhausted, List.filterMap_append, vacantDropped]
      rfl
  | continued inside continued fits ih =>
      rw [portions_of_continued _ continued,
        List.filterMap_append, vacantDropped]
      exact congrArg (List.cons _) ih

theorem taken_mem_portions_iff
    (fits : Fits range pieces) (piece : Piece) :
    .taken piece ∈ range.portions pieces ↔ piece ∈ pieces := by
  conv_rhs => rw [← filterMap_taken?_portions fits, List.mem_filterMap]
  constructor
  · intro listed
    exact ⟨.taken piece, listed, rfl⟩
  · rintro ⟨portion, listed, same⟩
    cases portion with
    | vacant range => cases same
    | taken other =>
        cases same
        exact listed

/-- A channel in a vacancy lies in no piece. -/
theorem not_contains_of_vacant
    (fits : Fits range pieces) {vacancy : ChannelRange}
    (vacant : .vacant vacancy ∈ range.portions pieces)
    {piece : Piece} (listed : piece ∈ pieces)
    {channel : Channel} (inVacancy : vacancy.contains channel = true) :
    ¬ piece.range.contains channel = true := by
  intro inPiece
  have taken := (taken_mem_portions_iff fits piece).mpr listed
  cases eq_of_contains (pairwise_portions fits) vacant taken inVacancy inPiece

end ChannelRange

end ChannelRouter
