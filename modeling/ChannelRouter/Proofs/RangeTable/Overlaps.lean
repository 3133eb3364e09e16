import ChannelRouter.Proofs.RangeTable.Piecewise
import Mathlib.Data.List.Count

/-!
# How many pieces overlap a range

Whatever is done to a range, no more pieces overlap another range than before,
if the two lie apart: the pieces that are cut are cut outside of it.  And a
piece that overlaps a range overlaps neither what the range has before it nor
what it has after it, and no other piece overlaps both.
-/

namespace ChannelRouter

namespace ChannelRange

variable {range other query part : ChannelRange}

theorem countP_toList_le_one {α : Type} (counts : α → Bool) (found : Option α) :
    found.toList.countP counts ≤ 1 := by
  cases found with
  | none => exact Nat.zero_le 1
  | some member => exact List.countP_le_length

theorem countP_toList_eq_zero
    {α : Type} {counts : α → Bool} {found : Option α}
    (none : ∀ member, found = some member → counts member = false) :
    found.toList.countP counts = 0 := by
  rw [List.countP_eq_zero]
  intro member listed
  rw [none member (Option.mem_toList.mp listed)]
  exact Bool.false_ne_true

/--
Of the parts of a range along one that lies apart from another, that other
overlaps one.
-/
theorem countP_cutAlong_le (apart : query.overlaps other = false) :
    (range.cutAlong other).countP query.overlaps ≤
      if query.overlaps range then 1 else 0 := by
  by_cases overlap : query.overlaps range = true
  · rw [if_pos overlap, cutAlong]
    split
    · exact List.countP_le_length
    · rename_i shared meeting
      have reached := (overlaps_iff _ _).mp (overlaps_of_meet? meeting)
      have order := other.first_le_last
      have sharedApart := apart_of_encloses (encloses_of_meet? meeting) apart
      rw [List.countP_append, List.countP_cons_of_neg (by simp [sharedApart])]
      -- The other range lies on one side of the cut.
      rcases (overlaps_eq_false_iff _ _).mp apart with above | below
      · have lowerNone :
            (range.before other.first).toList.countP query.overlaps = 0 := by
          apply countP_toList_eq_zero
          intro lower left
          have isBelow :=
            ((contains_of_before left reached.2 _).mp lower.contains_last).2
          refine (overlaps_eq_false_iff _ _).mpr (Or.inl ?_)
          exact UInt64.lt_trans (UInt64.lt_of_lt_of_le isBelow order) above
        rw [lowerNone, Nat.zero_add]
        exact countP_toList_le_one _ _
      · have upperNone :
            (range.after other.last).toList.countP query.overlaps = 0 := by
          apply countP_toList_eq_zero
          intro upper left
          have isAbove :=
            ((contains_of_after left reached.1 _).mp upper.contains_first).2
          refine (overlaps_eq_false_iff _ _).mpr (Or.inr ?_)
          exact UInt64.lt_trans (UInt64.lt_of_lt_of_le below order) isAbove
        rw [upperNone, Nat.add_zero]
        exact countP_toList_le_one _ _
  · rw [if_neg overlap, Nat.le_zero, List.countP_eq_zero]
    intro part listed inPart
    exact overlap
      (overlaps_of_encloses ((cutting_cutAlong other).encloses listed) inPart)

end ChannelRange

namespace RangeTable

variable {table : RangeTable} {range query : ChannelRange}

/-- How many pieces overlap a range. -/
def overlapCount (table : RangeTable) (range : ChannelRange) : Nat :=
  table.pieces.countP (range.overlaps ·.range)

/-! ## What an operation does to the count -/

theorem countP_flatMap_le
    {α β : Type} {members : List α} {parts : α → List β} {counts : β → Bool}
    {whole : α → Bool}
    (bounded : ∀ member, (parts member).countP counts ≤
      if whole member then 1 else 0) :
    (members.flatMap parts).countP counts ≤ members.countP whole := by
  induction members with
  | nil => exact Nat.le_refl 0
  | cons member others ih =>
      rw [List.flatMap_cons, List.countP_append, List.countP_cons, Nat.add_comm]
      exact Nat.add_le_add ih (bounded member)

theorem overlapCount_refine_le
    {parts : ChannelRange → List ChannelRange}
    (bounded : ∀ range,
      (parts range).countP query.overlaps ≤
        if query.overlaps range then 1 else 0) :
    (table.refine parts).overlapCount query ≤ table.overlapCount query := by
  refine countP_flatMap_le fun piece => ?_
  rw [List.countP_map]
  exact bounded piece.range

theorem WellFormed.overlapCount_add_le
    (wellFormed : table.WellFormed) (apart : query.overlaps range = false)
    (participant : Participant) :
    (table.add range participant).1.overlapCount query ≤
      table.overlapCount query := by
  have cutWellFormed := wellFormed.refine (ChannelRange.cutting_cutAlong range)
  refine Nat.le_trans ?_
    (overlapCount_refine_le fun _ => ChannelRange.countP_cutAlong_le apart)
  have withinNone :
      ((range.portions ((table.refine (·.cutAlong range)).inside range)).map
      (Portion.settle participant.id)).countP (query.overlaps ·.range) = 0 := by
    rw [List.countP_eq_zero]
    intro piece listed inPiece
    rcases List.mem_map.mp listed with ⟨portion, isPortion, rfl⟩
    rw [range_settle] at inPiece
    have within :=
      ChannelRange.encloses_of_mem_portions (cutWellFormed.fits_inside range)
      portion isPortion
    rw [ChannelRange.overlaps_of_encloses within inPiece] at apart
    cases apart
  have split := pieces_eq_of_uncut cutWellFormed.ascending
    (uncut_refine_cutAlong table range)
  show ((table.refine (·.cutAlong range)).settled range participant.id).countP
    _ ≤ _
  rw [overlapCount, split, settled]
  simp only [List.countP_append, withinNone]
  omega

/-- Letting go of pieces leaves no more of them. -/
theorem overlapCount_release_le
    (table : RangeTable) (id : ParticipantId)
    (condition : ChannelRange → Bool) :
    (table.release id condition).1.overlapCount query ≤
      table.overlapCount query := by
  rw [overlapCount, overlapCount, pieces_release, List.countP_filterMap]
  apply List.countP_mono_left
  intro piece _ overlaps
  cases released : piece.afterRelease id condition with
  | none => simp [released] at overlaps
  | some rest =>
      rw [released, Option.map_some, Option.getD_some,
        (Piece.afterRelease_of_eq_some released).1] at overlaps
      exact overlaps

theorem overlapCount_remove_le (apart : query.overlaps range = false)
    (id : ParticipantId) :
    (table.remove range id).1.overlapCount query ≤
      table.overlapCount query := by
  rw [remove_eq_release]
  refine Nat.le_trans (overlapCount_release_le _ id _)
    (overlapCount_refine_le fun piece => ?_)
  split
  · exact ChannelRange.countP_cutAlong_le apart
  · rw [List.countP_singleton]

theorem WellFormed.overlapCount_applyTask_le
    (wellFormed : table.WellFormed) (task : Task)
    (apart : query.overlaps range = false) :
    (task.apply table range).overlapCount query ≤ table.overlapCount query := by
  cases task with
  | add participant => exact wellFormed.overlapCount_add_le apart participant
  | remove id => exact overlapCount_remove_le apart id

/-! ## The count on both sides of a piece -/

theorem countP_overlaps_mono (within : range.encloses query = true)
    (pieces : List Piece) :
    pieces.countP (query.overlaps ·.range) ≤
      pieces.countP (range.overlaps ·.range) := by
  apply List.countP_mono_left
  intro piece _ overlap
  rw [ChannelRange.overlaps_comm] at overlap ⊢
  exact ChannelRange.overlaps_of_encloses within overlap

theorem countP_overlaps_eq_zero
    {pieces : List Piece}
    (apart : ∀ piece ∈ pieces, query.overlaps piece.range = false) :
    pieces.countP (query.overlaps ·.range) = 0 := by
  rw [List.countP_eq_zero]
  intro piece listed
  rw [apart piece listed]
  exact Bool.false_ne_true

theorem elim_zero_le
    {left : Option ChannelRange} {count : ChannelRange → Nat} {bound : Nat}
    (bounded : ∀ part, left = some part → count part ≤ bound) :
    left.elim 0 count ≤ bound := by
  cases left with
  | none => exact Nat.zero_le bound
  | some part => exact bounded part rfl

/--
What a range has on the two sides of a piece overlaps neither the piece nor one
piece twice.
-/
theorem WellFormed.overlapCount_sides_lt
    (wellFormed : table.WellFormed) {piece : Piece}
    (listed : piece ∈ table.pieces)
    (overlap : range.overlaps piece.range = true) :
    (range.before piece.range.first).elim 0 table.overlapCount +
        (range.after piece.range.last).elim 0 table.overlapCount <
      table.overlapCount range := by
  obtain ⟨lower, upper, split⟩ := List.append_of_mem listed
  have ascending := wellFormed.ascending
  rw [split] at ascending
  rcases List.pairwise_append.mp ascending with ⟨-, right, below⟩
  have above := (List.pairwise_cons.mp right).1
  have reached := (ChannelRange.overlaps_iff _ _).mp overlap
  have order := piece.range.first_le_last
  have beforeCount :
      (range.before piece.range.first).elim 0 table.overlapCount ≤
      lower.countP (range.overlaps ·.range) := by
    refine elim_zero_le fun part left => ?_
    have ends :=
      ((ChannelRange.contains_of_before left reached.2 _).mp
        part.contains_last).2
    have noneAbove : (piece :: upper).countP (part.overlaps ·.range) = 0 := by
      refine countP_overlaps_eq_zero fun other otherListed => ?_
      refine (ChannelRange.overlaps_eq_false_iff _ _).mpr (Or.inr ?_)
      rcases List.mem_cons.mp otherListed with rfl | isUpper
      · exact ends
      · have beyond := (ChannelRange.precedes_iff _ _).mp (above other isUpper)
        grind
    rw [overlapCount, split, List.countP_append, noneAbove, Nat.add_zero]
    exact countP_overlaps_mono
      (ChannelRange.before_encloses left reached.2) lower
  have afterCount : (range.after piece.range.last).elim 0 table.overlapCount ≤
      upper.countP (range.overlaps ·.range) := by
    refine elim_zero_le fun part left => ?_
    have begins :=
      ((ChannelRange.contains_of_after left reached.1 _).mp
        part.contains_first).2
    have notPiece : ¬ part.overlaps piece.range = true := by
      rw [Bool.not_eq_true, ChannelRange.overlaps_eq_false_iff]
      exact Or.inl begins
    have noneBelow : lower.countP (part.overlaps ·.range) = 0 := by
      refine countP_overlaps_eq_zero fun other isLower => ?_
      refine (ChannelRange.overlaps_eq_false_iff _ _).mpr (Or.inl ?_)
      have beyond := (ChannelRange.precedes_iff _ _).mp
        (below other isLower piece List.mem_cons_self)
      grind
    have onlyUpper : (piece :: upper).countP (part.overlaps ·.range) =
        upper.countP (part.overlaps ·.range) := List.countP_cons_of_neg notPiece
    rw [overlapCount, split, List.countP_append, noneBelow,
      Nat.zero_add, onlyUpper]
    exact countP_overlaps_mono
      (ChannelRange.after_encloses left reached.1) upper
  have total : table.overlapCount range =
      lower.countP (range.overlaps ·.range) +
        (upper.countP (range.overlaps ·.range) + 1) := by
    rw [overlapCount, split, List.countP_append]
    exact congrArg _ (List.countP_cons_of_pos overlap)
  omega

end RangeTable

end ChannelRouter
