import ChannelRouter.Proofs.RangeTable.Division
import ChannelRouter.Proofs.RangeTable.Queries

/-!
# What an operation leaves alone

Adding and removing leave the pieces alone that lie apart from the range, and
removing leaves those alone that the participant does not hold, also where the
range cuts across them.

An operation that has nothing to do changes nothing at all: removing a range of
which the participant covers no channel, and adding one that it covers and that
cuts no piece.  After an operation this is so for the same operation again.
-/

namespace ChannelRouter

namespace Piece

/-- A piece is left as it is by a participant that does not hold it. -/
theorem leave?_of_not_mem
    {id : ParticipantId} {piece : Piece} (held : piece.holders ≠ [])
    (stranger : id ∉ piece.holders) : piece.leave? id = some piece := by
  have same : Ascending.erase id piece.holders = piece.holders := by
    rw [Ascending.erase, List.filter_eq_self]
    intro holder member
    exact decide_eq_true fun isStranger => stranger (isStranger ▸ member)
  rw [leave?, same]
  split
  · rename_i nobody
    exact absurd nobody held
  · rfl

theorem afterRelease_of_not_released
    {id : ParticipantId} {condition : ChannelRange → Bool} {piece : Piece}
    (held : piece.holders ≠ [])
    (kept : condition piece.range = true → id ∉ piece.holders) :
    piece.afterRelease id condition = some piece := by
  rw [afterRelease]
  split
  · rename_i inKind
    exact leave?_of_not_mem held (kept inKind)
  · rfl

end Piece

theorem ChannelRange.overlaps_of_enclosed
    {range other : ChannelRange} (within : range.encloses other = true) :
    range.overlaps other = true := by
  rw [overlaps_iff_exists]
  exact ⟨other.first,
    (encloses_iff_forall _ _).mp within _ other.contains_first,
    other.contains_first⟩

namespace RangeTable

variable {table : RangeTable} {range : ChannelRange} {id : ParticipantId}

/-! ## Pieces that stay as they are -/

/-- Adding leaves the pieces alone that lie apart from the range. -/
theorem WellFormed.mem_pieces_add
    (wellFormed : table.WellFormed) (participant : Participant) {piece : Piece}
    (listed : piece ∈ table.pieces)
    (apart : range.overlaps piece.range = false) :
    piece ∈ (table.add range participant).1.pieces := by
  have cutWellFormed := wellFormed.refine (ChannelRange.cutting_cutAlong range)
  have uncut : piece ∈ (table.refine (·.cutAlong range)).pieces :=
    (mem_pieces_refine_iff _ table piece).mpr
      ⟨piece, listed, ChannelRange.mem_cutAlong_of_spares (Or.inr apart), rfl⟩
  exact (cutWellFormed.mem_settled_iff range participant.id piece).mpr
    (Or.inl ⟨uncut, apart⟩)

/--
Removing leaves the pieces alone that the participant does not hold or that lie
apart from the range.
-/
theorem WellFormed.mem_pieces_remove
    (wellFormed : table.WellFormed) {piece : Piece}
    (listed : piece ∈ table.pieces)
    (untouched : id ∉ piece.holders ∨ range.overlaps piece.range = false) :
    piece ∈ (table.remove range id).1.pieces := by
  have notHeld :
      ¬ (id ∈ piece.holders ∧ range.overlaps piece.range = true) := by
    rintro ⟨member, overlap⟩
    rcases untouched with stranger | apart
    · exact stranger member
    · rw [overlap] at apart
      cases apart
  have uncut : piece ∈ (table.cutFor range id).pieces := by
    refine (mem_pieces_refine_iff _ table piece).mpr ⟨piece, listed, ?_, rfl⟩
    rw [if_neg]
    · exact List.mem_cons_self
    · rw [List.contains_iff_mem, List.mem_filter,
        wellFormed.range_mem_indexed_iff listed]
      exact notHeld
  rw [remove_eq_release, pieces_release, List.mem_filterMap]
  refine ⟨piece, uncut,
    Piece.afterRelease_of_not_released (wellFormed.held piece listed) ?_⟩
  intro within member
  exact notHeld ⟨member, ChannelRange.overlaps_of_enclosed within⟩

/-! ## Operations with nothing to do -/

theorem refine_singleton (table : RangeTable) :
    table.refine (fun range => [range]) = table := by
  simp [refine, Table.map]

/-- Letting go of pieces that the participant does not hold changes nothing. -/
theorem WellFormed.release_of_not_held
    (wellFormed : table.WellFormed) {condition : ChannelRange → Bool}
    (strange : ∀ range ∈ table.indexed id, condition range = false) :
    table.release id condition = (table, ⟨[], []⟩) := by
  have kept : ∀ piece ∈ table.pieces,
      condition piece.range = true → id ∉ piece.holders := by
    intro piece listed inKind member
    have notInKind :=
      strange _ ((wellFormed.range_mem_indexed_iff listed id).mpr member)
    rw [inKind] at notInKind
    cases notInKind
  have samePieces : (table.release id condition).1.pieces = table.pieces := by
    rw [pieces_release]
    calc table.pieces.filterMap (Piece.afterRelease id condition)
        = table.pieces.filterMap some :=
          List.filterMap_congr fun piece listed =>
          Piece.afterRelease_of_not_released (wellFormed.held piece listed)
            (kept piece listed)
      _ = table.pieces := List.filterMap_some
  have sameContacts : ∀ other,
      (table.release id condition).1.contact? other = table.contact? other := by
    intro other
    rw [contact?, get?_index_release]
    split
    · rename_i same
      subst same
      cases found : table.index.get? other with
      | none => rw [contact?, found, Option.bind_none]
      | some holding =>
          have allKept : holding.pieces.filter (fun range => !condition range) =
              holding.pieces := by
            rw [List.filter_eq_self]
            intro range listed
            rw [strange range (indexed_of_get? found ▸ listed), Bool.not_false]
          have nonempty := (wellFormed.holding other holding found).1
          rw [contact?, found, Option.bind_some, allKept,
            if_neg (mt List.isEmpty_iff.mp nonempty)]
    · rfl
  have sameTable : (table.release id condition).1 = table :=
    (wellFormed.release id condition).eq_of_pieces wellFormed
      samePieces sameContacts
  have nothingLost : (table.release id condition).2.removed = [] := by
    refine ChannelRange.eq_nil_of_forall_not_inSome fun channel isLost => ?_
    rcases (wellFormed.exists_mem_removed_release_iff id condition channel).mp
      isLost with ⟨covered, uncovered⟩
    rw [sameTable] at uncovered
    exact uncovered covered
  exact Prod.ext sameTable (congrArg (CoverageChange.mk []) nothingLost)

/-- Removing channels of which the participant covers none changes nothing. -/
theorem WellFormed.remove_of_not_covers
    (wellFormed : table.WellFormed)
    (strange : ∀ channel, range.contains channel = true →
      table.covers id channel = false) :
    table.remove range id = (table, ⟨[], []⟩) := by
  have apart : ∀ held ∈ table.indexed id, range.overlaps held = false := by
    intro held indexed
    rw [ChannelRange.overlaps_eq_false_iff_forall]
    intro channel inRange inHeld
    have covers :=
      (wellFormed.inSome_indexed_iff id channel).mp ⟨held, indexed, inHeld⟩
    rw [strange channel inRange] at covers
    cases covers
  have nothingHeld : (table.indexed id).filter range.overlaps = [] := by
    rw [List.filter_eq_nil_iff]
    intro held indexed
    rw [apart held indexed]
    exact Bool.false_ne_true
  have uncut : table.cutFor range id = table := by
    rw [RangeTable.cutFor, nothingHeld]
    exact refine_singleton table
  rw [remove_eq_release, uncut]
  apply wellFormed.release_of_not_held
  intro held indexed
  rw [← Bool.not_eq_true]
  intro within
  have overlap := ChannelRange.overlaps_of_enclosed within
  rw [apart held indexed] at overlap
  cases overlap

/--
Adding channels that the participant covers changes nothing if it cuts no piece.
-/
theorem WellFormed.add_of_covers
    (wellFormed : table.WellFormed) {participant : Participant}
    (uncut : table.Uncut range)
    (covered : ∀ channel, range.contains channel = true →
      table.covers participant.id channel = true) :
    table.add range participant = (table, ⟨[], []⟩) := by
  have afterWellFormed := wellFormed.add range participant
  have sameTable : (table.add range participant).1 = table := by
    apply afterWellFormed.eq_of_pieces wellFormed
    · apply afterWellFormed.pieces_eq wellFormed
      · intro id channel
        rw [Bool.eq_iff_iff, wellFormed.covers_add, or_iff_right_iff_imp]
        rintro ⟨rfl, inRange⟩
        exact covered channel inRange
      · intro segment
        rw [wellFormed.undivided_add_iff]
        constructor
        · rintro ⟨_, undivided | ⟨within, uncovered⟩⟩
          · exact undivided
          · have inRange := (ChannelRange.encloses_iff_forall _ _).mp within _
              segment.contains_first
            exact absurd ⟨participant.id, covered _ inRange⟩
              (uncovered _ segment.contains_first)
        · rintro ⟨piece, listed, encloses⟩
          have spared : range.Spares piece.range := uncut piece listed
          exact ⟨spared.of_encloses encloses, Or.inl ⟨piece, listed, encloses⟩⟩
    · intro id
      rw [contact?_add]
      split
      · rename_i same
        rcases wellFormed.exists_contact (covered _ range.contains_first)
          with ⟨known, contact, _⟩
        rw [same, contact, Option.getD_some]
      · rfl
  have nothingGained : (table.add range participant).2.added = [] := by
    refine ChannelRange.eq_nil_of_forall_not_inSome fun channel isGained => ?_
    rcases (wellFormed.exists_mem_added_iff range participant channel).mp
      isGained with ⟨inRange, uncovered⟩
    exact uncovered ⟨participant.id, covered _ inRange⟩
  exact Prod.ext sameTable (congrArg (CoverageChange.mk · []) nothingGained)

/-- A range that was added cuts no piece. -/
theorem WellFormed.uncut_add
    (wellFormed : table.WellFormed) (range : ChannelRange)
    (participant : Participant) :
    (table.add range participant).1.Uncut range := by
  intro piece listed
  have undivided : (table.add range participant).1.Undivided piece.range :=
    ⟨piece, listed, ChannelRange.encloses_refl piece.range⟩
  exact ((wellFormed.undivided_add_iff range participant piece.range).mp
    undivided).1

/--
After any run, removing leaves every piece as it is that the participant does
not hold or that lies apart from the range, and adding leaves every piece as it
is that lies apart from the range.  Adding the range for the participant once
more, or removing it once more, changes neither the pieces nor the index and
reports nothing.
-/
theorem others_are_untouched_and_repetition_is_idle_of_run
    (operations : List Operation) (range : ChannelRange)
    (participant : Participant) (incarnation : Nat) (id : ParticipantId) :
    let table := run operations
    let added := (table.add range participant).1
    let removed := (table.remove range id).1
    (∀ piece ∈ table.pieces, id ∉ piece.holders ∨
      range.overlaps piece.range = false →
        piece ∈ removed.pieces) ∧
      (∀ piece ∈ table.pieces, range.overlaps piece.range = false →
        piece ∈ added.pieces) ∧
      added.add range { participant with incarnation } = (added, ⟨[], []⟩) ∧
      removed.remove range id = (removed, ⟨[], []⟩) := by
  intro table added removed
  have wellFormed : table.WellFormed := wellFormed_run operations
  refine ⟨fun piece => wellFormed.mem_pieces_remove,
    fun piece => wellFormed.mem_pieces_add participant, ?_, ?_⟩
  · apply (wellFormed.add range participant).add_of_covers
      (wellFormed.uncut_add range participant)
    intro channel inRange
    exact (wellFormed.covers_add range participant _ channel).mpr
      (Or.inl ⟨rfl, inRange⟩)
  · apply (wellFormed.remove range id).remove_of_not_covers
    intro channel inRange
    rw [← Bool.not_eq_true, wellFormed.covers_remove]
    exact fun covers => covers.2 ⟨rfl, inRange⟩

/--
Removing across a piece of somebody else, and adding across both pieces below a
third.
-/
theorem others_are_untouched_and_repetition_is_idle_of_run_across_two_holders :
    let operations : List Operation :=
      [.add ⟨1, 9, by decide⟩ ⟨1, 0⟩, .add ⟨5, 12, by decide⟩ ⟨2, 0⟩]
    let range : ChannelRange := ⟨3, 6, by decide⟩
    let lower : Piece := ⟨⟨1, 4, by decide⟩, [1]⟩
    let upper : Piece := ⟨⟨10, 12, by decide⟩, [2]⟩
    let added := ((run operations).add range ⟨2, 0⟩).1
    range.overlaps lower.range = true ∧
      lower ∈ ((run operations).remove range 2).1.pieces ∧
      lower ∉ added.pieces ∧ upper ∈ added.pieces ∧
      added ≠ run operations ∧ added.add range ⟨2, 0⟩ = (added, ⟨[], []⟩) := by
  intro operations range lower upper added
  obtain ⟨byRemoving, byAdding, again, -⟩ :=
    others_are_untouched_and_repetition_is_idle_of_run operations
      range ⟨2, 0⟩ 0 2
  exact ⟨by decide,
    byRemoving lower (by decide) (Or.inl (by decide)), by decide,
    byAdding upper (by decide) (by decide), by decide, again⟩

end RangeTable

end ChannelRouter
