import ChannelRouter.Proofs.ChannelRange.MaximalRuns
import ChannelRouter.Proofs.RangeTable.Run

/-!
# Reported changes of coverage

The router mirrors the coverage of its range table upstream by what each
operation reports, and never looks at the table for it.  So a report has to name
every channel that gained a first holder or lost its last one and no other, and
it does so by the maximal runs of these channels, in ascending order.

An operation collects its report piece by piece.  The pieces stand in ascending
order, hence joining neighbours leaves gaps, and a list with gaps lists the
maximal runs of its channels.
-/

namespace ChannelRouter

namespace ChannelRange

/--
The list consists of the maximal runs of a set of channels, in ascending order.
-/
structure MaximalRuns (set : Channel → Prop) (ranges : List ChannelRange) :
    Prop where
  /-- Between two neighbours there is a channel in neither. -/
  gaps : ranges.Pairwise Apart
  mem_iff : ∀ range, range ∈ ranges ↔ MaximalRun set range
  inSome_iff : ∀ channel, InSome ranges channel ↔ set channel

theorem MaximalRuns.of_inSome_iff
    {set : Channel → Prop} {ranges : List ChannelRange}
    (gaps : ranges.Pairwise Apart)
    (same : ∀ channel, InSome ranges channel ↔ set channel) :
    MaximalRuns set ranges where
  gaps := gaps
  mem_iff := by
    have sameSet : InSome ranges = set := by
      ext channel
      exact same channel
    intro range
    rw [mem_iff_maximalRun gaps, sameSet]
  inSome_iff := same

theorem maximalRuns_nil
    {set : Channel → Prop} (nothing : ∀ channel, ¬ set channel) :
    MaximalRuns set [] := by
  refine .of_inSome_iff List.Pairwise.nil fun channel => ?_
  simp [InSome, nothing channel]

end ChannelRange

open ChannelRange (MaximalRuns)

/-- The vacancies of a range stand in ascending order. -/
theorem pairwise_vacancies
    {range : ChannelRange} {pieces : List Piece} (fits : range.Fits pieces) :
    ((range.portions pieces).filterMap Portion.vacancy?).Pairwise
      (·.precedes · = true) := by
  rw [List.pairwise_filterMap]
  apply (ChannelRange.pairwise_portions fits).imp
  intro lower upper order lowerPart isLower upperPart isUpper
  cases lower with
  | taken piece => cases isLower
  | vacant part =>
      cases upper with
      | taken piece => cases isUpper
      | vacant other =>
          cases isLower
          cases isUpper
          exact order

namespace RangeTable

namespace Operation

/-- What an operation reports. -/
def change (table : RangeTable) : Operation → CoverageChange
  | add range participant => (table.add range participant).2
  | remove range id => (table.remove range id).2
  | removeHolder id => (table.removeHolder id).2

end Operation

/--
The channels that had no holder before an operation and have one after it.
-/
def Gains (table : RangeTable) (operation : Operation)
    (channel : Channel) : Prop :=
  ¬ table.Covered channel ∧ (operation.apply table).Covered channel

/--
The channels that had a holder before an operation and have none after it.
-/
def Loses (table : RangeTable) (operation : Operation)
    (channel : Channel) : Prop :=
  table.Covered channel ∧ ¬ (operation.apply table).Covered channel

variable {table : RangeTable}

/-! ## The gaps in a report -/

theorem WellFormed.gaps_added
    (wellFormed : table.WellFormed) (range : ChannelRange)
    (participant : Participant) :
    (table.add range participant).2.added.Pairwise ChannelRange.Apart := by
  have cutWellFormed := wellFormed.refine (ChannelRange.cutting_cutAlong range)
  exact ChannelRange.pairwise_apart_coalesce
    (pairwise_vacancies (cutWellFormed.fits_inside range))

theorem WellFormed.gaps_removed_release
    (wellFormed : table.WellFormed) (id : ParticipantId)
    (condition : ChannelRange → Bool) :
    (table.release id condition).2.removed.Pairwise ChannelRange.Apart := by
  apply ChannelRange.pairwise_apart_coalesce
  rw [List.pairwise_map]
  exact wellFormed.ascending.filter _

theorem WellFormed.gaps_removed
    (wellFormed : table.WellFormed) (range : ChannelRange)
    (id : ParticipantId) :
    (table.remove range id).2.removed.Pairwise ChannelRange.Apart := by
  rw [remove_eq_release]
  exact (wellFormed.cutFor range id).gaps_removed_release id range.encloses

/-! ## The channels in a report -/

/-- Adding takes no channel from anybody. -/
theorem WellFormed.not_loses_add
    (wellFormed : table.WellFormed) (range : ChannelRange)
    (participant : Participant)
    (channel : Channel) : ¬ table.Loses (.add range participant) channel := by
  rintro ⟨covered, uncovered⟩
  exact uncovered
    ((wellFormed.covered_add range participant channel).mpr (Or.inr covered))

/-- An operation that grants nothing covers nothing new. -/
theorem WellFormed.not_gains
    (wellFormed : table.WellFormed) {operation : Operation} {channel : Channel}
    (silent : ∀ id, ¬ operation.Grants id channel) :
    ¬ table.Gains operation channel := by
  rintro ⟨uncovered, holder, covers⟩
  rcases (wellFormed.covers_apply operation holder channel).mp covers
    with grants | kept
  · exact silent holder grants
  · exact uncovered ⟨holder, kept.1⟩

theorem WellFormed.maximalRuns_added
    (wellFormed : table.WellFormed) (operation : Operation) :
    MaximalRuns (table.Gains operation) (operation.change table).added := by
  cases operation with
  | add range participant =>
      refine .of_inSome_iff (wellFormed.gaps_added range participant)
        fun channel => ?_
      rw [Gains, Operation.apply, wellFormed.covered_add, and_or_left,
        not_and_self_iff, or_false, and_comm]
      exact wellFormed.exists_mem_added_iff range participant channel
  | remove range id =>
      exact ChannelRange.maximalRuns_nil fun _ =>
        wellFormed.not_gains fun _ grants => grants
  | removeHolder id =>
      exact ChannelRange.maximalRuns_nil fun _ =>
        wellFormed.not_gains fun _ grants => grants

theorem WellFormed.maximalRuns_removed
    (wellFormed : table.WellFormed) (operation : Operation) :
    MaximalRuns (table.Loses operation) (operation.change table).removed := by
  cases operation with
  | add range participant =>
      exact ChannelRange.maximalRuns_nil
        (wellFormed.not_loses_add range participant)
  | remove range id =>
      exact .of_inSome_iff (wellFormed.gaps_removed range id)
        (wellFormed.exists_mem_removed_iff range id)
  | removeHolder id =>
      exact .of_inSome_iff (wellFormed.gaps_removed_release id fun _ => true)
        (wellFormed.exists_mem_removed_removeHolder_iff id)

/--
After any run, whatever is done next reports as added the maximal runs of the
channels that had no holder before and have one after, and as removed the
maximal runs of those that had a holder before and have none after: in ascending
order, with a channel between any two that is in neither, and with no channel
whose coverage stayed as it was.  Adding reports no removal, and the other two
report no addition.
-/
theorem changes_exact_of_run (operations : List Operation)
    (operation : Operation) : let table := run operations
    let change := operation.change table
    MaximalRuns (table.Gains operation) change.added ∧
      MaximalRuns (table.Loses operation) change.removed ∧
      (match operation with
        | .add _ _ => change.removed = []
        | .remove _ _ => change.added = []
        | .removeHolder _ => change.added = []) := by
  intro table change
  have wellFormed : table.WellFormed := wellFormed_run operations
  refine ⟨wellFormed.maximalRuns_added operation,
    wellFormed.maximalRuns_removed operation, ?_⟩
  cases operation with
  | add range participant => rfl
  | remove range id => rfl
  | removeHolder id => rfl

end RangeTable

end ChannelRouter
