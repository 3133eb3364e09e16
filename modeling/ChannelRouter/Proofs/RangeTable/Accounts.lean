import ChannelRouter.Proofs.RangeTable.Changes
import ChannelRouter.Proofs.RangeTable.Piecewise

/-!
# A report in parts

What is done for the parts of a range in turn is reported in parts too, in
whatever order they come.  No channel is in two of them: adding only covers
channels and removing only uncovers them, hence no channel changes twice.  So
the parts, in order and with neighbours joined, are the report of the whole.
-/

namespace ChannelRouter

namespace ChannelRange

/-! ## Ranges in no order -/

theorem inSome_append_iff (ranges others : List ChannelRange)
    (channel : Channel) :
    InSome (ranges ++ others) channel ↔
      InSome ranges channel ∨ InSome others channel := by
  simp only [InSome, List.mem_append, or_and_right, exists_or]

theorem Apart.overlaps_eq_false {range other : ChannelRange}
    (apart : range.Apart other) : range.overlaps other = false := by
  rw [overlaps_eq_false_iff, UInt64.lt_iff_toNat_lt, UInt64.lt_iff_toNat_lt]
  unfold Apart at apart
  omega

theorem separate_append
    {ranges others : List ChannelRange}
    (separate : ranges.Pairwise fun range other => range.overlaps other = false)
    (gaps : others.Pairwise Apart)
    (apart : ∀ channel, InSome ranges channel → ¬ InSome others channel) :
    (ranges ++ others).Pairwise fun range other =>
      range.overlaps other = false := by
  refine List.pairwise_append.mpr
    ⟨separate, gaps.imp Apart.overlaps_eq_false, ?_⟩
  intro range listed other otherListed
  rw [overlaps_eq_false_iff_forall]
  intro channel inRange inOther
  exact apart channel ⟨range, listed, inRange⟩ ⟨other, otherListed, inOther⟩

instance : Std.TransCmp order :=
  inferInstanceAs (Std.TransCmp (compareLex (compareOn ChannelRange.first)
    (compareOn ChannelRange.last)))

/-- The ranges in their order. -/
def sorted (ranges : List ChannelRange) : List ChannelRange :=
  ranges.mergeSort fun range other => (range.order other).isLE

theorem first_le_of_order {range other : ChannelRange}
    (order : (range.order other).isLE = true) : range.first ≤ other.first := by
  rw [ChannelRange.order, Ordering.isLE_then_iff_and] at order
  exact Std.isLE_compare.mp order.1

/-- Ranges that lie apart stand in ascending order once they are sorted. -/
theorem ascending_sorted
    {ranges : List ChannelRange}
    (separate : ranges.Pairwise fun range other =>
      range.overlaps other = false) :
    (sorted ranges).Pairwise (·.precedes · = true) := by
  have ordered : (sorted ranges).Pairwise fun range other =>
      (range.order other).isLE = true := by
    apply List.pairwise_mergeSort
    · exact fun _ _ _ => Std.TransCmp.isLE_trans
    · intro range other
      have swap : range.order other = (other.order range).swap :=
        Std.OrientedCmp.eq_swap
      rw [swap]
      cases other.order range <;> rfl
  have stillSeparate : (sorted ranges).Pairwise fun range other =>
      range.overlaps other = false :=
    ((List.mergeSort_perm ranges _).pairwise_iff overlaps_symm).mpr separate
  refine (ordered.and stillSeparate).imp ?_
  rintro range other ⟨order, apart⟩
  have begins := first_le_of_order order
  have ends := other.first_le_last
  rw [overlaps_eq_false_iff] at apart
  rw [precedes_iff]
  grind

/--
The maximal runs of a set are the ranges that make it up, in order and joined.
-/
theorem MaximalRuns.eq_coalesce_sorted
    {set : Channel → Prop} {ranges parts : List ChannelRange}
    (runs : MaximalRuns set ranges)
    (separate : parts.Pairwise fun range other => range.overlaps other = false)
    (same : ∀ channel, InSome parts channel ↔ set channel) :
    coalesce (sorted parts) = ranges := by
  refine eq_of_inSome_iff (pairwise_apart_coalesce (ascending_sorted separate))
    runs.gaps ?_
  intro channel
  rw [runs.inSome_iff, ← same, InSome, exists_mem_coalesce_iff]
  simp only [InSome, sorted, List.mem_mergeSort]

end ChannelRange

namespace CoverageChange

/-- What two steps changed, one after the other. -/
def append (change later : CoverageChange) : CoverageChange where
  added := change.added ++ later.added
  removed := change.removed ++ later.removed

@[simp]
theorem append_nothing (change : CoverageChange) :
    change.append ⟨[], []⟩ = change := by
  simp [append]

/-- The change in order, with neighbours joined. -/
def coalesced (change : CoverageChange) : CoverageChange where
  added := ChannelRange.coalesce (ChannelRange.sorted change.added)
  removed := ChannelRange.coalesce (ChannelRange.sorted change.removed)

end CoverageChange

namespace RangeTable

open ChannelRange (InSome)

/-! ## What a task reports -/

/-- Adding only covers channels, and removing only uncovers them. -/
def Task.Moves (task : Task) (table next : RangeTable) : Prop :=
  match task with
  | .add _ => ∀ channel, table.Covered channel → next.Covered channel
  | .remove _ => ∀ channel, next.Covered channel → table.Covered channel

/--
The report so far names the channels that are covered now and were not at first,
and those that were covered at first and are not now, each in one range.
-/
structure Accounts (task : Task) (first now : RangeTable)
    (change : CoverageChange) : Prop where
  moves : task.Moves first now
  added : ∀ channel, InSome change.added channel ↔
    ¬ first.Covered channel ∧ now.Covered channel
  removed : ∀ channel,
    InSome change.removed channel ↔
    first.Covered channel ∧ ¬ now.Covered channel
  addedSeparate : change.added.Pairwise fun range other =>
    range.overlaps other = false
  removedSeparate : change.removed.Pairwise fun range other =>
    range.overlaps other = false

section Reports

variable {task : Task} {first now : RangeTable} {change : CoverageChange}
  {range : ChannelRange}

theorem accounts_nothing (task : Task) (table : RangeTable) :
    Accounts task table table ⟨[], []⟩ where
  moves := by cases task <;> exact fun _ covered => covered
  added := by simp [InSome]
  removed := by simp [InSome]
  addedSeparate := List.Pairwise.nil
  removedSeparate := List.Pairwise.nil

theorem WellFormed.moves_applyTask
    (wellFormed : now.WellFormed) (task : Task) (range : ChannelRange) :
    task.Moves now (task.apply now range) := by
  cases task with
  | add participant =>
      exact fun channel covered =>
        (wellFormed.covered_add range participant channel).mpr (Or.inr covered)
  | remove id =>
      rintro channel ⟨holder, covers⟩
      exact ⟨holder,
        ((wellFormed.covers_remove range id holder channel).mp covers).1⟩

theorem Task.Moves.trans
    {before now next : RangeTable} (moved : task.Moves before now)
    (moves : task.Moves now next) :
    task.Moves before next := by
  cases task with
  | add participant =>
      exact fun channel covered => moves channel (moved channel covered)
  | remove id =>
      exact fun channel covered => moved channel (moves channel covered)

/-- No channel changes twice. -/
theorem Task.Moves.once
    {before now next : RangeTable} (moved : task.Moves before now)
    (moves : task.Moves now next) (channel : Channel) :
    (before.Covered channel ↔ now.Covered channel) ∨
      (now.Covered channel ↔ next.Covered channel) := by
  cases task with
  | add participant =>
      have covered := moved channel
      have kept := moves channel
      tauto
  | remove id =>
      have uncovered := moved channel
      have kept := moves channel
      tauto

/-- What is done for a range is reported beside what was. -/
theorem Accounts.append
    (accounts : Accounts task first now change) (wellFormed : now.WellFormed)
    (range : ChannelRange) :
    Accounts task first (task.apply now range)
      (change.append ((task.operation range).change now)) := by
  have moved := accounts.moves
  have moves := wellFormed.moves_applyTask task range
  have added := wellFormed.maximalRuns_added (task.operation range)
  have removed := wellFormed.maximalRuns_removed (task.operation range)
  refine
    { moves := moved.trans moves
      added := fun channel => ?_
      removed := fun channel => ?_
      addedSeparate := ?_
      removedSeparate := ?_ }
  · have once := moved.once moves channel
    rw [CoverageChange.append, ChannelRange.inSome_append_iff, accounts.added,
      added.inSome_iff]
    unfold Gains
    tauto
  · have once := moved.once moves channel
    rw [CoverageChange.append, ChannelRange.inSome_append_iff, accounts.removed,
      removed.inSome_iff]
    unfold Loses
    tauto
  · apply ChannelRange.separate_append accounts.addedSeparate added.gaps
    intro channel here there
    exact ((added.inSome_iff channel).mp there).1
      ((accounts.added channel).mp here).2
  · apply ChannelRange.separate_append accounts.removedSeparate removed.gaps
    intro channel here there
    exact ((accounts.removed channel).mp here).2
      ((removed.inSome_iff channel).mp there).1

/-- In order and with neighbours joined, the report is that of the task. -/
theorem Accounts.coalesced_eq
    {first : RangeTable}
    (accounts : Accounts task first (task.apply first range) change)
    (wellFormed : first.WellFormed) :
    change.coalesced = (task.operation range).change first := by
  have added :=
    (wellFormed.maximalRuns_added (task.operation range)).eq_coalesce_sorted
    accounts.addedSeparate accounts.added
  have removed :=
    (wellFormed.maximalRuns_removed (task.operation range)).eq_coalesce_sorted
    accounts.removedSeparate accounts.removed
  rw [CoverageChange.coalesced, added, removed]

end Reports

end RangeTable

end ChannelRouter
