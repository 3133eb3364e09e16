import ChannelRouter.Proofs.RangeTable.Coverage
import Mathlib.Data.List.Induction

/-!
# Runs of a range table

Whatever is done to a range table, starting from the empty one, its pieces and
its index describe one another, and a participant covers a channel exactly if
the last operation that concerned the two of them was to add it.
-/

namespace ChannelRouter

namespace RangeTable

/-- What can be done to a range table. -/
inductive Operation where
  | add (range : ChannelRange) (participant : Participant)
  | remove (range : ChannelRange) (id : ParticipantId)
  | removeHolder (id : ParticipantId)
deriving DecidableEq, Repr

namespace Operation

/-- The participant whose ranges an operation is about. -/
def subject : Operation → ParticipantId
  | add _ participant => participant.id
  | remove _ id => id
  | removeHolder id => id

/-- The table after an operation. -/
def apply (table : RangeTable) : Operation → RangeTable
  | add range participant => (table.add range participant).1
  | remove range id => (table.remove range id).1
  | removeHolder id => (table.removeHolder id).1

/-- The operation makes a participant cover a channel. -/
def Grants (id : ParticipantId) (channel : Channel) : Operation → Prop
  | add range participant => participant.id = id ∧ range.contains channel = true
  | _ => False

/-- The operation makes a participant cover a channel no longer. -/
def Withdraws (id : ParticipantId) (channel : Channel) : Operation → Prop
  | add _ _ => False
  | remove range other => other = id ∧ range.contains channel = true
  | removeHolder other => other = id

end Operation

/-- The table after a run that began with the empty one. -/
def run (operations : List Operation) : RangeTable :=
  operations.foldl Operation.apply .empty

theorem run_concat (operations : List Operation) (operation : Operation) :
    run (operations ++ [operation]) = operation.apply (run operations) := by
  simp [run]

theorem WellFormed.apply
    {table : RangeTable} (wellFormed : table.WellFormed)
    (operation : Operation) :
    (operation.apply table).WellFormed := by
  cases operation with
  | add range participant => exact wellFormed.add range participant
  | remove range id => exact wellFormed.remove range id
  | removeHolder id => exact wellFormed.removeHolder id

theorem wellFormed_run (operations : List Operation) :
    (run operations).WellFormed := by
  induction operations using List.reverseRecOn with
  | nil => exact wellFormed_empty
  | append_singleton earlier operation ih =>
      rw [run_concat]
      exact ih.apply operation

/--
In every table that a run leads to, the pieces are proper ranges in ascending
order that share no channel, and somebody holds each; a participant is among the
holders of a piece exactly if the index lists the piece for it, the index lists
nothing else, and it has an entry exactly for those that hold a piece.
-/
theorem pieces_and_index_agree_of_run (operations : List Operation) :
    (∀ piece ∈ (run operations).pieces, piece.range.first ≤ piece.range.last) ∧
      (run operations).pieces.Pairwise
        (fun piece other => piece.range.last < other.range.first) ∧
      (∀ piece ∈ (run operations).pieces, piece.holders ≠ []) ∧
      (∀ piece ∈ (run operations).pieces, ∀ id,
        id ∈ piece.holders ↔ piece.range ∈ (run operations).indexed id) ∧
      (∀ id, ∀ range ∈ (run operations).indexed id,
        ∃ piece ∈ (run operations).pieces, piece.range = range) ∧
      ∀ id, (run operations).index.contains id = true ↔
        ∃ piece ∈ (run operations).pieces, id ∈ piece.holders := by
  have wellFormed := wellFormed_run operations
  refine ⟨fun piece _ => piece.range.first_le_last, ?_,
    wellFormed.held, ?_, ?_, ?_⟩
  · exact wellFormed.ascending.imp fun order =>
      (ChannelRange.precedes_iff _ _).mp order
  · intro piece listed id
    rw [wellFormed.indexed_eq, Piece.mem_rangesHeldBy]
    constructor
    · intro member
      exact ⟨piece, listed, member, rfl⟩
    · rintro ⟨other, otherListed, member, same⟩
      have inOther : other.range.contains piece.range.first = true :=
        same ▸ piece.range.contains_first
      rwa [ChannelRange.eq_of_contains wellFormed.ascending listed otherListed
        piece.range.contains_first inOther]
  · intro id range indexed
    rw [wellFormed.indexed_eq, Piece.mem_rangesHeldBy] at indexed
    rcases indexed with ⟨piece, listed, _, same⟩
    exact ⟨piece, listed, same⟩
  · intro id
    rw [wellFormed.contains_index_iff, wellFormed.indexed_eq]
    constructor
    · intro nonempty
      rcases List.exists_mem_of_ne_nil _ nonempty with ⟨range, listed⟩
      rcases (Piece.mem_rangesHeldBy id _ range).mp listed
        with ⟨piece, isPiece, member, _⟩
      exact ⟨piece, isPiece, member⟩
    · rintro ⟨piece, listed, member⟩
      exact List.ne_nil_of_mem
        ((Piece.mem_rangesHeldBy id _ _).mpr ⟨piece, listed, member, rfl⟩)

/-- What one operation does to what a participant covers. -/
theorem WellFormed.covers_apply
    {table : RangeTable} (wellFormed : table.WellFormed)
    (operation : Operation) (id : ParticipantId) (channel : Channel) :
    (operation.apply table).covers id channel = true ↔
      operation.Grants id channel ∨
        table.covers id channel = true ∧ ¬ operation.Withdraws id channel := by
  cases operation with
  | add range participant =>
      simp only [Operation.apply, Operation.Grants, Operation.Withdraws,
        wellFormed.covers_add, not_false_eq_true, and_true, eq_comm]
  | remove range other =>
      simp only [Operation.apply, Operation.Grants, Operation.Withdraws,
        wellFormed.covers_remove, false_or, eq_comm]
  | removeHolder other =>
      simp only [Operation.apply, Operation.Grants, Operation.Withdraws,
        wellFormed.covers_removeHolder, false_or, ne_eq, eq_comm]

/--
The last operation of a run that concerns a participant and a channel makes the
participant cover the channel.
-/
def LastGrants
    (operations : List Operation) (id : ParticipantId)
    (channel : Channel) : Prop :=
  ∃ earlier operation later, operations = earlier ++ operation :: later ∧
    operation.Grants id channel ∧
    ∀ other ∈ later, ¬ other.Grants id channel ∧ ¬ other.Withdraws id channel

theorem lastGrants_concat_iff
    (operations : List Operation) (operation : Operation)
    (id : ParticipantId) (channel : Channel) :
    LastGrants (operations ++ [operation]) id channel ↔
      operation.Grants id channel ∨
        LastGrants operations id channel ∧
          ¬ operation.Withdraws id channel := by
  constructor
  · rintro ⟨earlier, granting, later, split, grants, silent⟩
    rcases List.eq_nil_or_concat later with rfl | ⟨front, last, rfl⟩
    · rcases List.append_inj' split rfl with ⟨_, same⟩
      cases same
      exact Or.inl grants
    · rw [List.concat_eq_append, ← List.cons_append, ← List.append_assoc]
        at split
      rcases List.append_inj' split rfl with ⟨rfl, same⟩
      cases same
      rw [List.concat_eq_append] at silent
      refine Or.inr ⟨⟨earlier, granting, front, rfl, grants, ?_⟩,
        (silent operation (by simp)).2⟩
      intro other listed
      exact silent other (List.mem_append_left _ listed)
  · intro lastOrBefore
    by_cases grants : operation.Grants id channel
    · exact ⟨operations, operation, [], rfl, grants, by simp⟩
    · rcases lastOrBefore
        with now | ⟨⟨earlier, granting, later, rfl, before, silent⟩, kept⟩
      · exact absurd now grants
      · refine ⟨earlier, granting, later ++ [operation], by simp, before, ?_⟩
        intro other listed
        rcases List.mem_append.mp listed with was | last
        · exact silent other was
        · rw [List.mem_singleton] at last
          subst last
          exact ⟨grants, kept⟩

theorem covers_run_iff_lastGrants
    (operations : List Operation) (id : ParticipantId) (channel : Channel) :
    (run operations).covers id channel = true ↔
      LastGrants operations id channel := by
  induction operations using List.reverseRecOn with
  | nil => simp [run, LastGrants, covers, holdersAt, covering?, empty]
  | append_singleton earlier operation ih =>
      rw [run_concat, (wellFormed_run earlier).covers_apply,
        lastGrants_concat_iff, ih]

/--
An operation grants and withdraws nothing but its own participant's channels.
-/
theorem Operation.subject_eq
    {operation : Operation} {id : ParticipantId} {channel : Channel}
    (concerned : operation.Grants id channel ∨ operation.Withdraws id channel) :
    operation.subject = id := by
  rcases concerned with grants | withdraws
  · cases operation with
    | add range participant => exact grants.1
    | remove range other => exact grants.elim
    | removeHolder other => exact grants.elim
  · cases operation with
    | add range participant => exact withdraws.elim
    | remove range other => exact withdraws.1
    | removeHolder other => exact withdraws

/--
After any run a participant covers a channel exactly if the run added it, and
after the last time it did so neither removed it nor dropped the participant.
An operation for one participant changes what no other covers.
-/
theorem covers_run_iff_last_added
    (operations : List Operation) (id : ParticipantId) (channel : Channel) :
    ((run operations).covers id channel = true ↔
      ∃ earlier range participant later,
        operations = earlier ++ .add range participant :: later ∧
          participant.id = id ∧ range.contains channel = true ∧
          (∀ again contact, .add again contact ∈ later → contact.id = id →
            again.contains channel = false) ∧
          (∀ removed, .remove removed id ∈ later →
            removed.contains channel = false) ∧
          .removeHolder id ∉ later) ∧
      ∀ operation : Operation, operation.subject ≠ id →
        (run (operations ++ [operation])).covers id channel =
          (run operations).covers id channel := by
  constructor
  · rw [covers_run_iff_lastGrants]
    constructor
    · rintro ⟨earlier, granting, later, split, grants, silent⟩
      cases granting with
      | add range participant =>
          refine ⟨earlier, range, participant, later, split, grants.1,
            grants.2, ?_, ?_, ?_⟩
          · intro again contact listed same
            by_contra inAgain
            exact (silent _ listed).1 ⟨same, Bool.not_eq_false _ ▸ inAgain⟩
          · intro removed listed
            by_contra inRemoved
            exact (silent _ listed).2 ⟨rfl, Bool.not_eq_false _ ▸ inRemoved⟩
          · intro listed
            exact (silent _ listed).2 rfl
      | remove range other => exact grants.elim
      | removeHolder other => exact grants.elim
    · rintro ⟨earlier, range, participant, later, split, same, inRange, added,
        removed, dropped⟩
      refine ⟨earlier, .add range participant, later, split,
        ⟨same, inRange⟩, ?_⟩
      intro other listed
      cases other with
      | add again contact =>
          refine ⟨?_, fun withdraws => withdraws⟩
          rintro ⟨sameContact, inAgain⟩
          rw [added again contact listed sameContact] at inAgain
          cases inAgain
      | remove lost holder =>
          refine ⟨fun grants => grants, ?_⟩
          rintro ⟨rfl, inLost⟩
          rw [removed lost listed] at inLost
          cases inLost
      | removeHolder holder =>
          refine ⟨fun grants => grants, ?_⟩
          rintro rfl
          exact dropped listed
  · intro operation different
    rw [Bool.eq_iff_iff, run_concat, (wellFormed_run operations).covers_apply]
    have silent :
        ¬ (operation.Grants id channel ∨ operation.Withdraws id channel) :=
      fun concerned => different (Operation.subject_eq concerned)
    rw [not_or] at silent
    simp [silent.1, silent.2]

end RangeTable

end ChannelRouter
