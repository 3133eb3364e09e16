import ChannelRouter.Proofs.RangeTable.Coverage

/-!
# Contacts

The index keeps a contact for every participant that holds a range, and whoever
holds a channel is reached through it.  Adding keeps the contact that is there
and notes the participant otherwise; removing notes no new contact.
-/

namespace ChannelRouter

namespace RangeTable

/-- Where deliveries for the ranges of a participant go. -/
def contact? (table : RangeTable) (id : ParticipantId) : Option Participant :=
  (table.index.get? id).map Holding.contact

theorem contact?_refine
    (parts : ChannelRange → List ChannelRange) (table : RangeTable)
    (id : ParticipantId) :
    (table.refine parts).contact? id = table.contact? id := by
  simp [contact?, refine, Function.comp_def]

theorem contact?_add
    (table : RangeTable) (range : ChannelRange) (participant : Participant)
    (id : ParticipantId) :
    (table.add range participant).1.contact? id =
      if id = participant.id then some
        ((table.contact? participant.id).getD participant)
      else table.contact? id := by
  have same := contact?_refine (·.cutAlong range) table
  simp only [contact?] at same ⊢
  simp only [RangeTable.add, Table.get?_insert]
  split
  · rw [same participant.id]
    rfl
  · exact same id

theorem contact?_of_release
    {table : RangeTable} {id other : ParticipantId}
    {condition : ChannelRange → Bool} {participant : Participant}
    (found : (table.release id condition).1.contact? other = some participant) :
    table.contact? other = some participant := by
  rw [contact?, get?_index_release] at found
  split at found
  · rename_i same
    subst same
    rw [contact?]
    cases before : table.index.get? other with
    | none => simp [before] at found
    | some holding =>
        simp only [before, Option.bind_some] at found
        split at found
        · cases found
        · exact found
  · exact found

theorem contact?_of_remove
    {table : RangeTable} {range : ChannelRange} {id other : ParticipantId}
    {participant : Participant}
    (found : (table.remove range id).1.contact? other = some participant) :
    table.contact? other = some participant := by
  rw [remove_eq_release] at found
  have before := contact?_of_release found
  rwa [RangeTable.cutFor, contact?_refine] at before

/-- Whoever has let go of all its ranges has no contact either. -/
theorem contact?_of_removeHolder
    {table : RangeTable} {id other : ParticipantId} {participant : Participant}
    (found : (table.removeHolder id).1.contact? other = some participant) :
    table.contact? other = some participant ∧ other ≠ id := by
  refine ⟨contact?_of_release found, ?_⟩
  rintro rfl
  rw [contact?, RangeTable.removeHolder, get?_index_release] at found
  cases before : table.index.get? other <;> simp [before] at found

theorem WellFormed.id_of_contact?
    {table : RangeTable} (wellFormed : table.WellFormed)
    {id : ParticipantId} {participant : Participant}
    (found : table.contact? id = some participant) : participant.id = id := by
  rcases Option.map_eq_some_iff.mp found with ⟨holding, isHolding, rfl⟩
  exact (wellFormed.holding id holding isHolding).2

theorem WellFormed.isSome_contact?_iff
    {table : RangeTable} (wellFormed : table.WellFormed) (id : ParticipantId) :
    (table.contact? id).isSome = true ↔ table.indexed id ≠ [] := by
  rw [← wellFormed.contains_index_iff, contact?,
    Option.isSome_map, Table.contains]

theorem WellFormed.exists_contact
    {table : RangeTable} (wellFormed : table.WellFormed)
    {id : ParticipantId} {channel : Channel}
    (covers : table.covers id channel = true) :
    ∃ participant, table.contact? id = some participant ∧
      participant.id = id := by
  rcases (covers_iff wellFormed.ascending id channel).mp covers
    with ⟨piece, listed, _, member⟩
  have holds : table.indexed id ≠ [] :=
    List.ne_nil_of_mem ((wellFormed.range_mem_indexed_iff listed id).mpr member)
  rcases Option.isSome_iff_exists.mp
    ((wellFormed.isSome_contact?_iff id).mpr holds) with ⟨participant, found⟩
  exact ⟨participant, found, wellFormed.id_of_contact? found⟩

/-- A channel resolves to the contacts of those that cover it. -/
theorem WellFormed.mem_resolve_iff
    {table : RangeTable} (wellFormed : table.WellFormed)
    (channel : Channel) (participant : Participant) :
    participant ∈ table.resolve channel ↔
      table.covers participant.id channel = true ∧
        table.contact? participant.id = some participant := by
  simp only [resolve, List.mem_filterMap]
  constructor
  · rintro ⟨id, holds, contact⟩
    have covers : table.covers id channel = true :=
      List.contains_iff_mem.mpr holds
    rcases wellFormed.exists_contact covers with ⟨known, isKnown, named⟩
    rw [contact?, contact] at isKnown
    injection isKnown with same
    subst same
    rw [named]
    exact ⟨covers, contact⟩
  · rintro ⟨covers, contact⟩
    exact ⟨participant.id, List.contains_iff_mem.mp covers, contact⟩

theorem WellFormed.pairwise_holdersAt
    {table : RangeTable} (wellFormed : table.WellFormed) (channel : Channel) :
    (table.holdersAt channel).Pairwise (· < ·) := by
  rw [holdersAt]
  cases found : table.covering? channel with
  | none => exact List.Pairwise.nil
  | some piece =>
      have listed :=
        ((covering?_eq_some_iff wellFormed.ascending channel piece).mp found).1
      exact wellFormed.holdersAscending piece listed

theorem WellFormed.nodup_holdersAt
    {table : RangeTable} (wellFormed : table.WellFormed) (channel : Channel) :
    (table.holdersAt channel).Nodup :=
  Ascending.nodup_of_pairwise (wellFormed.pairwise_holdersAt channel)

theorem WellFormed.nodup_resolve
    {table : RangeTable} (wellFormed : table.WellFormed) (channel : Channel) :
    (table.resolve channel).Nodup := by
  refine List.Nodup.filterMap ?_ (wellFormed.nodup_holdersAt channel)
  intro left right participant leftContact rightContact
  exact (wellFormed.id_of_contact? leftContact).symm.trans
    (wellFormed.id_of_contact? rightContact)

end RangeTable

end ChannelRouter
