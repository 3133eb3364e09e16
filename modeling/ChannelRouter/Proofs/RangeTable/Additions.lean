import ChannelRouter.Proofs.RangeTable.Division
import ChannelRouter.Proofs.RangeTable.Queries

/-!
# Additions in any order

What adding a range does to the pieces depends on those it meets: what one order
of additions cuts, another fills in.  The table that comes of it does not depend
on the order.  A range is undivided exactly if one of the added ranges encloses
it and every other encloses it or lies apart from it, so the cuts are at the
ends of the added ranges and nowhere else.
-/

namespace ChannelRouter

namespace ChannelRange

theorem encloses_iff_contains_ends (range other : ChannelRange) :
    range.encloses other = true ↔
      range.contains other.first = true ∧ range.contains other.last = true := by
  constructor
  · intro outside
    have inside := (encloses_iff_forall _ _).mp outside
    exact ⟨inside _ other.contains_first, inside _ other.contains_last⟩
  · rintro ⟨first, last⟩
    exact (encloses_iff _ _).mpr
      ⟨((contains_iff _ _).mp first).1, ((contains_iff _ _).mp last).2⟩

/--
A range spares two neighbouring channels exactly if it does not end at the lower
one nor begin at the upper one.
-/
theorem spares_neighbours_iff
    (range : ChannelRange) {pair : ChannelRange}
    (neighbours : pair.last.toNat = pair.first.toNat + 1) :
    range.Spares pair ↔ range.last ≠ pair.first ∧ range.first ≠ pair.last := by
  have order := range.first_toNat_le_last
  simp only [Spares, encloses_iff, overlaps_eq_false_iff,
    UInt64.le_iff_toNat_le, UInt64.lt_iff_toNat_lt, ne_eq, ← UInt64.toNat_inj]
  omega

end ChannelRange

namespace RangeTable

/-- The table that comes of adding ranges, in the order of the list. -/
def ofAdditions (additions : List (ChannelRange × Participant)) : RangeTable :=
  run (additions.map fun addition => .add addition.1 addition.2)

/-- The list adds a range for a participant. -/
def Adds
    (additions : List (ChannelRange × Participant)) (range : ChannelRange)
    (id : ParticipantId) : Prop :=
  ∃ participant, (range, participant) ∈ additions ∧ participant.id = id

theorem ofAdditions_concat
    (additions : List (ChannelRange × Participant))
    (addition : ChannelRange × Participant) :
    ofAdditions (additions ++ [addition]) =
      ((ofAdditions additions).add addition.1 addition.2).1 := by
  rw [ofAdditions, List.map_append]
  exact run_concat _ _

theorem wellFormed_ofAdditions (additions : List (ChannelRange × Participant)) :
    (ofAdditions additions).WellFormed :=
  wellFormed_run _

theorem adds_concat_iff
    (additions : List (ChannelRange × Participant))
    (addition : ChannelRange × Participant)
    (range : ChannelRange) (id : ParticipantId) :
    Adds (additions ++ [addition]) range id ↔
      Adds additions range id ∨ addition.1 = range ∧ addition.2.id = id := by
  constructor
  · rintro ⟨participant, listed, named⟩
    rcases List.mem_append.mp listed with earlier | last
    · exact Or.inl ⟨participant, earlier, named⟩
    · cases List.mem_singleton.mp last
      exact Or.inr ⟨rfl, named⟩
  · rintro (⟨participant, earlier, named⟩ | ⟨rfl, named⟩)
    · exact ⟨participant, List.mem_append_left _ earlier, named⟩
    · exact ⟨addition.2, List.mem_append_right _ List.mem_cons_self, named⟩

/-- A participant covers what was added for it. -/
theorem covers_ofAdditions_iff
    (additions : List (ChannelRange × Participant)) (id : ParticipantId)
    (channel : Channel) :
    (ofAdditions additions).covers id channel = true ↔
      ∃ range, Adds additions range id ∧ range.contains channel = true := by
  induction additions using List.reverseRecOn with
  | nil => simp [ofAdditions, run, empty, covers, holdersAt, covering?, Adds]
  | append_singleton earlier addition ih =>
      rw [ofAdditions_concat, (wellFormed_ofAdditions earlier).covers_add, ih]
      simp only [adds_concat_iff, or_and_right, exists_or]
      constructor
      · rintro (⟨rfl, inRange⟩ | before)
        · exact Or.inr ⟨addition.1, ⟨rfl, rfl⟩, inRange⟩
        · exact Or.inl before
      · rintro (before | ⟨range, ⟨rfl, rfl⟩, inRange⟩)
        · exact Or.inr before
        · exact Or.inl ⟨rfl, inRange⟩

theorem covered_ofAdditions_iff
    (additions : List (ChannelRange × Participant)) (channel : Channel) :
    (ofAdditions additions).Covered channel ↔
      ∃ range id, Adds additions range id ∧ range.contains channel = true := by
  unfold Covered
  simp only [covers_ofAdditions_iff]
  exact exists_comm

/--
After additions a range is undivided exactly if one of the added ranges encloses
it, and each of them encloses it or lies apart from it.
-/
theorem undivided_ofAdditions_iff
    (additions : List (ChannelRange × Participant)) (segment : ChannelRange) :
    (ofAdditions additions).Undivided segment ↔
      (∃ range id, Adds additions range id ∧ range.encloses segment = true) ∧
        ∀ range id, Adds additions range id → range.Spares segment := by
  induction additions using List.reverseRecOn with
  | nil => simp [ofAdditions, run, empty, Undivided, Adds]
  | append_singleton earlier addition ih =>
      rw [ofAdditions_concat,
        (wellFormed_ofAdditions earlier).undivided_add_iff, ih]
      simp only [covered_ofAdditions_iff, adds_concat_iff]
      constructor
      · rintro ⟨spared,
          ⟨⟨range, id, added, encloses⟩, allSpared⟩ | ⟨within, untouched⟩⟩
        · refine ⟨⟨range, id, Or.inl added, encloses⟩, ?_⟩
          rintro other otherId (before | ⟨rfl, rfl⟩)
          · exact allSpared other otherId before
          · exact spared
        · refine ⟨⟨addition.1, addition.2.id, Or.inr ⟨rfl, rfl⟩, within⟩, ?_⟩
          rintro other otherId (before | ⟨rfl, rfl⟩)
          · refine Or.inr
              ((ChannelRange.overlaps_eq_false_iff_forall _ _).mpr ?_)
            intro channel inOther inSegment
            exact untouched channel inSegment ⟨other, otherId, before, inOther⟩
          · exact spared
      · rintro ⟨⟨range, id, added, encloses⟩, allSpared⟩
        have spared := allSpared addition.1 addition.2.id (Or.inr ⟨rfl, rfl⟩)
        have earlierSpared : ∀ other otherId, Adds earlier other otherId →
            other.Spares segment :=
          fun other otherId before => allSpared other otherId (Or.inl before)
        refine ⟨spared, ?_⟩
        by_cases enclosed : ∃ other otherId, Adds earlier other otherId ∧
            other.encloses segment = true
        · exact Or.inl ⟨enclosed, earlierSpared⟩
        · -- None of the earlier ranges encloses it, so all of them lie apart
          -- from it.
          rcases added with before | ⟨rfl, rfl⟩
          · exact absurd ⟨range, id, before, encloses⟩ enclosed
          · refine Or.inr ⟨encloses, ?_⟩
            rintro channel inSegment ⟨other, otherId, before, inOther⟩
            rcases earlierSpared other otherId before with within | apart
            · exact enclosed ⟨other, otherId, before, within⟩
            · exact (ChannelRange.overlaps_eq_false_iff_forall _ _).mp apart
                channel inOther inSegment

/--
A covered channel lies in one piece with the next if no added range has an end
between them.
-/
theorem together_iff_no_end_between
    {additions : List (ChannelRange × Participant)} {channel next : Channel}
    (neighbours : next.toNat = channel.toNat + 1)
    (covered : (ofAdditions additions).Covered channel) :
    (∃ piece ∈ (ofAdditions additions).pieces,
        piece.range.contains channel = true ∧
          piece.range.contains next = true) ↔
      ∀ addition ∈ additions, addition.1.last ≠ channel ∧
        addition.1.first ≠ next := by
  have ordered : channel ≤ next := by
    rw [UInt64.le_iff_toNat_le]
    omega
  let pair : ChannelRange := ⟨channel, next, ordered⟩
  have sparing (range : ChannelRange) :
      range.Spares pair ↔ range.last ≠ channel ∧ range.first ≠ next :=
    range.spares_neighbours_iff neighbours
  have undivided := undivided_ofAdditions_iff additions pair
  simp only [Undivided, ChannelRange.encloses_iff_contains_ends] at undivided
  refine undivided.trans ?_
  constructor
  · rintro ⟨_, allSpared⟩ ⟨range, participant⟩ listed
    exact (sparing range).mp
      (allSpared range participant.id ⟨participant, listed, rfl⟩)
  · intro noEnd
    have allSpared : ∀ range id, Adds additions range id →
        range.Spares pair := by
      rintro range id ⟨participant, listed, _⟩
      exact (sparing range).mpr (noEnd (range, participant) listed)
    refine ⟨?_, allSpared⟩
    rcases (covered_ofAdditions_iff additions channel).mp covered
      with ⟨range, id, added, inRange⟩
    refine ⟨range, id, added, ?_⟩
    rw [← ChannelRange.encloses_iff_contains_ends]
    rcases allSpared range id added with within | apart
    · exact within
    · exact absurd pair.contains_first
        ((ChannelRange.overlaps_eq_false_iff_forall _ _).mp apart
          channel inRange)

section SameAdditions

variable {additions others : List (ChannelRange × Participant)}

theorem pieces_ofAdditions_eq
    (same : ∀ range id, Adds additions range id ↔ Adds others range id) :
    (ofAdditions additions).pieces = (ofAdditions others).pieces := by
  apply (wellFormed_ofAdditions additions).pieces_eq
    (wellFormed_ofAdditions others)
  · intro id channel
    rw [Bool.eq_iff_iff, covers_ofAdditions_iff, covers_ofAdditions_iff]
    simp only [same]
  · intro segment
    rw [undivided_ofAdditions_iff, undivided_ofAdditions_iff]
    simp only [same]

theorem mem_of_contact?_ofAdditions
    {id : ParticipantId} {participant : Participant}
    (found : (ofAdditions additions).contact? id = some participant) :
    ∃ range, (range, participant) ∈ additions := by
  rcases exists_add_of_contact? found with ⟨range, listed⟩
  rcases List.mem_map.mp listed with ⟨addition, isAddition, same⟩
  cases same
  exact ⟨addition.1, isAddition⟩

theorem indexed_ofAdditions_eq
    (same : ∀ range id, Adds additions range id ↔ Adds others range id)
    (id : ParticipantId) :
    (ofAdditions additions).indexed id = (ofAdditions others).indexed id := by
  rw [(wellFormed_ofAdditions additions).indexed_eq,
    (wellFormed_ofAdditions others).indexed_eq, pieces_ofAdditions_eq same]

theorem keys_ofAdditions_eq
    (same : ∀ range id, Adds additions range id ↔ Adds others range id) :
    (ofAdditions additions).index.keys = (ofAdditions others).index.keys := by
  apply (wellFormed_ofAdditions additions).indexOrdered.eq_of_mem_iff
    (wellFormed_ofAdditions others).indexOrdered
  intro id
  rw [Table.mem_keys_iff, Table.mem_keys_iff,
    (wellFormed_ofAdditions additions).contains_index_iff,
    (wellFormed_ofAdditions others).contains_index_iff,
    indexed_ofAdditions_eq same]

/--
The contacts are the same too if each participant was added as the same one.
-/
theorem contact?_ofAdditions_eq
    (same : ∀ range id, Adds additions range id ↔ Adds others range id)
    (agree : ∀ addition ∈ additions, ∀ other ∈ others,
      addition.2.id = other.2.id → addition.2 = other.2)
    (id : ParticipantId) :
    (ofAdditions additions).contact? id = (ofAdditions others).contact? id := by
  have wellFormed := wellFormed_ofAdditions additions
  have otherWellFormed := wellFormed_ofAdditions others
  have bothKnown : ((ofAdditions additions).contact? id).isSome =
      ((ofAdditions others).contact? id).isSome := by
    rw [Bool.eq_iff_iff, wellFormed.isSome_contact?_iff,
      otherWellFormed.isSome_contact?_iff, indexed_ofAdditions_eq same]
  cases found : (ofAdditions additions).contact? id with
  | none =>
      rw [found, Option.isSome_none, eq_comm, Option.isSome_eq_false_iff,
        Option.isNone_iff_eq_none] at bothKnown
      exact bothKnown.symm
  | some participant =>
      rw [found, Option.isSome_some, eq_comm, Option.isSome_iff_exists]
        at bothKnown
      rcases bothKnown with ⟨other, otherFound⟩
      rcases mem_of_contact?_ofAdditions found with ⟨range, listed⟩
      rcases mem_of_contact?_ofAdditions otherFound
        with ⟨otherRange, otherListed⟩
      have sameId : participant.id = other.id :=
        (wellFormed.id_of_contact? found).trans
          (otherWellFormed.id_of_contact? otherFound).symm
      rw [otherFound]
      exact congrArg some
        (agree (range, participant) listed (otherRange, other)
          otherListed sameId)

/--
Whether ranges are added in one order or another, once or several times, the
pieces are the same, with the same holders, and the index lists the same pieces
for the same participants; if each participant is added as the same one in both,
the tables are the same.  A covered channel and the next lie in one piece
exactly if no added range ends at the one or begins at the other.
-/
theorem additions_commute
    (same : ∀ range id, Adds additions range id ↔ Adds others range id) :
    (ofAdditions additions).pieces = (ofAdditions others).pieces ∧
      (∀ id, (ofAdditions additions).indexed id =
        (ofAdditions others).indexed id) ∧
      (ofAdditions additions).index.keys = (ofAdditions others).index.keys ∧
      ((∀ addition ∈ additions, ∀ other ∈ others,
          addition.2.id = other.2.id → addition.2 = other.2) →
        ofAdditions additions = ofAdditions others) ∧
      ∀ channel next : Channel, next.toNat = channel.toNat + 1 →
        (ofAdditions additions).Covered channel →
          (ofAdditions additions).Covered next →
        ((∃ piece ∈ (ofAdditions additions).pieces,
            piece.range.contains channel = true ∧
              piece.range.contains next = true) ↔
          ∀ addition ∈ additions, addition.1.last ≠ channel ∧
            addition.1.first ≠ next) := by
  refine ⟨pieces_ofAdditions_eq same, indexed_ofAdditions_eq same,
    keys_ofAdditions_eq same, ?_,
    fun channel next neighbours covered _ =>
      together_iff_no_end_between neighbours covered⟩
  intro agree
  exact (wellFormed_ofAdditions additions).eq_of_pieces
    (wellFormed_ofAdditions others)
    (pieces_ofAdditions_eq same) (contact?_ofAdditions_eq same agree)

end SameAdditions

/--
One order cuts twice; the other fills a gap on each side and repeats itself.
-/
theorem additions_commute_around_a_gap :
    let additions : List (ChannelRange × Participant) :=
      [(⟨1, 9, by decide⟩, ⟨1, 0⟩), (⟨4, 6, by decide⟩, ⟨2, 0⟩)]
    let others : List (ChannelRange × Participant) :=
      [(⟨4, 6, by decide⟩, ⟨2, 0⟩), (⟨1, 9, by decide⟩, ⟨1, 0⟩),
        (⟨4, 6, by decide⟩, ⟨2, 0⟩)]
    (∀ range id, Adds additions range id ↔ Adds others range id) ∧
      (ofAdditions additions).Covered 6 ∧ (ofAdditions additions).Covered 7 ∧
      ofAdditions additions = ofAdditions others ∧
      ¬ ∃ piece ∈ (ofAdditions additions).pieces,
        piece.range.contains 6 = true ∧ piece.range.contains 7 = true := by
  intro additions others
  have same : ∀ range id, Adds additions range id ↔ Adds others range id := by
    intro range id
    simp only [Adds, additions, others, List.mem_cons,
      List.not_mem_nil, or_false]
    grind
  have lower : (ofAdditions additions).Covered 6 := ⟨1, by decide⟩
  have upper : (ofAdditions additions).Covered 7 := ⟨1, by decide⟩
  have commuted := additions_commute same
  refine ⟨same, lower, upper, commuted.2.2.2.1 (by decide), ?_⟩
  rw [commuted.2.2.2.2 6 7 (by decide) lower upper]
  decide

end RangeTable

end ChannelRouter
