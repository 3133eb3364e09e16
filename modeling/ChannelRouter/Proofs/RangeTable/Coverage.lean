import ChannelRouter.Proofs.RangeTable.WellFormed

/-!
# What a range table covers

A participant covers a channel if it holds the piece that the channel lies in.
Of a well-formed table this says all: each operation changes coverage for its
own participant, inside its own range and nowhere else, however it cuts the
pieces, and reports the channels that gained a first holder or lost the last.
-/

namespace ChannelRouter

namespace RangeTable

/-- Whether anybody holds a channel by a range. -/
def Covered (table : RangeTable) (channel : Channel) : Prop :=
  ∃ id, table.covers id channel = true

/-! ## The piece of a channel -/

theorem covering?_eq_some_iff
    {table : RangeTable} (ascending : Piece.Ascending table.pieces)
    (channel : Channel) (piece : Piece) :
    table.covering? channel = some piece ↔
      piece ∈ table.pieces ∧ piece.range.contains channel = true := by
  rw [covering?]
  constructor
  · intro found
    exact ⟨List.mem_of_find?_eq_some
      found, by simpa using List.find?_some found⟩
  · rintro ⟨listed, inPiece⟩
    cases found : table.pieces.find? (·.range.contains channel) with
    | none =>
        have outside := List.find?_eq_none.mp found piece listed
        exact absurd inPiece outside
    | some other =>
        have otherListed := List.mem_of_find?_eq_some found
        have inOther : other.range.contains channel = true := by
          simpa using List.find?_some found
        rw [ChannelRange.eq_of_contains ascending listed otherListed
          inPiece inOther]

theorem covers_iff
    {table : RangeTable} (ascending : Piece.Ascending table.pieces)
    (id : ParticipantId) (channel : Channel) :
    table.covers id channel = true ↔
      ∃ piece ∈ table.pieces, piece.range.contains channel = true ∧
        id ∈ piece.holders := by
  simp only [covers, holdersAt, List.contains_iff_mem]
  constructor
  · intro member
    cases found : table.covering? channel with
    | none => simp [found] at member
    | some piece =>
        rcases (covering?_eq_some_iff ascending channel piece).mp found
          with ⟨listed, inPiece⟩
        exact ⟨piece, listed, inPiece, by simpa [found] using member⟩
  · rintro ⟨piece, listed, inPiece, member⟩
    have found :=
      (covering?_eq_some_iff ascending channel piece).mpr ⟨listed, inPiece⟩
    simpa [found] using member

theorem WellFormed.covered_iff
    {table : RangeTable} (wellFormed : table.WellFormed) (channel : Channel) :
    table.Covered channel ↔
      ∃ piece ∈ table.pieces, piece.range.contains channel = true := by
  constructor
  · rintro ⟨id, covers⟩
    rcases (covers_iff wellFormed.ascending id channel).mp covers
      with ⟨piece, listed, inPiece, _⟩
    exact ⟨piece, listed, inPiece⟩
  · rintro ⟨piece, listed, inPiece⟩
    rcases List.exists_cons_of_ne_nil (wellFormed.held piece listed)
      with ⟨id, others, holders⟩
    refine ⟨id, (covers_iff wellFormed.ascending id channel).mpr
      ⟨piece, listed, inPiece, ?_⟩⟩
    simp [holders]

/-! ## Cutting -/

theorem exists_mem_pieces_refine_iff
    {parts : ChannelRange → List ChannelRange}
    (cutting : ChannelRange.Cutting parts)
    (table : RangeTable) (channel : Channel)
    (condition : List ParticipantId → Prop) :
    (∃ part ∈ (table.refine parts).pieces,
        part.range.contains channel = true ∧ condition part.holders) ↔
      ∃ piece ∈ table.pieces,
        piece.range.contains channel = true ∧ condition piece.holders := by
  constructor
  · rintro ⟨part, listed, inPart, holders⟩
    rcases (mem_pieces_refine_iff parts table part).mp listed
      with ⟨piece, was, isPart, same⟩
    exact ⟨piece, was, (cutting.exists_mem_iff _ _).mp ⟨_, isPart, inPart⟩,
      same ▸ holders⟩
  · rintro ⟨piece, listed, inPiece, holders⟩
    rcases (cutting.exists_mem_iff _ _).mpr inPiece with ⟨range, isPart, inPart⟩
    exact ⟨{ piece with range },
      (mem_pieces_refine_iff parts table _).mpr ⟨piece, listed, isPart, rfl⟩,
      inPart, holders⟩

/-- Cutting changes nobody's coverage. -/
theorem WellFormed.covers_refine
    {table : RangeTable} (wellFormed : table.WellFormed)
    {parts : ChannelRange → List ChannelRange}
    (cutting : ChannelRange.Cutting parts)
    (id : ParticipantId) (channel : Channel) :
    (table.refine parts).covers id channel = true ↔
      table.covers id channel = true := by
  rw [covers_iff (wellFormed.refine cutting).ascending,
    covers_iff wellFormed.ascending]
  exact exists_mem_pieces_refine_iff cutting table channel (id ∈ ·)

theorem WellFormed.covered_refine
    {table : RangeTable} (wellFormed : table.WellFormed)
    {parts : ChannelRange → List ChannelRange}
    (cutting : ChannelRange.Cutting parts) (channel : Channel) :
    (table.refine parts).Covered channel ↔ table.Covered channel := by
  unfold Covered
  simp only [wellFormed.covers_refine cutting]

/-! ## Adding -/

theorem WellFormed.exists_mem_settled_iff
    {table : RangeTable} (wellFormed : table.WellFormed)
    {range : ChannelRange} (uncut : table.Uncut range)
    (id other : ParticipantId) (channel : Channel) :
    (∃ piece ∈ table.settled range id,
        piece.range.contains channel = true ∧ other ∈ piece.holders) ↔
      other = id ∧ range.contains channel = true ∨
        ∃ piece ∈ table.pieces,
          piece.range.contains channel = true ∧ other ∈ piece.holders := by
  have fits := wellFormed.fits_inside range
  have isSettled := wellFormed.mem_settled_iff range id
  constructor
  · rintro ⟨piece, listed, inPiece, member⟩
    rcases (isSettled piece).mp listed
      with ⟨kept, _⟩ | ⟨before, was, within, rfl⟩ | ⟨vacancy, vacant, rfl⟩
    · exact Or.inr ⟨piece, kept, inPiece, member⟩
    · rcases (Piece.mem_holders_enter id other before).mp member
        with same | held
      · exact Or.inl
          ⟨same, (ChannelRange.encloses_iff_forall _ _).mp within
            channel inPiece⟩
      · exact Or.inr ⟨before, was, inPiece, held⟩
    · have within := ChannelRange.encloses_of_mem_portions fits _ vacant
      exact Or.inl ⟨List.mem_singleton.mp member,
        (ChannelRange.encloses_iff_forall _ _).mp within channel inPiece⟩
  · rintro (⟨rfl, inRange⟩ | ⟨piece, listed, inPiece, member⟩)
    · obtain ⟨portion, isPortion, inPortion⟩ :=
        (ChannelRange.exists_mem_portions_iff fits channel).mpr inRange
      refine ⟨portion.settle other, ?_, by rwa [range_settle], ?_⟩
      · simp only [settled, List.mem_append, List.mem_map]
        exact Or.inl (Or.inr ⟨portion, isPortion, rfl⟩)
      · cases portion with
        | vacant part => exact List.mem_singleton.mpr rfl
        | taken before =>
            exact (Piece.mem_holders_enter other other before).mpr (Or.inl rfl)
    · rcases uncut piece listed with within | apart
      · exact ⟨piece.enter id,
          (isSettled _).mpr (Or.inr (Or.inl ⟨piece, listed, within, rfl⟩)),
          inPiece, (Piece.mem_holders_enter id other piece).mpr (Or.inr member)⟩
      · exact ⟨piece, (isSettled piece).mpr (Or.inl ⟨listed, apart⟩),
          inPiece, member⟩

/--
Adding a range covers its channels for the participant and changes nothing else.
-/
theorem WellFormed.covers_add
    {table : RangeTable} (wellFormed : table.WellFormed)
    (range : ChannelRange) (participant : Participant)
    (id : ParticipantId) (channel : Channel) :
    (table.add range participant).1.covers id channel = true ↔
      id = participant.id ∧ range.contains channel = true ∨
        table.covers id channel = true := by
  have cutting := ChannelRange.cutting_cutAlong range
  rw [covers_iff (wellFormed.add range participant).ascending,
    ← wellFormed.covers_refine cutting,
    covers_iff (wellFormed.refine cutting).ascending]
  exact (wellFormed.refine cutting).exists_mem_settled_iff
    (uncut_refine_cutAlong table range) participant.id id channel

theorem WellFormed.covered_add
    {table : RangeTable} (wellFormed : table.WellFormed)
    (range : ChannelRange) (participant : Participant) (channel : Channel) :
    (table.add range participant).1.Covered channel ↔
      range.contains channel = true ∨ table.Covered channel := by
  unfold Covered
  simp only [wellFormed.covers_add, exists_or, exists_eq_left]

/-- The vacancies of a range are its channels that lie in none of the pieces. -/
theorem exists_mem_vacancies_iff
    {range : ChannelRange} {pieces : List Piece}
    (fits : range.Fits pieces) (channel : Channel) :
    (∃ vacancy ∈ (range.portions pieces).filterMap Portion.vacancy?,
        vacancy.contains channel = true) ↔
      range.contains channel = true ∧
        ¬ ∃ piece ∈ pieces, piece.range.contains channel = true := by
  constructor
  · rintro ⟨vacancy, listed, inVacancy⟩
    rcases List.mem_filterMap.mp listed with ⟨portion, isPortion, vacant⟩
    cases portion with
    | taken piece => cases vacant
    | vacant part =>
        cases vacant
        constructor
        · exact (ChannelRange.exists_mem_portions_iff fits channel).mp
            ⟨.vacant vacancy, isPortion, inVacancy⟩
        · rintro ⟨piece, isPiece, inPiece⟩
          exact ChannelRange.not_contains_of_vacant fits isPortion isPiece
            inVacancy inPiece
  · rintro ⟨inRange, outside⟩
    rcases (ChannelRange.exists_mem_portions_iff fits channel).mpr inRange
      with ⟨portion, isPortion, inPortion⟩
    cases portion with
    | vacant part =>
        exact ⟨part, List.mem_filterMap.mpr ⟨_, isPortion, rfl⟩, inPortion⟩
    | taken piece =>
        have isPiece :=
          (ChannelRange.taken_mem_portions_iff fits piece).mp isPortion
        exact absurd ⟨piece, isPiece, inPortion⟩ outside

/-- What adding reports are the channels that nobody held before. -/
theorem WellFormed.exists_mem_added_iff
    {table : RangeTable} (wellFormed : table.WellFormed)
    (range : ChannelRange) (participant : Participant) (channel : Channel) :
    (∃ gained ∈ (table.add range participant).2.added,
      gained.contains channel = true) ↔
      range.contains channel = true ∧ ¬ table.Covered channel := by
  have cutting := ChannelRange.cutting_cutAlong range
  have cutWellFormed := wellFormed.refine cutting
  rw [← wellFormed.covered_refine cutting, cutWellFormed.covered_iff]
  show (∃ gained ∈ ChannelRange.coalesce _, _) ↔ _
  rw [ChannelRange.exists_mem_coalesce_iff,
    exists_mem_vacancies_iff (cutWellFormed.fits_inside range)]
  refine and_congr_right fun inRange => not_congr ⟨?_, ?_⟩
  · rintro ⟨piece, inside, inPiece⟩
    exact ⟨piece, (List.mem_filter.mp inside).1, inPiece⟩
  · rintro ⟨piece, listed, inPiece⟩
    refine ⟨piece, List.mem_filter.mpr ⟨listed, ?_⟩, inPiece⟩
    rcases uncut_refine_cutAlong table range piece listed with within | apart
    · exact within
    · exact absurd inPiece
        ((ChannelRange.overlaps_eq_false_iff_forall _ _).mp apart
          channel inRange)

/-! ## Releasing -/

theorem WellFormed.covers_release
    {table : RangeTable} (wellFormed : table.WellFormed)
    (id other : ParticipantId) (condition : ChannelRange → Bool)
    (channel : Channel) :
    (table.release id condition).1.covers other channel = true ↔
      ∃ piece ∈ table.pieces, piece.range.contains channel = true ∧
        other ∈ piece.holders ∧
          ¬ (other = id ∧ condition piece.range = true) := by
  rw [covers_iff (wellFormed.release id condition).ascending, pieces_release]
  constructor
  · rintro ⟨rest, listed, inRest, member⟩
    rcases List.mem_filterMap.mp listed with ⟨piece, was, released⟩
    rcases Piece.afterRelease_of_eq_some released with ⟨sameRange, holders⟩
    exact ⟨piece, was, sameRange ▸ inRest, (holders other).mp member⟩
  · rintro ⟨piece, listed, inPiece, remains⟩
    cases released : piece.afterRelease id condition with
    | none =>
        have dropped :=
          (Piece.afterRelease_eq_none_iff id condition piece).mp released
        exact absurd ⟨dropped.2 other remains.1, dropped.1⟩ remains.2
    | some rest =>
        rcases Piece.afterRelease_of_eq_some released with ⟨sameRange, holders⟩
        exact ⟨rest, List.mem_filterMap.mpr ⟨piece, listed, released⟩,
          sameRange ▸ inPiece, (holders other).mpr remains⟩

/-- What releasing reports are the channels that nobody holds any more. -/
theorem WellFormed.exists_mem_removed_release_iff
    {table : RangeTable} (wellFormed : table.WellFormed)
    (id : ParticipantId) (condition : ChannelRange → Bool) (channel : Channel) :
    (∃ lost ∈ (table.release id condition).2.removed,
      lost.contains channel = true) ↔
      table.Covered channel ∧
        ¬ (table.release id condition).1.Covered channel := by
  show (∃ lost ∈ ChannelRange.coalesce _, _) ↔ _
  rw [ChannelRange.exists_mem_coalesce_iff]
  constructor
  · rintro ⟨range, listed, inRange⟩
    rcases List.mem_map.mp listed with ⟨piece, isLost, rfl⟩
    rcases List.mem_filter.mp isLost with ⟨was, lost⟩
    simp only [Bool.and_eq_true, Option.isNone_iff_eq_none,
      Piece.leave?_eq_none_iff] at lost
    refine ⟨(wellFormed.covered_iff channel).mpr ⟨piece, was, inRange⟩, ?_⟩
    rintro ⟨other, covers⟩
    rcases (wellFormed.covers_release id other condition channel).mp covers
      with ⟨still, listedStill, inStill, member, kept⟩
    cases ChannelRange.eq_of_contains wellFormed.ascending was
      listedStill inRange inStill
    exact kept ⟨lost.2 other member, lost.1⟩
  · rintro ⟨covered, uncovered⟩
    rcases (wellFormed.covered_iff channel).mp covered
      with ⟨piece, listed, inPiece⟩
    have everybodyLeft : ∀ holder ∈ piece.holders,
        holder = id ∧ condition piece.range = true := by
      intro holder member
      by_contra kept
      exact uncovered
        ⟨holder, (wellFormed.covers_release id holder condition channel).mpr
        ⟨piece, listed, inPiece, member, kept⟩⟩
    rcases List.exists_mem_of_ne_nil _ (wellFormed.held piece listed)
      with ⟨holder, member⟩
    refine ⟨piece.range,
      List.mem_map_of_mem (List.mem_filter.mpr ⟨listed, ?_⟩), inPiece⟩
    simp only [Bool.and_eq_true, Option.isNone_iff_eq_none,
      Piece.leave?_eq_none_iff]
    exact ⟨(everybodyLeft holder member).2, fun other isHolder =>
      (everybodyLeft other isHolder).1⟩

/-! ## Removing -/

/--
The pieces that a participant holds lie inside the range it was cut for, or
outside.
-/
theorem WellFormed.uncut_cutFor
    {table : RangeTable} (wellFormed : table.WellFormed)
    {range : ChannelRange} {id : ParticipantId} {part : Piece}
    (listed : part ∈ (table.cutFor range id).pieces)
    (member : id ∈ part.holders) :
    range.encloses part.range = true ∨ range.overlaps part.range = false := by
  rcases (mem_pieces_refine_iff _ table part).mp listed
    with ⟨piece, was, isPart, same⟩
  split at isPart
  · exact ChannelRange.uncut_of_mem_cutAlong isPart
  · rename_i notChosen
    rw [List.mem_singleton] at isPart
    have indexed :=
      (wellFormed.range_mem_indexed_iff was id).mpr (same ▸ member)
    simp only [List.contains_iff_mem, List.mem_filter, indexed, true_and]
      at notChosen
    rw [isPart]
    exact Or.inr (Bool.not_eq_true _ ▸ notChosen)

theorem WellFormed.covers_cutFor
    {table : RangeTable} (wellFormed : table.WellFormed)
    (range : ChannelRange) (id other : ParticipantId) (channel : Channel) :
    (table.cutFor range id).covers other channel = true ↔
      table.covers other channel = true :=
  wellFormed.covers_refine ((ChannelRange.cutting_cutAlong range).onlyIf _)
    other channel

/--
Removing a range uncovers its channels for the participant and changes nothing
else.
-/
theorem WellFormed.covers_remove
    {table : RangeTable} (wellFormed : table.WellFormed)
    (range : ChannelRange) (id other : ParticipantId) (channel : Channel) :
    (table.remove range id).1.covers other channel = true ↔
      table.covers other channel = true ∧
        ¬ (other = id ∧ range.contains channel = true) := by
  rw [remove_eq_release, (wellFormed.cutFor range id).covers_release,
    ← wellFormed.covers_cutFor range id,
    covers_iff (wellFormed.cutFor range id).ascending]
  constructor
  · rintro ⟨piece, listed, inPiece, member, kept⟩
    refine ⟨⟨piece, listed, inPiece, member⟩, ?_⟩
    rintro ⟨rfl, inRange⟩
    rcases wellFormed.uncut_cutFor listed member with within | apart
    · exact kept ⟨rfl, within⟩
    · exact (ChannelRange.overlaps_eq_false_iff_forall _ _).mp apart
        channel inRange inPiece
  · rintro ⟨⟨piece, listed, inPiece, member⟩, outside⟩
    refine ⟨piece, listed, inPiece, member, ?_⟩
    rintro ⟨rfl, within⟩
    exact outside
      ⟨rfl, (ChannelRange.encloses_iff_forall _ _).mp within channel inPiece⟩

theorem WellFormed.exists_mem_removed_iff
    {table : RangeTable} (wellFormed : table.WellFormed)
    (range : ChannelRange) (id : ParticipantId) (channel : Channel) :
    (∃ lost ∈ (table.remove range id).2.removed, lost.contains channel = true) ↔
      table.Covered channel ∧ ¬ (table.remove range id).1.Covered channel := by
  have sameCovered : (table.cutFor range id).Covered channel ↔
      table.Covered channel :=
    exists_congr fun holder => wellFormed.covers_cutFor range id holder channel
  rw [remove_eq_release,
    (wellFormed.cutFor range id).exists_mem_removed_release_iff, sameCovered]

/-! ## Dropping a holder -/

theorem WellFormed.covers_removeHolder
    {table : RangeTable} (wellFormed : table.WellFormed)
    (id other : ParticipantId) (channel : Channel) :
    (table.removeHolder id).1.covers other channel = true ↔
      table.covers other channel = true ∧ other ≠ id := by
  rw [RangeTable.removeHolder, wellFormed.covers_release,
    covers_iff wellFormed.ascending]
  simp only [and_true, ← and_assoc, exists_and_right]

theorem WellFormed.exists_mem_removed_removeHolder_iff
    {table : RangeTable} (wellFormed : table.WellFormed)
    (id : ParticipantId) (channel : Channel) :
    (∃ lost ∈ (table.removeHolder id).2.removed, lost.contains channel = true) ↔
      table.Covered channel ∧ ¬ (table.removeHolder id).1.Covered channel :=
  wellFormed.exists_mem_removed_release_iff id (fun _ => true) channel

end RangeTable

end ChannelRouter
