import ChannelRouter.Proofs.RangeTable.Untouched

/-!
# An operation, one part of its range after the other

Adding and removing can be done to a range part by part, as long as the parts
meet only where a piece ends, so that no cut is made between them that the
operation would not have made.  In which order the parts come does not matter.
-/

namespace ChannelRouter

namespace ChannelRange

/-! ## The parts of a range along another -/

variable {range other segment : ChannelRange}

/-- No channel lies in two parts of a range. -/
theorem eq_of_mem_cutAlong
    {part next : ChannelRange} (listed : part ∈ range.cutAlong other)
    (nextListed : next ∈ range.cutAlong other) {channel : Channel}
    (inPart : part.contains channel = true)
    (inNext : next.contains channel = true) :
    part = next := by
  have ascending : (range.cutAlong other).Pairwise fun lower upper =>
      (id lower).precedes (id upper) = true := pairwise_cutAlong range other
  exact eq_of_contains ascending listed nextListed inPart inNext

/-- A spared range that shares a channel is enclosed. -/
theorem Spares.encloses
    (spared : range.Spares segment) {channel : Channel}
    (inRange : range.contains channel = true)
    (inSegment : segment.contains channel = true) :
    range.encloses segment = true := by
  rcases spared with within | apart
  · exact within
  · exact absurd inSegment
      ((overlaps_eq_false_iff_forall _ _).mp apart channel inRange)

theorem overlaps_comm (range other : ChannelRange) :
    range.overlaps other = other.overlaps range :=
  Bool.and_comm _ _

theorem overlaps_symm (apart : range.overlaps other = false) :
    other.overlaps range = false :=
  (overlaps_comm other range).trans apart

theorem overlaps_of_encloses
    {part : ChannelRange} (within : range.encloses part = true)
    (overlap : other.overlaps part = true) : other.overlaps range = true := by
  rcases (overlaps_iff_exists _ _).mp overlap with ⟨channel, inOther, inPart⟩
  exact (overlaps_iff_exists _ _).mpr
    ⟨channel, inOther, (encloses_iff_forall _ _).mp within channel inPart⟩

/-- What lies apart from a range lies apart from all that is in it. -/
theorem apart_of_encloses
    {part : ChannelRange} (within : range.encloses part = true)
    (apart : other.overlaps range = false) : other.overlaps part = false := by
  rw [← Bool.not_eq_true] at apart ⊢
  exact mt (overlaps_of_encloses within) apart

/-- What a range shares with another lies in the other. -/
theorem encloses_of_meet?
    {shared : ChannelRange} (meeting : range.meet? other = some shared) :
    other.encloses shared = true :=
  (encloses_iff_forall _ _).mpr fun channel inShared =>
    ((contains_of_meet? meeting channel).mp inShared).2

/-- The parts of a cut lie apart from one another. -/
theorem separate_cutAlong (range other : ChannelRange) :
    (range.cutAlong other).Pairwise fun part next =>
      part.overlaps next = false :=
  (pairwise_cutAlong range other).imp fun below =>
    (overlaps_eq_false_iff _ _).mpr (Or.inr ((precedes_iff _ _).mp below))

theorem exists_part_encloses_iff (spared : other.Spares segment) :
    (∃ part ∈ range.cutAlong other, part.encloses segment = true) ↔
      range.encloses segment = true := by
  constructor
  · rintro ⟨part, listed, encloses⟩
    exact encloses_trans ((cutting_cutAlong other).encloses listed) encloses
  · intro within
    exact exists_mem_cutAlong_encloses within spared

/--
All parts spare what the other range spares exactly if the whole range does.
-/
theorem forall_part_spares_iff (spared : other.Spares segment) :
    (∀ part ∈ range.cutAlong other, part.Spares segment) ↔
      range.Spares segment := by
  constructor
  · intro allSpare
    by_cases enclosed : ∃ part ∈ range.cutAlong other,
      part.encloses segment = true
    · exact Or.inl ((exists_part_encloses_iff spared).mp enclosed)
    · refine Or.inr ((overlaps_eq_false_iff_forall _ _).mpr
        fun channel inRange inSegment => ?_)
      rcases (exists_mem_cutAlong_iff range other channel).mpr inRange
        with ⟨part, listed, inPart⟩
      rcases allSpare part listed with within | apart
      · exact enclosed ⟨part, listed, within⟩
      · exact (overlaps_eq_false_iff_forall _ _).mp apart channel
          inPart inSegment
  · rintro (within | apart) part listed
    · rcases exists_mem_cutAlong_encloses within spared
        with ⟨found, isPart, encloses⟩
      by_cases overlap : part.overlaps segment = true
      · rcases (overlaps_iff_exists _ _).mp overlap
          with ⟨channel, inPart, inSegment⟩
        have inFound := (encloses_iff_forall _ _).mp encloses channel inSegment
        exact Or.inl
          (eq_of_mem_cutAlong listed isPart inPart inFound ▸ encloses)
      · exact Or.inr (Bool.not_eq_true _ ▸ overlap)
    · have inside := (cutting_cutAlong other).encloses listed
      exact Or.inr
        (overlaps_symm (apart_of_encloses inside (overlaps_symm apart)))

theorem exists_mem_onlyIf_encloses
    (chosen : Bool) (within : range.encloses segment = true)
    (spared : other.Spares segment) :
    ∃ part ∈ (if chosen then range.cutAlong other else [range]),
      part.encloses segment = true := by
  split
  · exact exists_mem_cutAlong_encloses within spared
  · exact ⟨range, List.mem_singleton_self _, within⟩

end ChannelRange

namespace RangeTable

variable {table : RangeTable} {range : ChannelRange}
  {ranges : List ChannelRange}

/-- What is to be done to every channel of a range. -/
inductive Task where
  | add (participant : Participant)
  | remove (id : ParticipantId)
deriving DecidableEq, Repr

namespace Task

/-- The task for a range. -/
def operation : Task → ChannelRange → Operation
  | add participant, range => .add range participant
  | remove id, range => .remove range id

/-- The table once the task is done for a range. -/
def apply (task : Task) (table : RangeTable) (range : ChannelRange) :
    RangeTable :=
  (task.operation range).apply table

/-- The table once the task is done for one range after the other. -/
def each (task : Task) (table : RangeTable) (ranges : List ChannelRange) :
    RangeTable :=
  ranges.foldl task.apply table

theorem each_cons
    (task : Task) (table : RangeTable) (range : ChannelRange)
    (ranges : List ChannelRange) :
    task.each table (range :: ranges) =
      task.each (task.apply table range) ranges := rfl

theorem each_append (task : Task) (table : RangeTable)
    (ranges others : List ChannelRange) :
    task.each table (ranges ++ others) =
      task.each (task.each table ranges) others :=
  List.foldl_append

end Task

theorem WellFormed.applyTask
    (wellFormed : table.WellFormed) (task : Task) (range : ChannelRange) :
    (task.apply table range).WellFormed :=
  wellFormed.apply (task.operation range)

theorem WellFormed.each
    (wellFormed : table.WellFormed) (task : Task) (ranges : List ChannelRange) :
    (task.each table ranges).WellFormed := by
  induction ranges generalizing table with
  | nil => exact wellFormed
  | cons range others ih => exact ih (wellFormed.applyTask task range)

/-! ## What a piece spares -/

section Listed

variable {piece : Piece} {segment : ChannelRange}

theorem WellFormed.spares_of_undivided
    (wellFormed : table.WellFormed) (listed : piece ∈ table.pieces)
    (undivided : table.Undivided segment) : piece.range.Spares segment := by
  rcases undivided with ⟨other, otherListed, encloses⟩
  by_cases overlap : piece.range.overlaps segment = true
  · rcases (ChannelRange.overlaps_iff_exists _ _).mp overlap
      with ⟨channel, inPiece, inSegment⟩
    have inOther :=
      (ChannelRange.encloses_iff_forall _ _).mp encloses channel inSegment
    cases ChannelRange.eq_of_contains wellFormed.ascending listed
      otherListed inPiece inOther
    exact Or.inl encloses
  · exact Or.inr (Bool.not_eq_true _ ▸ overlap)

theorem WellFormed.spares_of_uncovered
    (wellFormed : table.WellFormed) (listed : piece ∈ table.pieces)
    (uncovered : ∀ channel, segment.contains channel = true →
      ¬ table.Covered channel) :
    piece.range.Spares segment := by
  refine Or.inr ((ChannelRange.overlaps_eq_false_iff_forall _ _).mpr ?_)
  intro channel inPiece inSegment
  exact uncovered channel inSegment
    ((wellFormed.covered_iff channel).mpr ⟨piece, listed, inPiece⟩)

end Listed

/-! ## Adding range after range -/

section Adding

variable {participant : Participant}

theorem WellFormed.covers_addEach
    (wellFormed : table.WellFormed) (id : ParticipantId) (channel : Channel) :
    ((Task.add participant).each table ranges).covers id channel = true ↔
      id = participant.id ∧ (∃ range ∈ ranges, range.contains channel = true) ∨
        table.covers id channel = true := by
  induction ranges generalizing table with
  | nil => simp [Task.each]
  | cons range others ih =>
      rw [Task.each_cons, ih (wellFormed.applyTask _ range)]
      have first := wellFormed.covers_add range participant id channel
      simp only [Task.apply, Task.operation, Operation.apply,
        first, List.mem_cons, exists_eq_or_imp]
      grind

theorem WellFormed.undivided_addEach
    (wellFormed : table.WellFormed) (segment : ChannelRange) :
    ((Task.add participant).each table ranges).Undivided segment ↔
      (∀ range ∈ ranges, range.Spares segment) ∧ (table.Undivided segment ∨
        (∃ range ∈ ranges, range.encloses segment = true) ∧
          ∀ channel, segment.contains channel = true →
            ¬ table.Covered channel) := by
  induction ranges generalizing table with
  | nil => simp [Task.each]
  | cons range others ih =>
      rw [Task.each_cons, ih (wellFormed.applyTask _ range)]
      have first := wellFormed.undivided_add_iff range participant segment
      have covered := wellFormed.covered_add range participant
      have apart : range.overlaps segment = false ↔
          ∀ channel, segment.contains channel = true →
          ¬ range.contains channel = true := by
        rw [ChannelRange.overlaps_eq_false_iff_forall]
        exact ⟨fun none channel inSegment inRange =>
          none channel inRange inSegment,
          fun none channel inRange inSegment => none channel inSegment inRange⟩
      simp only [Task.apply, Task.operation, Operation.apply, first,
        covered, List.mem_cons, exists_eq_or_imp, not_or, imp_and, forall_and,
        ← apart]
      unfold ChannelRange.Spares
      grind

theorem contact?_addEach
    (participant : Participant) (range : ChannelRange) (id : ParticipantId) :
    ((Task.add participant).each table (range :: ranges)).contact? id =
      if id = participant.id then some
        ((table.contact? participant.id).getD participant)
      else table.contact? id := by
  induction ranges generalizing table range with
  | nil => exact contact?_add table range participant id
  | cons next others ih =>
      rw [Task.each_cons, ih next]
      simp only [Task.apply, Task.operation, Operation.apply,
        contact?_add, if_true, Option.getD_some]
      split <;> rfl

/-- A range may be added in the parts that a piece divides it into. -/
theorem WellFormed.addEach_parts
    (wellFormed : table.WellFormed) {piece : Piece}
    (listed : piece ∈ table.pieces)
    (parts : ranges.Perm (range.cutAlong piece.range)) :
    (Task.add participant).each table ranges =
      (table.add range participant).1 := by
  have eachWellFormed := wellFormed.each (.add participant) ranges
  have onceWellFormed := wellFormed.add range participant
  have contains := ChannelRange.exists_mem_cutAlong_iff range piece.range
  apply eachWellFormed.eq_of_pieces onceWellFormed
  · apply eachWellFormed.pieces_eq onceWellFormed
    · intro id channel
      rw [Bool.eq_iff_iff, wellFormed.covers_addEach, wellFormed.covers_add]
      simp only [parts.mem_iff, contains]
    · intro segment
      rw [wellFormed.undivided_addEach, wellFormed.undivided_add_iff]
      simp only [parts.mem_iff]
      constructor
      · rintro ⟨allSpare, undivided | ⟨enclosed, uncovered⟩⟩
        · have spared := wellFormed.spares_of_undivided listed undivided
          exact ⟨(ChannelRange.forall_part_spares_iff spared).mp allSpare,
            Or.inl undivided⟩
        · have spared := wellFormed.spares_of_uncovered listed uncovered
          exact ⟨(ChannelRange.forall_part_spares_iff spared).mp allSpare,
            Or.inr ⟨(ChannelRange.exists_part_encloses_iff spared).mp enclosed,
              uncovered⟩⟩
      · rintro ⟨spares, undivided | ⟨enclosed, uncovered⟩⟩
        · have spared := wellFormed.spares_of_undivided listed undivided
          exact ⟨(ChannelRange.forall_part_spares_iff spared).mpr spares,
            Or.inl undivided⟩
        · have spared := wellFormed.spares_of_uncovered listed uncovered
          exact ⟨(ChannelRange.forall_part_spares_iff spared).mpr spares,
            Or.inr ⟨(ChannelRange.exists_part_encloses_iff spared).mpr enclosed,
              uncovered⟩⟩
  · intro id
    cases ranges with
    | nil =>
        have nothing := parts.nil_eq.symm
        exact absurd nothing
          ((ChannelRange.cutting_cutAlong piece.range).ne_nil range)
    | cons first others =>
        rw [contact?_addEach, contact?_add]

end Adding

/-! ## Removing range after range -/

section Removing

variable {id : ParticipantId}

/--
Once a range is removed, what was undivided is so still unless the participant
held it and the range cuts it, or nobody holds it any more.
-/
theorem WellFormed.undivided_remove_iff
    (wellFormed : table.WellFormed) (range : ChannelRange) (id : ParticipantId)
    (segment : ChannelRange) :
    (table.remove range id).1.Undivided segment ↔
      table.Undivided segment ∧
        (table.covers id segment.first = true → range.Spares segment) ∧
        (table.remove range id).1.Covered segment.first := by
  have afterWellFormed := wellFormed.remove range id
  constructor
  · rintro ⟨rest, listed, encloses⟩
    have begins := (ChannelRange.encloses_iff_forall _ _).mp encloses _
      segment.contains_first
    refine ⟨?_, ?_, (afterWellFormed.covered_iff _).mpr ⟨rest, listed, begins⟩⟩
    all_goals
      rw [remove_eq_release, pieces_release] at listed
      rcases List.mem_filterMap.mp listed with ⟨part, isPart, released⟩
      have sameRange := (Piece.afterRelease_of_eq_some released).1
      rw [sameRange] at encloses begins
    · rcases (mem_pieces_refine_iff _ table part).mp isPart
        with ⟨piece, was, inParts, _⟩
      have inside :=
        ((ChannelRange.cutting_cutAlong range).onlyIf _).encloses inParts
      exact ⟨piece, was, ChannelRange.encloses_trans inside encloses⟩
    · intro covers
      rw [← wellFormed.covers_cutFor range] at covers
      have member :=
        ((wellFormed.cutFor range id).mem_holders_iff isPart begins id).mpr
          covers
      have spared : range.Spares part.range :=
        wellFormed.uncut_cutFor isPart member
      exact spared.of_encloses encloses
  · rintro ⟨⟨piece, listed, encloses⟩, spares, held⟩
    have begins := (ChannelRange.encloses_iff_forall _ _).mp encloses _
      segment.contains_first
    by_cases member : id ∈ piece.holders
    · have spared :=
        spares ((wellFormed.mem_holders_iff listed begins id).mp member)
      rcases ChannelRange.exists_mem_onlyIf_encloses
          (((table.indexed id).filter range.overlaps).contains piece.range)
            encloses spared
        with ⟨part, isPart, partEncloses⟩
      have isPiece : { piece with range := part } ∈
        (table.cutFor range id).pieces :=
        (mem_pieces_refine_iff _ table _).mpr ⟨piece, listed, isPart, rfl⟩
      cases released :
        Piece.afterRelease id range.encloses { piece with range := part } with
      | none =>
          rcases (Piece.afterRelease_eq_none_iff _ _ _).mp released
            with ⟨within, alone⟩
          rcases held with ⟨holder, covers⟩
          rcases (wellFormed.covers_remove range id holder _).mp covers
            with ⟨covers, outside⟩
          have isHolder :=
            (wellFormed.mem_holders_iff listed begins holder).mpr covers
          have enclosed := ChannelRange.encloses_trans within partEncloses
          exact absurd ⟨alone holder isHolder,
            (ChannelRange.encloses_iff_forall _ _).mp enclosed _
              segment.contains_first⟩ outside
      | some rest =>
          refine ⟨rest, ?_, ?_⟩
          · rw [remove_eq_release, pieces_release]
            exact List.mem_filterMap.mpr ⟨_, isPiece, released⟩
          · rw [(Piece.afterRelease_of_eq_some released).1]
            exact partEncloses
    · exact ⟨piece, wellFormed.mem_pieces_remove listed
        (Or.inl member), encloses⟩

theorem WellFormed.covers_removeEach
    (wellFormed : table.WellFormed) (other : ParticipantId)
    (channel : Channel) :
    ((Task.remove id).each table ranges).covers other channel = true ↔
      table.covers other channel = true ∧
        ¬ (other = id ∧ ∃ range ∈ ranges, range.contains channel = true) := by
  induction ranges generalizing table with
  | nil => simp [Task.each]
  | cons range others ih =>
      rw [Task.each_cons, ih (wellFormed.applyTask _ range)]
      have first := wellFormed.covers_remove range id other channel
      simp only [Task.apply, Task.operation, Operation.apply,
        first, List.mem_cons, exists_eq_or_imp]
      grind

theorem WellFormed.undivided_removeEach
    (wellFormed : table.WellFormed)
    (separate : ranges.Pairwise fun range other => range.overlaps other = false)
    (segment : ChannelRange) :
    ((Task.remove id).each table ranges).Undivided segment ↔
      table.Undivided segment ∧
        (table.covers id segment.first = true →
          ∀ range ∈ ranges, range.Spares segment) ∧
        ((Task.remove id).each table ranges).Covered segment.first := by
  induction ranges generalizing table with
  | nil =>
      simp only [Task.each, List.foldl_nil, List.not_mem_nil,
        false_implies, implies_true, true_and, iff_self_and]
      rintro ⟨piece, listed, encloses⟩
      exact (wellFormed.covered_iff _).mpr ⟨piece, listed,
        (ChannelRange.encloses_iff_forall _ _).mp encloses _
          segment.contains_first⟩
  | cons range others ih =>
      rw [List.pairwise_cons] at separate
      have afterWellFormed := wellFormed.applyTask (.remove id) range
      rw [Task.each_cons, ih afterWellFormed separate.2]
      have first := wellFormed.undivided_remove_iff range id segment
      have covers := wellFormed.covers_remove range id id segment.first
      have stillCovered :
          ((Task.remove id).each ((Task.remove id).apply table range)
          others).Covered segment.first →
          ((Task.remove id).apply table range).Covered
            segment.first := by
        rintro ⟨holder, held⟩
        exact ⟨holder, ((afterWellFormed.covers_removeEach holder _).mp held).1⟩
      simp only [Task.apply, Task.operation, Operation.apply]
        at first covers stillCovered ⊢
      rw [first, covers]
      constructor
      · rintro ⟨⟨undivided, spares, _⟩, sparesOthers, covered⟩
        refine ⟨undivided, fun held => ?_, covered⟩
        refine List.forall_mem_cons.mpr ⟨spares held, fun other listed => ?_⟩
        by_cases inRange : range.contains segment.first = true
        · -- What begins inside the range lies inside it, and so apart from all
          -- others.
          have within := (spares held).encloses inRange segment.contains_first
          refine Or.inr ((ChannelRange.overlaps_eq_false_iff_forall _ _).mpr ?_)
          intro channel inOther inSegment
          exact (ChannelRange.overlaps_eq_false_iff_forall _ _).mp
            (separate.1 other listed) channel
            ((ChannelRange.encloses_iff_forall _ _).mp within channel inSegment)
              inOther
        · exact sparesOthers ⟨held, fun both => inRange both.2⟩ other listed
      · rintro ⟨undivided, spares, covered⟩
        refine ⟨⟨undivided, fun held => ?_, stillCovered covered⟩,
          fun held => ?_, covered⟩
        · exact spares held range List.mem_cons_self
        · exact fun other listed =>
            spares held.1 other (List.mem_cons_of_mem _ listed)

theorem contact?_of_removeEach
    {other : ParticipantId} {participant : Participant}
    (found : ((Task.remove id).each table ranges).contact? other =
      some participant) :
    table.contact? other = some participant := by
  induction ranges generalizing table with
  | nil => exact found
  | cons range others ih => exact contact?_of_remove (ih found)

/--
Tables with the same pieces have the same contacts if both had them from a
third.
-/
theorem WellFormed.contact?_eq
    {other before : RangeTable} (wellFormed : table.WellFormed)
    (otherWellFormed : other.WellFormed) (pieces : table.pieces = other.pieces)
    (known : ∀ {id participant}, table.contact? id = some participant →
      before.contact? id = some participant)
    (otherKnown : ∀ {id participant}, other.contact? id = some participant →
      before.contact? id = some participant)
    (id : ParticipantId) : table.contact? id = other.contact? id := by
  have both : (table.contact? id).isSome = (other.contact? id).isSome := by
    rw [Bool.eq_iff_iff, wellFormed.isSome_contact?_iff,
      otherWellFormed.isSome_contact?_iff, wellFormed.indexed_eq,
      otherWellFormed.indexed_eq, pieces]
  cases found : table.contact? id with
  | none =>
      rw [found, Option.isSome_none, eq_comm, Option.isSome_eq_false_iff,
        Option.isNone_iff_eq_none] at both
      exact both.symm
  | some participant =>
      rw [found, Option.isSome_some, eq_comm, Option.isSome_iff_exists] at both
      rcases both with ⟨contact, otherFound⟩
      rw [otherFound, ← known found, ← otherKnown otherFound]

/-- A range may be removed in the parts that a piece divides it into. -/
theorem WellFormed.removeEach_parts
    (wellFormed : table.WellFormed) {piece : Piece}
    (listed : piece ∈ table.pieces)
    (parts : ranges.Perm (range.cutAlong piece.range)) :
    (Task.remove id).each table ranges = (table.remove range id).1 := by
  have eachWellFormed := wellFormed.each (.remove id) ranges
  have onceWellFormed := wellFormed.remove range id
  have contains := ChannelRange.exists_mem_cutAlong_iff range piece.range
  have covers : ∀ other channel,
      ((Task.remove id).each table ranges).covers other channel =
      (table.remove range id).1.covers other channel := by
    intro other channel
    rw [Bool.eq_iff_iff, wellFormed.covers_removeEach, wellFormed.covers_remove]
    simp only [parts.mem_iff, contains]
  have separate : ranges.Pairwise fun range other =>
      range.overlaps other = false :=
    (parts.pairwise_iff ChannelRange.overlaps_symm).mpr
      (ChannelRange.separate_cutAlong range _)
  have pieces : ((Task.remove id).each table ranges).pieces =
      (table.remove range id).1.pieces := by
    apply eachWellFormed.pieces_eq onceWellFormed covers
    intro segment
    rw [wellFormed.undivided_removeEach separate,
      wellFormed.undivided_remove_iff]
    simp only [Covered, covers, parts.mem_iff]
    refine and_congr_right fun undivided =>
      and_congr_left' (imp_congr_right fun _ => ?_)
    exact ChannelRange.forall_part_spares_iff
      (wellFormed.spares_of_undivided listed undivided)
  exact eachWellFormed.eq_of_pieces onceWellFormed pieces
    (eachWellFormed.contact?_eq onceWellFormed pieces contact?_of_removeEach
      contact?_of_remove)

end Removing

/-- A task may be done for a range in the parts that a piece divides it into. -/
theorem WellFormed.each_parts
    (wellFormed : table.WellFormed) (task : Task) {piece : Piece}
    (listed : piece ∈ table.pieces)
    (parts : ranges.Perm (range.cutAlong piece.range)) :
    task.each table ranges = task.apply table range := by
  cases task with
  | add participant => exact wellFormed.addEach_parts listed parts
  | remove id => exact wellFormed.removeEach_parts listed parts

end RangeTable

end ChannelRouter
