import ChannelRouter.Proofs.RangeTable.Contacts

/-!
# How a range table is divided

Two tables in which everybody covers the same channels can still be cut into
pieces in different ways.  What is left open is where the cuts are, and this is
known once it is known of every range whether some piece encloses it: then the
range is undivided.  A table is determined by what is covered, by what is
undivided and by the contacts.

Adding a range divides whatever one of its ends lies in, makes one piece of each
run of channels that nobody held before, and divides or joins nothing else.
-/

namespace ChannelRouter

namespace ChannelRange

theorem encloses_antisymm
    {range other : ChannelRange}
    (outside : range.encloses other = true)
    (inside : other.encloses range = true) :
    range = other := by
  rw [encloses_iff] at outside inside
  cases range
  cases other
  simp only [mk.injEq]
  exact ⟨UInt64.le_antisymm outside.1 inside.1,
    UInt64.le_antisymm inside.2 outside.2⟩

/-- Neither end of the range lies strictly inside the other. -/
def Spares (range other : ChannelRange) : Prop :=
  range.encloses other = true ∨ range.overlaps other = false

/-- What a range spares it spares in all its parts. -/
theorem Spares.of_encloses
    {range outer inner : ChannelRange}
    (spared : range.Spares outer) (enclosed : outer.encloses inner = true) :
    range.Spares inner := by
  rcases spared with within | apart
  · exact Or.inl (encloses_trans within enclosed)
  · rw [overlaps_eq_false_iff_forall] at apart
    refine Or.inr
      ((overlaps_eq_false_iff_forall _ _).mpr fun channel inRange inInner => ?_)
    exact apart channel inRange
      ((encloses_iff_forall _ _).mp enclosed channel inInner)

/-- A spared range lies wholly below, wholly inside or wholly above. -/
theorem Spares.cases
    {range other : ChannelRange} (spared : range.Spares other) :
    other.last < range.first ∨ range.encloses other = true ∨
      range.last < other.first := by
  simpa only [precedes_iff] using precedes_or_encloses_or_precedes spared

theorem exists_before
    {range segment : ChannelRange} {channel : Channel}
    (within : range.encloses segment = true) (below : segment.last < channel)
    (reached : channel ≤ range.last) :
    ∃ part, range.before channel = some part ∧
      part.encloses segment = true := by
  cases left : range.before channel with
  | none =>
      rw [before_eq_none_iff] at left
      have order := first_le_of_encloses within
      exact absurd (UInt64.lt_of_le_of_lt order below) (UInt64.not_lt.mpr left)
  | some part =>
      refine ⟨part, rfl,
        (encloses_iff_forall _ _).mpr fun other inSegment => ?_⟩
      refine (contains_of_before left reached other).mpr
        ⟨(encloses_iff_forall _ _).mp within other inSegment, ?_⟩
      exact UInt64.lt_of_le_of_lt ((contains_iff _ _).mp inSegment).2 below

theorem exists_after
    {range segment : ChannelRange} {channel : Channel}
    (within : range.encloses segment = true) (above : channel < segment.first)
    (reached : range.first ≤ channel) :
    ∃ part, range.after channel = some part ∧ part.encloses segment = true := by
  cases left : range.after channel with
  | none =>
      rw [after_eq_none_iff] at left
      have order := le_last_of_encloses within
      exact absurd (UInt64.lt_of_lt_of_le above order) (UInt64.not_lt.mpr left)
  | some part =>
      refine ⟨part, rfl,
        (encloses_iff_forall _ _).mpr fun other inSegment => ?_⟩
      refine (contains_of_after left reached other).mpr
        ⟨(encloses_iff_forall _ _).mp within other inSegment, ?_⟩
      exact UInt64.lt_of_lt_of_le above ((contains_iff _ _).mp inSegment).1

/-- What the other range spares is in one part when a range is cut along it. -/
theorem exists_mem_cutAlong_encloses
    {range other segment : ChannelRange}
    (within : range.encloses segment = true) (spared : other.Spares segment) :
    ∃ part ∈ range.cutAlong other, part.encloses segment = true := by
  rw [cutAlong]
  split
  · exact ⟨range, List.mem_singleton.mpr rfl, within⟩
  · rename_i shared meeting
    have overlap := (overlaps_iff _ _).mp (overlaps_of_meet? meeting)
    rcases spared.cases with below | inside | above
    · rcases exists_before within below overlap.2 with ⟨part, left, encloses⟩
      exact ⟨part, by simp [left], encloses⟩
    · refine ⟨shared, by simp,
        (encloses_iff_forall _ _).mpr fun channel inSegment => ?_⟩
      exact (contains_of_meet? meeting channel).mpr
        ⟨(encloses_iff_forall _ _).mp within channel inSegment,
          (encloses_iff_forall _ _).mp inside channel inSegment⟩
    · rcases exists_after within above overlap.1 with ⟨part, left, encloses⟩
      exact ⟨part, by simp [left], encloses⟩

/-- A spared range is one of its own parts. -/
theorem mem_cutAlong_of_spares
    {range other : ChannelRange} (spared : other.Spares range) :
    range ∈ range.cutAlong other := by
  rcases exists_mem_cutAlong_encloses (encloses_refl range) spared
    with ⟨part, listed, outside⟩
  have inside := (cutting_cutAlong other).encloses listed
  exact encloses_antisymm inside outside ▸ listed

/-! ## The vacancies of a range -/

variable {range segment : ChannelRange} {pieces : List Piece}

/-- A run of channels of the range that no piece takes is in one vacancy. -/
theorem exists_vacant_mem_portions
    (fits : Fits range pieces) (within : range.encloses segment = true)
    (untaken : ∀ piece ∈ pieces, segment.overlaps piece.range = false) :
    ∃ vacancy, .vacant vacancy ∈ range.portions pieces ∧
      vacancy.encloses segment = true := by
  induction fits with
  | vacant range => exact ⟨range, by simp [portions], within⟩
  | exhausted inside exhausted =>
      rename_i range piece
      rw [portions_of_exhausted exhausted]
      rcases (overlaps_eq_false_iff _ _).mp (untaken piece List.mem_cons_self)
        with above | below
      · rw [after_eq_none_iff] at exhausted
        have reached := le_last_of_encloses within
        exact absurd (UInt64.lt_of_le_of_lt exhausted above)
          (UInt64.not_lt.mpr reached)
      · rcases exists_before within below (le_last_of_encloses inside)
          with ⟨part, left, encloses⟩
        exact ⟨part, by simp [left], encloses⟩
  | continued inside continued fits ih =>
      rename_i range rest piece others
      rw [portions_of_continued _ continued]
      rcases (overlaps_eq_false_iff _ _).mp (untaken piece List.mem_cons_self)
        with above | below
      · rcases exists_after within above (first_le_of_encloses inside)
          with ⟨part, left, encloses⟩
        rw [continued, Option.some.injEq] at left
        subst left
        rcases ih encloses fun other listed =>
          untaken other (List.mem_cons_of_mem _ listed)
          with ⟨vacancy, isPortion, enclosesSegment⟩
        exact ⟨vacancy, by simp [isPortion], enclosesSegment⟩
      · rcases exists_before within below (le_last_of_encloses inside)
          with ⟨part, left, encloses⟩
        exact ⟨part, by simp [left], encloses⟩

end ChannelRange

namespace RangeTable

variable {table : RangeTable} {range : ChannelRange}

/-! ## What is undivided -/

/-- Some piece encloses the range. -/
def Undivided (table : RangeTable) (range : ChannelRange) : Prop :=
  ∃ piece ∈ table.pieces, piece.range.encloses range = true

theorem undivided_refine_cutAlong_iff
    (table : RangeTable) (range segment : ChannelRange) :
    (table.refine (·.cutAlong range)).Undivided segment ↔
      table.Undivided segment ∧ range.Spares segment := by
  constructor
  · rintro ⟨part, listed, encloses⟩
    rcases (mem_pieces_refine_iff _ table part).mp listed
      with ⟨piece, was, isPart, _⟩
    have partInside := (ChannelRange.cutting_cutAlong range).encloses isPart
    have spared : range.Spares part.range :=
      ChannelRange.uncut_of_mem_cutAlong isPart
    exact ⟨⟨piece, was, ChannelRange.encloses_trans partInside encloses⟩,
      spared.of_encloses encloses⟩
  · rintro ⟨⟨piece, listed, encloses⟩, spared⟩
    rcases ChannelRange.exists_mem_cutAlong_encloses encloses spared
      with ⟨part, isPart, partEncloses⟩
    exact ⟨{ piece with range := part },
      (mem_pieces_refine_iff _ table _).mpr ⟨piece, listed, isPart, rfl⟩,
      partEncloses⟩

/-- Nobody covers a channel that lies in a vacancy. -/
theorem WellFormed.not_covered_of_vacant
    (wellFormed : table.WellFormed) (uncut : table.Uncut range)
    {vacancy : ChannelRange}
    (vacant : .vacant vacancy ∈ range.portions (table.inside range))
    {channel : Channel} (inVacancy : vacancy.contains channel = true) :
    ¬ table.Covered channel := by
  have fits := wellFormed.fits_inside range
  rw [wellFormed.covered_iff]
  rintro ⟨piece, listed, inPiece⟩
  have vacancyInside := ChannelRange.encloses_of_mem_portions fits _ vacant
  have inRange :=
    (ChannelRange.encloses_iff_forall _ _).mp vacancyInside channel inVacancy
  rcases uncut piece listed with inside | apart
  · exact ChannelRange.not_contains_of_vacant fits vacant
      (List.mem_filter.mpr ⟨listed, inside⟩) inVacancy inPiece
  · exact (ChannelRange.overlaps_eq_false_iff_forall _ _).mp apart
      channel inRange inPiece

theorem WellFormed.undivided_settled_iff
    (wellFormed : table.WellFormed) (uncut : table.Uncut range)
    (id : ParticipantId) (segment : ChannelRange) :
    (∃ piece ∈ table.settled range id, piece.range.encloses segment = true) ↔
      table.Undivided segment ∨ range.encloses segment = true ∧
        ∀ channel, segment.contains channel = true →
          ¬ table.Covered channel := by
  have fits := wellFormed.fits_inside range
  constructor
  · rintro ⟨piece, listed, encloses⟩
    rcases (wellFormed.mem_settled_iff range id piece).mp listed
      with ⟨was, _⟩ | ⟨before, was, _, rfl⟩ | ⟨vacancy, vacant, rfl⟩
    · exact Or.inl ⟨piece, was, encloses⟩
    · exact Or.inl ⟨before, was, encloses⟩
    · refine Or.inr ⟨ChannelRange.encloses_trans
        (ChannelRange.encloses_of_mem_portions fits _ vacant) encloses, ?_⟩
      intro channel inSegment
      exact wellFormed.not_covered_of_vacant uncut vacant
        ((ChannelRange.encloses_iff_forall _ _).mp encloses channel inSegment)
  · rintro (⟨piece, listed, encloses⟩ | ⟨within, uncovered⟩)
    · rcases uncut piece listed with inside | apart
      · exact ⟨piece.enter id, (wellFormed.mem_settled_iff range id _).mpr
          (Or.inr (Or.inl ⟨piece, listed, inside, rfl⟩)), encloses⟩
      · exact ⟨piece, (wellFormed.mem_settled_iff range id _).mpr
          (Or.inl ⟨listed, apart⟩), encloses⟩
    · have untaken : ∀ piece ∈ table.inside range,
          segment.overlaps piece.range = false := by
        intro piece inside
        refine (ChannelRange.overlaps_eq_false_iff_forall _ _).mpr
          fun channel inSegment inPiece => ?_
        exact uncovered channel inSegment ((wellFormed.covered_iff channel).mpr
          ⟨piece, (List.mem_filter.mp inside).1, inPiece⟩)
      rcases ChannelRange.exists_vacant_mem_portions fits within untaken
        with ⟨vacancy, vacant, encloses⟩
      exact ⟨⟨vacancy, [id]⟩, (wellFormed.mem_settled_iff range id _).mpr
        (Or.inr (Or.inr ⟨vacancy, vacant, rfl⟩)), encloses⟩

/--
Once a range is added, what it spares is undivided if it was before, or if it
lies in the range and nobody held a channel of it.
-/
theorem WellFormed.undivided_add_iff
    (wellFormed : table.WellFormed) (range : ChannelRange)
    (participant : Participant) (segment : ChannelRange) :
    (table.add range participant).1.Undivided segment ↔
      range.Spares segment ∧
        (table.Undivided segment ∨ range.encloses segment = true ∧
        ∀ channel, segment.contains channel = true →
          ¬ table.Covered channel) := by
  have cutting := ChannelRange.cutting_cutAlong range
  have settled := (wellFormed.refine cutting).undivided_settled_iff
    (uncut_refine_cutAlong table range) participant.id segment
  simp only [undivided_refine_cutAlong_iff, wellFormed.covered_refine cutting]
    at settled
  refine Iff.trans settled ?_
  constructor
  · rintro (⟨undivided, spared⟩ | ⟨within, uncovered⟩)
    · exact ⟨spared, Or.inl undivided⟩
    · exact ⟨Or.inl within, Or.inr ⟨within, uncovered⟩⟩
  · rintro ⟨spared, undivided | vacant⟩
    · exact Or.inl ⟨undivided, spared⟩
    · exact Or.inr vacant

/-! ## A table is determined by what it covers and what is undivided -/

theorem WellFormed.mem_holders_iff
    (wellFormed : table.WellFormed) {piece : Piece}
    (listed : piece ∈ table.pieces)
    {channel : Channel} (inPiece : piece.range.contains channel = true)
    (id : ParticipantId) :
    id ∈ piece.holders ↔ table.covers id channel = true := by
  have found := (covering?_eq_some_iff wellFormed.ascending channel piece).mpr
    ⟨listed, inPiece⟩
  simp [covers, holdersAt, found]

section Determined

variable {other : RangeTable}

theorem WellFormed.mem_pieces_of_undivided_iff
    (wellFormed : table.WellFormed) (otherWellFormed : other.WellFormed)
    (covers : ∀ id channel, table.covers id channel = other.covers id channel)
    (undivided : ∀ range, table.Undivided range ↔ other.Undivided range)
    {piece : Piece} (listed : piece ∈ table.pieces) : piece ∈ other.pieces := by
  obtain ⟨found, isFound, outside⟩ :=
    (undivided piece.range).mp ⟨piece, listed, ChannelRange.encloses_refl _⟩
  obtain ⟨back, isBack, around⟩ :=
    (undivided found.range).mpr ⟨found, isFound, ChannelRange.encloses_refl _⟩
  have begins := piece.range.contains_first
  have foundBegins := (ChannelRange.encloses_iff_forall _ _).mp outside _ begins
  have backBegins :=
    (ChannelRange.encloses_iff_forall _ _).mp around _ foundBegins
  cases ChannelRange.eq_of_contains wellFormed.ascending listed isBack
    begins backBegins
  have sameRange := ChannelRange.encloses_antisymm around outside
  have sameHolders : piece.holders = found.holders := by
    apply (wellFormed.holdersAscending piece listed).eq_of_mem_iff
      (otherWellFormed.holdersAscending found isFound)
    intro id
    rw [wellFormed.mem_holders_iff listed begins,
      otherWellFormed.mem_holders_iff isFound foundBegins, covers]
  have same : piece = found := by
    cases piece
    cases found
    cases sameRange
    cases sameHolders
    rfl
  exact same ▸ isFound

/-- Tables that cover the same and are divided alike have the same pieces. -/
theorem WellFormed.pieces_eq
    (wellFormed : table.WellFormed) (otherWellFormed : other.WellFormed)
    (covers : ∀ id channel, table.covers id channel = other.covers id channel)
    (undivided : ∀ range, table.Undivided range ↔ other.Undivided range) :
    table.pieces = other.pieces := by
  have asymm : ∀ lower upper : Piece,
      lower.range.precedes upper.range = true →
      ¬ upper.range.precedes lower.range = true := by
    intro lower upper below above
    have both := ChannelRange.precedes_trans below above
    rw [ChannelRange.precedes_iff] at both
    exact absurd lower.range.first_le_last (UInt64.not_le.mpr both)
  have : Std.Irrefl fun lower upper : Piece =>
      lower.range.precedes upper.range = true :=
    ⟨fun piece below => asymm piece piece below below⟩
  have : Std.Antisymm fun lower upper : Piece =>
      lower.range.precedes upper.range = true :=
    ⟨fun lower upper below above => absurd above (asymm lower upper below)⟩
  apply wellFormed.ascending.eq_of_mem_iff otherWellFormed.ascending
  intro piece
  exact ⟨wellFormed.mem_pieces_of_undivided_iff otherWellFormed
    covers undivided, otherWellFormed.mem_pieces_of_undivided_iff wellFormed
      (fun id channel => (covers id channel).symm) fun range =>
        (undivided range).symm⟩

/-- The pieces and the contacts are all that a table keeps. -/
theorem WellFormed.eq_of_pieces
    (wellFormed : table.WellFormed) (otherWellFormed : other.WellFormed)
    (pieces : table.pieces = other.pieces)
    (contacts : ∀ id, table.contact? id = other.contact? id) :
    table = other := by
  have indexed : ∀ id, table.indexed id = other.indexed id := by
    intro id
    rw [wellFormed.indexed_eq, otherWellFormed.indexed_eq, pieces]
  have index : table.index = other.index := by
    apply wellFormed.indexOrdered.eq_of_get? otherWellFormed.indexOrdered
    intro id
    have sameContact := contacts id
    have samePieces := indexed id
    unfold contact? at sameContact
    cases found : table.index.get? id with
    | none =>
        rw [found, Option.map_none, eq_comm, Option.map_eq_none_iff]
          at sameContact
        exact sameContact.symm
    | some holding =>
        rw [found, Option.map_some, eq_comm, Option.map_eq_some_iff]
          at sameContact
        rcases sameContact with ⟨otherHolding, otherFound, contact⟩
        rw [indexed_of_get? found, indexed_of_get? otherFound] at samePieces
        cases holding
        cases otherHolding
        cases contact
        cases samePieces
        exact otherFound.symm
  cases table
  cases other
  cases pieces
  cases index
  rfl

end Determined

end RangeTable

end ChannelRouter
