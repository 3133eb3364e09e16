import ChannelRouter.Proofs.RangeTable.Piecewise

/-!
# Splitting a range at a piece

A task can be done for a range at one piece after the other: some piece is found
that overlaps the range, the task is done for what the two share, and what the
range has on the two sides of the piece is left for later.  Where the range ends
inside the piece, the shared part is first made a piece of its own.

All ends of these ranges are computed by going to the channel before or after
another one.  From the ends of the address space one of these leads out of it,
so what is computed may not exist, and neither does a range that would end
before it begins.  At a piece that overlaps the range everything that is needed
exists.
-/

namespace ChannelRouter

/-! ## Neighbours of a channel -/

namespace Channel

/-- The channel before, if there is one. -/
def previous? (channel : Channel) : Option Channel :=
  if channel = 0 then none else some (channel - 1)

/-- The channel after, if there is one. -/
def next? (channel : Channel) : Option Channel :=
  if channel = greatest then none else some (channel + 1)

variable {channel other bound : Channel}

theorem previous?_eq_some_iff :
    channel.previous? = some other ↔ other.toNat + 1 = channel.toNat := by
  rw [previous?]
  split
  · rename_i least
    rw [least]
    exact iff_of_false (Option.some_ne_none other).symm (Nat.succ_ne_zero _)
  · rename_i positive
    have above : 0 < channel := UInt64.pos_iff_ne_zero.mpr positive
    have step := toNat_sub_one_of_lt above
    rw [UInt64.lt_iff_toNat_lt, UInt64.toNat_zero] at above
    rw [Option.some.injEq, ← UInt64.toNat_inj, step]
    omega

theorem next?_eq_some_iff :
    channel.next? = some other ↔ channel.toNat + 1 = other.toNat := by
  have limit := other.toNat_lt
  rw [next?]
  split
  · rename_i last
    rw [last]
    refine iff_of_false (Option.some_ne_none other).symm fun next => ?_
    simp only [greatest, UInt64.reduceToNat] at next
    omega
  · rename_i notLast
    have below : channel < greatest := by
      rw [UInt64.lt_iff_toNat_lt]
      rw [← UInt64.toNat_inj] at notLast
      have bound := channel.toNat_lt
      simp only [greatest, UInt64.reduceToNat] at notLast ⊢
      omega
    rw [Option.some.injEq, ← UInt64.toNat_inj, toNat_add_one_of_lt below]

/-- Above another channel there is a previous one. -/
theorem previous?_of_lt (above : bound < channel) :
    channel.previous? = some (channel - 1) := by
  have step := toNat_sub_one_of_lt above
  rw [UInt64.lt_iff_toNat_lt] at above
  rw [previous?_eq_some_iff, step]
  omega

/-- Below another channel there is a next one. -/
theorem next?_of_lt (below : channel < bound) :
    channel.next? = some (channel + 1) := by
  rw [next?_eq_some_iff, toNat_add_one_of_lt below]

end Channel

/-! ## Ranges from computed ends -/

namespace ChannelRange

/-- The range between two ends, if they are in order. -/
def between? (first last : Channel) : Option ChannelRange :=
  if ordered : first ≤ last then some ⟨first, last, ordered⟩ else none

/-- The range that ends at the channel before a bound. -/
def endingBefore? (first bound : Channel) : Option ChannelRange :=
  bound.previous?.bind (between? first)

/-- The range that begins at the channel after a bound. -/
def startingAfter? (bound last : Channel) : Option ChannelRange :=
  bound.next?.bind (between? · last)

/-- What lies from a channel on before a bound. -/
def below? (first bound : Channel) : Option (List ChannelRange) :=
  if first < bound then (endingBefore? first bound).map ([·]) else some []

/-- What lies after a bound up to a channel. -/
def above? (bound last : Channel) : Option (List ChannelRange) :=
  if bound < last then (startingAfter? bound last).map ([·]) else some []

variable {range other inner : ChannelRange} {channel : Channel}

theorem endingBefore?_eq (above : range.first < channel) :
    endingBefore? range.first channel = range.before channel := by
  rw [endingBefore?, Channel.previous?_of_lt above, Option.bind_some, between?,
    dif_pos (first_le_sub_one above), before, dif_pos above]

theorem startingAfter?_eq (below : channel < range.last) :
    startingAfter? channel range.last = range.after channel := by
  rw [startingAfter?, Channel.next?_of_lt below, Option.bind_some, between?,
    dif_pos (add_one_le_last below), after, dif_pos below]

theorem below?_eq (range : ChannelRange) (channel : Channel) :
    below? range.first channel = some (range.before channel).toList := by
  rw [below?]
  split
  · rename_i above
    rw [endingBefore?_eq above, before, dif_pos above]
    rfl
  · rename_i reached
    rw [before, dif_neg reached]
    rfl

theorem above?_eq (range : ChannelRange) (channel : Channel) :
    above? channel range.last = some (range.after channel).toList := by
  rw [above?]
  split
  · rename_i below
    rw [startingAfter?_eq below, after, dif_pos below]
    rfl
  · rename_i reached
    rw [after, dif_neg reached]
    rfl

/-! ## What two ranges share -/

theorem eq_of_contains_iff
    (same : ∀ channel, range.contains channel = true ↔
      other.contains channel = true) :
    range = other :=
  encloses_antisymm ((encloses_iff_forall _ _).mpr fun channel =>
    (same channel).mpr)
    ((encloses_iff_forall _ _).mpr fun channel => (same channel).mp)

theorem meet?_eq_some_iff (range other shared : ChannelRange) :
    range.meet? other = some shared ↔
      ∀ channel, shared.contains channel = true ↔
        range.contains channel = true ∧ other.contains channel = true := by
  constructor
  · exact contains_of_meet?
  · intro contains
    cases meeting : range.meet? other with
    | none =>
        rw [meet?_eq_none_iff, overlaps_eq_false_iff_forall] at meeting
        have both := (contains _).mp shared.contains_first
        exact absurd both.2 (meeting _ both.1)
    | some found =>
        have same : found = shared := eq_of_contains_iff fun channel => by
          rw [contains_of_meet? meeting, contains]
        rw [same]

theorem meet?_comm (range other : ChannelRange) :
    range.meet? other = other.meet? range := by
  ext shared
  simp only [meet?_eq_some_iff, and_comm]

theorem meet?_of_encloses (within : range.encloses inner = true) :
    range.meet? inner = some inner := by
  rw [meet?_eq_some_iff]
  intro channel
  rw [iff_and_self]
  exact (encloses_iff_forall _ _).mp within channel

/--
A range shares with one that begins and ends no later what lies up to the end of
that one.
-/
theorem meet?_of_ends
    (begins : other.first ≤ range.first) (ends : other.last ≤ range.last)
    (reached : range.first ≤ other.last) :
    range.meet? other = some ⟨range.first, other.last, reached⟩ := by
  rw [meet?_eq_some_iff]
  intro channel
  simp only [contains_iff]
  grind

theorem exists_before_of_lt (above : range.first < channel) :
    ∃ part, range.before channel = some part :=
  ⟨_, dif_pos above⟩

theorem exists_after_of_lt (below : channel < range.last) :
    ∃ part, range.after channel = some part :=
  ⟨_, dif_pos below⟩

theorem cutAlong_of_encloses (within : range.encloses inner = true) :
    range.cutAlong inner =
      (range.before inner.first).toList ++
        inner :: (range.after inner.last).toList := by
  rw [cutAlong, meet?_of_encloses within]

/-- A range that the other spares stays in one part. -/
theorem cutAlong_of_spares (spared : other.Spares range) :
    range.cutAlong other = [range] := by
  rcases spared with within | apart
  · have ends := (encloses_iff _ _).mp within
    rw [cutAlong, meet?_comm, meet?_of_encloses within,
      (before_eq_none_iff _ _).mpr ends.1, (after_eq_none_iff _ _).mpr ends.2]
    rfl
  · rw [cutAlong, (meet?_eq_none_iff _ _).mpr (overlaps_symm apart)]

end ChannelRange

namespace RangeTable

variable {table : RangeTable} {range inner : ChannelRange} {piece : Piece}
variable {participant : Participant} {id : ParticipantId}

/-! ## The piece at which a range is split -/

/--
A piece that overlaps a range: of those that begin no later than the range ends,
the last, if it reaches the range.
-/
def lastOverlapping? (table : RangeTable) (range : ChannelRange) :
    Option Piece :=
  ((table.pieces.filter (·.range.first ≤ range.last)).getLast?).filter
    (range.first ≤ ·.range.last)

theorem of_lastOverlapping?
    (found : table.lastOverlapping? range = some piece) :
    piece ∈ table.pieces ∧ range.overlaps piece.range = true := by
  rcases Option.filter_eq_some_iff.mp found with ⟨isLast, reached⟩
  rcases List.mem_filter.mp (List.mem_of_getLast? isLast) with ⟨listed, begun⟩
  exact ⟨listed, (ChannelRange.overlaps_iff _ _).mpr
    ⟨of_decide_eq_true reached, of_decide_eq_true begun⟩⟩

/--
If the last piece that begins in time does not reach the range, then none does.
-/
theorem WellFormed.apart_of_lastOverlapping?
    (wellFormed : table.WellFormed)
    (nothing : table.lastOverlapping? range = none)
    (listed : piece ∈ table.pieces) : range.overlaps piece.range = false := by
  rw [ChannelRange.overlaps_eq_false_iff]
  by_cases begun : piece.range.first ≤ range.last
  · have among : piece ∈ table.pieces.filter (·.range.first ≤ range.last) :=
      List.mem_filter.mpr ⟨listed, decide_eq_true begun⟩
    have beginning : (table.pieces.filter (·.range.first ≤ range.last)).Pairwise
        (·.range.precedes ·.range = true) := wellFormed.ascending.filter _
    cases isLast :
      (table.pieces.filter (·.range.first ≤ range.last)).getLast? with
    | none =>
        rw [List.getLast?_eq_none_iff] at isLast
        rw [isLast] at among
        cases among
    | some last =>
        rw [lastOverlapping?, isLast, Option.filter_eq_none_iff] at nothing
        have short := nothing last rfl
        rw [decide_eq_true_eq, UInt64.not_le] at short
        rcases eq_or_rel_getLast beginning isLast among with rfl | below
        · exact Or.inl short
        · have order := last.range.first_le_last
          rw [ChannelRange.precedes_iff] at below
          exact Or.inl
            (UInt64.lt_trans (UInt64.lt_of_lt_of_le below order) short)
  · exact Or.inr (UInt64.not_le.mp begun)

/-! ## Cutting a single piece -/

/-- Make a part of a piece a piece of its own. -/
def isolate? (table : RangeTable) (existing inner : ChannelRange) :
    Option RangeTable :=
  if existing = inner then some table
  else do
    let lower ← ChannelRange.below? existing.first inner.first
    let upper ← ChannelRange.above? inner.last existing.last
    return table.refine fun range =>
      if range = existing then lower ++ inner :: upper else [range]

/-- Ways of cutting that agree on the pieces of a table cut it alike. -/
theorem WellFormed.refine_congr
    (wellFormed : table.WellFormed)
    {parts others : ChannelRange → List ChannelRange}
    (same : ∀ piece ∈ table.pieces, parts piece.range = others piece.range) :
    table.refine parts = table.refine others := by
  have pieces : (table.refine parts).pieces = (table.refine others).pieces := by
    refine List.flatMap_congr fun piece listed => ?_
    rw [same piece listed]
  have index : (table.refine parts).index = (table.refine others).index := by
    refine congrArg Table.mk (List.map_congr_left fun entry listed => ?_)
    have found :=
      (wellFormed.indexOrdered.mem_entries_iff entry.1 entry.2).mp listed
    have sameParts : entry.2.pieces.flatMap parts =
        entry.2.pieces.flatMap others := by
      refine List.flatMap_congr fun range indexed => ?_
      rw [← indexed_of_get? found, wellFormed.indexed_eq,
        Piece.mem_rangesHeldBy] at indexed
      rcases indexed with ⟨piece, isPiece, _, rfl⟩
      exact same piece isPiece
    simp only [sameParts]
  exact congrArg₂ RangeTable.mk pieces index

/-- A range that spares every piece cuts none. -/
theorem WellFormed.refine_cutAlong_of_uncut
    (wellFormed : table.WellFormed) (uncut : table.Uncut range) :
    table.refine (·.cutAlong range) = table := by
  calc table.refine (·.cutAlong range)
      = table.refine (fun range => [range]) :=
        wellFormed.refine_congr fun piece listed =>
          ChannelRange.cutAlong_of_spares (uncut piece listed)
    _ = table := refine_singleton table

/-- A part of a piece spares all others. -/
theorem WellFormed.spares_of_ne
    (wellFormed : table.WellFormed) (listed : piece ∈ table.pieces)
    (within : piece.range.encloses inner = true)
    {other : Piece} (otherListed : other ∈ table.pieces)
    (different : other ≠ piece) :
    inner.Spares other.range := by
  refine Or.inr ((ChannelRange.overlaps_eq_false_iff_forall _ _).mpr ?_)
  intro channel inInner inOther
  have inPiece :=
    (ChannelRange.encloses_iff_forall _ _).mp within channel inInner
  exact different
    (ChannelRange.eq_of_contains wellFormed.ascending otherListed listed
      inOther inPiece)

theorem WellFormed.uncut_of_mem
    (wellFormed : table.WellFormed) (listed : piece ∈ table.pieces) :
    table.Uncut piece.range := by
  intro other otherListed
  by_cases same : other = piece
  · exact Or.inl (same ▸ ChannelRange.encloses_refl _)
  · exact wellFormed.spares_of_ne listed (ChannelRange.encloses_refl _)
      otherListed same

/-- Making a part of a piece a piece of its own cuts the table along it. -/
theorem WellFormed.isolate?_eq
    (wellFormed : table.WellFormed) (listed : piece ∈ table.pieces)
    (within : piece.range.encloses inner = true) :
    table.isolate? piece.range inner =
      some (table.refine (·.cutAlong inner)) := by
  rw [isolate?]
  split
  · rename_i whole
    rw [← whole, wellFormed.refine_cutAlong_of_uncut
      (wellFormed.uncut_of_mem listed)]
  · rw [ChannelRange.below?_eq, ChannelRange.above?_eq]
    refine congrArg some (wellFormed.refine_congr fun other otherListed => ?_)
    by_cases same : other = piece
    · rw [same, if_pos rfl, ChannelRange.cutAlong_of_encloses within]
    · have different : other.range ≠ piece.range := by
        intro sameRange
        have begins : piece.range.contains other.range.first = true :=
          sameRange ▸ other.range.contains_first
        exact same
          (ChannelRange.eq_of_contains wellFormed.ascending otherListed listed
          other.range.contains_first begins)
      rw [if_neg different, ChannelRange.cutAlong_of_spares
        (wellFormed.spares_of_ne listed within otherListed same)]

theorem mem_pieces_isolated
    (listed : piece ∈ table.pieces)
    (within : piece.range.encloses inner = true) :
    { piece with range := inner } ∈
      (table.refine (·.cutAlong inner)).pieces := by
  refine (mem_pieces_refine_iff _ _ _).mpr ⟨piece, listed, ?_, rfl⟩
  rw [ChannelRange.cutAlong_of_encloses within]
  exact List.mem_append_right _ List.mem_cons_self

/-- Of all pieces only the piece itself lies inside its range. -/
theorem WellFormed.inside_of_mem
    (wellFormed : table.WellFormed) (listed : piece ∈ table.pieces) :
    table.inside piece.range = [piece] := by
  obtain ⟨lower, upper, split⟩ := List.append_of_mem listed
  have ascending := wellFormed.ascending
  rw [split] at ascending
  rcases List.pairwise_append.mp ascending with ⟨-, right, below⟩
  have above := (List.pairwise_cons.mp right).1
  have noneLower : lower.filter (piece.range.encloses ·.range) = [] := by
    rw [List.filter_eq_nil_iff]
    intro other isLower
    have order := below other isLower piece List.mem_cons_self
    have otherOrder := other.range.first_le_last
    rw [ChannelRange.precedes_iff] at order
    rw [ChannelRange.encloses_iff]
    grind
  have noneUpper : upper.filter (piece.range.encloses ·.range) = [] := by
    rw [List.filter_eq_nil_iff]
    intro other isUpper
    have order := above other isUpper
    have otherOrder := other.range.first_le_last
    rw [ChannelRange.precedes_iff] at order
    rw [ChannelRange.encloses_iff]
    grind
  have onlyItself : (piece :: upper).filter (piece.range.encloses ·.range) =
      [piece] := by
    rw [List.filter_cons, if_pos (ChannelRange.encloses_refl _), noneUpper]
  rw [inside, split, List.filter_append, noneLower, onlyItself, List.nil_append]

theorem portions_of_mem (wellFormed : table.WellFormed)
    (listed : piece ∈ table.pieces) :
    piece.range.portions (table.inside piece.range) = [.taken piece] := by
  rw [wellFormed.inside_of_mem listed, ChannelRange.portions_of_exhausted
    ((ChannelRange.after_eq_none_iff _ _).mpr (UInt64.le_refl _)),
    (ChannelRange.before_eq_none_iff _ _).mpr (UInt64.le_refl _)]
  rfl

/-! ## Adding to what no piece takes, and to a piece -/

/-- The index once a participant holds one more piece. -/
def enlist (table : RangeTable) (range : ChannelRange)
    (participant : Participant) : Table ParticipantId Holding :=
  table.index.insert participant.id
    { contact :=
      ((table.index.get? participant.id).map Holding.contact).getD participant
      pieces := overlay range [range] (table.indexed participant.id) }

/-- Make a range that no piece takes a piece. -/
def fill (table : RangeTable) (range : ChannelRange)
    (participant : Participant) : RangeTable where
  pieces :=
    table.pieces.filter (·.range.precedes range) ++ ⟨range, [participant.id]⟩ ::
      table.pieces.filter (range.precedes ·.range)
  index := table.enlist range participant

/-- Enter a participant into the piece of a range. -/
def attach (table : RangeTable) (range : ChannelRange)
    (participant : Participant) : RangeTable where
  pieces := table.pieces.map fun piece =>
    if piece.range.first = range.first then piece.enter participant.id
    else piece
  index := table.enlist range participant

/-- Where there is no piece, adding makes one. -/
theorem WellFormed.add_of_apart
    (wellFormed : table.WellFormed) (participant : Participant)
    (apart : ∀ piece ∈ table.pieces, range.overlaps piece.range = false) :
    table.add range participant =
      (table.fill range participant, ⟨[range], []⟩) := by
  have uncut := wellFormed.refine_cutAlong_of_uncut fun piece listed =>
    Or.inr (apart piece listed)
  have nothing : table.inside range = [] := by
    rw [inside, List.filter_eq_nil_iff]
    intro piece listed within
    have overlap := ChannelRange.overlaps_of_enclosed within
    rw [apart piece listed] at overlap
    cases overlap
  simp only [RangeTable.add, uncut, nothing, ChannelRange.portions]
  exact Prod.ext (congrArg (RangeTable.mk · _) (List.append_assoc _ _ _)) rfl

/-- Where there is one piece, adding enters the participant into it. -/
theorem WellFormed.add_of_mem
    (wellFormed : table.WellFormed) (participant : Participant)
    (listed : piece ∈ table.pieces) :
    table.add piece.range participant =
      (table.attach piece.range participant, ⟨[], []⟩) := by
  have uncut := wellFormed.uncut_of_mem listed
  have entered : table.pieces.map (fun other =>
        if other.range.first = piece.range.first then other.enter participant.id
        else other) =
      table.pieces.filter (·.range.precedes piece.range) ++
        [piece.enter participant.id] ++
        table.pieces.filter (piece.range.precedes ·.range) := by
    have order := piece.range.first_le_last
    have onlyItself := wellFormed.inside_of_mem listed
    rw [inside] at onlyItself
    conv_lhs => rw [pieces_eq_of_uncut wellFormed.ascending uncut, onlyItself]
    rw [List.map_append, List.map_append, List.map_singleton, if_pos rfl]
    congr 2
    · conv_rhs => rw [← List.map_id (table.pieces.filter _)]
      refine List.map_congr_left fun other isLower => if_neg ?_
      have below :=
        (ChannelRange.precedes_iff _ _).mp (List.mem_filter.mp isLower).2
      have otherOrder := other.range.first_le_last
      grind
    · conv_rhs => rw [← List.map_id (table.pieces.filter _)]
      refine List.map_congr_left fun other isUpper => if_neg ?_
      have above :=
        (ChannelRange.precedes_iff _ _).mp (List.mem_filter.mp isUpper).2
      grind
  simp only [RangeTable.add, wellFormed.refine_cutAlong_of_uncut uncut,
    portions_of_mem wellFormed listed, attach, entered]
  rfl

/--
Where a part of one piece is, adding enters the participant into this part.
-/
theorem WellFormed.add_of_within
    (wellFormed : table.WellFormed) (participant : Participant)
    (listed : piece ∈ table.pieces)
    (within : piece.range.encloses inner = true) :
    table.add inner participant =
      ((table.refine (·.cutAlong inner)).attach inner participant,
        ⟨[], []⟩) := by
  have cutWellFormed := wellFormed.refine (ChannelRange.cutting_cutAlong inner)
  have cutOnce :=
    cutWellFormed.refine_cutAlong_of_uncut (uncut_refine_cutAlong table inner)
  calc table.add inner participant
      = (table.refine (·.cutAlong inner)).add inner participant := by
        simp only [RangeTable.add, cutOnce]
    _ = _ :=
        cutWellFormed.add_of_mem participant (mem_pieces_isolated listed within)

/-! ## Removing from a piece -/

/-- Take a participant out of the piece of a range. -/
def detach (table : RangeTable) (range : ChannelRange) (id : ParticipantId) :
    RangeTable × CoverageChange :=
  table.release id (· = range)

/-- Conditions that agree on the pieces of a table release the same. -/
theorem WellFormed.release_congr
    (wellFormed : table.WellFormed) {condition other : ChannelRange → Bool}
    (same : ∀ piece ∈ table.pieces, condition piece.range = other piece.range) :
    table.release id condition = table.release id other := by
  have kept : (table.indexed id).filter (fun range => !condition range) =
      (table.indexed id).filter fun range => !other range := by
    refine List.filter_congr fun range indexed => ?_
    rw [wellFormed.indexed_eq, Piece.mem_rangesHeldBy] at indexed
    rcases indexed with ⟨piece, listed, _, rfl⟩
    rw [same piece listed]
  have pieces : table.pieces.filterMap
        (fun piece => if condition piece.range then piece.leave? id
          else some piece) =
      table.pieces.filterMap
        fun piece => if other piece.range then piece.leave? id
          else some piece := by
    refine List.filterMap_congr fun piece listed => ?_
    rw [same piece listed]
  have lost : table.pieces.filter
        (fun piece => condition piece.range && (piece.leave? id).isNone) =
      table.pieces.filter fun piece =>
        other piece.range && (piece.leave? id).isNone := by
    refine List.filter_congr fun piece listed => ?_
    rw [same piece listed]
  simp only [RangeTable.release, kept, pieces, lost]

/--
Where a part of one piece is that the participant holds, removing takes it out
of this part.
-/
theorem WellFormed.remove_of_within
    (wellFormed : table.WellFormed) (listed : piece ∈ table.pieces)
    (within : piece.range.encloses inner = true) (member : id ∈ piece.holders) :
    table.remove inner id =
      (table.refine (·.cutAlong inner)).detach inner id := by
  have cutWellFormed := wellFormed.refine (ChannelRange.cutting_cutAlong inner)
  have cut : table.cutFor inner id = table.refine (·.cutAlong inner) := by
    refine wellFormed.refine_congr fun other otherListed => ?_
    by_cases same : other = piece
    · have held : ((table.indexed id).filter inner.overlaps).contains
          other.range = true := by
        rw [same, List.contains_iff_mem, List.mem_filter]
        exact ⟨(wellFormed.range_mem_indexed_iff listed id).mpr member,
          (ChannelRange.overlaps_comm _ _).trans
            (ChannelRange.overlaps_of_enclosed within)⟩
      rw [if_pos held]
    · rw [ChannelRange.cutAlong_of_spares
        (wellFormed.spares_of_ne listed within otherListed same), ite_self]
  rw [remove_eq_release, cut, detach]
  refine cutWellFormed.release_congr fun part isPart => ?_
  rw [Bool.eq_iff_iff, decide_eq_true_eq]
  constructor
  · intro encloses
    have isInside : part ∈ (table.refine (·.cutAlong inner)).inside inner :=
      List.mem_filter.mpr ⟨isPart, encloses⟩
    rw [cutWellFormed.inside_of_mem (mem_pieces_isolated listed within),
      List.mem_singleton] at isInside
    rw [isInside]
  · intro same
    exact same ▸ ChannelRange.encloses_refl _

/-- Take a participant out of what a piece that it holds shares with a range. -/
def detachWithin? (table : RangeTable) (piece : Piece) (range : ChannelRange)
    (id : ParticipantId) : Option (RangeTable × CoverageChange) :=
  if piece.holders.contains id then
    match piece.range.meet? range with
    | none => some (table, ⟨[], []⟩)
    | some shared => do
      let cut ← table.isolate? piece.range shared
      return cut.detach shared id
  else some (table, ⟨[], []⟩)

theorem WellFormed.detachWithin?_eq
    (wellFormed : table.WellFormed) (listed : piece ∈ table.pieces)
    (id : ParticipantId)
    {shared : ChannelRange} (meeting : range.meet? piece.range = some shared) :
    table.detachWithin? piece range id = some (table.remove shared id) := by
  have within := ChannelRange.encloses_of_meet? meeting
  rw [detachWithin?]
  split
  · rename_i member
    rw [List.contains_iff_mem] at member
    rw [ChannelRange.meet?_comm, meeting,
      wellFormed.remove_of_within listed within member]
    simp only [wellFormed.isolate?_eq listed within]
    rfl
  · rename_i stranger
    rw [wellFormed.remove_of_not_covers]
    intro channel inShared
    have inPiece :=
      (ChannelRange.encloses_iff_forall _ _).mp within channel inShared
    rw [List.contains_iff_mem, wellFormed.mem_holders_iff listed inPiece,
      Bool.not_eq_true] at stranger
    exact stranger

end RangeTable

end ChannelRouter
