import ChannelRouter.Proofs.Ordered
import ChannelRouter.Proofs.RangeTable.Portions

/-!
# Well-formed range tables

A range table is well formed if its pieces are disjoint and in ascending order,
somebody holds each of them, and the index lists for every participant exactly
the pieces it holds.  Since the index is the pieces seen from one participant,
an operation keeps the table well formed if it does to the two the same thing.

Cutting, adding and releasing do so; removing a range and dropping a holder are
made of cutting and releasing.
-/

namespace ChannelRouter

/-! ## The ranges of a holder -/

namespace Piece

/-- The ranges of the pieces that a participant holds. -/
def rangesHeldBy (id : ParticipantId) (pieces : List Piece) :
    List ChannelRange :=
  (pieces.filter (·.holders.contains id)).map Piece.range

theorem mem_rangesHeldBy
    (id : ParticipantId) (pieces : List Piece) (range : ChannelRange) :
    range ∈ rangesHeldBy id pieces ↔
      ∃ piece ∈ pieces, id ∈ piece.holders ∧ piece.range = range := by
  simp [rangesHeldBy, and_assoc]

theorem rangesHeldBy_append
    (id : ParticipantId) (lower upper : List Piece) :
    rangesHeldBy id (lower ++ upper) =
      rangesHeldBy id lower ++ rangesHeldBy id upper := by
  simp [rangesHeldBy]

theorem rangesHeldBy_cons
    (id : ParticipantId) (piece : Piece) (others : List Piece) :
    rangesHeldBy id (piece :: others) =
      if id ∈ piece.holders then piece.range :: rangesHeldBy id others
      else rangesHeldBy id others := by
  by_cases member : id ∈ piece.holders
  · simp [rangesHeldBy, member]
  · simp [rangesHeldBy, member]

theorem rangesHeldBy_filter
    (id : ParticipantId) (pieces : List Piece)
    (condition : ChannelRange → Bool) :
    rangesHeldBy id (pieces.filter (condition ·.range)) =
      (rangesHeldBy id pieces).filter condition := by
  simp only [rangesHeldBy, List.filter_map, List.filter_filter,
    Function.comp_def, Bool.and_comm]

theorem rangesHeldBy_parts
    (id : ParticipantId) (piece : Piece) (ranges : List ChannelRange) :
    rangesHeldBy id (ranges.map fun range => { piece with range }) =
      if id ∈ piece.holders then ranges else [] := by
  induction ranges with
  | nil => simp [rangesHeldBy]
  | cons range others ih =>
      rw [List.map_cons, rangesHeldBy_cons, ih]
      split <;> rfl

/-- Cutting the pieces cuts the ranges of every holder. -/
theorem rangesHeldBy_refine
    (id : ParticipantId) (pieces : List Piece)
    (parts : ChannelRange → List ChannelRange) :
    rangesHeldBy id
        (pieces.flatMap fun piece =>
          (parts piece.range).map fun range => { piece with range }) =
      (rangesHeldBy id pieces).flatMap parts := by
  induction pieces with
  | nil => rfl
  | cons piece others ih =>
      rw [List.flatMap_cons, rangesHeldBy_append, ih, rangesHeldBy_cons,
        rangesHeldBy_parts]
      split
      · rw [List.flatMap_cons]
      · rw [List.nil_append]

theorem mem_holders_enter
    (id other : ParticipantId) (piece : Piece) :
    other ∈ (piece.enter id).holders ↔ other = id ∨ other ∈ piece.holders :=
  Ascending.mem_insert id other piece.holders

theorem rangesHeldBy_settle_self
    (id : ParticipantId) (portions : List Portion) :
    rangesHeldBy id (portions.map (Portion.settle id)) =
      portions.map Portion.range := by
  induction portions with
  | nil => rfl
  | cons portion others ih =>
      rw [List.map_cons, rangesHeldBy_cons, ih, List.map_cons]
      cases portion with
      | vacant range => simp [Portion.settle, Portion.range]
      | taken piece =>
          have member : id ∈ (piece.enter id).holders :=
            (mem_holders_enter id id piece).mpr (Or.inl rfl)
          exact if_pos member

theorem rangesHeldBy_settle_of_ne
    {id other : ParticipantId} (different : other ≠ id)
    (portions : List Portion) :
    rangesHeldBy other (portions.map (Portion.settle id)) =
      rangesHeldBy other (portions.filterMap Portion.taken?) := by
  induction portions with
  | nil => rfl
  | cons portion others ih =>
      rw [List.map_cons, rangesHeldBy_cons, ih]
      cases portion with
      | vacant range =>
          rw [List.filterMap_cons_none rfl]
          exact if_neg fun member => different (List.mem_singleton.mp member)
      | taken piece =>
          have taken : (Portion.taken piece).taken? = some piece := rfl
          rw [List.filterMap_cons_some taken, rangesHeldBy_cons]
          simp only [Portion.settle, mem_holders_enter, different, false_or]
          rfl

theorem leave?_eq_none_iff
    (id : ParticipantId) (piece : Piece) :
    piece.leave? id = none ↔ ∀ holder ∈ piece.holders, holder = id := by
  rw [leave?]
  split
  · rename_i nobody
    simp only [Ascending.erase, List.filter_eq_nil_iff] at nobody
    simpa using nobody
  · rename_i others remaining
    simp only [reduceCtorEq, false_iff]
    intro alone
    apply remaining
    simpa [Ascending.erase, List.filter_eq_nil_iff] using alone

/--
A piece that is left but still held keeps its range and its other holders.
-/
theorem of_leave?_eq_some
    {id : ParticipantId} {piece rest : Piece}
    (left : piece.leave? id = some rest) :
    rest.range = piece.range ∧ rest.holders = Ascending.erase id piece.holders ∧
      rest.holders ≠ [] := by
  rw [leave?] at left
  split at left
  · cases left
  · rename_i others remaining
    simp only [Option.some.injEq] at left
    subst left
    exact ⟨rfl, rfl, remaining⟩

/--
What becomes of a piece when a participant lets go of the pieces of a kind.
-/
def afterRelease
    (id : ParticipantId) (condition : ChannelRange → Bool) (piece : Piece) :
    Option Piece :=
  if condition piece.range then piece.leave? id else some piece

theorem afterRelease_of_eq_some
    {id : ParticipantId} {condition : ChannelRange → Bool} {piece rest : Piece}
    (released : piece.afterRelease id condition = some rest) :
    rest.range = piece.range ∧
      ∀ other, other ∈ rest.holders ↔
        other ∈ piece.holders ∧
          ¬ (other = id ∧ condition piece.range = true) := by
  rw [afterRelease] at released
  split at released
  · rename_i inKind
    rcases of_leave?_eq_some released with ⟨sameRange, holders, _⟩
    refine ⟨sameRange, fun other => ?_⟩
    rw [holders, Ascending.mem_erase]
    simp [inKind]
  · rename_i notInKind
    simp only [Option.some.injEq] at released
    subst released
    simp [notInKind]

theorem afterRelease_eq_none_iff
    (id : ParticipantId) (condition : ChannelRange → Bool) (piece : Piece) :
    piece.afterRelease id condition = none ↔
      condition piece.range = true ∧ ∀ holder ∈ piece.holders, holder = id := by
  rw [afterRelease]
  split
  · rename_i inKind
    simp [inKind, leave?_eq_none_iff]
  · rename_i notInKind
    simp [notInKind]

theorem rangesHeldBy_release_self
    (id : ParticipantId) (condition : ChannelRange → Bool)
    (pieces : List Piece) :
    rangesHeldBy id (pieces.filterMap (afterRelease id condition)) =
      (rangesHeldBy id pieces).filter fun range => !condition range := by
  induction pieces with
  | nil => rfl
  | cons piece others ih =>
      cases released : piece.afterRelease id condition with
      | none =>
          rw [List.filterMap_cons_none released, ih, rangesHeldBy_cons]
          have dropped :=
            (afterRelease_eq_none_iff id condition piece).mp released
          split <;> simp [dropped.1]
      | some rest =>
          rcases afterRelease_of_eq_some released with ⟨sameRange, holders⟩
          rw [List.filterMap_cons_some released, rangesHeldBy_cons,
            rangesHeldBy_cons, ih, sameRange]
          simp only [holders, true_and]
          by_cases member : id ∈ piece.holders
          · by_cases inKind : condition piece.range = true
            · simp [member, inKind]
            · simp [member, inKind]
          · simp [member]

theorem rangesHeldBy_release_of_ne
    {id other : ParticipantId} (different : other ≠ id)
    (condition : ChannelRange → Bool) (pieces : List Piece) :
    rangesHeldBy other (pieces.filterMap (afterRelease id condition)) =
      rangesHeldBy other pieces := by
  induction pieces with
  | nil => rfl
  | cons piece others ih =>
      cases released : piece.afterRelease id condition with
      | none =>
          rw [List.filterMap_cons_none released, ih, rangesHeldBy_cons]
          have dropped :=
            (afterRelease_eq_none_iff id condition piece).mp released
          have absent : other ∉ piece.holders := fun member =>
            different (dropped.2 other member)
          rw [if_neg absent]
      | some rest =>
          rcases afterRelease_of_eq_some released with ⟨sameRange, holders⟩
          rw [List.filterMap_cons_some released, rangesHeldBy_cons,
            rangesHeldBy_cons, ih, sameRange]
          simp [holders, different]

end Piece

/-! ## Ways of cutting -/

/-- A way of cutting ranges into ascending parts that keeps their channels. -/
structure ChannelRange.Cutting (parts : ChannelRange → List ChannelRange) :
    Prop where
  ascending : ∀ range, (parts range).Pairwise (·.precedes · = true)
  exists_mem_iff : ∀ range channel,
    (∃ part ∈ parts range, part.contains channel = true) ↔
    range.contains channel = true

namespace ChannelRange

theorem cutting_cutAlong (other : ChannelRange) :
    Cutting (·.cutAlong other) where
  ascending range := pairwise_cutAlong range other
  exists_mem_iff range channel := exists_mem_cutAlong_iff range other channel

/-- Cutting only some of the ranges. -/
theorem Cutting.onlyIf
    {parts : ChannelRange → List ChannelRange} (cutting : Cutting parts)
    (chosen : ChannelRange → Bool) :
    Cutting fun range => if chosen range then parts range else [range] where
  ascending range := by
    split
    · exact cutting.ascending range
    · exact List.pairwise_singleton _ _
  exists_mem_iff range channel := by
    split
    · exact cutting.exists_mem_iff range channel
    · simp

theorem Cutting.encloses
    {parts : ChannelRange → List ChannelRange} (cutting : Cutting parts)
    {range part : ChannelRange} (listed : part ∈ parts range) :
    range.encloses part = true := by
  rw [encloses_iff_forall]
  intro channel inPart
  exact (cutting.exists_mem_iff range channel).mp ⟨part, listed, inPart⟩

theorem Cutting.ne_nil
    {parts : ChannelRange → List ChannelRange} (cutting : Cutting parts)
    (range : ChannelRange) :
    parts range ≠ [] := by
  intro empty
  have inRange :=
    (cutting.exists_mem_iff range range.first).mpr range.contains_first
  rw [empty] at inRange
  rcases inRange with ⟨part, listed, _⟩
  cases listed

end ChannelRange

namespace RangeTable

/-- Disjoint pieces in order, each held, and an index that lists just these. -/
structure WellFormed (table : RangeTable) : Prop where
  ascending : Piece.Ascending table.pieces
  held : ∀ piece ∈ table.pieces, piece.holders ≠ []
  holdersAscending : ∀ piece ∈ table.pieces, piece.holders.Pairwise (· < ·)
  indexed_eq : ∀ id, table.indexed id = Piece.rangesHeldBy id table.pieces
  indexOrdered : table.index.Ordered
  holding : ∀ id holding, table.index.get? id = some holding →
    holding.pieces ≠ [] ∧ holding.contact.id = id

theorem wellFormed_empty : empty.WellFormed where
  ascending := List.Pairwise.nil
  held := by simp [empty]
  holdersAscending := by simp [empty]
  indexed_eq _ := rfl
  indexOrdered := Table.ordered_empty
  holding := by
    intro id holding found
    cases found

theorem indexed_of_get?
    {table : RangeTable} {id : ParticipantId} {holding : Holding}
    (found : table.index.get? id = some holding) :
    table.indexed id = holding.pieces := by
  simp [indexed, found]

theorem indexed_of_get?_eq_none
    {table : RangeTable} {id : ParticipantId}
    (missing : table.index.get? id = none) :
    table.indexed id = [] := by
  simp [indexed, missing]

theorem WellFormed.contains_index_iff
    {table : RangeTable} (wellFormed : table.WellFormed) (id : ParticipantId) :
    table.index.contains id = true ↔ table.indexed id ≠ [] := by
  cases found : table.index.get? id with
  | none => simp [Table.contains, found, indexed_of_get?_eq_none found]
  | some holding =>
      rw [indexed_of_get? found]
      exact iff_of_true (by simp [Table.contains, found])
        (wellFormed.holding id holding found).1

/-- The index lists a piece for exactly those that hold it. -/
theorem WellFormed.range_mem_indexed_iff
    {table : RangeTable} (wellFormed : table.WellFormed)
    {piece : Piece} (listed : piece ∈ table.pieces) (id : ParticipantId) :
    piece.range ∈ table.indexed id ↔ id ∈ piece.holders := by
  rw [wellFormed.indexed_eq, Piece.mem_rangesHeldBy]
  constructor
  · rintro ⟨other, otherListed, member, same⟩
    have inOther : other.range.contains piece.range.first = true :=
      same ▸ piece.range.contains_first
    rwa [ChannelRange.eq_of_contains wellFormed.ascending listed otherListed
      piece.range.contains_first inOther]
  · intro member
    exact ⟨piece, listed, member, rfl⟩

/-! ## Cutting -/

theorem indexed_refine
    (parts : ChannelRange → List ChannelRange) (table : RangeTable)
    (id : ParticipantId) :
    (table.refine parts).indexed id = (table.indexed id).flatMap parts := by
  cases found : table.index.get? id with
  | none => simp [indexed, refine, found]
  | some holding => simp [indexed, refine, found]

theorem mem_pieces_refine_iff
    (parts : ChannelRange → List ChannelRange) (table : RangeTable)
    (part : Piece) :
    part ∈ (table.refine parts).pieces ↔
      ∃ piece ∈ table.pieces,
        part.range ∈ parts piece.range ∧ part.holders = piece.holders := by
  simp only [refine, List.mem_flatMap, List.mem_map]
  constructor
  · rintro ⟨piece, listed, range, isPart, rfl⟩
    exact ⟨piece, listed, isPart, rfl⟩
  · rintro ⟨piece, listed, isPart, same⟩
    exact ⟨piece, listed, part.range, isPart, by rw [← same]⟩

theorem WellFormed.refine
    {table : RangeTable} (wellFormed : table.WellFormed)
    {parts : ChannelRange → List ChannelRange}
    (cutting : ChannelRange.Cutting parts) :
    (table.refine parts).WellFormed where
  ascending := by
    show List.Pairwise _ _
    rw [RangeTable.refine, List.pairwise_flatMap]
    constructor
    · intro piece listed
      exact List.pairwise_map.mpr (cutting.ascending piece.range)
    · apply wellFormed.ascending.imp
      intro lower upper order lowerPart inLower upperPart inUpper
      rcases List.mem_map.mp inLower with ⟨lowerRange, isLower, rfl⟩
      rcases List.mem_map.mp inUpper with ⟨upperRange, isUpper, rfl⟩
      exact ChannelRange.precedes_of_encloses order
        (cutting.encloses isLower) (cutting.encloses isUpper)
  held := by
    intro part listed
    rcases (mem_pieces_refine_iff parts table part).mp listed
      with ⟨piece, was, _, same⟩
    rw [same]
    exact wellFormed.held piece was
  holdersAscending := by
    intro part listed
    rcases (mem_pieces_refine_iff parts table part).mp listed
      with ⟨piece, was, _, same⟩
    rw [same]
    exact wellFormed.holdersAscending piece was
  indexed_eq := by
    intro id
    rw [indexed_refine, wellFormed.indexed_eq]
    exact (Piece.rangesHeldBy_refine id table.pieces parts).symm
  indexOrdered := wellFormed.indexOrdered.map _
  holding := by
    intro id holding found
    simp only [RangeTable.refine, Table.get?_map, Option.map_eq_some_iff]
      at found
    rcases found with ⟨before, was, rfl⟩
    rcases wellFormed.holding id before was with ⟨nonempty, sameId⟩
    refine ⟨?_, sameId⟩
    intro empty
    rcases List.exists_cons_of_ne_nil nonempty with ⟨range, others, listed⟩
    have nothing := (List.flatMap_eq_nil_iff.mp empty) range (by simp [listed])
    exact cutting.ne_nil range nothing

/-! ## Adding -/

/-- No end of the range lies strictly inside a piece. -/
def Uncut (table : RangeTable) (range : ChannelRange) : Prop :=
  ∀ piece ∈ table.pieces,
    range.encloses piece.range = true ∨ range.overlaps piece.range = false

theorem uncut_refine_cutAlong
    (table : RangeTable) (range : ChannelRange) :
    (table.refine (·.cutAlong range)).Uncut range := by
  intro part listed
  rcases (mem_pieces_refine_iff _ table part).mp listed
    with ⟨piece, _, isPart, _⟩
  exact ChannelRange.uncut_of_mem_cutAlong isPart

/--
The pieces once a participant holds all of a range that cuts none of them.
-/
def settled
    (table : RangeTable) (range : ChannelRange) (id : ParticipantId) :
    List Piece :=
  table.pieces.filter (·.range.precedes range) ++
    (range.portions (table.inside range)).map (Portion.settle id) ++
    table.pieces.filter (range.precedes ·.range)

theorem range_settle (id : ParticipantId) (portion : Portion) :
    (portion.settle id).range = portion.range := by
  cases portion <;> rfl

theorem WellFormed.fits_inside
    {table : RangeTable} (wellFormed : table.WellFormed)
    (range : ChannelRange) :
    range.Fits (table.inside range) :=
  ChannelRange.fits_of_ascending (wellFormed.ascending.filter _)
    fun _ listed => (List.mem_filter.mp listed).2

theorem WellFormed.ascending_settled
    {table : RangeTable} (wellFormed : table.WellFormed)
    (range : ChannelRange) (id : ParticipantId) :
    Piece.Ascending (table.settled range id) := by
  have fits := wellFormed.fits_inside range
  have within :
      ∀ piece ∈ (range.portions (table.inside range)).map (Portion.settle id),
      range.encloses piece.range = true := by
    intro piece listed
    rcases List.mem_map.mp listed with ⟨portion, isPortion, rfl⟩
    rw [range_settle]
    exact ChannelRange.encloses_of_mem_portions fits portion isPortion
  have within_ascending :
      ((range.portions (table.inside range)).map (Portion.settle id)).Pairwise
        (·.range.precedes ·.range = true) := by
    rw [List.pairwise_map]
    simp only [range_settle]
    exact ChannelRange.pairwise_portions fits
  refine List.pairwise_append.mpr ⟨?_, wellFormed.ascending.filter _, ?_⟩
  · refine List.pairwise_append.mpr
      ⟨wellFormed.ascending.filter _, within_ascending, ?_⟩
    intro lower isLower piece isWithin
    exact ChannelRange.precedes_of_encloses (List.mem_filter.mp isLower).2
      (ChannelRange.encloses_refl _) (within piece isWithin)
  · intro piece listed upper isUpper
    have above := (List.mem_filter.mp isUpper).2
    rcases List.mem_append.mp listed with isLower | isWithin
    · exact ChannelRange.precedes_trans (List.mem_filter.mp isLower).2 above
    · exact ChannelRange.precedes_of_encloses above
        (within piece isWithin) (ChannelRange.encloses_refl _)

/--
The pieces once a participant holds all of a range are those outside it, those
inside it with the participant entered, and the vacancies.
-/
theorem WellFormed.mem_settled_iff
    {table : RangeTable} (wellFormed : table.WellFormed)
    (range : ChannelRange) (id : ParticipantId) (piece : Piece) :
    piece ∈ table.settled range id ↔
      piece ∈ table.pieces ∧ range.overlaps piece.range = false ∨
      (∃ before ∈ table.pieces,
        range.encloses before.range = true ∧ piece = before.enter id) ∨
      ∃ vacancy, .vacant vacancy ∈ range.portions (table.inside range) ∧
        piece = ⟨vacancy, [id]⟩ := by
  have taken :=
    ChannelRange.taken_mem_portions_iff (wellFormed.fits_inside range)
  simp only [settled, List.mem_append, List.mem_filter, List.mem_map,
    ChannelRange.overlaps_eq_false_iff, ChannelRange.precedes_iff]
  constructor
  · rintro ((⟨listed, below⟩ | ⟨portion, isPortion, rfl⟩) | ⟨listed, above⟩)
    · exact Or.inl ⟨listed, Or.inl below⟩
    · cases portion with
      | vacant vacancy => exact Or.inr (Or.inr ⟨vacancy, isPortion, rfl⟩)
      | taken before =>
          rcases List.mem_filter.mp ((taken before).mp isPortion)
            with ⟨was, inside⟩
          exact Or.inr (Or.inl ⟨before, was, inside, rfl⟩)
    · exact Or.inl ⟨listed, Or.inr above⟩
  · rintro (⟨listed, below | above⟩ | ⟨before, was, inside, rfl⟩ | ⟨vacancy,
      isPortion, rfl⟩)
    · exact Or.inl (Or.inl ⟨listed, below⟩)
    · exact Or.inr ⟨listed, above⟩
    · have isTaken := (taken before).mpr (List.mem_filter.mpr ⟨was, inside⟩)
      exact Or.inl (Or.inr ⟨.taken before, isTaken, rfl⟩)
    · exact Or.inl (Or.inr ⟨.vacant vacancy, isPortion, rfl⟩)

/-- Pieces that a range does not cut lie below it, inside it or above it. -/
theorem pieces_eq_of_uncut
    {range : ChannelRange} {pieces : List Piece}
    (ascending : Piece.Ascending pieces)
    (uncut : ∀ piece ∈ pieces,
      range.encloses piece.range = true ∨ range.overlaps piece.range = false) :
    pieces =
      pieces.filter (·.range.precedes range) ++
        pieces.filter (range.encloses ·.range) ++
        pieces.filter (range.precedes ·.range) := by
  induction pieces with
  | nil => rfl
  | cons piece others ih =>
      rcases List.pairwise_cons.mp ascending with ⟨below, othersAscending⟩
      have split := ih othersAscending
        fun other listed => uncut other (List.mem_cons_of_mem _ listed)
      have rangeOrder := range.first_le_last
      have pieceOrder := piece.range.first_le_last
      have noneBelow (reached : range.first ≤ piece.range.last) :
          others.filter (·.range.precedes range) = [] := by
        rw [List.filter_eq_nil_iff]
        intro other listed
        have order := below other listed
        have otherOrder := other.range.first_le_last
        simp only [ChannelRange.precedes_iff] at order ⊢
        grind
      rcases ChannelRange.precedes_or_encloses_or_precedes
        (uncut piece List.mem_cons_self) with lower | within | upper
      · have notWithin : ¬ range.encloses piece.range = true := by
          simp only [ChannelRange.precedes_iff, ChannelRange.encloses_iff]
            at lower ⊢
          grind
        have notUpper : ¬ range.precedes piece.range = true := by
          simp only [ChannelRange.precedes_iff] at lower ⊢
          grind
        simp only [List.filter_cons, if_pos lower, if_neg notWithin,
          if_neg notUpper]
        exact congrArg (List.cons piece) split
      · have notLower : ¬ piece.range.precedes range = true := by
          simp only [ChannelRange.precedes_iff, ChannelRange.encloses_iff]
            at within ⊢
          grind
        have notUpper : ¬ range.precedes piece.range = true := by
          simp only [ChannelRange.precedes_iff, ChannelRange.encloses_iff]
            at within ⊢
          grind
        have nothing := noneBelow (ChannelRange.first_le_of_encloses within)
        rw [nothing] at split
        simp only [List.filter_cons, if_neg notLower, if_pos within,
          if_neg notUpper, nothing]
        exact congrArg (List.cons piece) split
      · have notLower : ¬ piece.range.precedes range = true := by
          simp only [ChannelRange.precedes_iff] at upper ⊢
          grind
        have notWithin : ¬ range.encloses piece.range = true := by
          simp only [ChannelRange.precedes_iff, ChannelRange.encloses_iff]
            at upper ⊢
          grind
        have nothing :=
          noneBelow (by rw [ChannelRange.precedes_iff] at upper; grind)
        have noneWithin : others.filter (range.encloses ·.range) = [] := by
          rw [List.filter_eq_nil_iff]
          intro other listed
          have order := below other listed
          have otherOrder := other.range.first_le_last
          simp only [ChannelRange.precedes_iff, ChannelRange.encloses_iff]
            at upper order ⊢
          grind
        rw [nothing, noneWithin] at split
        simp only [List.filter_cons, if_neg notLower, if_neg notWithin,
          if_pos upper, nothing, noneWithin]
        exact congrArg (List.cons piece) split

theorem WellFormed.rangesHeldBy_settled_self
    {table : RangeTable} (wellFormed : table.WellFormed)
    (range : ChannelRange) (id : ParticipantId) :
    Piece.rangesHeldBy id (table.settled range id) =
      overlay range ((range.portions (table.inside range)).map Portion.range)
        (table.indexed id) := by
  rw [settled, Piece.rangesHeldBy_append, Piece.rangesHeldBy_append,
    Piece.rangesHeldBy_settle_self,
    Piece.rangesHeldBy_filter id table.pieces (·.precedes range),
    Piece.rangesHeldBy_filter id table.pieces range.precedes,
    ← wellFormed.indexed_eq, overlay]

theorem WellFormed.rangesHeldBy_settled_of_ne
    {table : RangeTable} (wellFormed : table.WellFormed)
    {range : ChannelRange} (uncut : table.Uncut range)
    {id other : ParticipantId} (different : other ≠ id) :
    Piece.rangesHeldBy other (table.settled range id) =
      table.indexed other := by
  rw [wellFormed.indexed_eq, settled, Piece.rangesHeldBy_append,
    Piece.rangesHeldBy_append, Piece.rangesHeldBy_settle_of_ne different,
    ChannelRange.filterMap_taken?_portions (wellFormed.fits_inside range)]
  conv_rhs => rw [pieces_eq_of_uncut wellFormed.ascending uncut]
  rw [Piece.rangesHeldBy_append, Piece.rangesHeldBy_append]
  rfl

theorem portions_ne_nil (range : ChannelRange) (pieces : List Piece) :
    range.portions pieces ≠ [] := by
  cases pieces <;> simp [ChannelRange.portions]

theorem WellFormed.add
    {table : RangeTable} (wellFormed : table.WellFormed)
    (range : ChannelRange) (participant : Participant) :
    (table.add range participant).1.WellFormed := by
  have cutWellFormed := wellFormed.refine (ChannelRange.cutting_cutAlong range)
  have uncut := uncut_refine_cutAlong table range
  have pieces_eq : (table.add range participant).1.pieces =
      (table.refine (·.cutAlong range)).settled range participant.id := rfl
  refine
    { ascending := cutWellFormed.ascending_settled range participant.id
      held := ?_
      holdersAscending := ?_
      indexed_eq := ?_
      indexOrdered := cutWellFormed.indexOrdered.insert _ _
      holding := ?_ }
  · intro piece listed
    rw [pieces_eq] at listed
    rcases (cutWellFormed.mem_settled_iff range participant.id piece).mp listed
      with ⟨kept, _⟩ | ⟨before, _, _, rfl⟩ | ⟨vacancy, _, rfl⟩
    · exact cutWellFormed.held piece kept
    · exact List.ne_nil_of_mem
        ((Piece.mem_holders_enter participant.id participant.id before).mpr
          (Or.inl rfl))
    · exact List.cons_ne_nil _ _
  · intro piece listed
    rw [pieces_eq] at listed
    rcases (cutWellFormed.mem_settled_iff range participant.id piece).mp listed
      with ⟨kept, _⟩ | ⟨before, was, _, rfl⟩ | ⟨vacancy, _, rfl⟩
    · exact cutWellFormed.holdersAscending piece kept
    · exact Ascending.pairwise_insert _
        (cutWellFormed.holdersAscending before was)
    · exact List.pairwise_singleton _ _
  · intro other
    rw [pieces_eq]
    by_cases same : other = participant.id
    · subst same
      rw [cutWellFormed.rangesHeldBy_settled_self]
      simp [indexed, RangeTable.add]
    · rw [cutWellFormed.rangesHeldBy_settled_of_ne uncut same]
      simp [indexed, RangeTable.add, same]
  · intro other holding found
    simp only [RangeTable.add, Table.get?_insert] at found
    split at found
    · rename_i same
      subst same
      simp only [Option.some.injEq] at found
      subst found
      refine ⟨?_, ?_⟩
      · simp [overlay, portions_ne_nil]
      · cases before :
          (table.refine (·.cutAlong range)).index.get? participant.id with
        | none => simp
        | some holding =>
            simpa [before] using (cutWellFormed.holding _ holding before).2
    · exact cutWellFormed.holding other holding found

/-! ## Releasing -/

theorem pieces_release
    (table : RangeTable) (id : ParticipantId)
    (condition : ChannelRange → Bool) :
    (table.release id condition).1.pieces =
      table.pieces.filterMap (Piece.afterRelease id condition) := rfl

theorem get?_index_release
    (table : RangeTable) (id other : ParticipantId)
    (condition : ChannelRange → Bool) :
    (table.release id condition).1.index.get? other =
      if other = id then
        (table.index.get? id).bind fun holding =>
          if (holding.pieces.filter fun range =>
            !condition range).isEmpty then none
          else some { holding with
            pieces := holding.pieces.filter fun range => !condition range }
      else table.index.get? other := by
  cases found : table.index.get? id with
  | none =>
      simp only [release, found, Option.bind_none]
      split
      · rename_i same
        rw [same, found]
      · rfl
  | some holding =>
      simp only [release, found, indexed_of_get? found, Option.bind_some]
      split
      · rw [Table.get?_erase]
      · rw [Table.get?_insert]

theorem indexed_release
    (table : RangeTable) (id other : ParticipantId)
    (condition : ChannelRange → Bool) :
    (table.release id condition).1.indexed other =
      if other = id then (table.indexed id).filter fun range => !condition range
      else table.indexed other := by
  rw [indexed, get?_index_release]
  split
  · cases found : table.index.get? id with
    | none => simp [indexed, found]
    | some holding =>
        rw [indexed_of_get? found, Option.bind_some]
        split
        · rename_i nothing
          rw [List.isEmpty_iff.mp nothing]
          rfl
        · rfl
  · rfl

theorem indexOrdered_release
    {table : RangeTable} (ordered : table.index.Ordered)
    (id : ParticipantId) (condition : ChannelRange → Bool) :
    (table.release id condition).1.index.Ordered := by
  simp only [release]
  split
  · exact ordered
  · split
    · exact ordered.erase id
    · exact ordered.insert id _

theorem WellFormed.release
    {table : RangeTable} (wellFormed : table.WellFormed)
    (id : ParticipantId) (condition : ChannelRange → Bool) :
    (table.release id condition).1.WellFormed where
  ascending := by
    rw [pieces_release]
    refine List.Pairwise.filterMap _ ?_ wellFormed.ascending
    intro lower upper order lowerRest lowerReleased upperRest upperReleased
    rw [(Piece.afterRelease_of_eq_some lowerReleased).1,
      (Piece.afterRelease_of_eq_some upperReleased).1]
    exact order
  held := by
    intro rest listed
    rcases List.mem_filterMap.mp listed with ⟨piece, was, released⟩
    split at released
    · exact (Piece.of_leave?_eq_some released).2.2
    · cases released
      exact wellFormed.held rest was
  holdersAscending := by
    intro rest listed
    rcases List.mem_filterMap.mp listed with ⟨piece, was, released⟩
    split at released
    · rw [(Piece.of_leave?_eq_some released).2.1]
      exact (wellFormed.holdersAscending piece was).filter _
    · cases released
      exact wellFormed.holdersAscending rest was
  indexed_eq := by
    intro other
    rw [indexed_release, pieces_release, wellFormed.indexed_eq,
      wellFormed.indexed_eq]
    split
    · rename_i same
      rw [same, Piece.rangesHeldBy_release_self]
    · rename_i different
      rw [Piece.rangesHeldBy_release_of_ne different]
  indexOrdered := indexOrdered_release wellFormed.indexOrdered id condition
  holding := by
    intro other holding found
    rw [get?_index_release] at found
    split at found
    · rename_i same
      rcases Option.bind_eq_some_iff.mp found with ⟨before, was, kept⟩
      split at kept
      · cases kept
      · rename_i nonempty
        cases kept
        rw [List.isEmpty_iff] at nonempty
        exact ⟨nonempty, same ▸ (wellFormed.holding id before was).2⟩
    · exact wellFormed.holding other holding found

/-! ## Removing -/

/-- A table with the pieces of a participant cut along the ends of a range. -/
def cutFor (table : RangeTable) (range : ChannelRange) (id : ParticipantId) :
    RangeTable :=
  table.refine fun piece =>
    if ((table.indexed id).filter range.overlaps).contains
      piece then piece.cutAlong range
    else [piece]

theorem remove_eq_release
    (table : RangeTable) (range : ChannelRange) (id : ParticipantId) :
    table.remove range id = (table.cutFor range id).release id range.encloses :=
  rfl

theorem WellFormed.cutFor
    {table : RangeTable} (wellFormed : table.WellFormed)
    (range : ChannelRange) (id : ParticipantId) :
    (table.cutFor range id).WellFormed :=
  wellFormed.refine ((ChannelRange.cutting_cutAlong range).onlyIf _)

theorem WellFormed.remove
    {table : RangeTable} (wellFormed : table.WellFormed)
    (range : ChannelRange) (id : ParticipantId) :
    (table.remove range id).1.WellFormed :=
  (wellFormed.cutFor range id).release id range.encloses

theorem WellFormed.removeHolder
    {table : RangeTable} (wellFormed : table.WellFormed) (id : ParticipantId) :
    (table.removeHolder id).1.WellFormed :=
  wellFormed.release id fun _ => true

end RangeTable

end ChannelRouter
