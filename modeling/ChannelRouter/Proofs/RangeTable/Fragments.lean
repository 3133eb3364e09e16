import ChannelRouter.Proofs.RangeTable.Queries
import ChannelRouter.Proofs.RangeTable.Run
import Mathlib.Data.List.Perm.Subperm

/-!
# How far a range table falls into pieces

An operation can cut many pieces at once, and fill as many gaps, so no single
operation has a bound on the pieces it leaves.  But it makes no cut of its own:
wherever a piece begins, or the channel after it, a range that was passed to an
operation begins, or the channel after it.  Every range has two such cuts, and
pieces that lie one behind the other need one cut more than there are pieces.
-/

namespace ChannelRouter

namespace ChannelRange

/-! ## Cuts -/

/-- The cuts at a range: below its first channel and above its last. -/
def cuts (range : ChannelRange) : List Nat :=
  [range.first.toNat, range.last.toNat + 1]

/-- The range begins at one of the cuts and ends at one. -/
structure CutAt (all : List Nat) (range : ChannelRange) : Prop where
  first : range.first.toNat ∈ all
  last : range.last.toNat + 1 ∈ all

theorem cutAt_cuts (range : ChannelRange) : range.CutAt range.cuts where
  first := by simp [cuts]
  last := by simp [cuts]

theorem CutAt.mono
    {all more : List Nat} {range : ChannelRange} (cut : range.CutAt all)
    (among : all ⊆ more) :
    range.CutAt more :=
  ⟨among cut.first, among cut.last⟩

variable {all : List Nat} {range other part shared : ChannelRange}

theorem CutAt.before
    (cut : range.CutAt all) (otherCut : other.CutAt all)
    (left : range.before other.first = some part) : part.CutAt all := by
  rw [ChannelRange.before] at left
  split at left
  · rename_i above
    cases left
    have isBelow : (other.first - 1).toNat + 1 = other.first.toNat := by
      rw [Channel.toNat_sub_one_of_lt above]
      rw [UInt64.lt_iff_toNat_lt] at above
      omega
    exact ⟨cut.first, isBelow ▸ otherCut.first⟩
  · cases left

theorem CutAt.after
    (cut : range.CutAt all) (otherCut : other.CutAt all)
    (left : range.after other.last = some part) : part.CutAt all := by
  rw [ChannelRange.after] at left
  split at left
  · rename_i below
    cases left
    exact ⟨(Channel.toNat_add_one_of_lt below).symm ▸ otherCut.last, cut.last⟩
  · cases left

theorem CutAt.meet?
    (cut : range.CutAt all) (otherCut : other.CutAt all)
    (meeting : range.meet? other = some shared) : shared.CutAt all := by
  rw [ChannelRange.meet?] at meeting
  split at meeting
  · cases meeting
    constructor
    · show (if _ then _ else _ : Channel).toNat ∈ all
      split
      · exact otherCut.first
      · exact cut.first
    · show (if _ then _ else _ : Channel).toNat + 1 ∈ all
      split
      · exact cut.last
      · exact otherCut.last
  · cases meeting

/-- Cutting along a range makes cuts at its ends only. -/
theorem CutAt.cutAlong
    (cut : range.CutAt all) (otherCut : other.CutAt all)
    (listed : part ∈ range.cutAlong other) : part.CutAt all := by
  rw [ChannelRange.cutAlong] at listed
  split at listed
  · exact List.mem_singleton.mp listed ▸ cut
  · rename_i shared meeting
    simp only [List.mem_append, Option.mem_toList, List.mem_cons] at listed
    rcases listed with left | rfl | left
    · exact cut.before otherCut left
    · exact cut.meet? otherCut meeting
    · exact cut.after otherCut left

/-- The portions of a range are cut where the range is cut or a piece in it. -/
theorem CutAt.portions
    {pieces : List Piece} (fits : Fits range pieces) (cut : range.CutAt all)
    (piecesCut : ∀ piece ∈ pieces, piece.range.CutAt all) :
    ∀ portion ∈ range.portions pieces, portion.range.CutAt all := by
  induction fits with
  | vacant range =>
      intro portion listed
      rw [ChannelRange.portions, List.mem_singleton] at listed
      exact listed ▸ cut
  | exhausted inside exhausted =>
      have pieceCut := piecesCut _ List.mem_cons_self
      intro portion listed
      rw [portions_of_exhausted exhausted] at listed
      simp only [List.mem_append, List.mem_map, Option.mem_toList,
        List.mem_singleton] at listed
      rcases listed with ⟨part, left, rfl⟩ | rfl
      · exact cut.before pieceCut left
      · exact pieceCut
  | continued inside continued fits ih =>
      have pieceCut := piecesCut _ List.mem_cons_self
      have restCut := cut.after pieceCut continued
      intro portion listed
      rw [portions_of_continued _ continued] at listed
      simp only [List.mem_append, List.mem_map, Option.mem_toList,
        List.mem_cons] at listed
      rcases listed with ⟨part, left, rfl⟩ | rfl | later
      · exact cut.before pieceCut left
      · exact pieceCut
      · exact ih restCut (fun piece isPiece =>
          piecesCut piece (List.mem_cons_of_mem _ isPiece)) portion later

end ChannelRange

namespace RangeTable

variable {table : RangeTable} {all : List Nat}

/-- Every piece begins and ends at one of the cuts. -/
def CutAt (table : RangeTable) (all : List Nat) : Prop :=
  ∀ piece ∈ table.pieces, piece.range.CutAt all

/-! ## What operations cut -/

theorem CutAt.refine
    {parts : ChannelRange → List ChannelRange} (cut : table.CutAt all)
    (within : ∀ range, range.CutAt all → ∀ part ∈ parts range, part.CutAt all) :
    (table.refine parts).CutAt all := by
  intro part listed
  rcases (mem_pieces_refine_iff parts table part).mp listed
    with ⟨piece, was, isPart, _⟩
  exact within piece.range (cut piece was) part.range isPart

theorem CutAt.add
    (cut : table.CutAt all) (wellFormed : table.WellFormed)
    {range : ChannelRange}
    (rangeCut : range.CutAt all) (participant : Participant) :
    (table.add range participant).1.CutAt all := by
  have cutWellFormed := wellFormed.refine (ChannelRange.cutting_cutAlong range)
  have cutAlong : (table.refine (·.cutAlong range)).CutAt all :=
    cut.refine fun _ pieceCut _ isPart => pieceCut.cutAlong rangeCut isPart
  have fits := cutWellFormed.fits_inside range
  intro piece listed
  rcases (cutWellFormed.mem_settled_iff range participant.id piece).mp listed
    with ⟨kept, _⟩ | ⟨before, was, _, rfl⟩ | ⟨vacancy, vacant, rfl⟩
  · exact cutAlong piece kept
  · exact cutAlong before was
  · exact ChannelRange.CutAt.portions fits rangeCut
      (fun inner inside => cutAlong inner (List.mem_filter.mp inside).1) _
        vacant

/-- Letting go of pieces cuts none of them. -/
theorem CutAt.release
    (cut : table.CutAt all) (id : ParticipantId)
    (condition : ChannelRange → Bool) :
    (table.release id condition).1.CutAt all := by
  intro rest listed
  rw [pieces_release] at listed
  rcases List.mem_filterMap.mp listed with ⟨piece, was, released⟩
  rw [(Piece.afterRelease_of_eq_some released).1]
  exact cut piece was

theorem CutAt.remove
    (cut : table.CutAt all) {range : ChannelRange} (rangeCut : range.CutAt all)
    (id : ParticipantId) : (table.remove range id).1.CutAt all := by
  rw [remove_eq_release]
  refine CutAt.release (cut.refine ?_) id range.encloses
  intro piece pieceCut part isPart
  split at isPart
  · exact pieceCut.cutAlong rangeCut isPart
  · exact List.mem_singleton.mp isPart ▸ pieceCut

namespace Operation

/-- The range passed to an operation, if it takes one. -/
def range? : Operation → Option ChannelRange
  | add range _ => some range
  | remove range _ => some range
  | removeHolder _ => none

end Operation

theorem CutAt.apply
    (cut : table.CutAt all) (wellFormed : table.WellFormed)
    {operation : Operation}
    (passedCut : ∀ range, operation.range? = some range → range.CutAt all) :
    (operation.apply table).CutAt all := by
  cases operation with
  | add range participant =>
      exact cut.add wellFormed (passedCut range rfl) participant
  | remove range id => exact cut.remove (passedCut range rfl) id
  | removeHolder id => exact cut.release id fun _ => true

/-- The ranges passed to the operations of a run. -/
def passed (operations : List Operation) : List ChannelRange :=
  operations.filterMap Operation.range?

/--
A run cuts pieces at the ends of the ranges passed to it and nowhere else.
-/
theorem cutAt_run (operations : List Operation) :
    (run operations).CutAt ((passed operations).flatMap ChannelRange.cuts) := by
  induction operations using List.reverseRecOn with
  | nil => simp [run, empty, CutAt]
  | append_singleton earlier operation ih =>
      rw [run_concat, passed, List.filterMap_append, List.flatMap_append]
      refine CutAt.apply ?_ (wellFormed_run earlier) ?_
      · exact fun piece listed =>
          (ih piece listed).mono (List.subset_append_left _ _)
      · intro range isPassed
        refine range.cutAt_cuts.mono fun cut isCut => List.mem_append_right _ ?_
        exact List.mem_flatMap.mpr ⟨range, by simp [isPassed], isCut⟩

/-! ## How many pieces there is room for -/

/-- Pieces one behind the other need one cut more than there are pieces. -/
theorem CutAt.length_pieces_lt
    (cut : table.CutAt all) (ascending : Piece.Ascending table.pieces)
    (nonempty : table.pieces ≠ []) : table.pieces.length < all.length := by
  obtain ⟨last, isLast⟩ := Option.ne_none_iff_exists'.mp
    (mt List.getLast?_eq_none_iff.mp nonempty)
  let beginnings := table.pieces.map (·.range.first.toNat)
  have strictlyAscending :
      (beginnings ++ [last.range.last.toNat + 1]).Pairwise (· < ·) := by
    refine List.pairwise_append.mpr ⟨?_, List.pairwise_singleton _ _, ?_⟩
    · rw [List.pairwise_map]
      refine ascending.imp fun {lower upper} order => ?_
      have lowerOrder := lower.range.first_toNat_le_last
      rw [ChannelRange.precedes_iff, UInt64.lt_iff_toNat_lt] at order
      omega
    · intro beginning isBeginning ending isEnding
      rcases List.mem_map.mp isBeginning with ⟨piece, listed, rfl⟩
      rw [List.mem_singleton.mp isEnding]
      have pieceOrder := piece.range.first_toNat_le_last
      have lastOrder := last.range.first_toNat_le_last
      rcases eq_or_rel_getLast ascending isLast listed with rfl | order
      · omega
      · rw [ChannelRange.precedes_iff, UInt64.lt_iff_toNat_lt] at order
        omega
  have areCuts : beginnings ++ [last.range.last.toNat + 1] ⊆ all := by
    intro mark isMark
    rcases List.mem_append.mp isMark with isBeginning | isEnding
    · rcases List.mem_map.mp isBeginning with ⟨piece, listed, rfl⟩
      exact (cut piece listed).first
    · exact List.mem_singleton.mp isEnding ▸
        (cut last (List.mem_of_getLast? isLast)).last
  have different := Ascending.nodup_of_pairwise strictlyAscending
  have enough := (List.subperm_of_subset different areCuts).length_le
  rw [List.length_append, List.length_map, List.length_singleton] at enough
  exact enough

theorem length_flatMap_cuts (ranges : List ChannelRange) :
    (ranges.flatMap ChannelRange.cuts).length = 2 * ranges.length := by
  simp [List.length_flatMap, ChannelRange.cuts, Nat.mul_comm]

/--
After any run every piece begins at the first channel of a range that was passed
to it, or one after the last, and ends at the last channel of such a range or
one before the first.  There are at most twice as many pieces as operations that
were passed a range, less one.
-/
theorem fragments_are_bounded_of_run (operations : List Operation) :
    (∀ piece ∈ (run operations).pieces,
      (∃ range ∈ passed operations, piece.range.first = range.first ∨
        piece.range.first.toNat = range.last.toNat + 1) ∧
      ∃ range ∈ passed operations, piece.range.last = range.last ∨
        piece.range.last.toNat + 1 = range.first.toNat) ∧
    (run operations).pieceCount ≤ 2 * (passed operations).length - 1 := by
  have cut := cutAt_run operations
  constructor
  · intro piece listed
    rcases cut piece listed with ⟨first, last⟩
    simp only [List.mem_flatMap, ChannelRange.cuts, List.mem_cons,
      List.not_mem_nil, or_false] at first last
    rcases first with ⟨range, isPassed, begins⟩
    rcases last with ⟨other, otherPassed, ends⟩
    refine ⟨⟨range, isPassed, begins.imp_left UInt64.toNat_inj.mp⟩, other,
      otherPassed, ?_⟩
    exact ends.symm.imp_left fun same => UInt64.toNat_inj.mp (Nat.succ.inj same)
  · rw [pieceCount]
    by_cases nothing : (run operations).pieces = []
    · rw [nothing]
      exact Nat.zero_le _
    · have enough :=
        cut.length_pieces_lt (wellFormed_run operations).ascending nothing
      rw [length_flatMap_cuts] at enough
      omega

/-- Two ranges, one inside the other, make as many pieces as two can. -/
example :
    (run [.add ⟨1, 9, by decide⟩ ⟨1, 0⟩,
      .add ⟨4, 6, by decide⟩ ⟨2, 0⟩]).pieceCount = 3 := by
  decide

end RangeTable

end ChannelRouter
