import ChannelRouter.Proofs.RangeTable.Accounts
import ChannelRouter.Proofs.RangeTable.Overlaps
import ChannelRouter.Proofs.RangeTable.Splitting

/-!
# Doing a task in rounds

A task is done for a range by keeping a list of ranges that are still to be gone
through, at first the range alone.  A round takes one of them off and looks for
a piece that overlaps it.  If there is none, the task is done for all of it.
Otherwise the task is done for what the two share, and what is left of the range
on the two sides of the piece is put on the list.  A round in which an end is
computed that leaves the address space, or a range that ends before it begins,
has no result; after any run of operations there is no such round.

The table changes from round to round, so that the list becomes empty has to do
with how many pieces overlap what is on it: the two sides together are
overlapped by fewer pieces than the range was, and no round makes more pieces
overlap the other ranges.
-/

namespace ChannelRouter

namespace ChannelRange

/-- A range that another encloses has nothing on either side of it. -/
theorem sides_of_encloses
    {range part : ChannelRange} (within : range.encloses part = true)
    (others : List ChannelRange) :
    (part.after range.last).toList ++ (part.before range.first).toList ++
      others = others := by
  have ends := (encloses_iff _ _).mp within
  rw [(after_eq_none_iff _ _).mpr ends.2, (before_eq_none_iff _ _).mpr ends.1]
  rfl

end ChannelRange

namespace RangeTable

/-- Where a task stands between two rounds. -/
structure Splitting where
  /-- The ranges that are still to be gone through, the next one first. -/
  pending : List ChannelRange
  table : RangeTable
  /-- What changed so far, in the order in which it did. -/
  change : CoverageChange
deriving DecidableEq, Repr

namespace Splitting

/-- Before the first round the whole range is to be gone through. -/
def start (table : RangeTable) (range : ChannelRange) : Splitting :=
  ⟨[range], table, ⟨[], []⟩⟩

/--
Subscribe a participant to what a range shares with a piece, in whichever way
they overlap.
-/
def addAt (participant : Participant) (existing part : ChannelRange)
    (others : List ChannelRange) (table : RangeTable)
    (change : CoverageChange) :
    Option Splitting :=
  if existing = part then
    some ⟨others, table.attach existing participant, change⟩
  else if part.encloses existing then do
    let lower ← ChannelRange.below? part.first existing.first
    let upper ← ChannelRange.above? existing.last part.last
    return ⟨upper ++ lower ++ others, table.attach existing participant, change⟩
  else if existing.encloses part then do
    let cut ← table.isolate? existing part
    return ⟨others, cut.attach part participant, change⟩
  else if existing.first < part.first then do
    -- The piece begins below the range and ends inside it.
    let inner ← ChannelRange.between? part.first existing.last
    let cut ← table.isolate? existing inner
    let upper ← ChannelRange.startingAfter? existing.last part.last
    return ⟨upper :: others, cut.attach inner participant, change⟩
  else do
    -- The piece begins inside the range and ends above it.
    let inner ← ChannelRange.between? existing.first part.last
    let cut ← table.isolate? existing inner
    let lower ← ChannelRange.endingBefore? part.first existing.first
    return ⟨lower :: others, cut.attach inner participant, change⟩

/-- One round of subscribing a participant. -/
def addRound (participant : Participant) (state : Splitting) :
    Option Splitting :=
  match state.pending with
  | [] => some state
  | part :: others =>
    match state.table.lastOverlapping? part with
    | none =>
      some ⟨others, state.table.fill part participant,
        state.change.append ⟨[part], []⟩⟩
    | some existing =>
      addAt participant existing.range part others state.table state.change

/-- One round of unsubscribing a participant. -/
def removeRound (id : ParticipantId) (state : Splitting) : Option Splitting :=
  match state.pending with
  | [] => some state
  | part :: others =>
    match state.table.lastOverlapping? part with
    | none => some { state with pending := others }
    | some existing => do
      let (table, change) ← state.table.detachWithin? existing part id
      let lower ← ChannelRange.below? part.first existing.range.first
      let upper ← ChannelRange.above? existing.range.last part.last
      return ⟨upper ++ lower ++ others, table, state.change.append change⟩

end Splitting

namespace Task

/--
One round of a task; when nothing is to be gone through any more, it changes
nothing.
-/
def round : Task → Splitting → Option Splitting
  | add participant => Splitting.addRound participant
  | remove id => Splitting.removeRound id

/-- A number of rounds, one after the other. -/
def after (task : Task) : Nat → Splitting → Option Splitting
  | 0, state => some state
  | rounds + 1, state => (task.round state).bind (task.after rounds)

end Task

/-! ## What a round does -/

/--
A round goes through the next range: all of it if no piece overlaps it, and
otherwise what it shares with one piece.
-/
inductive Advances (task : Task) : Splitting → Splitting → Prop where
  | apart {part : ChannelRange} {others : List ChannelRange}
      {table : RangeTable} {change : CoverageChange}
      (apart : ∀ piece ∈ table.pieces, part.overlaps piece.range = false) :
      Advances task ⟨part :: others, table, change⟩
        ⟨others, task.apply table part,
          change.append ((task.operation part).change table)⟩
  | shared {part shared : ChannelRange} {others : List ChannelRange}
      {table : RangeTable} {change : CoverageChange} {piece : Piece}
      (listed : piece ∈ table.pieces)
        (meeting : part.meet? piece.range = some shared) :
      Advances task ⟨part :: others, table, change⟩
        ⟨(part.after piece.range.last).toList ++
          (part.before piece.range.first).toList ++ others,
          task.apply table shared,
          change.append ((task.operation shared).change table)⟩

section Rounds

variable {table : RangeTable} {part shared : ChannelRange}
  {others : List ChannelRange}
variable {change : CoverageChange} {piece : Piece} {participant : Participant}

/-- Entering a participant into what a range shares with a piece. -/
theorem WellFormed.advances_attach
    (wellFormed : table.WellFormed) (listed : piece ∈ table.pieces)
    (meeting : part.meet? piece.range = some shared)
    {pending : List ChannelRange} {cut : RangeTable}
    (sides : (part.after piece.range.last).toList ++
      (part.before piece.range.first).toList ++ others = pending)
    (isolated : table.refine (·.cutAlong shared) = cut) :
    Advances (.add participant) ⟨part :: others, table, change⟩
      ⟨pending, cut.attach shared participant, change⟩ := by
  subst sides isolated
  have within := ChannelRange.encloses_of_meet? meeting
  have added := wellFormed.add_of_within participant listed within
  have advances :
  Advances (.add participant) ⟨part :: others, table, change⟩ _ :=
    .shared listed meeting
  simp only [Task.apply, Task.operation, Operation.apply,
    Operation.change, added, CoverageChange.append_nothing] at advances
  exact advances

/--
Whichever way a piece overlaps the range, everything that is computed exists.
-/
theorem WellFormed.exists_addAt
    (wellFormed : table.WellFormed) (participant : Participant)
    (others : List ChannelRange)
    (change : CoverageChange) (listed : piece ∈ table.pieces)
    (overlap : part.overlaps piece.range = true) :
    ∃ next, Splitting.addAt participant piece.range part others table change =
      some next ∧
      Advances (.add participant) ⟨part :: others, table, change⟩ next := by
  have reached := (ChannelRange.overlaps_iff _ _).mp overlap
  have whole : table.refine (·.cutAlong piece.range) = table :=
    wellFormed.refine_cutAlong_of_uncut (wellFormed.uncut_of_mem listed)
  unfold Splitting.addAt
  by_cases same : piece.range = part
  · have inside : piece.range.encloses part = true :=
      same ▸ ChannelRange.encloses_refl _
    have meeting : part.meet? piece.range = some piece.range :=
      ChannelRange.meet?_of_encloses (same ▸ ChannelRange.encloses_refl _)
    rw [if_pos same]
    exact ⟨_, rfl, wellFormed.advances_attach listed meeting
      (ChannelRange.sides_of_encloses inside others) whole⟩
  by_cases outside : part.encloses piece.range = true
  · rw [if_neg same, if_pos outside, ChannelRange.below?_eq,
      ChannelRange.above?_eq]
    exact ⟨_, rfl, wellFormed.advances_attach listed
      (ChannelRange.meet?_of_encloses outside) rfl whole⟩
  by_cases inside : piece.range.encloses part = true
  · have meeting : part.meet? piece.range = some part :=
      (ChannelRange.meet?_comm _ _).trans
        (ChannelRange.meet?_of_encloses inside)
    rw [if_neg same, if_neg outside, if_pos inside,
      wellFormed.isolate?_eq listed inside]
    exact ⟨_, rfl, wellFormed.advances_attach listed meeting
      (ChannelRange.sides_of_encloses inside others) rfl⟩
  rw [if_neg same, if_neg outside, if_neg inside]
  rw [ChannelRange.encloses_iff] at outside inside
  -- Neither range lies inside the other, so the piece hangs off one end of the
  -- range.
  by_cases low : piece.range.first < part.first
  · have below : piece.range.last < part.last := by grind
    have meeting :=
      ChannelRange.meet?_of_ends (UInt64.le_of_lt low) (UInt64.le_of_lt below)
      reached.1
    have within := ChannelRange.encloses_of_meet? meeting
    obtain ⟨upper, left⟩ := ChannelRange.exists_after_of_lt below
    rw [if_pos low, ChannelRange.between?, dif_pos reached.1,
      ChannelRange.startingAfter?_eq below, left]
    simp only [Option.bind_eq_bind, Option.bind_some,
      wellFormed.isolate?_eq listed within]
    refine ⟨_, rfl, wellFormed.advances_attach listed meeting ?_ rfl⟩
    rw [left, (ChannelRange.before_eq_none_iff _ _).mpr (UInt64.le_of_lt low)]
    rfl
  · have above : part.first < piece.range.first := by grind
    have high : part.last ≤ piece.range.last := by grind
    have meeting := (ChannelRange.meet?_comm _ _).trans
      (ChannelRange.meet?_of_ends (UInt64.le_of_lt above) high reached.2)
    have within := ChannelRange.encloses_of_meet? meeting
    obtain ⟨lower, left⟩ := ChannelRange.exists_before_of_lt above
    rw [if_neg low, ChannelRange.between?, dif_pos reached.2,
      ChannelRange.endingBefore?_eq above, left]
    simp only [Option.bind_eq_bind, Option.bind_some,
      wellFormed.isolate?_eq listed within]
    refine ⟨_, rfl, wellFormed.advances_attach listed meeting ?_ rfl⟩
    rw [left, (ChannelRange.after_eq_none_iff _ _).mpr high]
    rfl

theorem WellFormed.exists_addRound
    (wellFormed : table.WellFormed) (participant : Participant)
    (part : ChannelRange)
    (others : List ChannelRange) (change : CoverageChange) :
    ∃ next, Splitting.addRound participant ⟨part :: others, table, change⟩ =
      some next ∧
      Advances (.add participant) ⟨part :: others, table, change⟩ next := by
  unfold Splitting.addRound
  cases found : table.lastOverlapping? part with
  | none =>
      have apart : ∀ piece ∈ table.pieces, part.overlaps piece.range = false :=
        fun piece listed => wellFormed.apart_of_lastOverlapping? found listed
      have added := wellFormed.add_of_apart participant apart
      have advances :
          Advances (.add participant) ⟨part :: others, table, change⟩ _ :=
        .apart apart
      simp only [Task.apply, Task.operation, Operation.apply, Operation.change,
        added] at advances
      exact ⟨_, by simp only [found], advances⟩
  | some piece =>
      rcases of_lastOverlapping? found with ⟨listed, overlap⟩
      simp only [found]
      exact wellFormed.exists_addAt participant others change listed overlap

theorem WellFormed.exists_removeRound
    (wellFormed : table.WellFormed) (id : ParticipantId) (part : ChannelRange)
    (others : List ChannelRange) (change : CoverageChange) :
    ∃ next, Splitting.removeRound id ⟨part :: others, table, change⟩ =
      some next ∧
      Advances (.remove id) ⟨part :: others, table, change⟩ next := by
  unfold Splitting.removeRound
  cases found : table.lastOverlapping? part with
  | none =>
      have apart : ∀ piece ∈ table.pieces, part.overlaps piece.range = false :=
        fun piece listed => wellFormed.apart_of_lastOverlapping? found listed
      have removed : table.remove part id = (table, ⟨[], []⟩) := by
        apply wellFormed.remove_of_not_covers
        intro channel inPart
        rw [← Bool.not_eq_true, covers_iff wellFormed.ascending]
        rintro ⟨piece, listed, inPiece, _⟩
        exact (ChannelRange.overlaps_eq_false_iff_forall _ _).mp
          (apart piece listed) channel inPart inPiece
      have advances : Advances (.remove id) ⟨part :: others, table, change⟩ _ :=
        .apart apart
      simp only [Task.apply, Task.operation, Operation.apply,
        Operation.change, removed, CoverageChange.append_nothing] at advances
      exact ⟨_, by simp only [found], advances⟩
  | some piece =>
      rcases of_lastOverlapping? found with ⟨listed, overlap⟩
      cases meeting : part.meet? piece.range with
      | none =>
          rw [ChannelRange.meet?_eq_none_iff, overlap] at meeting
          cases meeting
      | some shared =>
          refine ⟨_, ?_, .shared listed meeting⟩
          simp only [found, wellFormed.detachWithin?_eq listed id meeting,
            ChannelRange.below?_eq, ChannelRange.above?_eq]
          rfl

theorem WellFormed.exists_round
    (wellFormed : table.WellFormed) (task : Task) (part : ChannelRange)
    (others : List ChannelRange) (change : CoverageChange) :
    ∃ next, task.round ⟨part :: others, table, change⟩ = some next ∧
      Advances task ⟨part :: others, table, change⟩ next := by
  cases task with
  | add participant =>
      exact wellFormed.exists_addRound participant part others change
  | remove id => exact wellFormed.exists_removeRound id part others change

end Rounds

/-! ## What is left of a range -/

/--
How many rounds a list of ranges can take: for each of them two for every piece
that overlaps it, and one more.
-/
def roundsFor (table : RangeTable) : List ChannelRange → Nat
  | [] => 0
  | range :: others => 2 * table.overlapCount range + 1 + table.roundsFor others

theorem roundsFor_append (table : RangeTable)
    (ranges others : List ChannelRange) :
    table.roundsFor (ranges ++ others) =
      table.roundsFor ranges + table.roundsFor others := by
  induction ranges with
  | nil => exact (Nat.zero_add _).symm
  | cons range rest ih =>
      rw [List.cons_append, roundsFor, roundsFor, ih]
      omega

theorem roundsFor_toList_le (table : RangeTable) (left : Option ChannelRange) :
    table.roundsFor left.toList ≤ 2 * left.elim 0 table.overlapCount + 1 := by
  cases left with
  | none => exact Nat.zero_le _
  | some part => exact Nat.le_refl _

/-- As long as a range is to be gone through, there is a round to go. -/
theorem eq_nil_of_roundsFor {table : RangeTable} {ranges : List ChannelRange}
    (finished : table.roundsFor ranges = 0) : ranges = [] := by
  cases ranges with
  | nil => rfl
  | cons range others =>
      rw [roundsFor] at finished
      omega

/--
A range divides into what a round goes through and the sides that it leaves for
later: these lie apart inside the range, it makes no difference to the outcome
that they are gone through one by one, and they take fewer rounds than the
range.
-/
structure Divides (task : Task) (table : RangeTable)
    (range through : ChannelRange) (sides : List ChannelRange) : Prop where
  encloses : ∀ part ∈ through :: sides, range.encloses part = true
  separate : (through :: sides).Pairwise fun part next =>
    part.overlaps next = false
  each : task.each table (through :: sides) = task.apply table range
  fewer : table.roundsFor sides ≤ 2 * table.overlapCount range

section Sides

variable {table : RangeTable} {range shared : ChannelRange} {piece : Piece}

theorem divides_whole (task : Task) (table : RangeTable)
    (range : ChannelRange) : Divides task table range range [] where
  encloses := by simp
  separate := List.pairwise_singleton _ _
  each := rfl
  fewer := by simp [roundsFor]

/-- A range divides at a piece that overlaps it. -/
theorem WellFormed.divides_at
    (wellFormed : table.WellFormed) (task : Task)
    (listed : piece ∈ table.pieces)
    (meeting : range.meet? piece.range = some shared) :
    Divides task table range shared
      ((range.after piece.range.last).toList ++
        (range.before piece.range.first).toList) := by
  have parts : (shared :: ((range.after piece.range.last).toList ++
      (range.before piece.range.first).toList)).Perm (range.cutAlong
      piece.range) := by
    rw [ChannelRange.cutAlong, meeting, ← List.cons_append]
    exact List.perm_append_comm
  refine
    { encloses := fun part isPart => ?_
      separate := ?_
      each := wellFormed.each_parts task listed parts
      fewer := ?_ }
  · exact (ChannelRange.cutting_cutAlong _).encloses (parts.mem_iff.mp isPart)
  · exact (parts.pairwise_iff ChannelRange.overlaps_symm).mpr
      (ChannelRange.separate_cutAlong range piece.range)
  · have counts := wellFormed.overlapCount_sides_lt listed
      (ChannelRange.overlaps_of_meet? meeting)
    have lower := table.roundsFor_toList_le (range.before piece.range.first)
    have upper := table.roundsFor_toList_le (range.after piece.range.last)
    rw [roundsFor_append]
    omega

end Sides

/-! ## Round after round -/

/-- How a task stands that is being done for a range of a table. -/
structure Underway (task : Task) (table : RangeTable) (range : ChannelRange)
    (state : Splitting) : Prop where
  wellFormed : state.table.WellFormed
  separate : state.pending.Pairwise fun part next => part.overlaps next = false
  encloses : ∀ part ∈ state.pending, range.encloses part = true
  each : task.each state.table state.pending = task.apply table range
  accounts : Accounts task table state.table state.change

section Run

variable {task : Task} {table : RangeTable} {range : ChannelRange}
  {state next : Splitting}

/--
Ranges take no more rounds once a task is done for a range that lies apart from
them.
-/
theorem WellFormed.roundsFor_applyTask_le
    (wellFormed : table.WellFormed) (task : Task) {ranges : List ChannelRange}
    (apart : ∀ part ∈ ranges, part.overlaps range = false) :
    (task.apply table range).roundsFor ranges ≤ table.roundsFor ranges := by
  induction ranges with
  | nil => exact Nat.le_refl 0
  | cons part others ih =>
      rcases List.forall_mem_cons.mp apart with ⟨partApart, othersApart⟩
      have first := wellFormed.overlapCount_applyTask_le task partApart
      have rest := ih othersApart
      rw [roundsFor, roundsFor]
      omega

/-- Before the first round, the list holds the range alone. -/
theorem WellFormed.underway_start
    (wellFormed : table.WellFormed) (task : Task) (range : ChannelRange) :
    Underway task table range (.start table range) where
  wellFormed := wellFormed
  separate := List.pairwise_singleton _ _
  encloses := by simp [Splitting.start]
  each := rfl
  accounts := accounts_nothing task table

/-- A round goes through one part of the next range and leaves the sides. -/
theorem Advances.exists_divides
    (advances : Advances task state next)
    (wellFormed : state.table.WellFormed) :
    ∃ part others through sides, state.pending = part :: others ∧
      Divides task state.table part through sides ∧
      next = ⟨sides ++ others, task.apply state.table through,
        state.change.append ((task.operation through).change state.table)⟩ := by
  cases advances with
  | apart _ => exact ⟨_, _, _, [], rfl, divides_whole task _ _, rfl⟩
  | shared listed meeting =>
      exact ⟨_, _, _, _, rfl, wellFormed.divides_at task listed meeting, rfl⟩

/-- A round keeps what holds between rounds, and leaves fewer rounds to go. -/
theorem Underway.advance
    (underway : Underway task table range state)
    (advances : Advances task state next) :
    Underway task table range next ∧
      next.table.roundsFor next.pending <
        state.table.roundsFor state.pending := by
  obtain ⟨part, others, through, sides, pending, divides, rfl⟩ :=
    advances.exists_divides underway.wellFormed
  have separate := underway.separate
  have encloses := underway.encloses
  have each := underway.each
  rw [pending] at separate encloses each
  rcases List.pairwise_cons.mp separate with ⟨apart, othersSeparate⟩
  rcases List.pairwise_cons.mp divides.separate with ⟨sidesApart, sidesSeparate⟩
  rcases List.forall_mem_cons.mp divides.encloses
    with ⟨throughInside, sidesInside⟩
  rcases List.forall_mem_cons.mp encloses with ⟨partInside, othersInside⟩
  -- What lies inside the range of this round lies apart from the other ranges.
  have apartOthers : ∀ inner, part.encloses inner = true → ∀ other ∈ others,
      other.overlaps inner = false := fun inner within other listed =>
    ChannelRange.apart_of_encloses within
      (ChannelRange.overlaps_symm (apart other listed))
  constructor
  · refine
      { wellFormed := underway.wellFormed.applyTask task through
        separate := List.pairwise_append.mpr ⟨sidesSeparate, othersSeparate, ?_⟩
        encloses := ?_
        each := ?_
        accounts := underway.accounts.append underway.wellFormed through }
    · exact fun side isSide other listed => ChannelRange.overlaps_symm
        (apartOthers side (sidesInside side isSide) other listed)
    · refine List.forall_mem_append.mpr ⟨fun side isSide => ?_, othersInside⟩
      exact ChannelRange.encloses_trans partInside (sidesInside side isSide)
    · calc task.each (task.apply state.table through) (sides ++ others)
          = task.each (task.each state.table (through :: sides)) others :=
            Task.each_append task _ sides others
        _ = task.each (task.apply state.table part) others := by
            rw [divides.each]
        _ = task.apply table range := each
  · have sidesFewer :=
      underway.wellFormed.roundsFor_applyTask_le task fun side isSide =>
      ChannelRange.overlaps_symm (sidesApart side isSide)
    have othersFewer := underway.wellFormed.roundsFor_applyTask_le task
      (apartOthers through throughInside)
    have fewer := divides.fewer
    simp only [pending, roundsFor, roundsFor_append]
    omega

/--
Any number of rounds has a result, in which what holds between rounds holds, and
leaves as many rounds less to go, down to none.
-/
theorem Underway.exists_after
    (underway : Underway task table range state) (rounds : Nat) :
    ∃ next, task.after rounds state = some next ∧
      Underway task table range next ∧
      next.table.roundsFor next.pending ≤
        state.table.roundsFor state.pending - rounds := by
  induction rounds generalizing state with
  | zero => exact ⟨state, rfl, underway, Nat.le_refl _⟩
  | succ rounds ih =>
      rcases state with ⟨pending, now, change⟩
      cases pending with
      | nil =>
          have idle : task.round ⟨[], now, change⟩ =
              some ⟨[], now, change⟩ := by
            cases task <;> rfl
          obtain ⟨next, result, stillUnderway, left⟩ := ih underway
          rw [roundsFor, Nat.zero_sub] at left
          refine ⟨next, ?_, stillUnderway, by omega⟩
          rw [Task.after, idle, Option.bind_some, result]
      | cons part others =>
          obtain ⟨first, round, advances⟩ :=
            underway.wellFormed.exists_round task part others change
          obtain ⟨firstUnderway, fewer⟩ := underway.advance advances
          obtain ⟨next, result, stillUnderway, left⟩ := ih firstUnderway
          refine ⟨next, ?_, stillUnderway, by omega⟩
          rw [Task.after, round, Option.bind_some, result]

end Run

/--
After any run, a participant can be subscribed to a range or unsubscribed from
it in rounds.  Every round has a result: no end that it computes leaves the
address space and no range ends before it begins.  Between rounds the list holds
ranges inside the one that was asked for, no two of which overlap.  After twice
as many rounds as there are pieces that overlap this range, and one more,
nothing is left to be gone through; the table is that of the operation, and so
is the report in order and with neighbours joined.
-/
theorem splitting_ends_of_run
    (operations : List Operation) (task : Task) (range : ChannelRange) :
    let table := run operations
    let start := Splitting.start table range
    (∀ rounds, ∃ state, task.after rounds start = some state ∧
      state.pending.Pairwise (fun part next => part.overlaps next = false) ∧
      ∀ part ∈ state.pending, part.first ≤ part.last ∧
        range.encloses part = true) ∧
    ∃ state, task.after (2 * table.overlapCount range + 1) start = some state ∧
      state.pending = [] ∧
      state.table = (task.operation range).apply table ∧
      state.change.coalesced = (task.operation range).change table := by
  intro table start
  have wellFormed : table.WellFormed := wellFormed_run operations
  have underway := wellFormed.underway_start task range
  constructor
  · intro rounds
    obtain ⟨state, result, stillUnderway, _⟩ := underway.exists_after rounds
    exact ⟨state, result, stillUnderway.separate,
      fun part listed =>
        ⟨part.first_le_last, stillUnderway.encloses part listed⟩⟩
  · obtain ⟨state, result, stillUnderway, left⟩ :=
      underway.exists_after (2 * table.overlapCount range + 1)
    have finished : state.pending = [] := by
      have total : (Splitting.start table range).table.roundsFor
          (Splitting.start table range).pending =
            2 * table.overlapCount range + 1 := rfl
      rw [total, Nat.sub_self, Nat.le_zero] at left
      exact eq_nil_of_roundsFor left
    have each := stillUnderway.each
    rw [finished] at each
    have sameTable : state.table = task.apply table range := each
    have accounts := stillUnderway.accounts
    rw [sameTable] at accounts
    exact ⟨state, result, finished, sameTable, accounts.coalesced_eq wellFormed⟩

/-- Pieces at both ends of the address space, and a gap between them. -/
example :
    let table := run [.add ⟨0, 4, by decide⟩ ⟨1, 0⟩,
      .add ⟨Channel.greatest - 4, Channel.greatest, by decide⟩ ⟨1, 0⟩]
    let start := Splitting.start table ⟨0, Channel.greatest, by decide⟩
    ((Task.remove 1).after 5 start).map
      (fun state => (state.pending, state.change.removed)) =
      some
        ([], [⟨Channel.greatest - 4, Channel.greatest, by decide⟩,
          ⟨0, 4, by decide⟩]) := by
  decide

end RangeTable

end ChannelRouter
