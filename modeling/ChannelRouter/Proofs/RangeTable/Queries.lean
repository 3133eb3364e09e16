import ChannelRouter.Proofs.ChannelRange.MaximalRuns
import ChannelRouter.Proofs.RangeTable.Contacts
import ChannelRouter.Proofs.RangeTable.Run

/-!
# Queries of a range table

Who holds a channel is asked in several ways, and each reads the table
differently: the holders of the piece that the channel lies in, their contacts,
what is handed to them, and the index.  In every table that a run leads to they
speak of the same participants.

What a participant holds is told as the maximal runs of the channels it covers,
so the answer depends on these channels only and not on how the pieces are cut.
-/

namespace ChannelRouter

namespace ChannelRange

/--
A channel that lies in one of the ranges of an ascending list lies in one of
them only.
-/
theorem countP_contains_of_ascending
    {ranges : List ChannelRange}
    (ascending : ranges.Pairwise (·.precedes · = true))
    {channel : Channel} (found : InSome ranges channel) :
    ranges.countP (·.contains channel) = 1 := by
  induction ranges with
  | nil =>
      rcases found with ⟨range, listed, _⟩
      cases listed
  | cons range rest ih =>
      rw [List.pairwise_cons] at ascending
      by_cases inRange : range.contains channel = true
      · have noneLater : rest.countP (·.contains channel) = 0 := by
          rw [List.countP_eq_zero]
          intro other listed
          simp [not_contains_of_precedes (ascending.1 other listed) inRange]
        rw [List.countP_cons, noneLater, if_pos inRange]
      · rw [List.countP_cons, if_neg inRange, Nat.add_zero]
        rcases found with ⟨other, listed, inOther⟩
        rcases List.mem_cons.mp listed with rfl | later
        · exact absurd inOther inRange
        · exact ih ascending.2 ⟨other, later, inOther⟩

/--
Ranges with a gap between them are in order, and a channel of the gap lies
between them.
-/
theorem Apart.exists_between
    {range other : ChannelRange} (apart : range.Apart other) :
    ∃ channel : Channel, channel.toNat = range.last.toNat + 1 ∧
      range.last < channel ∧ channel < other.first := by
  have below : range.last < other.first := by
    rw [UInt64.lt_iff_toNat_lt]
    unfold Apart at apart
    omega
  have next := Channel.toNat_add_one_of_lt below
  refine ⟨range.last + 1, next, ?_, ?_⟩
  · rw [UInt64.lt_iff_toNat_lt]
    omega
  · rw [UInt64.lt_iff_toNat_lt, next]
    exact apart

theorem Apart.order_eq_lt
    {range other : ChannelRange} (apart : range.Apart other) :
    range.order other = .lt := by
  have below : range.first < other.first := by
    rw [UInt64.lt_iff_toNat_lt]
    have here := range.first_toNat_le_last
    unfold Apart at apart
    omega
  have least : compare range.first other.first = .lt :=
    Std.compare_eq_lt.mpr below
  rw [order, least]
  rfl

end ChannelRange

namespace RangeTable

variable {table : RangeTable}

/-! ## The piece of a channel in the order of the pieces -/

/-- The last member of a list in order comes after all others. -/
theorem eq_or_rel_getLast
    {α : Type} {order : α → α → Prop} {members : List α}
    (ordered : members.Pairwise order)
    {last member : α} (isLast : members.getLast? = some last)
    (listed : member ∈ members) :
    member = last ∨ order member last := by
  obtain ⟨front, rfl⟩ := List.getLast?_eq_some_iff.mp isLast
  rcases List.mem_append.mp listed with before | here
  · exact Or.inr ((List.pairwise_append.mp ordered).2.2 member before last
      List.mem_cons_self)
  · exact Or.inl (List.mem_singleton.mp here)

/--
The piece of a channel is the last that begins at or below the channel, if it
reaches the channel.
-/
theorem covering?_eq_last
    (ascending : Piece.Ascending table.pieces) (channel : Channel) :
    table.covering? channel =
      ((table.pieces.filter (·.range.first ≤ channel)).getLast?).filter
        (channel ≤ ·.range.last) := by
  ext piece
  rw [Option.filter_eq_some_iff, covering?_eq_some_iff ascending,
    ChannelRange.contains_iff, decide_eq_true_eq]
  have beginning : (table.pieces.filter (·.range.first ≤ channel)).Pairwise
      (·.range.precedes ·.range = true) := ascending.filter _
  constructor
  · rintro ⟨listed, begun, reached⟩
    have among : piece ∈ table.pieces.filter (·.range.first ≤ channel) :=
      List.mem_filter.mpr ⟨listed, decide_eq_true begun⟩
    cases isLast : (table.pieces.filter (·.range.first ≤ channel)).getLast? with
    | none =>
        rw [List.getLast?_eq_none_iff] at isLast
        rw [isLast] at among
        cases among
    | some last =>
        rcases eq_or_rel_getLast beginning isLast among with rfl | below
        · exact ⟨rfl, reached⟩
        · have lastBegun := (List.mem_filter.mp (List.mem_of_getLast? isLast)).2
          rw [decide_eq_true_eq] at lastBegun
          rw [ChannelRange.precedes_iff] at below
          exact absurd (UInt64.lt_of_lt_of_le below lastBegun)
            (UInt64.not_lt.mpr reached)
  · rintro ⟨isLast, reached⟩
    rcases List.mem_filter.mp (List.mem_of_getLast? isLast) with ⟨listed, begun⟩
    exact ⟨listed, of_decide_eq_true begun, reached⟩

/-! ## What the index lists -/

theorem WellFormed.ascending_indexed
    (wellFormed : table.WellFormed) (id : ParticipantId) :
    (table.indexed id).Pairwise (·.precedes · = true) := by
  rw [wellFormed.indexed_eq, Piece.rangesHeldBy, List.pairwise_map]
  exact wellFormed.ascending.filter _

/--
The ranges that the index lists for a participant hold the channels it covers.
-/
theorem WellFormed.inSome_indexed_iff
    (wellFormed : table.WellFormed) (id : ParticipantId) (channel : Channel) :
    ChannelRange.InSome (table.indexed id) channel ↔
      table.covers id channel = true := by
  rw [covers_iff wellFormed.ascending, wellFormed.indexed_eq]
  unfold ChannelRange.InSome
  simp only [Piece.mem_rangesHeldBy]
  constructor
  · rintro ⟨_, ⟨piece, listed, member, rfl⟩, inPiece⟩
    exact ⟨piece, listed, inPiece, member⟩
  · rintro ⟨piece, listed, inPiece, member⟩
    exact ⟨piece.range, ⟨piece, listed, member, rfl⟩, inPiece⟩

theorem WellFormed.countP_indexed
    (wellFormed : table.WellFormed) (id : ParticipantId) (channel : Channel) :
    (table.indexed id).countP (·.contains channel) =
      if table.covers id channel then 1 else 0 := by
  split
  · rename_i covers
    exact ChannelRange.countP_contains_of_ascending
      (wellFormed.ascending_indexed id)
      ((wellFormed.inSome_indexed_iff id channel).mpr covers)
  · rename_i uncovered
    rw [List.countP_eq_zero]
    intro range listed inRange
    exact uncovered
      ((wellFormed.inSome_indexed_iff id channel).mp ⟨range, listed, inRange⟩)

/-! ## What is told of a participant -/

theorem WellFormed.gaps_rangesOf
    (wellFormed : table.WellFormed) (id : ParticipantId) :
    (table.rangesOf id).Pairwise ChannelRange.Apart :=
  ChannelRange.pairwise_apart_coalesce (wellFormed.ascending_indexed id)

theorem WellFormed.inSome_rangesOf_iff
    (wellFormed : table.WellFormed) (id : ParticipantId) (channel : Channel) :
    ChannelRange.InSome (table.rangesOf id) channel ↔
      table.covers id channel = true := by
  rw [← wellFormed.inSome_indexed_iff]
  exact ChannelRange.exists_mem_coalesce_iff (table.indexed id) channel

/--
What is told of two participants is the same exactly if they cover the same
channels.
-/
theorem WellFormed.rangesOf_eq_iff
    {other : RangeTable} (wellFormed : table.WellFormed)
    (otherWellFormed : other.WellFormed) (id otherId : ParticipantId) :
    table.rangesOf id = other.rangesOf otherId ↔
      ∀ channel, table.covers id channel = other.covers otherId channel := by
  constructor
  · intro same channel
    rw [Bool.eq_iff_iff, ← wellFormed.inSome_rangesOf_iff,
      ← otherWellFormed.inSome_rangesOf_iff, same]
  · intro same
    apply ChannelRange.eq_of_inSome_iff (wellFormed.gaps_rangesOf id)
      (otherWellFormed.gaps_rangesOf otherId)
    intro channel
    rw [wellFormed.inSome_rangesOf_iff,
      otherWellFormed.inSome_rangesOf_iff, same]

/-! ## Deliveries -/

/--
A channel resolves to one contact for each of its holders, in their order.
-/
theorem WellFormed.map_id_resolve
    (wellFormed : table.WellFormed) (channel : Channel) :
    (table.resolve channel).map Participant.id = table.holdersAt channel := by
  have known : ∀ id ∈ table.holdersAt channel,
      (table.contact? id).map Participant.id = some id := by
    intro id holds
    rcases wellFormed.exists_contact (List.contains_iff_mem.mpr holds)
      with ⟨participant, contact, named⟩
    rw [contact, Option.map_some, named]
  calc (table.resolve channel).map Participant.id
      = (table.holdersAt channel).filterMap fun id =>
          (table.contact? id).map Participant.id := List.map_filterMap
    _ = (table.holdersAt channel).filterMap some := List.filterMap_congr known
    _ = table.holdersAt channel := List.filterMap_some

theorem mem_send_iff
    (table : RangeTable) (channel : Channel) (body : Datagram)
    (excluded : Option ParticipantId) (output : Output) :
    output ∈ table.send channel body excluded ↔
      ∃ participant ∈ table.resolve channel,
        some participant.id ≠ excluded ∧
          output = .deliver participant body := by
  simp only [send, List.mem_map, List.mem_filter, decide_eq_true_eq, and_assoc]
  simp only [eq_comm (a := output)]

theorem WellFormed.nodup_send
    (wellFormed : table.WellFormed) (channel : Channel) (body : Datagram)
    (excluded : Option ParticipantId) :
    (table.send channel body excluded).Nodup := by
  refine List.Nodup.map ?_ ((wellFormed.nodup_resolve channel).filter _)
  intro left right same
  injection same

/-- As many copies are handed out as there are holders that are not excluded. -/
theorem WellFormed.length_send
    (wellFormed : table.WellFormed) (channel : Channel) (body : Datagram)
    (excluded : Option ParticipantId) :
    (table.send channel body excluded).length =
      ((table.holdersAt channel).filter (some · ≠ excluded)).length := by
  rw [send, List.length_map, ← wellFormed.map_id_resolve, List.filter_map,
    List.length_map]
  rfl

/-- A contact is one with which the run added a range. -/
theorem exists_add_of_contact?
    {operations : List Operation} {id : ParticipantId}
    {participant : Participant}
    (found : (run operations).contact? id = some participant) :
    ∃ range, Operation.add range participant ∈ operations := by
  induction operations using List.reverseRecOn with
  | nil => cases found
  | append_singleton earlier operation ih =>
      have before (was : (run earlier).contact? id = some participant) :
          ∃ range, Operation.add range participant ∈
            earlier ++ [operation] := by
        rcases ih was with ⟨range, listed⟩
        exact ⟨range, List.mem_append_left _ listed⟩
      rw [run_concat] at found
      cases operation with
      | add range added =>
          rw [Operation.apply, contact?_add] at found
          split at found
          · rename_i same
            cases was : (run earlier).contact? added.id with
            | none =>
                rw [was, Option.getD_none, Option.some.injEq] at found
                exact ⟨range, by simp [found]⟩
            | some known =>
                rw [was, Option.getD_some, Option.some.injEq] at found
                exact before (by rw [same, was, found])
          · exact before found
      | remove range other => exact before (contact?_of_remove found)
      | removeHolder other => exact before (contact?_of_removeHolder found).1

/--
After any run, the participants at a channel are listed in strictly ascending
order, they are those that cover it, and those that hold the one piece it lies
in, which is the last piece that begins at or below the channel.  The channel
resolves to the contact of each of them, once and in that order, and a contact
is a participant that the run added.  Each contact is handed one copy of what is
sent, unless it is the one left out, nobody else is handed anything, and the
deliveries are as many as these participants.  The index lists one range that
contains the channel for whoever covers it, and none for the others.
-/
theorem queries_agree_of_run
    (operations : List Operation) (channel : Channel) (body : Datagram)
    (excluded : Option ParticipantId) :
    let table := run operations
    let delivered := table.send channel body excluded
    (table.holdersAt channel).Pairwise (· < ·) ∧
      (∀ id, id ∈ table.holdersAt channel ↔ table.covers id channel = true) ∧
      (∀ id, table.covers id channel = true ↔
        ∃ piece ∈ table.pieces, piece.range.contains channel = true ∧
          id ∈ piece.holders) ∧
      table.covering? channel =
        ((table.pieces.filter (·.range.first ≤ channel)).getLast?).filter
          (channel ≤ ·.range.last) ∧
      (table.resolve channel).map Participant.id = table.holdersAt channel ∧
      (∀ participant ∈ table.resolve channel,
        table.contact? participant.id = some participant ∧
          ∃ range, .add range participant ∈ operations) ∧
      (∀ participant ∈ table.resolve channel, some participant.id ≠ excluded →
        delivered.count (.deliver participant body) = 1) ∧
      (∀ output ∈ delivered, ∃ participant ∈ table.resolve channel,
        some participant.id ≠ excluded ∧ output = .deliver participant body) ∧
      delivered.length =
        ((table.holdersAt channel).filter (some · ≠ excluded)).length ∧
      ∀ id, (table.indexed id).countP (·.contains channel) =
        if table.covers id channel then 1 else 0 := by
  intro table delivered
  have wellFormed : table.WellFormed := wellFormed_run operations
  refine ⟨wellFormed.pairwise_holdersAt channel, fun id =>
    List.contains_iff_mem.symm,
    fun id => covers_iff wellFormed.ascending id channel,
    covering?_eq_last wellFormed.ascending channel,
      wellFormed.map_id_resolve channel,
    ?_, ?_, ?_, wellFormed.length_send channel body excluded,
    fun id => wellFormed.countP_indexed id channel⟩
  · intro participant resolved
    have contact :=
      ((wellFormed.mem_resolve_iff channel participant).mp resolved).2
    exact ⟨contact, exists_add_of_contact? contact⟩
  · intro participant resolved kept
    apply List.count_eq_one_of_mem (wellFormed.nodup_send channel body excluded)
    exact (mem_send_iff table channel body excluded _).mpr
      ⟨participant, resolved, kept, rfl⟩
  · intro output listed
    exact (mem_send_iff table channel body excluded output).mp listed

/--
The second of two holders is left out, and the first is handed its one copy.
-/
theorem queries_agree_of_run_about_a_shared_channel :
    let operations : List Operation :=
      [.add ⟨1, 9, by decide⟩ ⟨2, 0⟩, .add ⟨5, 12, by decide⟩ ⟨1, 0⟩]
    let delivered := (run operations).send 7 [42] (some 2)
    (run operations).holdersAt 7 = [1, 2] ∧
      delivered.count (.deliver ⟨1, 0⟩ [42]) = 1 ∧
      delivered.length = 1 ∧
        ((run operations).indexed 1).countP (·.contains 7) = 1 := by
  intro operations delivered
  obtain ⟨-, -, -, -, -, -, copied, -, total, listedOnce⟩ :=
    queries_agree_of_run operations 7 [42] (some 2)
  exact ⟨by decide, copied ⟨1, 0⟩ (by decide) (by decide), total, listedOnce 1⟩

/--
After any run, what is told of a participant is strictly ascending, no range of
it ends before it begins, and between two of them there is a channel that the
participant does not cover; together they contain the channels it covers and no
others.  So the same is told after two runs exactly if the same channels are
covered after both.
-/
theorem rangesOf_canonical_of_run (operations : List Operation)
    (id : ParticipantId) : let table := run operations
    (table.rangesOf id).Pairwise (fun lower upper => lower.order upper = .lt ∧
        ∃ between, lower.last < between ∧ between < upper.first ∧
          table.covers id between = false) ∧
      (∀ range ∈ table.rangesOf id, range.first ≤ range.last) ∧
      (∀ channel, (∃ range ∈ table.rangesOf id, range.contains channel = true) ↔
        table.covers id channel = true) ∧
      ∀ others otherId, table.rangesOf id = (run others).rangesOf otherId ↔
        ∀ channel, table.covers id channel =
          (run others).covers otherId channel := by
  intro table
  have wellFormed : table.WellFormed := wellFormed_run operations
  have gaps := wellFormed.gaps_rangesOf id
  refine ⟨?_, fun range _ => range.first_le_last,
    wellFormed.inSome_rangesOf_iff id, ?_⟩
  · apply gaps.imp_of_mem
    intro lower upper isLower _ apart
    rcases apart.exists_between with ⟨between, next, above, below⟩
    refine ⟨apart.order_eq_lt, between, above, below, ?_⟩
    rw [← Bool.not_eq_true, ← wellFormed.inSome_rangesOf_iff]
    exact ChannelRange.not_inSome_after gaps isLower next
  · intro others otherId
    exact wellFormed.rangesOf_eq_iff (wellFormed_run others) id otherId

/--
Of two runs one cuts the last channels apart; the same is told after both.
-/
theorem rangesOf_canonical_of_run_up_to_the_last_channel :
    let whole : List Operation :=
      [.add ⟨2, 18446744073709551615, by decide⟩ ⟨1, 0⟩]
    let cut : List Operation :=
      [.add ⟨18446744073709551615, 18446744073709551615, by decide⟩ ⟨1, 0⟩,
        .add ⟨2, 18446744073709551614, by decide⟩ ⟨1, 0⟩,
          .add ⟨5, 7, by decide⟩ ⟨2, 0⟩]
    (run whole).indexed 1 ≠ (run cut).indexed 1 ∧
      (∀ channel, (run whole).covers 1 channel = (run cut).covers 1 channel) ∧
      (run whole).rangesOf 1 = (run cut).rangesOf 1 := by
  intro whole cut
  have same : (run whole).rangesOf 1 = (run cut).rangesOf 1 := by decide
  have told := (rangesOf_canonical_of_run whole 1).2.2.2 cut 1
  exact ⟨by decide, told.mp same, same⟩

end RangeTable

end ChannelRouter
