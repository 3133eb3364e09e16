import ChannelRouter.Proofs.Emitting
import ChannelRouter.Proofs.Ordered
import ChannelRouter.Subscription.UnitTable
import Mathlib.Data.Set.Insert

/-!
# Units and their members

A table of units lists a relation between channels and participants if a channel
has a unit exactly when it is related to somebody, and the unit names those, one
after the other and counted right.  Callers that neither subscribe an identifier
twice nor unsubscribe one that is not subscribed keep the table so.

Whatever the callers do, the index names the channels that have a unit, and the
parent hears of every channel that gains or loses its unit and of no other.
-/

namespace ChannelRouter

/-- The unit names its participants once each, and there are some. -/
structure ChannelUnit.Lists (unit : ChannelUnit) (holds : Participant → Prop) :
    Prop where
  nodup : (unit.members.map Participant.id).Nodup
  count_eq : unit.count = unit.members.length
  occupied : unit.members ≠ []
  mem_iff : ∀ participant, participant ∈ unit.members ↔ holds participant

namespace ChannelUnit

theorem lists_ofMember (member : Participant) :
    (ofMember member).Lists (· = member) where
  nodup := by simp [ofMember]
  count_eq := rfl
  occupied := by simp [ofMember]
  mem_iff := by simp [ofMember]

theorem Lists.congr
    {unit : ChannelUnit} {holds other : Participant → Prop}
    (lists : unit.Lists holds)
    (same : ∀ participant, holds participant ↔ other participant) :
    unit.Lists other where
  nodup := lists.nodup
  count_eq := lists.count_eq
  occupied := lists.occupied
  mem_iff :=
    fun participant => (lists.mem_iff participant).trans (same participant)

theorem Lists.join
    {unit : ChannelUnit} {holds : Participant → Prop} {member : Participant}
    (lists : unit.Lists holds)
    (fresh : ∀ participant, holds participant → participant.id ≠ member.id) :
    (unit.join member).Lists fun participant => holds participant ∨
      participant = member := by
  have absent : unit.members.any (·.id == member.id) = false := by
    rw [List.any_eq_false]
    intro participant listed
    simpa using fresh participant ((lists.mem_iff participant).mp listed)
  have members : (unit.join member).members = unit.members ++ [member] := by
    simp [ChannelUnit.join, absent]
  constructor
  · rw [members, List.map_append, List.nodup_append]
    refine ⟨lists.nodup, by simp, ?_⟩
    simp only [List.mem_map, List.map_cons, List.map_nil, List.mem_singleton]
    rintro _ ⟨participant, listed, rfl⟩ _ rfl
    exact fresh participant ((lists.mem_iff participant).mp listed)
  · rw [members, List.length_append]
    simp [ChannelUnit.join, lists.count_eq]
  · simp [members]
  · intro participant
    simp [members, lists.mem_iff]

/--
A unit that counts right has as many members as it counts, minus the one that
leaves.
-/
theorem Lists.length_leave
    {unit : ChannelUnit} {holds : Participant → Prop} {member : Participant}
    (lists : unit.Lists holds) (held : holds member) :
    (unit.leave member.id).members.length = (unit.leave member.id).count := by
  have once : (unit.members.map Participant.id).count member.id = 1 :=
    List.count_eq_one_of_mem lists.nodup
      (List.mem_map_of_mem ((lists.mem_iff member).mpr held))
  have leaving : unit.members.countP (·.id == member.id) = 1 := by
    rw [List.count, List.countP_map] at once
    exact once
  have total :=
    List.length_eq_countP_add_countP (·.id == member.id) (l := unit.members)
  have staying : (unit.leave member.id).members.length =
      unit.members.countP fun participant =>
        ¬ (participant.id == member.id) = true := by
    simp [ChannelUnit.leave, List.countP_eq_length_filter]
  show _ = unit.count - 1
  rw [lists.count_eq, total, staying, leaving]
  omega

theorem Lists.leave
    {unit : ChannelUnit} {holds : Participant → Prop} {member : Participant}
    (lists : unit.Lists holds) (held : holds member)
    (remains : (unit.leave member.id).count ≠ 0) :
    (unit.leave member.id).Lists fun participant =>
      holds participant ∧ participant.id ≠ member.id := by
  have counted := lists.length_leave held
  constructor
  · exact List.Nodup.sublist (List.filter_sublist.map _) lists.nodup
  · exact counted.symm
  · intro empty
    rw [empty] at counted
    exact remains counted.symm
  · intro participant
    simp [ChannelUnit.leave, lists.mem_iff]

/-- A unit closes only when nobody else is listed. -/
theorem Lists.id_eq_of_leave
    {unit : ChannelUnit} {holds : Participant → Prop}
    {member other : Participant}
    (lists : unit.Lists holds) (held : holds member)
    (closes : (unit.leave member.id).count = 0) (listed : holds other) :
    other.id = member.id := by
  have counted := lists.length_leave held
  rw [closes, List.length_eq_zero_iff] at counted
  by_contra different
  have stays : other ∈ (unit.leave member.id).members := by
    simp [ChannelUnit.leave, lists.mem_iff, listed, different]
  rw [counted] at stays
  cases stays

end ChannelUnit

/-- The units are those of the channels that somebody holds. -/
structure UnitTable.Lists
    (table : UnitTable) (holds : Channel → Participant → Prop) : Prop where
  closed : ∀ channel, table.units.get? channel = none →
    ∀ participant, ¬ holds channel participant
  opened : ∀ channel unit, table.units.get? channel = some unit →
    unit.Lists (holds channel)

namespace UnitTable

variable {table : UnitTable} {holds : Channel → Participant → Prop}

theorem lists_empty (parent : Option ParentLink) :
    (empty parent).Lists fun _ _ => False where
  closed := fun _ _ _ impossible => impossible
  opened := fun _ _ found => nomatch found

theorem Lists.congr
    {other : Channel → Participant → Prop} (lists : table.Lists holds)
    (same : ∀ channel participant, holds channel participant ↔
      other channel participant) :
    table.Lists other where
  closed := fun channel absent participant related =>
    lists.closed channel absent participant
      ((same channel participant).mpr related)
  opened := fun channel unit found =>
    (lists.opened channel unit found).congr (same channel)

/-- A channel has a unit exactly if somebody holds it. -/
theorem Lists.contains_iff (lists : table.Lists holds) (channel : Channel) :
    table.contains channel = true ↔
      ∃ participant, holds channel participant := by
  rw [contains, Table.contains, Option.isSome_iff_exists]
  constructor
  · rintro ⟨unit, found⟩
    have opened := lists.opened channel unit found
    rcases List.exists_mem_of_ne_nil _ opened.occupied
      with ⟨participant, listed⟩
    exact ⟨participant, (opened.mem_iff participant).mp listed⟩
  · rintro ⟨participant, related⟩
    cases found : table.units.get? channel with
    | none => exact absurd related (lists.closed channel found participant)
    | some unit => exact ⟨unit, rfl⟩

/-- The members that a channel resolves to. -/
theorem Lists.mem_resolve_iff
    (lists : table.Lists holds) (channel : Channel)
    (participant : Participant) :
    participant ∈ (table.resolve? channel).getD [] ↔
      holds channel participant := by
  rw [resolve?]
  cases found : table.units.get? channel with
  | none => simpa using lists.closed channel found participant
  | some unit => exact (lists.opened channel unit found).mem_iff participant

theorem Lists.nodup_resolve (lists : table.Lists holds) (channel : Channel) :
    ((table.resolve? channel).getD []).Nodup := by
  rw [resolve?]
  cases found : table.units.get? channel with
  | none => exact List.nodup_nil
  | some unit =>
      exact List.Nodup.of_map _ (lists.opened channel unit found).nodup

theorem Lists.insertUnit
    {other : Channel → Participant → Prop} (lists : table.Lists holds)
    {channel : Channel} {unit : ChannelUnit}
    (listed : unit.Lists (other channel))
    (elsewhere : ∀ place, place ≠ channel →
      ∀ participant, holds place participant ↔ other place participant)
    (index : List Channel) :
    UnitTable.Lists { table with
      units := table.units.insert channel unit, index } other := by
  constructor
  · intro place absent participant
    simp only [Table.get?_insert] at absent
    split at absent
    · cases absent
    · rename_i different
      rw [← elsewhere place different participant]
      exact lists.closed place absent participant
  · intro place placed found
    simp only [Table.get?_insert] at found
    split at found
    · rename_i same
      injection found with isUnit
      subst same isUnit
      exact listed
    · rename_i different
      exact (lists.opened place placed found).congr (elsewhere place different)

theorem Lists.eraseUnit
    {other : Channel → Participant → Prop} (lists : table.Lists holds)
    {channel : Channel} (deserted : ∀ participant, ¬ other channel participant)
    (elsewhere : ∀ place, place ≠ channel →
      ∀ participant, holds place participant ↔ other place participant)
    (index : List Channel) :
    UnitTable.Lists { table with units := table.units.erase channel, index }
      other := by
  constructor
  · intro place absent participant
    simp only [Table.get?_erase] at absent
    split at absent
    · rename_i same
      subst same
      exact deserted participant
    · rename_i different
      rw [← elsewhere place different participant]
      exact lists.closed place absent participant
  · intro place placed found
    simp only [Table.get?_erase] at found
    split at found
    · cases found
    · rename_i different
      exact (lists.opened place placed found).congr (elsewhere place different)

theorem Lists.subscribe
    (lists : table.Lists holds) {channel : Channel} {member : Participant}
    (fresh : ∀ participant, holds channel participant → participant.id ≠
      member.id) :
    (table.subscribe channel member).value.1.Lists fun place participant =>
      holds place participant ∨ place = channel ∧ participant = member := by
  rw [UnitTable.subscribe]
  cases found : table.units.get? channel with
  | none =>
      have nobody := lists.closed channel found
      apply lists.insertUnit
      · exact (ChannelUnit.lists_ofMember member).congr (by simp [nobody])
      · intro place different participant
        simp [different]
  | some unit =>
      apply lists.insertUnit
      · exact ((lists.opened channel unit found).join fresh).congr (by simp)
      · intro place different participant
        simp [different]

theorem Lists.unsubscribe
    (lists : table.Lists holds) {channel : Channel} {member : Participant}
    (held : holds channel member) :
    (table.unsubscribe channel member.id).value.1.Lists fun place participant =>
      holds place participant ∧ ¬ (place = channel ∧
        participant.id = member.id) := by
  rw [UnitTable.unsubscribe]
  cases found : table.units.get? channel with
  | none => exact absurd held (lists.closed channel found member)
  | some unit =>
      have opened := lists.opened channel unit found
      simp only
      split
      · rename_i closes
        apply lists.eraseUnit
        · rintro participant ⟨related, stays⟩
          exact stays ⟨rfl, opened.id_eq_of_leave held closes related⟩
        · intro place different participant
          simp [different]
      · rename_i remains
        apply lists.insertUnit
        · exact (opened.leave held remains).congr (by simp)
        · intro place different participant
          simp [different]

/-- Unsubscribing from channels that are all different and all held. -/
theorem Lists.unsubscribeAll
    {channels : List Channel} {member : Participant}
    (lists : table.Lists holds) (distinct : channels.Nodup)
    (held : ∀ channel ∈ channels, holds channel member) :
    (table.unsubscribeAll channels member.id).value.Lists
      fun place participant =>
      holds place participant ∧
        ¬ (place ∈ channels ∧ participant.id = member.id) := by
  induction channels generalizing table holds with
  | nil => exact lists.congr (by simp)
  | cons channel rest ih =>
      rw [List.nodup_cons] at distinct
      have first := lists.unsubscribe (held channel List.mem_cons_self)
      have others := ih first distinct.2 (by
        intro place listed
        refine ⟨held place (List.mem_cons_of_mem channel listed), ?_⟩
        rintro ⟨rfl, _⟩
        exact distinct.1 listed)
      apply Lists.congr others
      intro place participant
      simp only [List.mem_cons]
      tauto

/-! ## Which channels have a unit -/

/-- The channels that have a unit. -/
def live (table : UnitTable) : Set Channel :=
  { channel | table.contains channel = true }

theorem live_insertUnit
    (table : UnitTable) (channel : Channel) (unit : ChannelUnit)
    (index : List Channel) :
    live { table with units := table.units.insert channel unit, index } =
      insert channel table.live := by
  ext other
  by_cases same : other = channel
  · simp [live, contains, Table.contains, same]
  · simp [live, contains, Table.contains, same]

theorem live_eraseUnit (table : UnitTable) (channel : Channel)
    (index : List Channel) :
    live { table with units := table.units.erase channel, index } =
      table.live \ {channel} := by
  ext other
  by_cases same : other = channel
  · simp [live, contains, Table.contains, same]
  · simp [live, contains, Table.contains, same]

theorem insert_live_of_get?
    {table : UnitTable} {channel : Channel} {unit : ChannelUnit}
    (found : table.units.get? channel = some unit) :
    insert channel table.live = table.live := by
  apply Set.insert_eq_of_mem
  simp [live, contains, Table.contains, found]

/-! ### The index -/

/-- The index names the channels that have a unit, in ascending order. -/
structure Indexed (table : UnitTable) : Prop where
  ascending : table.index.Pairwise (· < ·)
  mem_iff : ∀ channel, channel ∈ table.index ↔ channel ∈ table.live

theorem indexed_empty (parent : Option ParentLink) :
    (empty parent).Indexed where
  ascending := List.Pairwise.nil
  mem_iff := by
    intro channel
    change channel ∈ [] ↔ Option.isSome (none : Option ChannelUnit) = true
    simp

/-- The units between two channels are found in the index. -/
theorem Indexed.mem_between_iff
    (indexed : table.Indexed) (first last channel : Channel) :
    channel ∈ table.between first last ↔
      channel ∈ table.live ∧ first ≤ channel ∧ channel ≤ last := by
  simp [between, indexed.mem_iff]

theorem Indexed.insertUnit
    (indexed : table.Indexed) {channel : Channel} {before : ChannelUnit}
    (found : table.units.get? channel = some before) (unit : ChannelUnit) :
    Indexed { table with units := table.units.insert channel unit } where
  ascending := indexed.ascending
  mem_iff := by
    intro other
    rw [live_insertUnit, insert_live_of_get? found]
    exact indexed.mem_iff other

theorem Indexed.subscribe
    (indexed : table.Indexed) (channel : Channel) (member : Participant) :
    (table.subscribe channel member).value.1.Indexed := by
  rw [UnitTable.subscribe]
  cases found : table.units.get? channel with
  | some unit => exact indexed.insertUnit found _
  | none =>
      constructor
      · exact Ascending.pairwise_insert channel indexed.ascending
      · intro other
        simp only [live_insertUnit, Ascending.mem_insert, Set.mem_insert_iff,
          indexed.mem_iff]

theorem Indexed.unsubscribe
    (indexed : table.Indexed) (channel : Channel) (id : ParticipantId) :
    (table.unsubscribe channel id).value.1.Indexed := by
  rw [UnitTable.unsubscribe]
  cases found : table.units.get? channel with
  | none => exact indexed
  | some unit =>
      simp only
      split
      · constructor
        · exact indexed.ascending.filter _
        · intro other
          simp only [live_eraseUnit, Ascending.mem_erase, Set.mem_sdiff,
            Set.mem_singleton_iff, indexed.mem_iff]
      · exact indexed.insertUnit found _

theorem Indexed.unsubscribeAll
    (indexed : table.Indexed) (channels : List Channel) (id : ParticipantId) :
    (table.unsubscribeAll channels id).value.Indexed := by
  have composes : Emitting.Composes fun (before : UnitTable) _ after =>
      before.Indexed → after.Indexed :=
    ⟨fun _ indexed => indexed, fun first second indexed =>
      second (first indexed)⟩
  refine composes.foldlM ?_ table indexed
  intro before channel _ indexed
  exact indexed.unsubscribe channel id

/-! ### The announcements -/

theorem parent_subscribe (table : UnitTable) (channel : Channel)
    (member : Participant) :
    (table.subscribe channel member).value.1.parent = table.parent := by
  rw [UnitTable.subscribe]
  split <;> rfl

theorem parent_unsubscribe (table : UnitTable) (channel : Channel)
    (id : ParticipantId) :
    (table.unsubscribe channel id).value.1.parent = table.parent := by
  rw [UnitTable.unsubscribe]
  split
  · rfl
  · split <;> rfl

theorem parent_unsubscribeAll
    (table : UnitTable) (channels : List Channel) (id : ParticipantId) :
    (table.unsubscribeAll channels id).value.parent = table.parent := by
  have composes : Emitting.Composes fun (before : UnitTable) _ after =>
      after.parent = before.parent :=
    ⟨fun _ => rfl, fun first second => second.trans first⟩
  apply composes.foldlM
  intro before channel _
  exact parent_unsubscribe before channel id

/-- A subscription is announced exactly when the channel had no unit. -/
theorem subscribe_announces
    (table : UnitTable) (channel : Channel) (member : Participant) :
    let after := table.subscribe channel member
    after.outputs = table.announce (.addChannel channel) ∧
        after.value.1.live = insert channel table.live ∨
      after.outputs = [] ∧ after.value.1.live = table.live := by
  rw [UnitTable.subscribe]
  cases found : table.units.get? channel with
  | none => exact Or.inl ⟨rfl, live_insertUnit table channel _ _⟩
  | some unit =>
      exact Or.inr
        ⟨rfl, (live_insertUnit table channel _ _).trans
          (insert_live_of_get? found)⟩

/-- The end of a subscription is announced exactly when it ends the unit. -/
theorem unsubscribe_announces
    (table : UnitTable) (channel : Channel) (id : ParticipantId) :
    let after := table.unsubscribe channel id
    after.outputs = table.announce (.removeChannel channel) ∧
        after.value.1.live = table.live \ {channel} ∨
      after.outputs = [] ∧ after.value.1.live = table.live := by
  rw [UnitTable.unsubscribe]
  cases found : table.units.get? channel with
  | none => exact Or.inr ⟨rfl, rfl⟩
  | some unit =>
      simp only
      split
      · exact Or.inl ⟨rfl, live_eraseUnit table channel _⟩
      · exact Or.inr
          ⟨rfl, (live_insertUnit table channel _ _).trans
            (insert_live_of_get? found)⟩

end UnitTable

end ChannelRouter
