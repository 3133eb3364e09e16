import ChannelRouter.Proofs.UnitTable
import ChannelRouter.Proofs.Wire.Reading
import Mathlib.Data.List.Induction

/-!
# Openings and closings

A table of units is called with subscriptions and their ends, in any order and
with any identifiers: a caller may subscribe somebody twice, or end what never
began.  A call that says that it has opened or closed a unit has turned over
whether the channel has one, and it alone is heard by the parent.  So the parent
hears of every channel by turns that it is wanted and that it is not, and the
last that it hears is how things stand.
-/

namespace ChannelRouter

namespace UnitTable

/-- What can be asked of a table of units. -/
inductive Call where
  | subscribe (channel : Channel) (member : Participant)
  | unsubscribe (channel : Channel) (id : ParticipantId)
deriving DecidableEq, Repr

namespace Call

/-- The channel that a call is about. -/
def channel : Call → Channel
  | subscribe channel _ => channel
  | unsubscribe channel _ => channel

/-- What a call tells the parent, if it tells it anything. -/
def announcement : Call → Instruction
  | subscribe channel _ => .addChannel channel
  | unsubscribe channel _ => .removeChannel channel

end Call

/-- Do what a call asks for, saying whether that opened or closed a unit. -/
def call (table : UnitTable) : Call → Emitting (UnitTable × Bool)
  | .subscribe channel member => table.subscribe channel member
  | .unsubscribe channel id => table.unsubscribe channel id

/-- Several calls, one after the other. -/
def run (table : UnitTable) (calls : List Call) : Emitting UnitTable :=
  calls.foldlM (fun table call => Prod.fst <$> table.call call) table

/-! ## One call -/

/-- What is next to be told about a channel. -/
def next (table : UnitTable) (channel : Channel) : Instruction :=
  if table.contains channel then .removeChannel channel else .addChannel channel

/--
The call turns over whether its channel has a unit and tells of it, or does
neither.
-/
structure Turns (table : UnitTable) (call : Call)
    (done : Emitting (UnitTable × Bool)) : Prop where
  said : done.outputs =
    if done.value.2 then table.announce call.announcement else []
  timely : done.value.2 = true → call.announcement = table.next call.channel
  contains : ∀ channel, done.value.1.contains channel =
    if done.value.2 = true ∧ channel = call.channel then !table.contains channel
    else table.contains channel

variable {table after : UnitTable} {call : Call}

theorem turns_of_still
    (same : ∀ channel, after.contains channel = table.contains channel) :
    table.Turns call ⟨(after, false), []⟩ where
  said := rfl
  timely := fun impossible => nomatch impossible
  contains := by simpa using same

theorem turns_of_turned
    (call : Call) (timely : call.announcement = table.next call.channel)
    (turned : ∀ channel, after.contains channel =
      if channel = call.channel then !table.contains channel
        else table.contains channel) :
    table.Turns call ⟨(after, true), table.announce call.announcement⟩ where
  said := rfl
  timely := fun _ => timely
  contains := by simpa using turned

theorem contains_of_get? {channel : Channel} {unit : ChannelUnit}
    (found : table.units.get? channel = some unit) :
    table.contains channel = true := by
  rw [contains, Table.contains, found, Option.isSome_some]

theorem contains_of_get?_none {channel : Channel}
    (absent : table.units.get? channel = none) :
    table.contains channel = false := by
  rw [contains, Table.contains, absent, Option.isSome_none]

theorem contains_insertUnit
    (table : UnitTable) (channel other : Channel) (unit : ChannelUnit)
    (index : List Channel) :
    contains { table with units := table.units.insert channel unit, index }
      other = if other = channel then true else table.contains other := by
  simp only [contains, Table.contains, Table.get?_insert]
  split <;> rfl

theorem contains_eraseUnit
    (table : UnitTable) (channel other : Channel) (index : List Channel) :
    contains { table with units := table.units.erase channel, index } other =
      if other = channel then false else table.contains other := by
  simp only [contains, Table.contains, Table.get?_erase]
  split <;> rfl

/-- Another unit in the place of one turns nothing over. -/
theorem contains_replaceUnit {channel : Channel} {before : ChannelUnit}
    (found : table.units.get? channel = some before) (unit : ChannelUnit)
    (other : Channel) :
    contains { table with units := table.units.insert channel unit } other =
      table.contains other := by
  rw [contains_insertUnit]
  split
  · rename_i same
    rw [same, contains_of_get? found]
  · rfl

theorem turns_call (table : UnitTable) (call : Call) :
    table.Turns call (table.call call) := by
  cases call with
  | subscribe channel member =>
      rw [UnitTable.call, UnitTable.subscribe]
      cases found : table.units.get? channel with
      | some unit => exact turns_of_still (contains_replaceUnit found _)
      | none =>
          have closed := contains_of_get?_none found
          apply turns_of_turned (.subscribe channel member)
          · simp [next, Call.channel, Call.announcement, closed]
          · intro other
            rw [contains_insertUnit, Call.channel]
            split
            · rename_i same
              rw [same, closed, Bool.not_false]
            · rfl
  | unsubscribe channel id =>
      rw [UnitTable.call, UnitTable.unsubscribe]
      cases found : table.units.get? channel with
      | none => exact turns_of_still fun _ => rfl
      | some unit =>
          have opened := contains_of_get? found
          simp only
          split
          · apply turns_of_turned (.unsubscribe channel id)
            · simp [next, Call.channel, Call.announcement, opened]
            · intro other
              rw [contains_eraseUnit, Call.channel]
              split
              · rename_i same
                rw [same, opened, Bool.not_true]
              · rfl
          · exact turns_of_still (contains_replaceUnit found _)

/-! ## What is told about a channel -/

/-- What the parent is told about a channel, in its order. -/
def toldAbout (channel : Channel) (outputs : List Output) : List Output :=
  outputs.filter fun output =>
    output = .toParent (Instruction.addChannel channel).encode ||
      output = .toParent (Instruction.removeChannel channel).encode

/--
What is told about a channel after so many turns: first that it is wanted.
-/
def turn (channel : Channel) (count : Nat) : Instruction :=
  if count % 2 = 0 then .addChannel channel else .removeChannel channel

/-- So many turns, beginning with the first. -/
def turns (channel : Channel) (count : Nat) : List Output :=
  (List.range count).map fun earlier => .toParent (turn channel earlier).encode

theorem turns_succ (channel : Channel) (count : Nat) :
    turns channel (count + 1) =
      turns channel count ++ [.toParent (turn channel count).encode] := by
  rw [turns, List.range_succ, List.map_append]
  rfl

/-- The last turn was an opening exactly if the number of turns is odd. -/
theorem getLast?_turns (channel : Channel) (count : Nat) :
    (turns channel count).getLast? =
      some (.toParent (Instruction.addChannel channel).encode) ↔
      count % 2 = 1 := by
  cases count with
  | zero => simp [turns]
  | succ count =>
      rw [turns_succ, List.getLast?_concat, turn]
      split
      · simp only [true_iff]
        omega
      · have different : (Instruction.removeChannel channel).encode ≠
            (Instruction.addChannel channel).encode :=
          fun same => nomatch Read.encode_inj (by trivial) (by trivial) same
        simp only [Option.some.injEq, Output.toParent.injEq,
          different, false_iff]
        omega

/-- What a table tells next is the turn that it is. -/
theorem next_eq_turn {channel : Channel} {count : Nat}
    (stands : table.contains channel = true ↔ count % 2 = 1) :
    table.next channel = turn channel count := by
  rw [next, turn]
  split
  · rename_i opened
    rw [if_neg (by have odd := stands.mp opened; omega)]
  · rename_i closed
    rw [if_pos (by have notOdd := mt stands.mpr closed; omega)]

theorem toldAbout_append (channel : Channel) (first second : List Output) :
    toldAbout channel (first ++ second) =
      toldAbout channel first ++ toldAbout channel second :=
  List.filter_append first second

theorem toldAbout_announcement (channel : Channel) (call : Call) :
    toldAbout channel [.toParent call.announcement.encode] =
      if channel = call.channel then [.toParent call.announcement.encode]
        else [] := by
  have counted : call.announcement.Counted := by cases call <;> trivial
  have about :
      (call.announcement.encode = (Instruction.addChannel channel).encode ∨
      call.announcement.encode = (Instruction.removeChannel channel).encode) ↔
        channel = call.channel := by
    constructor
    · rintro (same | same)
      · have isAdded := Read.encode_inj counted (by trivial) same
        cases call <;> cases isAdded
        rfl
      · have isRemoved := Read.encode_inj counted (by trivial) same
        cases call <;> cases isRemoved
        rfl
    · rintro rfl
      cases call
      · exact Or.inl rfl
      · exact Or.inr rfl
  by_cases same : channel = call.channel
  · rw [if_pos same, toldAbout,
      List.filter_cons_of_pos (by simpa using about.mpr same), List.filter_nil]
  · rw [if_neg same, toldAbout,
      List.filter_cons_of_neg (by simpa using mt about.mp same),
      List.filter_nil]

/--
What was told of a channel took turns, and the last one is how things stand.
-/
def TakesTurns (channel : Channel) (done : Emitting UnitTable) : Prop :=
  ∃ count, toldAbout channel done.outputs = turns channel count ∧
    (done.value.contains channel = true ↔ count % 2 = 1)

/-- A link that is drained hears everything. -/
theorem announce_of_drained {lost : Bool}
    (linked : table.parent = some ⟨true, lost⟩)
    (instruction : Instruction) :
    table.announce instruction = [.toParent instruction.encode] := by
  rw [announce, linked]
  rfl

theorem TakesTurns.followedBy
    {channel : Channel} {done : Emitting UnitTable}
    (takesTurns : TakesTurns channel done)
    {lost : Bool}
    (linked : done.value.parent = some ⟨true, lost⟩) (call : Call) :
    TakesTurns channel
      (done >>= fun table => Prod.fst <$> table.call call) := by
  rcases takesTurns with ⟨count, told, stands⟩
  have turned := turns_call done.value call
  have said : (done >>= fun table => Prod.fst <$> table.call call).outputs =
      done.outputs ++ (done.value.call call).outputs := by
    rw [Emitting.outputs_bind, Emitting.outputs_map]
  rw [TakesTurns, said, toldAbout_append, told, turned.said,
    Emitting.value_bind, Emitting.value_map, turned.contains]
  by_cases changed : (done.value.call call).value.2 = true
  · rw [if_pos changed, announce_of_drained linked, toldAbout_announcement]
    by_cases here : channel = call.channel
    · refine ⟨count + 1, ?_, ?_⟩
      · rw [if_pos here, turns_succ, turned.timely changed, ← here,
          next_eq_turn stands]
      · rw [if_pos ⟨changed, here⟩, Bool.not_eq_true',
          ← Bool.not_eq_true, stands]
        omega
    · refine ⟨count, ?_, ?_⟩
      · rw [if_neg here, List.append_nil]
      · rw [if_neg fun both => here both.2]
        exact stands
  · refine ⟨count, ?_, ?_⟩
    · rw [if_neg changed]
      exact List.append_nil _
    · rw [if_neg fun both => changed both.1]
      exact stands

/-! ## Runs -/

/-- Every unit counts at least one subscription. -/
def Occupied (table : UnitTable) : Prop :=
  ∀ channel unit, table.units.get? channel = some unit → 1 ≤ unit.count

theorem Occupied.insertUnit
    (occupied : table.Occupied) (channel : Channel) {unit : ChannelUnit}
    (counts : 1 ≤ unit.count) (index : List Channel) :
    Occupied
      { table with units := table.units.insert channel unit, index } := by
  intro place placed found
  simp only [Table.get?_insert] at found
  split at found
  · injection found with isUnit
    exact isUnit ▸ counts
  · exact occupied place placed found

theorem Occupied.eraseUnit
    (occupied : table.Occupied) (channel : Channel) (index : List Channel) :
    Occupied { table with units := table.units.erase channel, index } := by
  intro place placed found
  simp only [Table.get?_erase] at found
  split at found
  · cases found
  · exact occupied place placed found

theorem Occupied.afterCall (occupied : table.Occupied) (call : Call) :
    (table.call call).value.1.Occupied := by
  cases call with
  | subscribe channel member =>
      rw [UnitTable.call, UnitTable.subscribe]
      cases table.units.get? channel with
      | none => exact occupied.insertUnit channel (Nat.le_refl 1) _
      | some unit =>
          exact occupied.insertUnit channel (Nat.le_add_left 1 unit.count) _
  | unsubscribe channel id =>
      rw [UnitTable.call, UnitTable.unsubscribe]
      cases table.units.get? channel with
      | none => exact occupied
      | some unit =>
          simp only
          split
          · exact occupied.eraseUnit channel _
          · rename_i remains
            exact occupied.insertUnit channel
              (Nat.one_le_iff_ne_zero.mpr remains) _

theorem Indexed.afterCall (indexed : table.Indexed) (call : Call) :
    (table.call call).value.1.Indexed := by
  cases call with
  | subscribe channel member => exact indexed.subscribe channel member
  | unsubscribe channel id => exact indexed.unsubscribe channel id

theorem parent_call (table : UnitTable) (call : Call) :
    (table.call call).value.1.parent = table.parent := by
  cases call with
  | subscribe channel member => exact parent_subscribe table channel member
  | unsubscribe channel id => exact parent_unsubscribe table channel id

/-- What a run of calls on a table with a parent comes to. -/
structure Kept (lost : Bool) (done : Emitting UnitTable) : Prop where
  linked : done.value.parent = some ⟨true, lost⟩
  occupied : done.value.Occupied
  indexed : done.value.Indexed
  takesTurns : ∀ channel, TakesTurns channel done
  telling : ∀ output ∈ done.outputs, ∃ call : Call, output =
    .toParent call.announcement.encode

theorem kept_empty (lost : Bool) :
    Kept lost (pure (empty (some ⟨true, lost⟩))) where
  linked := rfl
  occupied := fun _ _ found => nomatch found
  indexed := indexed_empty _
  takesTurns := by
    intro channel
    refine ⟨0, rfl, ?_⟩
    constructor
    · intro impossible
      cases impossible
    · intro impossible
      cases impossible
  telling := fun _ impossible => nomatch impossible

theorem Kept.followedBy
    {lost : Bool} {done : Emitting UnitTable}
    (kept : Kept lost done) (call : Call) :
    Kept lost (done >>= fun table => Prod.fst <$> table.call call) where
  linked := (parent_call done.value call).trans kept.linked
  occupied := kept.occupied.afterCall call
  indexed := kept.indexed.afterCall call
  takesTurns :=
    fun channel => (kept.takesTurns channel).followedBy kept.linked call
  telling := by
    intro output listed
    rw [Emitting.outputs_bind, Emitting.outputs_map,
      (turns_call done.value call).said,
      announce_of_drained kept.linked] at listed
    rcases List.mem_append.mp listed with before | now
    · exact kept.telling output before
    · split at now
      · exact ⟨call, List.mem_singleton.mp now⟩
      · cases now

theorem run_concat (table : UnitTable) (calls : List Call) (call : Call) :
    table.run (calls ++ [call]) =
      table.run calls >>= fun table => Prod.fst <$> table.call call := by
  simp [run, List.foldlM_append]

theorem kept_run (lost : Bool) (calls : List Call) :
    Kept lost ((empty (some ⟨true, lost⟩)).run calls) := by
  induction calls using List.reverseRecOn with
  | nil => exact kept_empty lost
  | append_singleton calls call ih =>
      rw [run_concat]
      exact ih.followedBy call

/--
Whatever is called on a table below a parent, the parent hears of each channel
by turns that it is wanted and that it is not, and it heard last that it is
wanted exactly if the channel has a unit.  Nothing else is said, and a call says
something exactly if it reports a change.  Every unit counts somebody, and the
index lists the channels with a unit, so the channels between two are found in
order.
-/
theorem changes_are_told_by_turns (lost : Bool) (calls : List Call) :
    let done := (empty (some ⟨true, lost⟩)).run calls
    let table := done.value
    (∀ channel, ∃ count, toldAbout channel done.outputs = turns channel count) ∧
      (∀ channel,
        (toldAbout channel done.outputs).getLast? =
            some (.toParent (Instruction.addChannel channel).encode) ↔
          table.contains channel = true) ∧
      (∀ output ∈ done.outputs, ∃ call : Call,
        output = .toParent call.announcement.encode) ∧
      (∀ call, (table.call call).outputs =
        if (table.call call).value.2 then [.toParent call.announcement.encode]
          else []) ∧
      (∀ channel unit, table.units.get? channel = some unit → 1 ≤ unit.count) ∧
      table.index.Pairwise (· < ·) ∧
      (∀ channel, channel ∈ table.index ↔ table.contains channel = true) ∧
      ∀ first last,
        (table.between first last).Pairwise (· < ·) ∧
          (∀ channel, channel ∈ table.between first last ↔
            table.contains channel = true ∧ first ≤ channel ∧ channel ≤ last) ∧
          (last < first → table.between first last = []) := by
  intro done table
  have kept : Kept lost done := kept_run lost calls
  refine ⟨?_, ?_, kept.telling, ?_, kept.occupied, kept.indexed.ascending,
    kept.indexed.mem_iff, ?_⟩
  · intro channel
    rcases kept.takesTurns channel with ⟨count, told, _⟩
    exact ⟨count, told⟩
  · intro channel
    rcases kept.takesTurns channel with ⟨count, told, stands⟩
    rw [told, getLast?_turns]
    exact stands.symm
  · intro call
    rw [(turns_call table call).said, announce_of_drained kept.linked]
  · intro first last
    have found := kept.indexed.mem_between_iff first last
    refine ⟨kept.indexed.ascending.filter _, found, ?_⟩
    intro inverted
    rw [List.eq_nil_iff_forall_not_mem]
    intro channel listed
    rcases (found channel).mp listed with ⟨_, above, below⟩
    exact absurd (UInt64.le_trans above below) (UInt64.not_le.mpr inverted)

/--
Strays and repetitions leave one opening of the channel that is held in the end.
-/
theorem changes_are_told_by_turns_among_strays :
    let calls : List Call :=
      [.unsubscribe 7 1, .subscribe 7 ⟨1, 0⟩, .subscribe 7 ⟨1, 0⟩,
        .unsubscribe 7 2, .unsubscribe 7 1, .subscribe 9 ⟨2, 0⟩,
        .subscribe 7 ⟨2, 0⟩]
    let done := (empty (some .new)).run calls
    (toldAbout 7 done.outputs).length = 3 ∧
      (toldAbout 7 done.outputs).getLast? =
        some (.toParent (Instruction.addChannel 7).encode) ∧
      done.value.between 9 7 = [] := by
  intro calls done
  have told := changes_are_told_by_turns false calls
  refine ⟨by decide, (told.2.1 7).mpr (by decide), ?_⟩
  exact (told.2.2.2.2.2.2.2 9 7).2.2 (by decide)

end UnitTable

end ChannelRouter
