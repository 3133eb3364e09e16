import ChannelRouter.Proofs.Router.Delivery
import ChannelRouter.Proofs.Router.Interest

/-!
# What is announced to the parent

The parent of a router ought to hold, on behalf of the link, the ranges that
anybody below covers and the units outside of them.  `Interest.upward` is that
interest.  What a change of units or coverage announces leads from the interest
before the change to the one after it.

The order matters where a range goes: the parent drops the channels inside it,
so the units that remain there are announced again afterwards.
-/

namespace ChannelRouter

namespace Interest

/-- What a parent should hold for units and coverage below it. -/
def upward (live covered : Set Channel) : Interest := ⟨live \ covered, covered⟩

theorem after_addChannel_upward (live covered : Set Channel)
    (channel : Channel) :
    (upward live covered).after (.addChannel channel) =
      upward (insert channel live) covered := by
  ext other
  · simp only [after, upward, Set.mem_union, Set.mem_sdiff,
      Set.mem_singleton_iff, Set.mem_insert_iff]
    tauto
  · exact Iff.rfl

theorem after_removeChannel_upward (live covered : Set Channel)
    (channel : Channel) : (upward live covered).after (.removeChannel channel) =
      upward (live \ {channel}) covered := by
  ext other
  · simp only [after, upward, Set.mem_sdiff, Set.mem_singleton_iff]
    tauto
  · exact Iff.rfl

theorem after_addRange_upward (live covered : Set Channel)
    (range : ChannelRange) : (upward live covered).after (.addRange range) =
      upward live (covered ∪ range.channels) := by
  ext other
  · simp only [after, upward, Set.mem_union, Set.mem_sdiff]
    tauto
  · exact Iff.rfl

/-- Announcing several channels. -/
theorem foldl_addChannel (interest : Interest) (channels : List Channel) :
    (channels.map Instruction.addChannel).foldl after interest =
      ⟨interest.discrete ∪ ({ channel | channel ∈ channels } \ interest.ranged),
        interest.ranged⟩ := by
  induction channels generalizing interest with
  | nil =>
      ext other
      · simp
      · exact Iff.rfl
  | cons channel rest ih =>
      rw [List.map_cons, List.foldl_cons, ih]
      ext other
      · simp only [after, Set.mem_union, Set.mem_sdiff, Set.mem_singleton_iff,
          Set.mem_ofPred_eq, List.mem_cons]
        tauto
      · exact Iff.rfl

/-- A range is withdrawn, and the units inside it are announced again. -/
theorem foldl_withdraw
    {live : Set Channel} (covered : Set Channel) (range : ChannelRange)
    {inside : List Channel}
    (units : ∀ channel, channel ∈ inside ↔
      channel ∈ live ∧ channel ∈ range.channels) :
    (.removeRange range :: inside.map Instruction.addChannel).foldl after
      (upward live covered) = upward live (covered \ range.channels) := by
  rw [List.foldl_cons, foldl_addChannel]
  ext other
  · simp only [after, upward, Set.mem_union, Set.mem_sdiff, Set.mem_ofPred_eq,
      units]
    tauto
  · exact Iff.rfl

end Interest

/-- Whether an instruction changes what its sender is interested in. -/
def Instruction.isSubscription : Instruction → Bool
  | addChannel _ => true
  | removeChannel _ => true
  | addRange _ => true
  | removeRange _ => true
  | _ => false

theorem Instruction.counted_of_isSubscription
    {instruction : Instruction}
    (subscription : instruction.isSubscription = true) :
    instruction.Counted := by
  cases instruction <;> trivial

namespace Router

/-! ## What is announced -/

/--
Whether a datagram tells a router to change what its origin is interested in.
-/
def changesInterest (body : Datagram) : Bool :=
  match Read.recipients.runAt (Cursor.start body) with
  | (.ok recipients, cursor) =>
      recipients == [Channel.control] &&
        match (Read.u16.runAt cursor).1 with
        | .ok messageType => 9000 ≤ messageType && messageType ≤ 9003
        | .error _ => false
  | (.error _, _) => false

/-- The datagrams among outputs that tell the parent what is wanted below it. -/
def announced (outputs : List Output) : List Datagram :=
  (Federation.parentBound outputs).filter changesInterest

@[simp]
theorem announced_nil : announced [] = [] := rfl

theorem announced_append (first second : List Output) :
    announced (first ++ second) = announced first ++ announced second := by
  simp [announced, parentBound_append]

theorem changesInterest_encode (instruction : Instruction) :
    changesInterest instruction.encode = instruction.isSubscription := by
  have bounds : changesInterest instruction.encode =
      (9000 ≤ instruction.code.messageType &&
        instruction.code.messageType ≤ 9003) := by
    simp [changesInterest, Read.runAt_recipients_encode, Read.runAt_u16_encode]
  rw [bounds]
  cases instruction <;> rfl

theorem not_changesInterest_of_addressed
    {body : Datagram} {recipients : List Channel}
    (addressed : Addressed body recipients) :
    changesInterest body = false := by
  rcases addressed with ⟨cursor, senderAndType, reads, _, notControl⟩
  unfold changesInterest
  simp [reads, notControl]

/--
The outputs announce instructions that lead from one interest to the other.
-/
def Tells (outputs : List Output) (before after : Interest) : Prop :=
  ∃ instructions : List Instruction,
    announced outputs = instructions.map Instruction.encode ∧
      (∀ instruction ∈ instructions, instruction.isSubscription = true) ∧
      instructions.foldl Interest.after before = after

theorem tells_of_silent
    {outputs : List Output} (silent : announced outputs = [])
    (interest : Interest) :
    Tells outputs interest interest :=
  ⟨[], silent, by simp, rfl⟩

theorem Tells.append
    {first second : List Output} {before between after : Interest}
    (tells : Tells first before between)
    (continues : Tells second between after) :
    Tells (first ++ second) before after := by
  rcases tells with ⟨earlier, announcedFirst, countedFirst, rfl⟩
  rcases continues with ⟨later, announcedSecond, countedSecond, rfl⟩
  refine ⟨earlier ++ later, ?_, ?_, ?_⟩
  · rw [announced_append, announcedFirst, announcedSecond, List.map_append]
  · intro instruction listed
    rcases List.mem_append.mp listed with here | there
    · exact countedFirst instruction here
    · exact countedSecond instruction there
  · rw [List.foldl_append]

/-- What is told to a parent that listens. -/
theorem tells_announceAll
    {units : UnitTable} (linked : units.parent = some .new)
    {instructions : List Instruction}
    (subscriptions : ∀ instruction ∈ instructions,
      instruction.isSubscription = true)
    (interest : Interest) :
    Tells (instructions.flatMap units.announce) interest
      (instructions.foldl Interest.after interest) := by
  refine ⟨instructions, ?_, subscriptions, rfl⟩
  induction instructions with
  | nil => rfl
  | cons instruction rest ih =>
      have here : announced (units.announce instruction) =
          [instruction.encode] := by
        have changes := changesInterest_encode instruction
        rw [subscriptions instruction List.mem_cons_self] at changes
        simp [announced, UnitTable.announce, linked, ParentLink.announce,
          ParentLink.relay, ParentLink.new, Federation.parentBound, changes]
      rw [List.flatMap_cons, announced_append, here, ih fun other listed =>
        subscriptions other (List.mem_cons_of_mem instruction listed)]
      rfl

theorem tells_announce
    {units : UnitTable} (linked : units.parent = some .new)
    {instruction : Instruction}
    (subscription : instruction.isSubscription = true) (interest : Interest) :
    Tells (units.announce instruction) interest
      (interest.after instruction) := by
  have told : Tells ([instruction].flatMap units.announce) interest
      ([instruction].foldl Interest.after interest) :=
    tells_announceAll linked (by simpa using subscription) interest
  rwa [List.flatMap_singleton] at told

/-! ## Units -/

theorem tells_subscribe
    {units : UnitTable} (linked : units.parent = some .new)
    (covered : Set Channel) (channel : Channel) (member : Participant) :
    Tells (units.subscribe channel member).outputs
      (.upward units.live covered)
      (.upward (units.subscribe channel member).value.1.live covered) := by
  rcases units.subscribe_announces channel member
    with ⟨told, live⟩ | ⟨silent, live⟩
  · rw [told, live, ← Interest.after_addChannel_upward]
    exact tells_announce linked rfl _
  · rw [silent, live]
    exact tells_of_silent announced_nil _

theorem tells_unsubscribe
    {units : UnitTable} (linked : units.parent = some .new)
    (covered : Set Channel) (channel : Channel) (id : ParticipantId) :
    Tells (units.unsubscribe channel id).outputs
      (.upward units.live covered)
      (.upward (units.unsubscribe channel id).value.1.live covered) := by
  rcases units.unsubscribe_announces channel id
    with ⟨told, live⟩ | ⟨silent, live⟩
  · rw [told, live, ← Interest.after_removeChannel_upward]
    exact tells_announce linked rfl _
  · rw [silent, live]
    exact tells_of_silent announced_nil _

theorem tells_unsubscribeAll
    {units : UnitTable} (linked : units.parent = some .new)
    (covered : Set Channel) (channels : List Channel) (id : ParticipantId) :
    Tells (units.unsubscribeAll channels id).outputs
      (.upward units.live covered)
      (.upward (units.unsubscribeAll channels id).value.live covered) := by
  have composes : Emitting.Composes fun (before : UnitTable) said after =>
      before.parent = some .new → after.parent = some .new ∧
        Tells said (.upward before.live covered)
          (.upward after.live covered) := by
    constructor
    · intro before linkedBefore
      exact ⟨linkedBefore, tells_of_silent announced_nil _⟩
    · intro before between after said more first second linkedBefore
      rcases first linkedBefore with ⟨linkedBetween, tellsFirst⟩
      rcases second linkedBetween with ⟨linkedAfter, tellsSecond⟩
      exact ⟨linkedAfter, tellsFirst.append tellsSecond⟩
  refine (composes.foldlM ?_ units linked).2
  intro before channel _ linkedBefore
  rw [Emitting.outputs_map, Emitting.value_map, UnitTable.parent_unsubscribe]
  exact ⟨linkedBefore, tells_unsubscribe linkedBefore covered channel id⟩

/-! ## Coverage -/

/-- The channels of several ranges. -/
def coveredBy (ranges : List ChannelRange) : Set Channel :=
  { channel | ∃ range ∈ ranges, range.contains channel = true }

@[simp]
theorem coveredBy_nil : coveredBy [] = ∅ := by
  ext channel
  simp [coveredBy]

theorem coveredBy_cons (range : ChannelRange) (rest : List ChannelRange) :
    coveredBy (range :: rest) = range.channels ∪ coveredBy rest := by
  ext channel
  simp only [coveredBy, ChannelRange.channels, List.mem_cons,
    Set.mem_ofPred_eq, Set.mem_union, exists_eq_or_imp]

/-- The change accounts for what has become of the coverage. -/
def Accounts (before after : RangeTable) (change : CoverageChange) : Prop :=
  { channel | after.Covered channel } =
    ({ channel | before.Covered channel } ∪ coveredBy change.added) \
      coveredBy change.removed

theorem accounts_add
    {table : RangeTable} (wellFormed : table.WellFormed)
    (range : ChannelRange) (participant : Participant) :
    Accounts table (table.add range participant).1
      (table.add range participant).2 := by
  ext channel
  have nothing : (table.add range participant).2.removed = [] := rfl
  have gained : channel ∈ coveredBy (table.add range participant).2.added ↔
      range.contains channel = true ∧ ¬ table.Covered channel :=
    wellFormed.exists_mem_added_iff range participant channel
  rw [nothing, coveredBy_nil, Set.sdiff_empty, Set.mem_union, gained]
  simp only [Set.mem_ofPred_eq,
    wellFormed.covered_add range participant channel]
  tauto

/-- A table that has only lost coverage, and reports all it has lost. -/
theorem accounts_of_lost
    {before after : RangeTable} {change : CoverageChange}
    (nothing : change.added = [])
    (lost : ∀ channel, channel ∈ coveredBy change.removed ↔
      before.Covered channel ∧ ¬ after.Covered channel)
    (smaller : ∀ channel, after.Covered channel → before.Covered channel) :
    Accounts before after change := by
  ext channel
  have remains := smaller channel
  simp only [nothing, coveredBy_nil, Set.union_empty, Set.mem_sdiff,
    Set.mem_ofPred_eq, lost]
  tauto

theorem accounts_remove
    {table : RangeTable} (wellFormed : table.WellFormed)
    (range : ChannelRange) (id : ParticipantId) :
    Accounts table (table.remove range id).1 (table.remove range id).2 := by
  apply accounts_of_lost rfl (wellFormed.exists_mem_removed_iff range id)
  rintro channel ⟨holder, covers⟩
  exact ⟨holder,
    ((wellFormed.covers_remove range id holder channel).mp covers).1⟩

theorem accounts_removeHolder
    {table : RangeTable} (wellFormed : table.WellFormed) (id : ParticipantId) :
    Accounts table (table.removeHolder id).1 (table.removeHolder id).2 := by
  apply accounts_of_lost rfl (wellFormed.exists_mem_removed_removeHolder_iff id)
  rintro channel ⟨holder, covers⟩
  exact ⟨holder,
    ((wellFormed.covers_removeHolder id holder channel).mp covers).1⟩

theorem tells_added
    {units : UnitTable} (linked : units.parent = some .new)
    (added : List ChannelRange) (live covered : Set Channel) :
    Tells (added.flatMap fun range => units.announce (.addRange range))
      (.upward live covered) (.upward live (covered ∪ coveredBy added)) := by
  induction added generalizing covered with
  | nil =>
      rw [coveredBy_nil, Set.union_empty]
      exact tells_of_silent announced_nil _
  | cons range rest ih =>
      rw [List.flatMap_cons, coveredBy_cons, ← Set.union_assoc]
      refine Tells.append ?_ (ih (covered ∪ range.channels))
      rw [← Interest.after_addRange_upward]
      exact tells_announce linked rfl _

/-- Units survive the loss of coverage around them. -/
theorem tells_removed
    {units : UnitTable} (linked : units.parent = some .new)
    (indexed : units.Indexed)
    (removed : List ChannelRange) (covered : Set Channel) :
    Tells
      (removed.flatMap fun range =>
        units.announce (.removeRange range) ++
          (units.between range.first range.last).flatMap fun channel =>
            units.announce (.addChannel channel))
      (.upward units.live covered)
        (.upward units.live (covered \ coveredBy removed)) := by
  induction removed generalizing covered with
  | nil =>
      rw [coveredBy_nil, Set.sdiff_empty]
      exact tells_of_silent announced_nil _
  | cons range rest ih =>
      rw [List.flatMap_cons, coveredBy_cons, ← Set.sdiff_sdiff]
      refine Tells.append ?_ (ih (covered \ range.channels))
      have inside : ∀ channel, channel ∈ units.between range.first range.last ↔
          channel ∈ units.live ∧ channel ∈ range.channels := by
        intro channel
        rw [indexed.mem_between_iff]
        exact and_congr_right fun _ =>
          (ChannelRange.contains_iff range channel).symm
      rw [← Interest.foldl_withdraw covered range inside]
      have subscriptions : ∀ instruction ∈ .removeRange range ::
          (units.between range.first range.last).map Instruction.addChannel,
          instruction.isSubscription = true := by
        simp [Instruction.isSubscription]
      have told :=
        tells_announceAll linked subscriptions (.upward units.live covered)
      rwa [List.flatMap_cons, List.flatMap_map] at told

/-- What is announced of a change is what has become of the coverage. -/
theorem tells_announceCoverage
    {units : UnitTable} (linked : units.parent = some .new)
    (indexed : units.Indexed)
    {before after : RangeTable} {change : CoverageChange}
    (accounts : Accounts before after change) :
    Tells (announceCoverage units change)
      (.upward units.live { channel | before.Covered channel })
      (.upward units.live { channel | after.Covered channel }) := by
  rw [accounts]
  exact (tells_added linked change.added _ _).append
    (tells_removed linked indexed change.removed _)

end Router

end ChannelRouter
