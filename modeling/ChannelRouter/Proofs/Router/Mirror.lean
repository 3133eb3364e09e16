import ChannelRouter.Proofs.Router.Announcement

/-!
# What the parent knows

Every move of a router announces what it changes of the interest that the parent
ought to have, and the parent obeys the announcements in their order.  So after
every run the link holds at the parent what is wanted below it.
-/

namespace ChannelRouter

namespace Router

/-! ## Below the link -/

/-- What a parent should hold for a router. -/
def wanted (router : Router) : Interest :=
  .upward router.units.live { channel | router.ranges.Covered channel }

theorem wellFormed_effect
    {router : Router} (wellFormed : router.ranges.WellFormed)
    (id : ParticipantId) (member : Member) (instruction : Instruction) :
    (router.effect id member instruction).value.ranges.WellFormed := by
  cases instruction with
  | addChannel channel => rw [effect]; split <;> exact wellFormed
  | removeChannel channel => rw [effect]; split <;> exact wellFormed
  | addRange range => exact wellFormed.add range member.participant
  | removeRange range => exact wellFormed.remove range id
  | addPostRemove channel body => exact wellFormed
  | clearPostRemoves channel => exact wellFormed
  | setName name => exact wellFormed
  | setUrl url => exact wellFormed

theorem indexed_effect
    {router : Router} (indexed : router.units.Indexed)
    (id : ParticipantId) (member : Member) (instruction : Instruction) :
    (router.effect id member instruction).value.units.Indexed := by
  cases instruction with
  | addChannel channel =>
      rw [effect]
      split
      · exact indexed
      · exact indexed.subscribe channel member.participant
  | removeChannel channel =>
      rw [effect]
      split
      · exact indexed.unsubscribe channel id
      · exact indexed
  | addRange range => exact indexed.unsubscribeAll _ id
  | removeRange range => exact indexed.unsubscribeAll _ id
  | addPostRemove channel body => exact indexed
  | clearPostRemoves channel => exact indexed
  | setName name => exact indexed
  | setUrl url => exact indexed

/-- Nothing that is wanted changes, and nothing of it is announced. -/
theorem announced_announce_of_not_subscription
    (units : UnitTable) {instruction : Instruction}
    (other : instruction.isSubscription = false) :
    announced (units.announce instruction) = [] := by
  have changes := changesInterest_encode instruction
  rw [other] at changes
  unfold UnitTable.announce
  split
  · rfl
  · unfold ParentLink.announce ParentLink.relay
    split
    · simp [announced, Federation.parentBound, changes]
    · rfl

theorem tells_effect
    {router : Router} (wellFormed : router.ranges.WellFormed)
    (indexed : router.units.Indexed) (linked : router.units.parent = some .new)
    (id : ParticipantId) (member : Member) (instruction : Instruction) :
    Tells (router.effect id member instruction).outputs router.wanted
      (router.effect id member instruction).value.wanted := by
  cases instruction with
  | addChannel channel =>
      rw [effect]
      split
      · exact tells_of_silent announced_nil _
      · rw [Emitting.outputs_map]
        exact tells_subscribe linked _ channel member.participant
  | removeChannel channel =>
      rw [effect]
      split
      · rw [Emitting.outputs_map]
        exact tells_unsubscribe linked _ channel id
      · exact tells_of_silent announced_nil _
  | addRange range =>
      have accounts := accounts_add wellFormed range member.participant
      apply (tells_announceCoverage linked indexed accounts).append
      rw [Emitting.outputs_bind, Emitting.outputs_pure, List.append_nil]
      exact tells_unsubscribeAll linked _ (member.channels.inside range) id
  | removeRange range =>
      apply (tells_unsubscribeAll linked _
        (member.channels.inside range) id).append
      rw [Emitting.outputs_bind, Emitting.outputs_pure, List.append_nil]
      apply tells_announceCoverage
      · rw [UnitTable.parent_unsubscribeAll]
        exact linked
      · exact indexed.unsubscribeAll _ id
      · exact accounts_remove wellFormed range id
  | addPostRemove channel body =>
      refine tells_of_silent ?_ _
      rw [effect, Emitting.outputs_bind, Emitting.outputs_pure, List.append_nil]
      exact announced_announce_of_not_subscription router.units rfl
  | clearPostRemoves channel =>
      refine tells_of_silent ?_ _
      rw [effect, Emitting.outputs_bind, Emitting.outputs_pure, List.append_nil]
      exact announced_announce_of_not_subscription router.units rfl
  | setName name => exact tells_of_silent announced_nil _
  | setUrl url => exact tells_of_silent announced_nil _

theorem tells_detach
    {router : Router} (wellFormed : router.ranges.WellFormed)
    (indexed : router.units.Indexed) (linked : router.units.parent = some .new)
    {id : ParticipantId} {detaching : Emitting (Router × Member)}
    (detached : router.detach? id = some detaching) :
    Tells detaching.outputs router.wanted detaching.value.1.wanted := by
  rcases Option.map_eq_some_iff.mp detached with ⟨member, _, rfl⟩
  apply (tells_unsubscribeAll linked _ member.channels.channels id).append
  rw [Emitting.outputs_bind, Emitting.outputs_pure, List.append_nil]
  apply tells_announceCoverage
  · rw [UnitTable.parent_unsubscribeAll]
    exact linked
  · exact indexed.unsubscribeAll _ id
  · exact accounts_removeHolder wellFormed id

theorem announced_forward
    (router : Router) {body : Datagram} {recipients : List Channel}
    (origin : Option ParticipantId) (addressed : Addressed body recipients) :
    announced (router.forward recipients body origin) = [] := by
  rw [forward, announced_append, announced, announced, parentBound_route,
    parentBound_relay]
  split
  · simp [not_changesInterest_of_addressed addressed]
  · rfl

/-- The router stays one whose parent is told what becomes of its wants. -/
def Reports (before : Router) (said : List Output) (after : Router) : Prop :=
  before.ranges.WellFormed → before.units.Indexed →
    before.units.parent = some .new →
    after.ranges.WellFormed ∧ after.units.Indexed ∧
    after.units.parent = some .new ∧
      Tells said before.wanted after.wanted

/-- Every move is reported. -/
theorem respected_reports : Respected Reports where
  stay := fun _ wellFormed indexed linked =>
    ⟨wellFormed, indexed, linked, tells_of_silent announced_nil _⟩
  append := by
    intro first second third said more earlier later wellFormed indexed linked
    rcases earlier wellFormed indexed linked
      with ⟨wellFormedBetween, indexedBetween, linkedBetween, tells⟩
    rcases later wellFormedBetween indexedBetween linkedBetween
      with ⟨wellFormedAfter, indexedAfter, linkedAfter, continues⟩
    exact ⟨wellFormedAfter, indexedAfter, linkedAfter, tells.append continues⟩
  obey := by
    intro router id instruction done obeyed wellFormed indexed linked
    rcases obey_eq_ok obeyed with ⟨member, _, rfl⟩
    exact
      ⟨wellFormed_effect wellFormed id member instruction,
        indexed_effect indexed id member instruction,
        (parent_effect router id member instruction).trans linked,
        tells_effect wellFormed indexed linked id member instruction⟩
  forward := fun router _ _ origin addressed wellFormed indexed linked =>
    ⟨wellFormed, indexed, linked,
      tells_of_silent (announced_forward router origin addressed) _⟩
  detach := by
    intro router id detaching detached wellFormed indexed linked
    have sameParent := respected_parent.detach detached
    have tells := tells_detach wellFormed indexed linked detached
    rcases Option.map_eq_some_iff.mp detached with ⟨member, _, rfl⟩
    exact
      ⟨wellFormed.removeHolder id, indexed.unsubscribeAll _ id,
        sameParent.trans linked, tells⟩
  expel := fun _ _ _ wellFormed indexed linked =>
    ⟨wellFormed, indexed, linked, tells_of_silent rfl _⟩
  withdraw := fun router _ wellFormed indexed linked =>
    ⟨wellFormed, indexed, linked,
      tells_of_silent (announced_announce_of_not_subscription router.units rfl)
        _⟩

theorem wanted_empty : (empty (some .new)).wanted = .upward ∅ ∅ := by
  have nothing : { channel | RangeTable.empty.Covered channel } = ∅ := by
    ext channel
    simp [RangeTable.Covered, RangeTable.covers, RangeTable.holdersAt,
      RangeTable.covering?, RangeTable.empty]
  have deserted : (UnitTable.empty (some .new)).live = ∅ := by
    ext channel
    simp [UnitTable.live, UnitTable.contains, UnitTable.empty, Table.contains,
      EmptyCollection.emptyCollection]
  rw [wanted, empty, nothing, deserted]

/-- Everything that comes to be wanted in a run is told on the way. -/
theorem tells_run (events : List Event) :
    Tells ((empty (some .new)).run events).outputs (.upward ∅ ∅)
      ((empty (some .new)).run events).value.wanted := by
  have registers : ∀ (router : Router) participant,
      Reports router [] (router.register participant) :=
    fun _ _ wellFormed indexed linked =>
      ⟨wellFormed, indexed, linked, tells_of_silent announced_nil _⟩
  have reports := respected_reports.run registers (empty (some .new)) events
  rw [← wanted_empty]
  exact (reports RangeTable.wellFormed_empty
    (UnitTable.indexed_empty _) rfl).2.2.2

/-! ## At the parent -/

/-- A parent obeys, one after the other, what it is told over the link. -/
theorem Coherent.run_told
    {parent : Router} (coherent : parent.Coherent) {id : ParticipantId}
    {member : Member} (found : parent.members.get? id = some member)
    {instructions : List Instruction}
    (subscriptions : ∀ instruction ∈ instructions,
      instruction.isSubscription = true) :
    let told := (parent.run
      (instructions.map fun instruction =>
        .process instruction.encode (some id))).value
    told.interest id = instructions.foldl Interest.after (parent.interest id) ∧
      told.Coherent ∧
      ∃ known, told.members.get? id = some known ∧
        known.participant = member.participant := by
  induction instructions generalizing parent member with
  | nil => exact ⟨rfl, coherent, member, found, rfl⟩
  | cons instruction rest ih =>
      have subscription := subscriptions instruction List.mem_cons_self
      have obeyed := process_encode found
        (Instruction.counted_of_isSubscription subscription)
      rcases member_effect found instruction with ⟨updated, updatedFound, same⟩
      have continued := ih (coherent.effect found instruction) updatedFound
        fun other listed =>
          subscriptions other (List.mem_cons_of_mem instruction listed)
      rw [coherent.interest_effect found instruction, same] at continued
      rw [List.map_cons, run_cons, Router.step, obeyed]
      exact continued

/-- What a participant that has just registered with an empty router holds. -/
theorem interest_register (above : Option ParentLink) (link : Participant) :
    ((empty above).register link).interest link.id = .upward ∅ ∅ := by
  ext channel
  · simp [interest, Interest.upward, channelsOf, register, Member.new,
      ChannelSet.empty]
  · simp [interest, Interest.upward, register, empty, RangeTable.empty,
      RangeTable.covers, RangeTable.holdersAt, RangeTable.covering?]

/--
The parent with which a link has registered and which has obeyed what it was
told.
-/
def told (above : Option ParentLink) (link : Participant)
    (outputs : List Output) : Router :=
  ((empty above).run
    (.register link ::
      (announced outputs).map fun body => .process body (some link.id))).value

theorem Tells.interest_told
    {outputs : List Output} {wanted : Interest}
    (tells : Tells outputs (.upward ∅ ∅) wanted)
    (above : Option ParentLink) (link : Participant) :
    (told above link outputs).interest link.id = wanted ∧
      (told above link outputs).Coherent ∧
        (told above link outputs).Registered link := by
  rcases tells with ⟨instructions, isAnnounced, subscriptions, isWanted⟩
  have registered : ((empty above).register link).members.get? link.id =
      some (.new link) := by
    simp [register]
  have start : ((empty above).register link).Coherent :=
    (coherent_empty above).register rfl
  have isTold : told above link outputs = (((empty above).register link).run
      (instructions.map fun instruction =>
        .process instruction.encode (some link.id))).value := by
    simp only [told, isAnnounced, List.map_map]
    rfl
  rw [isTold, ← isWanted, ← interest_register above link]
  exact start.run_told registered subscriptions

/-- What is wanted in a coherent router is what its members hold. -/
theorem Coherent.exists_holds_iff
    {router : Router} (coherent : router.Coherent) (channel : Channel) :
    (∃ id, router.Holds id channel) ↔
      router.units.contains channel = true ∨
        ∃ id, router.ranges.covers id channel = true := by
  have live : router.units.contains channel = true ↔
      ∃ id, channel ∈ router.channelsOf id := by
    rw [coherent.listed.contains_iff]
    constructor
    · rintro ⟨participant, member, found, _, held⟩
      exact ⟨participant.id,
        (mem_channelsOf_iff _ _ _).mpr ⟨member, found, held⟩⟩
    · rintro ⟨id, listed⟩
      rcases (mem_channelsOf_iff _ _ _).mp listed with ⟨member, found, held⟩
      exact ⟨member.participant, coherent.subscribed_of_mem found held⟩
  simp only [Holds, exists_or, live]

/--
A router runs below a link, and what it announces is obeyed, in order, by a
parent with which the link has registered.  Then the link holds by ranges there
what anybody holds by ranges here, and individually the units outside of that,
so the parent hands it exactly the datagrams that somebody here wants.
-/
theorem parent_holds_what_is_wanted
    (events : List Event) (above : Option ParentLink) (link : Participant) :
    let below := (empty (some .new)).run events
    let parent := told above link below.outputs
    (∀ channel, parent.ranges.covers link.id channel = true ↔
        ∃ id, below.value.ranges.covers id channel = true) ∧
      (∀ channel, channel ∈ parent.channelsOf link.id ↔
        below.value.units.contains channel = true ∧
          ¬ ∃ id, below.value.ranges.covers id channel = true) ∧
      (∀ recipients body origin,
        .deliver link body ∈ parent.route recipients body origin ↔
          some link.id ≠ origin ∧ ∃ channel ∈ recipients,
            below.value.units.contains channel = true ∨
              ∃ id, below.value.ranges.covers id channel = true) ∧
      ((empty (some .new)).Orderly events → ∀ recipients body origin,
        .deliver link body ∈ parent.route recipients body origin ↔
          some link.id ≠ origin ∧
            ∃ channel ∈ recipients, ∃ id, below.value.Holds id channel) := by
  intro below parent
  have mirrored := (tells_run events).interest_told above link
  have holds : parent.interest link.id = below.value.wanted := mirrored.1
  have coherent : parent.Coherent := mirrored.2.1
  have registered : parent.Registered link := mirrored.2.2
  have discrete : ∀ channel, channel ∈ parent.channelsOf link.id ↔
      below.value.units.contains channel = true ∧
        ¬ ∃ id, below.value.ranges.covers id channel = true :=
    fun channel => Set.ext_iff.mp (congrArg Interest.discrete holds) channel
  have ranged : ∀ channel, parent.ranges.covers link.id channel = true ↔
      ∃ id, below.value.ranges.covers id channel = true :=
    fun channel => Set.ext_iff.mp (congrArg Interest.ranged holds) channel
  have wants : ∀ channel, parent.Holds link.id channel ↔
      below.value.units.contains channel = true ∨
        ∃ id, below.value.ranges.covers id channel = true := by
    intro channel
    rw [Holds, discrete, ranged]
    tauto
  have routes : ∀ recipients body origin,
      .deliver link body ∈ parent.route recipients body origin ↔
        some link.id ≠ origin ∧ ∃ channel ∈ recipients,
          below.value.units.contains channel = true ∨
            ∃ id, below.value.ranges.covers id channel = true := by
    intro recipients body origin
    rw [coherent.deliver_mem_route_iff, Receives]
    simp only [wants]
    exact and_iff_right registered
  refine ⟨ranged, discrete, routes, ?_⟩
  intro orderly recipients body origin
  have coherentBelow : below.value.Coherent := (coherent_empty _).run orderly
  simp only [coherentBelow.exists_holds_iff]
  exact routes recipients body origin

theorem parent_routes_to_repaired_channel :
    let events : List Event :=
      [.register ⟨1, 0⟩, .register ⟨2, 0⟩, .call 1 (.addChannel 7),
        .call 2 (.addRange ⟨5, 9, by decide⟩),
          .call 2 (.removeRange ⟨6, 8, by decide⟩)]
    let below := (empty (some .new)).run events
    let parent := told none ⟨4, 0⟩ below.outputs
    (empty (some .new)).Orderly events ∧
      .deliver ⟨4, 0⟩ [42] ∈ parent.route [7] [42] none := by
  intro events below parent
  have orderly : (empty (some .new)).Orderly events := by decide
  have mirrored := parent_holds_what_is_wanted events none ⟨4, 0⟩
  refine ⟨orderly, (mirrored.2.2.2 orderly [7] [42] none).mpr
    ⟨by decide, 7, by decide, 1, ?_⟩⟩
  exact Or.inl (by decide)

end Router

end ChannelRouter
