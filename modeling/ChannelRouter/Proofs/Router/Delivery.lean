import ChannelRouter.Federation
import ChannelRouter.Proofs.Router.Coherent
import Mathlib.Data.List.Induction

/-!
# Who receives a datagram

A datagram for one channel goes to the members of the channel's unit and to the
contacts of those that hold it by a range.  A datagram for several goes to
everybody who is found for any of them, gathered by identifier.  In a coherent
router both give every member that holds a recipient one copy.
-/

namespace ChannelRouter

namespace Router

variable {router : Router}

/-- The participant is a member's. -/
def Registered (router : Router) (participant : Participant) : Prop :=
  ∃ member, router.members.get? participant.id = some member ∧
    member.participant = participant

/-- The channel is held individually or by a range. -/
def Holds (router : Router) (id : ParticipantId) (channel : Channel) : Prop :=
  channel ∈ router.channelsOf id ∨ router.ranges.covers id channel = true

/-- The participant is due a copy of a datagram for the recipients. -/
def Receives (router : Router) (recipients : List Channel)
    (origin : Option ParticipantId) (receiver : Participant) : Prop :=
  router.Registered receiver ∧ some receiver.id ≠ origin ∧
    ∃ channel ∈ recipients, router.Holds receiver.id channel

theorem mem_channelsOf_iff (router : Router) (id : ParticipantId)
    (channel : Channel) : channel ∈ router.channelsOf id ↔
      ∃ member, router.members.get? id = some member ∧
        channel ∈ member.channels.channels := by
  unfold channelsOf
  cases router.members.get? id <;> simp

theorem Registered.eq_of_id_eq
    {left right : Participant}
    (leftRegistered : router.Registered left)
    (rightRegistered : router.Registered right)
    (same : left.id = right.id) : left = right := by
  rcases leftRegistered with ⟨member, found, rfl⟩
  rcases rightRegistered with ⟨other, otherFound, rfl⟩
  rw [same, otherFound] at found
  injection found with isMember
  rw [isMember]

/-! ## One channel -/

theorem Coherent.mem_unit_iff
    (coherent : router.Coherent) (channel : Channel)
    (participant : Participant) :
    participant ∈ (router.units.resolve? channel).getD [] ↔
      router.Registered participant ∧
        channel ∈ router.channelsOf participant.id := by
  rw [coherent.listed.mem_resolve_iff, mem_channelsOf_iff]
  constructor
  · rintro ⟨member, found, isMember, held⟩
    exact ⟨⟨member, found, isMember⟩, member, found, held⟩
  · rintro ⟨⟨member, found, isMember⟩, other, otherFound, held⟩
    rw [found] at otherFound
    injection otherFound with same
    subst same
    exact ⟨member, found, isMember, held⟩

theorem Coherent.mem_range_iff
    (coherent : router.Coherent) (channel : Channel)
    (participant : Participant) :
    participant ∈ router.ranges.resolve channel ↔
      router.Registered participant ∧
        router.ranges.covers participant.id channel = true := by
  rw [coherent.wellFormed.mem_resolve_iff]
  constructor
  · rintro ⟨covers, contact⟩
    exact ⟨coherent.contacts contact, covers⟩
  · rintro ⟨registered, covers⟩
    rcases coherent.wellFormed.exists_contact covers
      with ⟨known, contact, named⟩
    have isMember : router.Registered known := by
      rcases coherent.contacts contact with ⟨member, found, isKnown⟩
      exact ⟨member, named ▸ found, isKnown⟩
    rw [registered.eq_of_id_eq isMember named.symm] at contact covers ⊢
    exact ⟨covers, named.symm ▸ contact⟩

/-- Nobody holds a channel in both ways. -/
theorem Coherent.not_covers_of_mem
    (coherent : router.Coherent) {id : ParticipantId} {channel : Channel}
    (held : channel ∈ router.channelsOf id) :
    ¬ router.ranges.covers id channel = true := by
  rcases (mem_channelsOf_iff router id channel).mp held
    with ⟨member, found, listed⟩
  exact coherent.exclusive found listed

/-- Those who are found for a channel, in its unit or through a piece. -/
def found (router : Router) (channel : Channel) : List Participant :=
  (router.units.resolve? channel).getD [] ++ router.ranges.resolve channel

theorem Coherent.mem_found_iff
    (coherent : router.Coherent) (channel : Channel)
    (participant : Participant) :
    participant ∈ router.found channel ↔
      router.Registered participant ∧ router.Holds participant.id channel := by
  rw [found, List.mem_append, coherent.mem_unit_iff,
    coherent.mem_range_iff, Holds]
  tauto

/-- The unit and the pieces know nobody in common. -/
theorem Coherent.nodup_found
    (coherent : router.Coherent) (channel : Channel) :
    (router.found channel).Nodup := by
  rw [found, List.nodup_append]
  refine ⟨coherent.listed.nodup_resolve channel,
    coherent.wellFormed.nodup_resolve channel, ?_⟩
  rintro participant inUnit _ inPiece rfl
  have held := ((coherent.mem_unit_iff channel participant).mp inUnit).2
  exact coherent.not_covers_of_mem held
    ((coherent.mem_range_iff channel participant).mp inPiece).2

/-! ## Several channels -/

/-- The participants by identifier; of those that share one, the last counts. -/
def gather (participants : List Participant) :
    Table ParticipantId Participant :=
  participants.foldl
    (fun gathered participant => gathered.insert participant.id participant) ∅

theorem gather_concat (participants : List Participant) (last : Participant) :
    gather (participants ++ [last]) =
      (gather participants).insert last.id last := by
  simp [gather]

theorem ordered_gather (participants : List Participant) :
    (gather participants).Ordered := by
  induction participants using List.reverseRecOn with
  | nil => exact Table.ordered_empty
  | append_singleton earlier last ih =>
      rw [gather_concat]
      exact ih.insert last.id last

theorem get?_gather_iff
    {participants : List Participant}
    (distinct : ∀ left ∈ participants, ∀ right ∈ participants, left.id =
      right.id → left = right)
    (id : ParticipantId) (participant : Participant) :
    (gather participants).get? id = some participant ↔
      participant ∈ participants ∧ participant.id = id := by
  induction participants using List.reverseRecOn with
  | nil =>
      simp [gather, Table.get?, Table.lookup,
        EmptyCollection.emptyCollection, Table.empty]
  | append_singleton earlier last ih =>
      have before := ih fun left leftListed right rightListed =>
        distinct left (List.mem_append_left _ leftListed) right
          (List.mem_append_left _ rightListed)
      rw [gather_concat, Table.get?_insert]
      split
      · rename_i here
        constructor
        · intro isLast
          injection isLast with same
          subst same
          exact ⟨by simp, here.symm⟩
        · rintro ⟨listed, named⟩
          rw [distinct participant listed last (by simp) (named.trans here)]
      · rename_i elsewhere
        rw [before, List.mem_append, List.mem_singleton]
        constructor
        · rintro ⟨listed, named⟩
          exact ⟨Or.inl listed, named⟩
        · rintro ⟨listed | rfl, named⟩
          · exact ⟨listed, named⟩
          · exact absurd named.symm elsewhere

theorem mem_values_gather_iff
    {participants : List Participant}
    (distinct : ∀ left ∈ participants, ∀ right ∈ participants, left.id =
      right.id → left = right)
    (participant : Participant) :
    participant ∈ (gather participants).values ↔
      participant ∈ participants := by
  have entries := (ordered_gather participants).mem_entries_iff
  simp only [Table.values, List.mem_map, Prod.exists, exists_eq_right, entries]
  simp only [get?_gather_iff distinct, exists_and_left, exists_eq', and_true]

theorem nodup_values_gather
    {participants : List Participant}
    (distinct : ∀ left ∈ participants, ∀ right ∈ participants, left.id =
      right.id → left = right) :
    (gather participants).values.Nodup := by
  have keyed : (gather participants).values.map Participant.id =
      (gather participants).keys := by
    rw [Table.values, Table.keys, List.map_map]
    apply List.map_congr_left
    rintro ⟨id, participant⟩ listed
    rw [(ordered_gather participants).mem_entries_iff, get?_gather_iff distinct]
      at listed
    exact listed.2
  apply List.Nodup.of_map Participant.id
  rw [keyed]
  exact Ascending.nodup_of_pairwise (ordered_gather participants)

/-! ## Every path -/

/--
Those whom a datagram for the recipients is handed to, if it is not theirs.
-/
def foundForAll (router : Router) (recipients : List Channel) :
    List Participant :=
  match Ascending.ofList recipients with
  | [channel] => router.found channel
  | channels => (router.receivers channels).values

theorem route_eq_map
    (router : Router) (recipients : List Channel) (body : Datagram)
    (origin : Option ParticipantId) :
    router.route recipients body origin =
      ((router.foundForAll recipients).filter (some ·.id ≠ origin)).map
        (Output.deliver · body) := by
  unfold route foundForAll
  generalize Ascending.ofList recipients = channels
  rcases channels with _ | ⟨channel, _ | ⟨other, rest⟩⟩
  · rfl
  · simp [UnitTable.deliver, RangeTable.send, found]
  · rfl

/-- What the table of receivers is gathered from. -/
def candidates (router : Router) (channels : List Channel) : List Participant :=
  channels.flatMap router.ranges.resolve ++
    channels.flatMap fun channel => (router.units.resolve? channel).getD []

theorem Coherent.mem_candidates_iff
    (coherent : router.Coherent) (channels : List Channel)
    (participant : Participant) :
    participant ∈ router.candidates channels ↔
      router.Registered participant ∧
        ∃ channel ∈ channels, router.Holds participant.id channel := by
  have each : (∃ channel ∈ channels, participant ∈ router.found channel) ↔
      router.Registered participant ∧
        ∃ channel ∈ channels, router.Holds participant.id channel := by
    simp only [coherent.mem_found_iff]
    tauto
  rw [← each]
  simp only [candidates, found, List.mem_append, List.mem_flatMap]
  constructor
  · rintro (⟨channel, listed, inPiece⟩ | ⟨channel, listed, inUnit⟩)
    · exact ⟨channel, listed, Or.inr inPiece⟩
    · exact ⟨channel, listed, Or.inl inUnit⟩
  · rintro ⟨channel, listed, inUnit | inPiece⟩
    · exact Or.inr ⟨channel, listed, inUnit⟩
    · exact Or.inl ⟨channel, listed, inPiece⟩

theorem Coherent.values_receivers
    (coherent : router.Coherent) (channels : List Channel) :
    (router.receivers channels).values.Nodup ∧
      ∀ participant, participant ∈ (router.receivers channels).values ↔
        router.Registered participant ∧
          ∃ channel ∈ channels, router.Holds participant.id channel := by
  have listed := coherent.mem_candidates_iff channels
  have distinct : ∀ left ∈ router.candidates channels,
      ∀ right ∈ router.candidates channels, left.id = right.id → left = right :=
    fun left leftListed right rightListed =>
      ((listed left).mp leftListed).1.eq_of_id_eq
        ((listed right).mp rightListed).1
  constructor
  · exact nodup_values_gather distinct
  · intro participant
    exact (mem_values_gather_iff distinct participant).trans
      (listed participant)

/-- On either path everybody who holds a recipient is found, once. -/
theorem Coherent.foundForAll_exact
    (coherent : router.Coherent) (recipients : List Channel) :
    (router.foundForAll recipients).Nodup ∧
      ∀ participant, participant ∈ router.foundForAll recipients ↔
        router.Registered participant ∧
          ∃ channel ∈ recipients, router.Holds participant.id channel := by
  have same : ∀ condition : Channel → Prop,
      (∃ channel ∈ Ascending.ofList recipients, condition channel) ↔
        ∃ channel ∈ recipients, condition channel := by
    intro condition
    simp only [Ascending.mem_ofList]
  simp only [← same]
  unfold foundForAll
  split
  · rename_i channel single
    refine ⟨coherent.nodup_found channel, ?_⟩
    intro participant
    simp [single, coherent.mem_found_iff]
  · exact coherent.values_receivers _

theorem Coherent.nodup_route
    (coherent : router.Coherent) (recipients : List Channel) (body : Datagram)
    (origin : Option ParticipantId) :
    (router.route recipients body origin).Nodup := by
  rw [route_eq_map]
  refine List.Nodup.map ?_ ((coherent.foundForAll_exact recipients).1.filter _)
  intro left right same
  injection same

theorem Coherent.mem_route_iff
    (coherent : router.Coherent) (recipients : List Channel) (body : Datagram)
    (origin : Option ParticipantId) (output : Output) :
    output ∈ router.route recipients body origin ↔
      ∃ receiver, router.Receives recipients origin receiver ∧
        output = .deliver receiver body := by
  rw [route_eq_map]
  simp only [List.mem_map, List.mem_filter, decide_eq_true_eq,
    (coherent.foundForAll_exact recipients).2, Receives]
  constructor
  · rintro ⟨receiver, ⟨⟨registered, holds⟩, foreign⟩, rfl⟩
    exact ⟨receiver, ⟨registered, foreign, holds⟩, rfl⟩
  · rintro ⟨receiver, ⟨registered, foreign, holds⟩, rfl⟩
    exact ⟨receiver, ⟨⟨registered, holds⟩, foreign⟩, rfl⟩

theorem Coherent.deliver_mem_route_iff
    (coherent : router.Coherent) (recipients : List Channel) (body : Datagram)
    (origin : Option ParticipantId) (receiver : Participant) :
    .deliver receiver body ∈ router.route recipients body origin ↔
      router.Receives recipients origin receiver := by
  rw [coherent.mem_route_iff]
  constructor
  · rintro ⟨other, receives, same⟩
    injection same with isOther
    exact isOther ▸ receives
  · exact fun receives => ⟨receiver, receives, rfl⟩

theorem mem_relay_iff
    (router : Router) (body : Datagram) (origin : Option ParticipantId)
    (output : Output) :
    output ∈ router.relay body origin ↔
      output = .toParent body ∧ origin.isSome = true ∧
        router.parent.any ParentLink.drained = true := by
  unfold relay
  cases origin with
  | none => simp
  | some id =>
      cases router.parent with
      | none => simp
      | some link => by_cases drained : link.drained =
          true <;> simp [ParentLink.relay, drained]

theorem parentBound_append (first second : List Output) :
    Federation.parentBound (first ++ second) =
      Federation.parentBound first ++ Federation.parentBound second :=
  List.filterMap_append

theorem parentBound_route
    (router : Router) (recipients : List Channel) (body : Datagram)
    (origin : Option ParticipantId) :
    Federation.parentBound (router.route recipients body origin) = [] := by
  rw [route_eq_map]
  simp [Federation.parentBound]

theorem parentBound_relay
    (router : Router) (body : Datagram) (origin : Option ParticipantId) :
    Federation.parentBound (router.relay body origin) =
      if origin.isSome && router.parent.any ParentLink.drained then [body]
        else [] := by
  unfold relay
  cases origin with
  | none => rfl
  | some id =>
      cases router.parent with
      | none => rfl
      | some link =>
          by_cases drained : link.drained = true <;>
            simp [ParentLink.relay, drained, Federation.parentBound]

/--
Whatever has happened before, a datagram with a whole header that is no
instruction changes nothing.  Everybody who is registered, is not its origin and
holds one of its recipients is handed one copy, without the recipients; nobody
else is handed anything, and nobody is expelled.  The parent is sent the whole
datagram, unless it comes from there.
-/
theorem process_delivers_once
    {parent : Option ParentLink} {events : List Event}
    (orderly : (empty parent).Orderly events)
    {body : Datagram} {recipients : List Channel} {cursor : Cursor}
    {senderAndType : Channel × UInt16}
    (addressed : Read.recipients.runAt (Cursor.start body) =
      (.ok recipients, cursor))
    (complete : (Read.senderAndType.runAt cursor).1 = .ok senderAndType)
    (notControl : recipients ≠ [Channel.control])
    (origin : Option ParticipantId) :
    let router := ((empty parent).run events).value
    let processed := router.process body origin
    processed.value = router ∧
      (∀ receiver, router.Receives recipients origin receiver →
        processed.outputs.count
          (.deliver receiver (body.drop (1 + 8 * recipients.length))) = 1) ∧
      (∀ receiver text, .deliver receiver text ∈ processed.outputs →
        router.Receives recipients origin receiver ∧
          text = body.drop (1 + 8 * recipients.length)) ∧
      (∀ participant reason, .expel participant reason ∉ processed.outputs) ∧
      Federation.parentBound processed.outputs =
        if origin.isSome && parent.any ParentLink.drained then [body]
          else [] := by
  intro router processed
  have coherent : router.Coherent := (coherent_empty parent).run orderly
  have sameParent : router.parent = parent := parent_run (empty parent) events
  have isProcessed : processed =
      ⟨router, router.forward recipients body origin⟩ := by
    simp only [processed, process,
      handle_of_header addressed complete notControl]
  have delivered : ∀ output, output ∈ router.forward recipients body origin ↔
      (∃ receiver, router.Receives recipients origin receiver ∧
        output = .deliver receiver (body.drop (1 + 8 * recipients.length))) ∨
      output ∈ router.relay body origin := by
    intro output
    rw [forward, List.mem_append, coherent.mem_route_iff]
  rw [isProcessed]
  refine ⟨rfl, ?_, ?_, ?_, ?_⟩
  · intro receiver receives
    have onlyRouted :
        Output.deliver receiver (body.drop (1 + 8 * recipients.length)) ∉
        router.relay body origin := by
      rw [mem_relay_iff]
      rintro ⟨impossible, _⟩
      cases impossible
    rw [forward, List.count_append,
      List.count_eq_zero_of_not_mem onlyRouted, Nat.add_zero]
    apply List.count_eq_one_of_mem (coherent.nodup_route _ _ _)
    exact (coherent.deliver_mem_route_iff _ _ _ _).mpr receives
  · intro receiver text listed
    rcases (delivered _).mp listed with ⟨other, receives, same⟩ | relayed
    · injection same with isReceiver isText
      exact ⟨isReceiver ▸ receives, isText⟩
    · cases ((mem_relay_iff _ _ _ _).mp relayed).1
  · intro participant reason listed
    rcases (delivered _).mp listed with ⟨other, _, impossible⟩ | relayed
    · cases impossible
    · cases ((mem_relay_iff _ _ _ _).mp relayed).1
  · show Federation.parentBound (router.forward recipients body origin) = _
    rw [forward, parentBound_append, parentBound_route,
      parentBound_relay, sameParent]
    rfl

theorem process_delivers_once_to_a_member_and_a_range_holder :
    let events : List Event :=
      [.register ⟨1, 0⟩, .register ⟨2, 0⟩, .call 1 (.addChannel 7),
        .call 2 (.addRange ⟨5, 9, by decide⟩)]
    let router := ((empty (some .new)).run events).value
    let body := (Field.header [7, 8, 7] 100 1).encode ++ [42]
    let processed := router.process body (some 3)
    (empty (some .new)).Orderly events ∧
      Read.recipients.runAt (Cursor.start body) = (.ok [7, 8, 7], ⟨body, 25⟩) ∧
      (Read.senderAndType.runAt ⟨body, 25⟩).1 = .ok (100, 1) ∧
      processed.value = router ∧
      processed.outputs.count (.deliver ⟨1, 0⟩ (body.drop 25)) = 1 ∧
      processed.outputs.count (.deliver ⟨2, 0⟩ (body.drop 25)) = 1 ∧
      Federation.parentBound processed.outputs = [body] := by
  intro events router body processed
  have orderly : (empty (some .new)).Orderly events := by decide
  have addressed : Read.recipients.runAt (Cursor.start body) =
      (.ok [7, 8, 7], ⟨body, 25⟩) := by
    decide
  have complete : (Read.senderAndType.runAt ⟨body, 25⟩).1 =
      .ok (100, 1) := by decide
  have notControl : ([7, 8, 7] : List Channel) ≠ [Channel.control] := by decide
  have routed :=
    process_delivers_once orderly addressed complete notControl (some 3)
  have first : router.Receives [7, 8, 7] (some 3) ⟨1, 0⟩ :=
    ⟨⟨_, rfl, rfl⟩, by decide, 7, by decide, Or.inl (by decide)⟩
  have second : router.Receives [7, 8, 7] (some 3) ⟨2, 0⟩ :=
    ⟨⟨_, rfl, rfl⟩, by decide, 7, by decide, Or.inr (by decide)⟩
  exact ⟨orderly, addressed, complete, routed.1, routed.2.1 _ first,
    routed.2.1 _ second, routed.2.2.2.2⟩

end Router

end ChannelRouter
