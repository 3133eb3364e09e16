import ChannelRouter.Proofs.RangeTable.Contacts
import ChannelRouter.Proofs.Router.Effect

/-!
# What members, units and pieces know of one another

The router keeps who holds what in three places.  They agree as long as nobody
registers under an identifier that is in use: a channel's unit lists the members
that hold it individually, a contact of the range table is a member's
participant, and no member holds a channel in both ways.
-/

namespace ChannelRouter

namespace Router

variable {router : Router} {id : ParticipantId} {member : Member}

/--
The participant is a member's, and the member holds the channel individually.
-/
def Subscribed (router : Router) (channel : Channel)
    (participant : Participant) : Prop :=
  ∃ member, router.members.get? participant.id = some member ∧
    member.participant = participant ∧ channel ∈ member.channels.channels

/-- The members, the units and the pieces agree. -/
structure Coherent (router : Router) : Prop where
  named : ∀ {id member}, router.members.get? id = some member →
    member.participant.id = id
  ascending : ∀ {id member}, router.members.get? id = some member →
    member.channels.channels.Pairwise (· < ·)
  listed : router.units.Lists router.Subscribed
  wellFormed : router.ranges.WellFormed
  contacts : ∀ {id participant}, router.ranges.contact? id = some participant →
    ∃ member, router.members.get? id = some member ∧
    member.participant = participant
  exclusive : ∀ {id member channel}, router.members.get? id = some member →
    channel ∈ member.channels.channels →
    ¬ router.ranges.covers id channel = true

theorem coherent_empty (parent : Option ParentLink) :
    (empty parent).Coherent where
  named := fun found => nomatch found
  ascending := fun found => nomatch found
  listed := (UnitTable.lists_empty parent).congr (by
    intro channel participant
    constructor
    · exact False.elim
    · rintro ⟨member, found, _⟩
      cases found)
  wellFormed := RangeTable.wellFormed_empty
  contacts := fun found => nomatch found
  exclusive := fun found => nomatch found

theorem subscribed_iff_of_get?
    (found : router.members.get? id = some member)
    (channel : Channel) {participant : Participant}
    (same : participant.id = id) :
    router.Subscribed channel participant ↔
      participant = member.participant ∧
        channel ∈ member.channels.channels := by
  constructor
  · rintro ⟨other, otherFound, rfl, listed⟩
    rw [same, found] at otherFound
    injection otherFound with isMember
    subst isMember
    exact ⟨rfl, listed⟩
  · rintro ⟨rfl, listed⟩
    exact ⟨member, same ▸ found, rfl, listed⟩

theorem subscribed_keep_iff
    (router : Router) (id : ParticipantId) (updated : Member)
    (channel : Channel) (participant : Participant) :
    (router.keep id updated).Subscribed channel participant ↔
      if participant.id = id then
        participant = updated.participant ∧ channel ∈ updated.channels.channels
      else router.Subscribed channel participant := by
  split
  · rename_i same
    apply subscribed_iff_of_get? _ channel same
    simp [keep]
  · rename_i different
    simp [Subscribed, keep, different]

/-- What it takes to change one member without spoiling the agreement. -/
theorem Coherent.keep
    (coherent : router.Coherent) (found : router.members.get? id = some member)
    {updated : Member} (same : updated.participant = member.participant)
    (ascending : updated.channels.channels.Pairwise (· < ·))
    {units : UnitTable} {ranges : RangeTable}
    (listed : units.Lists fun channel participant =>
      if participant.id = id then
        participant = member.participant ∧ channel ∈ updated.channels.channels
      else router.Subscribed channel participant)
    (wellFormed : ranges.WellFormed)
    (contacts : ∀ {other participant}, ranges.contact? other =
      some participant → router.ranges.contact? other = some participant ∨
        other = id ∧ participant = member.participant)
    (exclusive : ∀ channel ∈ updated.channels.channels,
      ¬ ranges.covers id channel = true)
    (elsewhere : ∀ other, other ≠ id → ∀ channel,
      ranges.covers other channel = true →
        router.ranges.covers other channel = true) :
    (Router.keep { router with units, ranges } id updated).Coherent where
  named := by
    intro other otherMember otherFound
    simp only [Router.keep, Table.get?_insert] at otherFound
    split at otherFound
    · rename_i here
      injection otherFound with isUpdated
      rw [← isUpdated, same, here]
      exact coherent.named found
    · exact coherent.named otherFound
  ascending := by
    intro other otherMember otherFound
    simp only [Router.keep, Table.get?_insert] at otherFound
    split at otherFound
    · injection otherFound with isUpdated
      exact isUpdated ▸ ascending
    · exact coherent.ascending otherFound
  listed := by
    apply listed.congr
    intro channel participant
    rw [subscribed_keep_iff, same]
    rfl
  wellFormed := wellFormed
  contacts := by
    intro other participant contact
    simp only [Router.keep, Table.get?_insert]
    split
    · refine ⟨updated, rfl, ?_⟩
      rename_i here
      rw [same]
      rcases contacts contact with before | ⟨_, isMember⟩
      · rcases coherent.contacts before with ⟨known, knownFound, isKnown⟩
        rw [here, found] at knownFound
        injection knownFound with isMember
        rw [isMember, isKnown]
      · exact isMember.symm
    · rename_i different
      rcases contacts contact with before | ⟨here, _⟩
      · exact coherent.contacts before
      · exact absurd here different
  exclusive := by
    intro other otherMember channel otherFound held
    simp only [Router.keep, Table.get?_insert] at otherFound
    split at otherFound
    · rename_i here
      injection otherFound with isUpdated
      subst here isUpdated
      exact exclusive channel held
    · rename_i different
      intro covers
      exact coherent.exclusive otherFound held
        (elsewhere other different channel covers)

/-- Whatever else is kept for a member matters to nobody. -/
theorem Coherent.keep_same
    (coherent : router.Coherent) (found : router.members.get? id = some member)
    {updated : Member} (same : updated.participant = member.participant)
    (sameChannels : updated.channels = member.channels) :
    (router.keep id updated).Coherent := by
  apply coherent.keep found same
  · rw [sameChannels]
    exact coherent.ascending found
  · apply coherent.listed.congr
    intro channel participant
    rw [sameChannels]
    split
    · rename_i here
      exact subscribed_iff_of_get? found channel here
    · exact Iff.rfl
  · exact coherent.wellFormed
  · exact Or.inl
  · rw [sameChannels]
    exact fun channel held => coherent.exclusive found held
  · exact fun _ _ _ covers => covers

theorem Coherent.addChannel
    (coherent : router.Coherent) (found : router.members.get? id = some member)
    (channel : Channel) :
    (router.effect id member (.addChannel channel)).value.Coherent := by
  rw [effect]
  split
  · exact coherent
  · rename_i free
    simp only [Bool.or_eq_true, not_or] at free
    rw [Emitting.value_map]
    apply coherent.keep found
    · rfl
    · exact Ascending.pairwise_insert channel (coherent.ascending found)
    · have absent : ∀ participant, router.Subscribed channel participant →
          participant.id ≠ member.participant.id := by
        intro participant subscribed same
        rw [coherent.named found] at same
        have held :=
          ((subscribed_iff_of_get? found channel same).mp subscribed).2
        rw [ChannelSet.contains, List.contains_iff_mem] at free
        exact free.1 held
      apply (coherent.listed.subscribe absent).congr
      intro other participant
      split
      · rename_i same
        rw [subscribed_iff_of_get? found other same]
        simp only [ChannelSet.mem_insert]
        tauto
      · rename_i different
        have other : participant ≠ member.participant := by
          rintro rfl
          exact different (coherent.named found)
        simp [other]
    · exact coherent.wellFormed
    · exact Or.inl
    · intro other held
      rcases (ChannelSet.mem_insert _ _ _).mp held with rfl | before
      · exact free.2
      · exact coherent.exclusive found before
    · exact fun _ _ _ covers => covers

theorem Coherent.removeChannel
    (coherent : router.Coherent) (found : router.members.get? id = some member)
    (channel : Channel) :
    (router.effect id member (.removeChannel channel)).value.Coherent := by
  rw [effect]
  split
  · rename_i held
    rw [ChannelSet.contains, List.contains_iff_mem] at held
    rw [Emitting.value_map]
    apply coherent.keep found
    · rfl
    · exact (coherent.ascending found).sublist List.filter_sublist
    · have subscribed : router.Subscribed channel member.participant :=
        (subscribed_iff_of_get? found channel (coherent.named found)).mpr
          ⟨rfl, held⟩
      have after := coherent.listed.unsubscribe subscribed
      rw [coherent.named found] at after
      apply after.congr
      intro other participant
      split
      · rename_i same
        rw [subscribed_iff_of_get? found other same]
        simp only [ChannelSet.mem_erase]
        tauto
      · rename_i different
        simp [different]
    · exact coherent.wellFormed
    · exact Or.inl
    · intro other stillHeld
      exact coherent.exclusive found
        ((ChannelSet.mem_erase _ _ _).mp stillHeld).1
    · exact fun _ _ _ covers => covers
  · exact coherent

theorem Coherent.subscribed_of_mem
    (coherent : router.Coherent) (found : router.members.get? id = some member)
    {channel : Channel} (held : channel ∈ member.channels.channels) :
    router.Subscribed channel member.participant :=
  (subscribed_iff_of_get? found channel (coherent.named found)).mpr ⟨rfl, held⟩

/-- The units after a member has let go of some of the channels it holds. -/
theorem Coherent.listed_unsubscribeAll
    (coherent : router.Coherent) (found : router.members.get? id = some member)
    {channels : List Channel}
    (released : channels.Sublist member.channels.channels) :
    (router.units.unsubscribeAll channels id).value.Lists
      fun channel participant =>
      router.Subscribed channel participant ∧
        ¬ (channel ∈ channels ∧ participant.id = id) := by
  have distinct : channels.Nodup :=
    (Ascending.nodup_of_pairwise (coherent.ascending found)).sublist released
  have held : ∀ channel ∈ channels,
      router.Subscribed channel member.participant :=
    fun channel listed =>
      coherent.subscribed_of_mem found (released.subset listed)
  have after := coherent.listed.unsubscribeAll distinct held
  rwa [coherent.named found] at after

theorem Coherent.listed_outside
    (coherent : router.Coherent) (found : router.members.get? id = some member)
    (range : ChannelRange) :
    (router.units.unsubscribeAll (member.channels.inside range) id).value.Lists
      fun channel participant =>
        if participant.id = id then
          participant = member.participant ∧
            channel ∈ (member.channels.outside range).channels
        else router.Subscribed channel participant := by
  apply (coherent.listed_unsubscribeAll found List.filter_sublist).congr
  intro channel participant
  split
  · rename_i same
    rw [subscribed_iff_of_get? found channel same]
    simp only [ChannelSet.outside, List.mem_filter,
      Bool.not_eq_eq_eq_not, Bool.not_true]
    cases range.contains channel <;> simp [same]
  · rename_i different
    simp [different]

theorem Coherent.addRange
    (coherent : router.Coherent) (found : router.members.get? id = some member)
    (range : ChannelRange) :
    (router.effect id member (.addRange range)).value.Coherent := by
  have wellFormed := coherent.wellFormed
  have named := coherent.named found
  rw [effect]
  apply coherent.keep found
  · rfl
  · exact (coherent.ascending found).sublist List.filter_sublist
  · exact coherent.listed_outside found range
  · exact wellFormed.add range member.participant
  · intro other participant contact
    rw [RangeTable.contact?_add, named] at contact
    split at contact
    · rename_i same
      subst same
      cases known : router.ranges.contact? other with
      | none =>
          rw [known] at contact
          injection contact with isMember
          exact Or.inr ⟨rfl, isMember.symm⟩
      | some before =>
          rw [known] at contact
          exact Or.inl contact
    · exact Or.inl contact
  · intro channel held
    have kept := List.mem_filter.mp held
    intro covers
    rcases (wellFormed.covers_add range member.participant id channel).mp
      covers with
      ⟨_, inside⟩ | before
    · simp [inside] at kept
    · exact coherent.exclusive found kept.1 before
  · intro other different channel covers
    rcases (wellFormed.covers_add range member.participant other channel).mp
      covers with
      ⟨same, _⟩ | before
    · exact absurd (same.trans named) different
    · exact before

theorem Coherent.removeRange
    (coherent : router.Coherent) (found : router.members.get? id = some member)
    (range : ChannelRange) :
    (router.effect id member (.removeRange range)).value.Coherent := by
  have wellFormed := coherent.wellFormed
  rw [effect]
  apply coherent.keep found
  · rfl
  · exact (coherent.ascending found).sublist List.filter_sublist
  · exact coherent.listed_outside found range
  · exact wellFormed.remove range id
  · intro other participant contact
    exact Or.inl (RangeTable.contact?_of_remove contact)
  · intro channel held covers
    have before := ((wellFormed.covers_remove range id id channel).mp covers).1
    exact coherent.exclusive found (List.mem_filter.mp held).1 before
  · intro other _ channel covers
    exact ((wellFormed.covers_remove range id other channel).mp covers).1

theorem Coherent.effect
    (coherent : router.Coherent) (found : router.members.get? id = some member)
    (instruction : Instruction) :
    (router.effect id member instruction).value.Coherent := by
  cases instruction with
  | addChannel channel => exact coherent.addChannel found channel
  | removeChannel channel => exact coherent.removeChannel found channel
  | addRange range => exact coherent.addRange found range
  | removeRange range => exact coherent.removeRange found range
  | addPostRemove channel body => exact coherent.keep_same found rfl rfl
  | clearPostRemoves channel => exact coherent.keep_same found rfl rfl
  | setName name => exact coherent.keep_same found rfl rfl
  | setUrl url => exact coherent.keep_same found rfl rfl

theorem Coherent.detach
    (coherent : router.Coherent) {detaching : Emitting (Router × Member)}
    (detached : router.detach? id = some detaching) :
    detaching.value.1.Coherent := by
  rcases Option.map_eq_some_iff.mp detached with ⟨member, found, rfl⟩
  have wellFormed := coherent.wellFormed
  have stays : ∀ {other otherMember}, (router.members.erase id).get? other =
      some otherMember →
      other ≠ id ∧ router.members.get? other = some otherMember := by
    intro other otherMember otherFound
    rw [Table.get?_erase] at otherFound
    split at otherFound
    · cases otherFound
    · exact ⟨‹_›, otherFound⟩
  constructor
  · intro other otherMember otherFound
    exact coherent.named (stays otherFound).2
  · intro other otherMember otherFound
    exact coherent.ascending (stays otherFound).2
  · apply (coherent.listed_unsubscribeAll found (List.Sublist.refl _)).congr
    intro channel participant
    constructor
    · rintro ⟨⟨holder, holderFound, isHolder, held⟩, remains⟩
      refine ⟨holder, ?_, isHolder, held⟩
      have different : participant.id ≠ id := by
        rintro same
        rw [same, found] at holderFound
        injection holderFound with isMember
        subst isMember
        exact remains ⟨held, same⟩
      simpa [different] using holderFound
    · rintro ⟨holder, holderFound, isHolder, held⟩
      have before := stays holderFound
      exact ⟨⟨holder, before.2, isHolder, held⟩, fun gone => before.1 gone.2⟩
  · exact wellFormed.removeHolder id
  · intro other participant contact
    rcases RangeTable.contact?_of_removeHolder contact with ⟨before, different⟩
    rcases coherent.contacts before with ⟨known, knownFound, isKnown⟩
    exact ⟨known, by simpa [different] using knownFound, isKnown⟩
  · intro other otherMember channel otherFound held covers
    have before :=
      ((wellFormed.covers_removeHolder id other channel).mp covers).1
    exact coherent.exclusive (stays otherFound).2 held before

theorem Coherent.register
    (coherent : router.Coherent) {participant : Participant}
    (unregistered : router.isRegistered participant.id = false) :
    (router.register participant).Coherent := by
  have absent : router.members.get? participant.id = none := by
    simpa [isRegistered, Table.contains] using unregistered
  have known : ∀ {other member},
      (router.register participant).members.get? other = some member →
      other = participant.id ∧ member = .new participant ∨
        router.members.get? other = some member := by
    intro other member found
    simp only [Router.register, Table.get?_insert] at found
    split at found
    · injection found with isNew
      exact Or.inl ⟨‹_›, isNew.symm⟩
    · exact Or.inr found
  have remembered : ∀ {other member}, router.members.get? other = some member →
      (router.register participant).members.get? other = some member := by
    intro other member found
    have different : other ≠ participant.id := by
      rintro rfl
      rw [absent] at found
      cases found
    simpa [Router.register, different] using found
  constructor
  · intro other member found
    rcases known found with ⟨rfl, rfl⟩ | before
    · rfl
    · exact coherent.named before
  · intro other member found
    rcases known found with ⟨rfl, rfl⟩ | before
    · exact List.Pairwise.nil
    · exact coherent.ascending before
  · apply coherent.listed.congr
    intro channel holder
    constructor
    · rintro ⟨member, found, isHolder, held⟩
      exact ⟨member, remembered found, isHolder, held⟩
    · rintro ⟨member, found, isHolder, held⟩
      rcases known found with ⟨_, rfl⟩ | before
      · cases held
      · exact ⟨member, before, isHolder, held⟩
  · exact coherent.wellFormed
  · intro other contact found
    rcases coherent.contacts found with ⟨member, memberFound, isMember⟩
    exact ⟨member, remembered memberFound, isMember⟩
  · intro other member channel found held
    rcases known found with ⟨_, rfl⟩ | before
    · cases held
    · exact coherent.exclusive before held

/-- Every move keeps the agreement. -/
theorem respected_coherent :
    Respected fun before _ after => before.Coherent → after.Coherent where
  stay := fun _ coherent => coherent
  append := fun first second coherent => second (first coherent)
  obey := by
    intro router id instruction done obeyed coherent
    rcases obey_eq_ok obeyed with ⟨member, found, rfl⟩
    exact coherent.effect found instruction
  forward := fun _ _ _ _ _ coherent => coherent
  detach := fun detached coherent => coherent.detach detached
  expel := fun _ _ _ coherent => coherent
  withdraw := fun _ _ coherent => coherent

/-- Every orderly run keeps the agreement. -/
theorem Coherent.run
    (coherent : router.Coherent) {events : List Event}
    (orderly : router.Orderly events) :
    (router.run events).value.Coherent :=
  respected_coherent.run_of_orderly
    (fun _ _ unregistered before => before.register unregistered)
      orderly coherent

end Router

end ChannelRouter
