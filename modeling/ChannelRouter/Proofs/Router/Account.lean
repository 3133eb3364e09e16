import ChannelRouter.Proofs.RangeTable.Queries
import ChannelRouter.Proofs.Router.Interest
import ChannelRouter.Proofs.Router.Request

/-!
# The account of a participant

What a participant holds, goes by and leaves behind makes up its account.  An
instruction changes the account of the participant that gives it, in a way that
depends on nothing else, and every other account stays as it is.  So does
leaving.

The router keeps all accounts in shared tables.  What it shows of a participant
is determined by the account, however the tables are cut.
-/

namespace ChannelRouter

/-- What an instruction makes of what a participant has filed. -/
def PostRemoves.after (postRemoves : PostRemoves) : Instruction → PostRemoves
  | .addPostRemove channel body => postRemoves.add channel body
  | .clearPostRemoves channel => postRemoves.clear channel
  | _ => postRemoves

/-- What one participant holds, goes by and leaves behind. -/
@[ext]
structure Account where
  interest : Interest
  name : Option String
  url : Option String
  pending : Channel → List Datagram

namespace Account

/-- The account of somebody who has just registered. -/
def opened : Account := ⟨⟨∅, ∅⟩, none, none, fun _ => []⟩

/--
What an instruction makes of the account of the participant that gives it.
-/
def after (account : Account) : Instruction → Account
  | .addPostRemove channel body =>
      { account with
        pending :=
          Function.update account.pending channel
            (account.pending channel ++ [body]) }
  | .clearPostRemoves channel =>
      { account with pending := Function.update account.pending channel [] }
  | .setName name => { account with name := some name }
  | .setUrl url => { account with url := some url }
  | .addChannel channel =>
      { account with interest := account.interest.after (.addChannel channel) }
  | .removeChannel channel =>
      { account with interest :=
        account.interest.after (.removeChannel channel) }
  | .addRange range =>
      { account with interest := account.interest.after (.addRange range) }
  | .removeRange range =>
      { account with interest := account.interest.after (.removeRange range) }

/--
What a datagram makes of the account of its origin.  A malformed one closes it.
-/
def afterDatagram (account : Option Account) (body : Datagram) :
    Option Account :=
  match Request.of body with
  | .malformed _ => none
  | .instruct instruction => account.map (·.after instruction)
  | .address _ => account

end Account

namespace Router

variable {router : Router} {id other : ParticipantId} {member : Member}

/-- The account of a member; nobody else has one. -/
def account (router : Router) (id : ParticipantId) : Option Account :=
  (router.members.get? id).map fun member =>
    ⟨router.interest id, member.name, member.url, member.postRemoves.under⟩

theorem account_of_get? (found : router.members.get? id = some member) :
    router.account id =
      some ⟨router.interest id, member.name, member.url,
        member.postRemoves.under⟩ := by
  rw [account, found]
  rfl

theorem isSome_account (router : Router) (id : ParticipantId) :
    (router.account id).isSome = router.isRegistered id :=
  Option.isSome_map

/-- The two routers keep the same for the participant. -/
structure Same (before after : Router) (id : ParticipantId) : Prop where
  member : after.members.get? id = before.members.get? id
  covers : ∀ channel,
    after.ranges.covers id channel = true ↔
    before.ranges.covers id channel = true

theorem same_self (router : Router) (id : ParticipantId) :
    router.Same router id :=
  ⟨rfl, fun _ => Iff.rfl⟩

theorem Same.interest {before after : Router} (same : before.Same after id) :
    after.interest id = before.interest id := by
  ext channel
  · show channel ∈ after.channelsOf id ↔ channel ∈ before.channelsOf id
    rw [channelsOf, channelsOf, same.member]
  · exact same.covers channel

theorem Same.account {before after : Router} (same : before.Same after id) :
    after.account id = before.account id := by
  rw [Router.account, Router.account, same.member, same.interest]

/-! ## Instructions -/

theorem get?_effect_of_ne
    (different : other ≠ id) (router : Router) (member : Member)
    (instruction : Instruction) :
    (router.effect id member instruction).value.members.get? other =
      router.members.get? other := by
  have kept : ∀ (after : Router) (updated : Member),
      (after.keep id updated).members.get? other =
        after.members.get? other := by
    intro after updated
    simp [keep, different]
  cases instruction with
  | addChannel channel =>
      rw [effect]
      split
      · rfl
      · exact kept _ _
  | removeChannel channel =>
      rw [effect]
      split
      · exact kept _ _
      · rfl
  | addRange range => exact kept _ _
  | removeRange range => exact kept _ _
  | addPostRemove channel body => exact kept _ _
  | clearPostRemoves channel => exact kept _ _
  | setName name => exact kept _ _
  | setUrl url => exact kept _ _

theorem Coherent.covers_effect_of_ne
    (coherent : router.Coherent) (found : router.members.get? id = some member)
    (different : other ≠ id) (instruction : Instruction) (channel : Channel) :
    (router.effect id member instruction).value.ranges.covers other
      channel = true ↔ router.ranges.covers other channel = true := by
  cases instruction with
  | addChannel added =>
      rw [Router.effect]
      split
      · exact Iff.rfl
      · exact Iff.rfl
  | removeChannel removed =>
      rw [Router.effect]
      split
      · exact Iff.rfl
      · exact Iff.rfl
  | addRange range =>
      have covers :=
        coherent.wellFormed.covers_add range member.participant other channel
      simp only [coherent.named found, different, false_and, false_or] at covers
      exact covers
  | removeRange range =>
      have covers := coherent.wellFormed.covers_remove range id other channel
      simp only [different, false_and, not_false_eq_true, and_true] at covers
      exact covers
  | addPostRemove under body => exact Iff.rfl
  | clearPostRemoves under => exact Iff.rfl
  | setName name => exact Iff.rfl
  | setUrl url => exact Iff.rfl

/-- Nobody's instruction reaches another participant. -/
theorem Coherent.same_effect
    (coherent : router.Coherent) (found : router.members.get? id = some member)
    (different : other ≠ id) (instruction : Instruction) :
    router.Same (router.effect id member instruction).value other :=
  ⟨get?_effect_of_ne different router member instruction,
    coherent.covers_effect_of_ne found different instruction⟩

theorem Coherent.same_call
    (coherent : router.Coherent) (different : other ≠ id)
    (instruction : Instruction) :
    router.Same (router.step (.call id instruction)).value other := by
  rw [step]
  cases found : router.members.get? id with
  | none =>
      rw [obey_of_unknown found]
      exact router.same_self other
  | some member =>
      rw [obey_of_member found]
      exact coherent.same_effect found different instruction

theorem Coherent.same_terminate
    (coherent : router.Coherent) (different : other ≠ id) :
    router.Same (router.step (.terminate id)).value other := by
  rw [step]
  cases detached : router.detach? id with
  | none => exact router.same_self other
  | some detaching =>
      rcases Option.map_eq_some_iff.mp detached with ⟨member, _, rfl⟩
      refine ⟨?_, fun channel => ?_⟩
      · simp [different]
      · have covers := coherent.wellFormed.covers_removeHolder id other channel
        simp only [ne_eq, different, not_false_eq_true, and_true] at covers
        exact covers

theorem Coherent.same_process
    (coherent : router.Coherent) (body : Datagram)
    {origin : Option ParticipantId} (different : origin ≠ some other) :
    router.Same (router.process body origin).value other := by
  cases origin with
  | none =>
      rw [value_process_none]
      exact router.same_self other
  | some id =>
      have apart : other ≠ id := fun same => different (congrArg some same.symm)
      rw [value_process]
      cases Request.of body with
      | malformed cause => exact coherent.same_terminate apart
      | instruct instruction => exact coherent.same_call apart instruction
      | address recipients => exact router.same_self other

/-- On whose behalf an event happens; nobody's, if it comes from the parent. -/
def Event.actor : Event → Option ParticipantId
  | .register participant => some participant.id
  | .call id _ => some id
  | .process _ origin => origin
  | .terminate id => some id
  | .withdraw _ => none

/-- What others do does not reach a participant. -/
theorem Coherent.same_step
    (coherent : router.Coherent) {event : Event}
    (others : event.actor ≠ some other) :
    router.Same (router.step event).value other := by
  cases event with
  | register participant =>
      have apart : other ≠ participant.id :=
        fun same => others (congrArg some same.symm)
      refine ⟨?_, fun _ => Iff.rfl⟩
      simp [step, Router.register, apart]
  | call id instruction =>
      exact coherent.same_call (fun same => others (congrArg some same.symm))
        instruction
  | process body origin => exact coherent.same_process body others
  | terminate id =>
      exact coherent.same_terminate fun same => others (congrArg some same.symm)
  | withdraw channel => exact router.same_self other

/-- What an instruction makes of all of an account but the interest. -/
theorem exists_get?_effect
    (found : router.members.get? id = some member)
    (interest : Interest) (instruction : Instruction) :
    ∃ updated, (router.effect id member instruction).value.members.get? id =
      some updated ∧
      updated.postRemoves = member.postRemoves.after instruction ∧
      (⟨interest.after instruction, updated.name, updated.url,
          updated.postRemoves.under⟩ : Account) =
        Account.after ⟨interest, member.name, member.url,
          member.postRemoves.under⟩ instruction := by
  have kept : ∀ (after : Router) (updated : Member),
      (after.keep id updated).members.get? id = some updated := by
    intro after updated
    simp [keep]
  cases instruction with
  | addChannel channel =>
      rw [effect]
      split
      · exact ⟨member, found, rfl, rfl⟩
      · exact ⟨_, kept _ _, rfl, rfl⟩
  | removeChannel channel =>
      rw [effect]
      split
      · exact ⟨_, kept _ _, rfl, rfl⟩
      · exact ⟨member, found, rfl, rfl⟩
  | addRange range => exact ⟨_, kept _ _, rfl, rfl⟩
  | removeRange range => exact ⟨_, kept _ _, rfl, rfl⟩
  | addPostRemove channel body =>
      refine ⟨_, kept _ _, rfl, ?_⟩
      ext place
      · rfl
      · rfl
      · rfl
      · rfl
      · simp only [Account.after, PostRemoves.under_add, Function.update_apply]
  | clearPostRemoves channel =>
      refine ⟨_, kept _ _, rfl, ?_⟩
      ext place
      · rfl
      · rfl
      · rfl
      · rfl
      · simp only [Account.after, PostRemoves.under_clear,
          Function.update_apply]
  | setName name => exact ⟨_, kept _ _, rfl, rfl⟩
  | setUrl url => exact ⟨_, kept _ _, rfl, rfl⟩

theorem Coherent.account_effect
    (coherent : router.Coherent) (found : router.members.get? id = some member)
    (instruction : Instruction) :
    (router.effect id member instruction).value.account id =
      (router.account id).map (·.after instruction) := by
  rcases exists_get?_effect found (router.interest id) instruction
    with ⟨updated, updatedFound, _, isAfter⟩
  rw [account_of_get? updatedFound, account_of_get? found,
    coherent.interest_effect found instruction, isAfter]
  rfl

theorem Coherent.account_call
    (coherent : router.Coherent) (id other : ParticipantId)
    (instruction : Instruction) :
    (router.step (.call id instruction)).value.account other =
      if other = id then (router.account id).map (·.after instruction)
      else router.account other := by
  by_cases same : other = id
  · subst same
    rw [if_pos rfl, step]
    cases found : router.members.get? other with
    | none =>
        rw [obey_of_unknown found]
        simp [account, found]
    | some member =>
        rw [obey_of_member found]
        exact coherent.account_effect found instruction
  · rw [if_neg same]
    exact (coherent.same_call same instruction).account

/-! ## Coming and going -/

theorem Coherent.not_covers_of_unknown
    (coherent : router.Coherent) (unknown : router.members.get? id = none)
    (channel : Channel) : ¬ router.ranges.covers id channel = true := by
  intro covers
  rcases coherent.wellFormed.exists_contact covers
    with ⟨participant, contact, _⟩
  rcases coherent.contacts contact with ⟨member, found, _⟩
  rw [unknown] at found
  cases found

theorem Coherent.interest_of_unknown
    (coherent : router.Coherent) (unknown : router.members.get? id = none) :
    router.interest id = Account.opened.interest := by
  ext channel
  · simp [interest, channelsOf, unknown, Account.opened]
  · exact iff_of_false (coherent.not_covers_of_unknown unknown channel)
      (Set.notMem_empty channel)

theorem Coherent.account_register
    (coherent : router.Coherent) {participant : Participant}
    (unregistered : router.isRegistered participant.id = false)
    (other : ParticipantId) :
    (router.register participant).account other =
      if other = participant.id then some .opened
        else router.account other := by
  have unknown : router.members.get? participant.id = none := by
    simpa [isRegistered, Table.contains] using unregistered
  split
  · rename_i same
    subst same
    have found : (router.register participant).members.get? participant.id =
        some (.new participant) := by
      simp [Router.register]
    have nothing : (router.register participant).interest participant.id =
        Account.opened.interest := by
      ext channel
      · simp [interest, channelsOf, found, Member.new,
          ChannelSet.empty, Account.opened]
      · exact iff_of_false (coherent.not_covers_of_unknown unknown channel)
          (Set.notMem_empty channel)
    rw [account_of_get? found, nothing]
    rfl
  · rename_i different
    have elsewhere : (Event.register participant).actor ≠ some other :=
      fun same => different (Option.some.inj same).symm
    exact (coherent.same_step elsewhere).account

theorem Coherent.account_terminate
    (coherent : router.Coherent) (id other : ParticipantId) :
    (router.step (.terminate id)).value.account other =
      if other = id then none else router.account other := by
  by_cases same : other = id
  · subst same
    rw [if_pos rfl, step]
    cases detached : router.detach? other with
    | none =>
        have unknown : router.members.get? other = none :=
          Option.map_eq_none_iff.mp detached
        simp [account, unknown]
    | some detaching =>
        show detaching.value.1.account other = none
        rw [account, members_detach detached]
        simp
  · rw [if_neg same]
    exact (coherent.same_terminate same).account

/-- A datagram is the business of its origin's account. -/
theorem Coherent.account_process
    (coherent : router.Coherent) (body : Datagram) (id other : ParticipantId) :
    (router.process body (some id)).value.account other =
      if other = id then Account.afterDatagram (router.account id) body
      else router.account other := by
  rw [value_process, Account.afterDatagram]
  cases Request.of body with
  | malformed cause => exact coherent.account_terminate id other
  | instruct instruction => exact coherent.account_call id other instruction
  | address recipients =>
      show router.account other = if other = id then router.account id
        else router.account other
      split
      · rename_i same
        rw [same]
      · rfl

/-! ## What the router shows of an account -/

/-- What is filed under a channel to be routed once the participant is gone. -/
def pending (router : Router) (id : ParticipantId) (channel : Channel) :
    List Datagram :=
  ((router.members.get? id).map (·.postRemoves.under channel)).getD []

/-- What the router tells of a participant is what the account says. -/
structure Shows (router : Router) (id : ParticipantId) (account : Account) :
    Prop where
  channels : ∀ channel, channel ∈ router.channelsOf id ↔
    channel ∈ account.interest.discrete
  channelsAscending : (router.channelsOf id).Pairwise (· < ·)
  ranges : ∀ channel,
    ChannelRange.InSome (router.rangesOf id) channel ↔
    channel ∈ account.interest.ranged
  rangesApart : (router.rangesOf id).Pairwise ChannelRange.Apart
  name : router.nameOf id = account.name
  url : router.urlOf id = account.url
  pending : ∀ channel, router.pending id channel = account.pending channel

theorem Coherent.pairwise_channelsOf (coherent : router.Coherent)
    (id : ParticipantId) : (router.channelsOf id).Pairwise (· < ·) := by
  unfold channelsOf
  cases found : router.members.get? id with
  | none => exact List.Pairwise.nil
  | some member => exact coherent.ascending found

/-- Somebody without an account shows the account that was never opened. -/
theorem Coherent.shows_account (coherent : router.Coherent)
    (id : ParticipantId) :
    router.Shows id ((router.account id).getD .opened) := by
  have interest : ((router.account id).getD .opened).interest =
      router.interest id := by
    cases found : router.members.get? id with
    | none =>
        rw [account, found]
        exact (coherent.interest_of_unknown found).symm
    | some member =>
        rw [account_of_get? found]
        rfl
  constructor
  · intro channel
    rw [interest]
    exact Iff.rfl
  · exact coherent.pairwise_channelsOf id
  · intro channel
    rw [interest]
    exact coherent.wellFormed.inSome_rangesOf_iff id channel
  · exact coherent.wellFormed.gaps_rangesOf id
  · unfold nameOf account
    cases router.members.get? id <;> rfl
  · unfold urlOf account
    cases router.members.get? id <;> rfl
  · intro channel
    unfold pending account
    cases router.members.get? id <;> rfl

/-- Routers that show the same account tell the same of its participant. -/
theorem Shows.congr
    {before after : Router} {account : Account}
    (shows : before.Shows id account) (too : after.Shows id account) :
    after.channelsOf id = before.channelsOf id ∧
      after.rangesOf id = before.rangesOf id ∧
      after.nameOf id = before.nameOf id ∧ after.urlOf id = before.urlOf id ∧
      ∀ channel, after.pending id channel = before.pending id channel := by
  refine ⟨?_, ?_, ?_, ?_, ?_⟩
  · apply too.channelsAscending.eq_of_mem_iff shows.channelsAscending
    intro channel
    rw [too.channels, shows.channels]
  · apply ChannelRange.eq_of_inSome_iff too.rangesApart shows.rangesApart
    intro channel
    rw [too.ranges, shows.ranges]
  · rw [too.name, shows.name]
  · rw [too.url, shows.url]
  · intro channel
    rw [too.pending, shows.pending]

end Router

end ChannelRouter
