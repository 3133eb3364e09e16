import ChannelRouter.Proofs.Router.Run
import ChannelRouter.Proofs.UnitTable

/-!
# What an instruction does to a member

An instruction of somebody who is not a member is refused, and every other one
succeeds.  `Router.effect` says for each instruction what becomes of the router
and what comes out.
-/

namespace ChannelRouter

namespace Router

variable {router : Router} {id : ParticipantId} {member : Member}

/-- The router in which something else is kept for a member. -/
def keep (router : Router) (id : ParticipantId) (member : Member) : Router :=
  { router with members := router.members.insert id member }

/-- What an instruction of a member does. -/
def effect (router : Router) (id : ParticipantId) (member : Member) :
    Instruction → Emitting Router
  | .addChannel channel =>
      if member.channels.contains channel ||
        router.ranges.covers id channel then
        pure router
      else
        (fun subscribed =>
            { router with units := subscribed.1 }.keep id
              { member with channels := member.channels.insert channel }) <$>
          router.units.subscribe channel member.participant
  | .removeChannel channel =>
      if member.channels.contains channel then
        (fun unsubscribed =>
            { router with units := unsubscribed.1 }.keep id
              { member with channels := member.channels.erase channel }) <$>
          router.units.unsubscribe channel id
      else pure router
  | .addRange range => do
      Emitting.emit
        (announceCoverage router.units
          (router.ranges.add range member.participant).2)
      let units ← router.units.unsubscribeAll (member.channels.inside range) id
      pure
        (Router.keep { router with
          units, ranges := (router.ranges.add range member.participant).1 }
          id { member with channels := member.channels.outside range })
  | .removeRange range => do
      let units ← router.units.unsubscribeAll (member.channels.inside range) id
      Emitting.emit (announceCoverage units (router.ranges.remove range id).2)
      pure
        (Router.keep { router with
          units, ranges := (router.ranges.remove range id).1 }
          id { member with channels := member.channels.outside range })
  | .addPostRemove channel body => do
      Emitting.emit (router.units.announce (.addPostRemove channel body))
      pure (router.keep id
        { member with postRemoves := member.postRemoves.add channel body })
  | .clearPostRemoves channel => do
      Emitting.emit (router.units.announce (.clearPostRemoves channel))
      pure (router.keep id
        { member with postRemoves := member.postRemoves.clear channel })
  | .setName name => pure (router.keep id { member with name := some name })
  | .setUrl url => pure (router.keep id { member with url := some url })

theorem obey_of_member
    (found : router.members.get? id = some member) (instruction : Instruction) :
    router.obey id instruction = .ok (router.effect id member instruction) := by
  have known : router.member id = .ok member := by simp [Router.member, found]
  cases instruction with
  | addChannel channel =>
      simp only [obey, subscribeChannel, known, effect, bind, Except.bind]
      split
      · rfl
      · rfl
  | removeChannel channel =>
      simp only [obey, unsubscribeChannel, known, effect, bind, Except.bind]
      by_cases holds : member.channels.contains channel = true
      · rw [if_neg (by simp [holds]), if_pos holds]
        rfl
      · rw [if_pos (by simp [holds]), if_neg holds]
        rfl
  | addRange range => simp only [obey, subscribeRange, known, effect]; rfl
  | removeRange range => simp only [obey, unsubscribeRange, known, effect]; rfl
  | addPostRemove channel body =>
      simp only [obey, addPostRemove, known, effect]; rfl
  | clearPostRemoves channel =>
      simp only [obey, clearPostRemoves, known, effect]; rfl
  | setName name => simp only [obey, setName, known, effect]; rfl
  | setUrl url => simp only [obey, setUrl, known, effect]; rfl

theorem obey_of_unknown
    (unknown : router.members.get? id = none) (instruction : Instruction) :
    router.obey id instruction = .error (.unknownParticipant id) := by
  have missing : router.member id = .error (.unknownParticipant id) := by
    simp [Router.member, unknown]
  cases instruction
  all_goals
    simp only [obey, subscribeChannel, unsubscribeChannel, subscribeRange,
      unsubscribeRange, addPostRemove, clearPostRemoves, setName, setUrl,
      missing]
    rfl

theorem obey_eq_ok
    {instruction : Instruction} {done : Emitting Router}
    (obeyed : router.obey id instruction = .ok done) :
    ∃ member, router.members.get? id = some member ∧
      done = router.effect id member instruction := by
  cases found : router.members.get? id with
  | none =>
      rw [obey_of_unknown found] at obeyed
      cases obeyed
  | some member =>
      rw [obey_of_member found] at obeyed
      injection obeyed with same
      exact ⟨member, rfl, same.symm⟩

/-- An instruction leaves its member a member, with the same participant. -/
theorem member_effect
    (found : router.members.get? id = some member) (instruction : Instruction) :
    ∃ updated, (router.effect id member instruction).value.members.get? id =
      some updated ∧ updated.participant = member.participant := by
  have kept : ∀ (after : Router) (updated : Member), (after.keep id
      updated).members.get? id = some updated := by
    intro after updated
    simp [keep]
  cases instruction with
  | addChannel channel =>
      rw [effect]
      split
      · exact ⟨member, found, rfl⟩
      · exact ⟨_, kept _ _, rfl⟩
  | removeChannel channel =>
      rw [effect]
      split
      · exact ⟨_, kept _ _, rfl⟩
      · exact ⟨member, found, rfl⟩
  | addRange range => exact ⟨_, kept _ _, rfl⟩
  | removeRange range => exact ⟨_, kept _ _, rfl⟩
  | addPostRemove channel body => exact ⟨_, kept _ _, rfl⟩
  | clearPostRemoves channel => exact ⟨_, kept _ _, rfl⟩
  | setName name => exact ⟨_, kept _ _, rfl⟩
  | setUrl url => exact ⟨_, kept _ _, rfl⟩

/-- A member's instruction is obeyed when it arrives as a datagram. -/
theorem process_encode
    (found : router.members.get? id = some member)
    {instruction : Instruction} (counted : instruction.Counted) :
    router.process instruction.encode (some id) =
      router.effect id member instruction := by
  simp only [process, handle_encode counted, obey_of_member found]

/-! ## The link to the parent -/

theorem parent_effect
    (router : Router)
    (id : ParticipantId) (member : Member) (instruction : Instruction) :
    (router.effect id member instruction).value.parent = router.parent := by
  cases instruction with
  | addChannel channel =>
      rw [effect]
      split
      · rfl
      · exact UnitTable.parent_subscribe router.units channel member.participant
  | removeChannel channel =>
      rw [effect]
      split
      · exact UnitTable.parent_unsubscribe router.units channel id
      · rfl
  | addRange range => exact UnitTable.parent_unsubscribeAll router.units _ id
  | removeRange range => exact UnitTable.parent_unsubscribeAll router.units _ id
  | addPostRemove channel body => rfl
  | clearPostRemoves channel => rfl
  | setName name => rfl
  | setUrl url => rfl

theorem respected_parent :
    Respected fun before _ after => after.parent = before.parent where
  stay := fun _ => rfl
  append := fun first second => second.trans first
  obey := by
    intro router id instruction done obeyed
    rcases obey_eq_ok obeyed with ⟨member, _, rfl⟩
    exact parent_effect router id member instruction
  forward := fun _ _ _ _ _ => rfl
  detach := by
    intro router id detaching detached
    rcases Option.map_eq_some_iff.mp detached with ⟨member, _, rfl⟩
    exact UnitTable.parent_unsubscribeAll router.units _ id
  expel := fun _ _ _ => rfl
  withdraw := fun _ _ => rfl

/-- A run leaves the link to the parent as it is. -/
theorem parent_run (router : Router) (events : List Event) :
    (router.run events).value.parent = router.parent :=
  respected_parent.run (fun _ _ => rfl) router events

end Router

end ChannelRouter
