import ChannelRouter.Proofs.Router.Announcement

/-!
# Which instructions are announced

What a move of a router puts out by itself are announcements: instructions to
the parent about what is wanted below, or the very instruction that is obeyed,
if it files something or withdraws it.  Only a datagram that is forwarded comes
out as anything else.
-/

namespace ChannelRouter

/-- Whether an instruction is about what its sender leaves behind. -/
def Instruction.isFiling : Instruction → Bool
  | addPostRemove _ _ => true
  | clearPostRemoves _ => true
  | _ => false

namespace Router

variable {allowed : Instruction → Prop}

/-- All outputs are announcements of allowed instructions. -/
def Announces (allowed : Instruction → Prop) (outputs : List Output) : Prop :=
  ∀ output ∈ outputs, ∃ instruction, allowed instruction ∧
    output = .toParent instruction.encode

theorem announces_nil : Announces allowed [] :=
  fun _ impossible => nomatch impossible

theorem Announces.append
    {first second : List Output}
    (announces : Announces allowed first) (too : Announces allowed second) :
    Announces allowed (first ++ second) := by
  intro output listed
  rcases List.mem_append.mp listed with here | there
  · exact announces output here
  · exact too output there

theorem announces_flatMap
    {α : Type} {outputs : α → List Output}
    (each : ∀ item, Announces allowed (outputs item))
    (items : List α) : Announces allowed (items.flatMap outputs) := by
  intro output listed
  rcases List.mem_flatMap.mp listed with ⟨item, _, here⟩
  exact each item output here

theorem Announces.mono
    {more : Instruction → Prop} {outputs : List Output}
    (announces : Announces allowed outputs)
    (weaker : ∀ instruction, allowed instruction → more instruction) :
    Announces more outputs := by
  intro output listed
  rcases announces output listed with ⟨instruction, isAllowed, same⟩
  exact ⟨instruction, weaker instruction isAllowed, same⟩

theorem announces_announce
    (units : UnitTable) {instruction : Instruction}
    (isAllowed : allowed instruction) :
    Announces allowed (units.announce instruction) := by
  intro output listed
  rw [UnitTable.announce] at listed
  split at listed
  · cases listed
  · rw [ParentLink.announce, ParentLink.relay] at listed
    split at listed
    · exact ⟨instruction, isAllowed, List.mem_singleton.mp listed⟩
    · cases listed

theorem composes_announces {σ : Type} :
    Emitting.Composes fun (_ : σ) said (_ : σ) => Announces allowed said where
  stay := fun _ => announces_nil
  append := Announces.append

/-! ## What is announced of units and coverage -/

theorem announces_subscribe (units : UnitTable) (channel : Channel)
    (member : Participant) :
    Announces (·.isSubscription = true)
      (units.subscribe channel member).outputs := by
  rcases units.subscribe_announces channel member with ⟨told, _⟩ | ⟨silent, _⟩
  · rw [told]
    exact announces_announce units rfl
  · rw [silent]
    exact announces_nil

theorem announces_unsubscribe (units : UnitTable) (channel : Channel)
    (id : ParticipantId) :
    Announces (·.isSubscription = true)
      (units.unsubscribe channel id).outputs := by
  rcases units.unsubscribe_announces channel id with ⟨told, _⟩ | ⟨silent, _⟩
  · rw [told]
    exact announces_announce units rfl
  · rw [silent]
    exact announces_nil

theorem announces_unsubscribeAll
    (units : UnitTable) (channels : List Channel) (id : ParticipantId) :
    Announces (·.isSubscription = true)
      (units.unsubscribeAll channels id).outputs := by
  apply composes_announces.foldlM
  intro table channel _
  rw [Emitting.outputs_map]
  exact announces_unsubscribe table channel id

theorem announces_announceCoverage (units : UnitTable)
    (change : CoverageChange) :
    Announces (·.isSubscription = true) (announceCoverage units change) := by
  apply Announces.append
  · apply announces_flatMap
    intro range
    exact announces_announce units rfl
  · apply announces_flatMap
    intro range
    apply Announces.append
    · exact announces_announce units rfl
    · apply announces_flatMap
      intro channel
      exact announces_announce units rfl

/-! ## Moves -/

/-- Obeying announces what is wanted below, or what is obeyed. -/
theorem announces_effect
    (router : Router) (id : ParticipantId) (member : Member)
    (instruction : Instruction) :
    Announces
      (fun announced => announced.isSubscription = true ∨
        announced = instruction ∧ instruction.isFiling = true)
      (router.effect id member instruction).outputs := by
  cases instruction with
  | addChannel channel =>
      rw [effect]
      split
      · exact announces_nil
      · rw [Emitting.outputs_map]
        exact (announces_subscribe router.units channel member.participant).mono
          fun _ => Or.inl
  | removeChannel channel =>
      rw [effect]
      split
      · rw [Emitting.outputs_map]
        exact (announces_unsubscribe router.units channel id).mono fun _ =>
          Or.inl
      · exact announces_nil
  | addRange range =>
      refine Announces.mono ?_ fun _ => Or.inl
      apply (announces_announceCoverage _ _).append
      exact (announces_unsubscribeAll router.units _ id).append announces_nil
  | removeRange range =>
      refine Announces.mono ?_ fun _ => Or.inl
      apply (announces_unsubscribeAll router.units _ id).append
      exact (announces_announceCoverage _ _).append announces_nil
  | addPostRemove channel body =>
      exact (announces_announce router.units (Or.inr ⟨rfl, rfl⟩)).append
        announces_nil
  | clearPostRemoves channel =>
      exact (announces_announce router.units (Or.inr ⟨rfl, rfl⟩)).append
        announces_nil
  | setName name => exact announces_nil
  | setUrl url => exact announces_nil

theorem announces_detach
    {router : Router} {id : ParticipantId}
    {detaching : Emitting (Router × Member)}
    (detached : router.detach? id = some detaching) :
    Announces (·.isSubscription = true) detaching.outputs := by
  rcases Option.map_eq_some_iff.mp detached with ⟨member, _, rfl⟩
  apply (announces_unsubscribeAll router.units
    member.channels.channels id).append
  exact (announces_announceCoverage _ _).append announces_nil

end Router

end ChannelRouter
