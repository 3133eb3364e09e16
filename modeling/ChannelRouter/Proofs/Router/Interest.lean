import ChannelRouter.Proofs.Router.Coherent
import Mathlib.Order.BooleanAlgebra.Set

/-!
# What a participant is interested in

A participant holds some channels individually and some by ranges.  What an
instruction makes of these two sets depends on nothing else, whatever pieces and
units the router keeps for it.
-/

namespace ChannelRouter

/-- The channels of a range. -/
def ChannelRange.channels (range : ChannelRange) : Set Channel :=
  { channel | range.contains channel = true }

/-- What is held individually, and what is held by ranges. -/
@[ext]
structure Interest where
  discrete : Set Channel
  ranged : Set Channel

namespace Interest

/-- What an instruction makes of an interest. -/
def after (interest : Interest) : Instruction → Interest
  | .addChannel channel =>
      ⟨interest.discrete ∪ ({channel} \ interest.ranged), interest.ranged⟩
  | .removeChannel channel => ⟨interest.discrete \ {channel}, interest.ranged⟩
  | .addRange range =>
      ⟨interest.discrete \ range.channels, interest.ranged ∪ range.channels⟩
  | .removeRange range =>
      ⟨interest.discrete \ range.channels, interest.ranged \ range.channels⟩
  | .addPostRemove _ _ => interest
  | .clearPostRemoves _ => interest
  | .setName _ => interest
  | .setUrl _ => interest

end Interest

namespace Router

variable {router : Router} {id : ParticipantId} {member : Member}

/-- What a participant holds. -/
def interest (router : Router) (id : ParticipantId) : Interest where
  discrete := { channel | channel ∈ router.channelsOf id }
  ranged := { channel | router.ranges.covers id channel = true }

theorem channelsOf_of_get?
    (found : router.members.get? id = some member) :
    router.channelsOf id = member.channels.channels := by
  simp [channelsOf, found]

theorem channelsOf_keep (router : Router) (id : ParticipantId)
    (member : Member) :
    (router.keep id member).channelsOf id = member.channels.channels := by
  simp [channelsOf, keep]

theorem interest_keep (router : Router) (id : ParticipantId) (member : Member) :
    (router.keep id member).interest id =
      ⟨{ channel | channel ∈ member.channels.channels },
        { channel | router.ranges.covers id channel = true }⟩ := by
  rw [interest, channelsOf_keep]
  rfl

theorem interest_of_get?
    (found : router.members.get? id = some member) :
    router.interest id =
      ⟨{ channel | channel ∈ member.channels.channels },
        { channel | router.ranges.covers id channel = true }⟩ := by
  rw [interest, channelsOf_of_get? found]

theorem interest_addChannel
    (found : router.members.get? id = some member) (channel : Channel) :
    (router.effect id member (.addChannel channel)).value.interest id =
      (router.interest id).after (.addChannel channel) := by
  rw [effect]
  split
  · rename_i already
    simp only [Bool.or_eq_true, ChannelSet.contains, List.contains_iff_mem]
      at already
    rw [Emitting.value_pure, interest_of_get? found]
    ext other
    · simp only [Interest.after, Set.mem_union,
        Set.mem_ofPred_eq, Set.mem_sdiff, Set.mem_singleton_iff]
      constructor
      · exact Or.inl
      · rintro (before | ⟨rfl, uncovered⟩)
        · exact before
        · exact already.resolve_right uncovered
    · exact Iff.rfl
  · rename_i free
    simp only [Bool.or_eq_true, not_or] at free
    rw [Emitting.value_map, interest_keep, interest_of_get? found]
    ext other
    · simp only [Interest.after, ChannelSet.mem_insert, Set.mem_union,
        Set.mem_ofPred_eq, Set.mem_sdiff, Set.mem_singleton_iff]
      constructor
      · rintro (rfl | before)
        · exact Or.inr ⟨rfl, free.2⟩
        · exact Or.inl before
      · rintro (before | ⟨same, _⟩)
        · exact Or.inr before
        · exact Or.inl same
    · exact Iff.rfl

theorem interest_removeChannel
    (found : router.members.get? id = some member) (channel : Channel) :
    (router.effect id member (.removeChannel channel)).value.interest id =
      (router.interest id).after (.removeChannel channel) := by
  rw [effect]
  split
  · rw [Emitting.value_map, interest_keep, interest_of_get? found]
    ext other
    · exact ChannelSet.mem_erase _ _ _
    · exact Iff.rfl
  · rename_i absent
    rw [ChannelSet.contains, List.contains_iff_mem] at absent
    rw [Emitting.value_pure, interest_of_get? found]
    ext other
    · constructor
      · intro before
        refine ⟨before, ?_⟩
        rintro rfl
        exact absent before
      · exact And.left
    · exact Iff.rfl

theorem mem_outside_iff (member : Member) (range : ChannelRange)
    (channel : Channel) : channel ∈ (member.channels.outside range).channels ↔
      channel ∈ member.channels.channels ∧ channel ∉ range.channels := by
  rw [ChannelSet.outside, List.mem_filter, Bool.not_eq_true',
    ← Bool.not_eq_true]
  exact Iff.rfl

/-- An instruction acts on the interest of the member it is about. -/
theorem Coherent.interest_effect
    (coherent : router.Coherent) (found : router.members.get? id = some member)
    (instruction : Instruction) :
    (router.effect id member instruction).value.interest id =
      (router.interest id).after instruction := by
  have named := coherent.named found
  have before := interest_of_get? found
  cases instruction with
  | addChannel channel => exact interest_addChannel found channel
  | removeChannel channel => exact interest_removeChannel found channel
  | addRange range =>
      apply (interest_keep _ id _).trans
      rw [before]
      ext other
      · exact mem_outside_iff member range other
      · have covers :=
          coherent.wellFormed.covers_add range member.participant id other
        simp only [named, true_and] at covers
        exact covers.trans or_comm
  | removeRange range =>
      apply (interest_keep _ id _).trans
      rw [before]
      ext other
      · exact mem_outside_iff member range other
      · have covers := coherent.wellFormed.covers_remove range id id other
        simp only [true_and] at covers
        exact covers
  | addPostRemove channel body =>
      exact (interest_keep router id _).trans before.symm
  | clearPostRemoves channel =>
      exact (interest_keep router id _).trans before.symm
  | setName name => exact (interest_keep router id _).trans before.symm
  | setUrl url => exact (interest_keep router id _).trans before.symm

end Router

end ChannelRouter
