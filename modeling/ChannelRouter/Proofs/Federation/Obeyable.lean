import ChannelRouter.Proofs.Router.Account
import ChannelRouter.Proofs.Router.Announces
import ChannelRouter.Proofs.Router.Mirror

/-!
# What a router queues for its parent can be obeyed

Whatever a router queues for its parent is an announcement or has a whole
header, so it never costs the link its place.  Even a post-remove that is too
long for its count is announced as a post-remove, if a shorter one.
-/

namespace ChannelRouter

namespace Word

theorem bytes_mod (width number : Nat) :
    bytes width (number % 256 ^ width) = bytes width number := by
  have written := bytes_value (bytes width number)
  rwa [length_bytes, value_bytes] at written

end Word

namespace Read

/-- The count is cut to four bytes, and what it counts is read. -/
theorem reads_cut_blob (bytes : List UInt8) :
    blob.Reads (Word.bytes 4 bytes.length ++ bytes.take (bytes.length % 2 ^ 32))
      (bytes.take (bytes.length % 2 ^ 32)) := by
  have cut : (UInt32.ofNat bytes.length).toNat = bytes.length % 2 ^ 32 :=
    UInt32.toNat_ofNat
  have count := reads_u32 (UInt32.ofNat bytes.length)
  have content := reads_take (bytes.take (bytes.length % 2 ^ 32))
  have written : Word.bytes 4 (bytes.length % 2 ^ 32) =
      Word.bytes 4 bytes.length :=
    Word.bytes_mod 4 bytes.length
  rw [cut, written] at count
  rw [List.length_take, Nat.min_eq_left (Nat.mod_le _ _), ← cut] at content
  rw [← cut]
  exact count.bind content

theorem reads_addPostRemove (channel : Channel) (body : Datagram) :
    Read.instruction.Reads
      (Field.typeBytes 9010 ++ (Field.channelBytes channel ++
        (Word.bytes 4 body.length ++ body.take (body.length % 2 ^ 32))))
      (.addPostRemove channel (body.take (body.length % 2 ^ 32))) := by
  apply (reads_u16 9010).bind
  apply (reads_channel channel).bind
  apply (reads_cut_blob body).finish
  exact reads_pure _

end Read

theorem Request.of_addPostRemove (channel : Channel) (body : Datagram) :
    Request.of (Instruction.addPostRemove channel body).encode =
      .instruct
        (.addPostRemove channel (body.take (body.length % 2 ^ 32))) := by
  have reads := (Read.reads_addPostRemove channel body).runAt_behind
    (1 :: Field.channelBytes Channel.control) (body.drop (body.length % 2 ^ 32))
  have written : (Instruction.addPostRemove channel body).encode =
      (1 :: Field.channelBytes Channel.control) ++
        ((Field.typeBytes 9010 ++ (Field.channelBytes channel ++
            (Word.bytes 4 body.length ++ body.take (body.length % 2 ^ 32)))) ++
          body.drop (body.length % 2 ^ 32)) := by
    rw [Read.encode_eq_append]
    simp [Instruction.code, ControlCode.messageType,
      Instruction.fields, Field.encode, Field.counted]
  rw [← written] at reads
  simp only [Request.of, Read.runAt_recipients_encode, if_true]
  rw [show (1 :: Field.channelBytes Channel.control).length = 9 from rfl]
    at reads
  rw [reads]

namespace Router

/-- The parent can obey the datagram, or pass it on. -/
def Obeyable (body : Datagram) : Prop :=
  (∃ instruction, Request.of body = .instruct instruction ∧
      changesInterest body = instruction.isSubscription) ∨
    ∃ recipients, Addressed body recipients

theorem obeyable_encode
    {instruction : Instruction}
    (announced : instruction.isSubscription = true ∨
      instruction.isFiling = true) :
    Obeyable instruction.encode := by
  have changes := changesInterest_encode instruction
  cases instruction with
  | addPostRemove channel body =>
      exact Or.inl ⟨_, Request.of_addPostRemove channel body, changes⟩
  | addChannel channel => exact Or.inl ⟨_, Request.of_encode trivial, changes⟩
  | removeChannel channel =>
      exact Or.inl ⟨_, Request.of_encode trivial, changes⟩
  | addRange range => exact Or.inl ⟨_, Request.of_encode trivial, changes⟩
  | removeRange range => exact Or.inl ⟨_, Request.of_encode trivial, changes⟩
  | clearPostRemoves channel =>
      exact Or.inl ⟨_, Request.of_encode trivial, changes⟩
  | setName name =>
      rcases announced with impossible | impossible <;> cases impossible
  | setUrl url =>
      rcases announced with impossible | impossible <;> cases impossible

/-! ## What is queued -/

/-- Everything that is queued for the parent can be obeyed there. -/
def Civil (outputs : List Output) : Prop :=
  ∀ body, .toParent body ∈ outputs → Obeyable body

theorem civil_nil : Civil [] := fun _ impossible => nomatch impossible

theorem Civil.append {first second : List Output} (civil : Civil first)
    (too : Civil second) : Civil (first ++ second) := by
  intro body listed
  rcases List.mem_append.mp listed with here | there
  · exact civil body here
  · exact too body there

theorem composes_civil {σ : Type} :
    Emitting.Composes fun (_ : σ) said (_ : σ) => Civil said where
  stay := fun _ => civil_nil
  append := Civil.append

/-- Announcements can be obeyed. -/
theorem Announces.civil
    {allowed : Instruction → Prop} {outputs : List Output}
    (announces : Announces allowed outputs)
    (known : ∀ instruction, allowed instruction →
      instruction.isSubscription = true ∨ instruction.isFiling = true) :
        Civil outputs := by
  intro body listed
  rcases announces _ listed with ⟨instruction, isAllowed, same⟩
  injection same with isBody
  rw [isBody]
  exact obeyable_encode (known instruction isAllowed)

theorem civil_effect
    (router : Router) (id : ParticipantId) (member : Member)
    (instruction : Instruction) :
    Civil (router.effect id member instruction).outputs := by
  apply (announces_effect router id member instruction).civil
  rintro announced (subscription | ⟨rfl, filing⟩)
  · exact Or.inl subscription
  · exact Or.inr filing

theorem civil_forward
    (router : Router) {body : Datagram} {recipients : List Channel}
    (origin : Option ParticipantId) (addressed : Addressed body recipients) :
    Civil (router.forward recipients body origin) := by
  intro other queued
  have listed :
      other ∈ Federation.parentBound (router.forward recipients body origin) :=
    List.mem_filterMap.mpr ⟨_, queued, rfl⟩
  rw [forward, parentBound_append, parentBound_route, parentBound_relay]
    at listed
  split at listed
  · cases List.mem_singleton.mp listed
    exact Or.inr ⟨recipients, addressed⟩
  · cases listed

/-- Every move is civil. -/
theorem respected_civil : Respected fun _ said _ => Civil said where
  toComposes := composes_civil
  obey := by
    intro router id instruction done obeyed
    rcases obey_eq_ok obeyed with ⟨member, _, rfl⟩
    exact civil_effect router id member instruction
  forward :=
    fun router _ _ origin addressed => civil_forward router origin addressed
  detach := fun detached => (announces_detach detached).civil fun _ => Or.inl
  expel := by
    intro router participant reason body listed
    cases List.mem_singleton.mp listed
  withdraw := by
    intro router channel
    have announces : Announces (·.isFiling = true)
        (router.units.announce (.clearPostRemoves channel)) :=
      announces_announce router.units rfl
    exact announces.civil fun _ => Or.inr

end Router

end ChannelRouter
