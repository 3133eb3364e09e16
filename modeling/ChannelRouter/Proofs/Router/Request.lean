import ChannelRouter.Proofs.Router.Effect

/-!
# What a datagram asks for

A datagram is malformed, or an instruction, or for somebody; which of the three
is a matter of its bytes alone.  Instructions and faults are the business of its
origin: a datagram whose origin is not a member changes nothing, and one that is
malformed does to the members, units and pieces what terminating its origin
does.
-/

namespace ChannelRouter

/-- What a datagram is, as its bytes have it. -/
inductive Request where
  | malformed (cause : FormatError)
  | instruct (instruction : Instruction)
  | address (recipients : List Channel)
deriving DecidableEq, Repr

/-- Read a datagram that comes from a participant. -/
def Request.of (body : Datagram) : Request :=
  match Read.recipients.runAt (Cursor.start body) with
  | (.error cause, _) => .malformed cause
  | (.ok recipients, cursor) =>
      if recipients = [Channel.control] then
        match (Read.instruction.runAt cursor).1 with
        | .error cause => .malformed cause
        | .ok instruction => .instruct instruction
      else
        match (Read.senderAndType.runAt cursor).1 with
        | .error cause => .malformed cause
        | .ok _ => .address recipients

/-- An instruction is recognised in the datagram it was written to. -/
theorem Request.of_encode {instruction : Instruction}
    (counted : instruction.Counted) :
    Request.of instruction.encode = .instruct instruction := by
  simp only [Request.of, Read.runAt_recipients_encode, if_true,
    Read.runAt_instruction_encode counted]

namespace Router

theorem request_eq_address_iff (body : Datagram) (recipients : List Channel) :
    Request.of body = .address recipients ↔ Addressed body recipients := by
  rw [Request.of, Addressed]
  rcases Read.recipients.runAt (Cursor.start body) with ⟨result, cursor⟩
  cases result with
  | error cause => simp
  | ok listed =>
      by_cases control : listed = [Channel.control]
      · subst control
        simp only [if_true]
        constructor
        · intro asks
          split at asks
          · cases asks
          · cases asks
        · rintro ⟨_, _, same, _, notControl⟩
          injection same with isListed
          injection isListed with isControl
          exact absurd isControl.symm notControl
      · simp only [if_neg control]
        cases complete : (Read.senderAndType.runAt cursor).1 with
        | error cause =>
            constructor
            · intro asks
              cases asks
            · rintro ⟨_, _, same, incomplete, _⟩
              injection same with _ isCursor
              rw [← isCursor, complete] at incomplete
              cases incomplete
        | ok fields =>
            constructor
            · intro asks
              injection asks with isListed
              subst isListed
              exact ⟨cursor, fields, rfl, complete, control⟩
            · rintro ⟨_, _, same, _, _⟩
              injection same with isListed
              injection isListed with isRecipients
              rw [isRecipients]

theorem handle_some (router : Router) (body : Datagram) (id : ParticipantId) :
    router.handle body (some id) =
      match Request.of body with
      | .malformed cause => .error (.malformed cause)
      | .instruct instruction => router.obey id instruction
      | .address recipients =>
          .ok ⟨router, router.forward recipients body (some id)⟩ := by
  rw [Router.handle, Request.of]
  rcases reading : Read.recipients.runAt (Cursor.start body)
    with ⟨result, cursor⟩
  cases result with
  | error cause => rfl
  | ok recipients =>
      simp only
      by_cases control : recipients = [Channel.control]
      · simp only [if_pos control]
        cases (Read.instruction.runAt cursor).1 <;> rfl
      · simp only [if_neg control]
        cases (Read.senderAndType.runAt cursor).1 with
        | error cause => rfl
        | ok fields =>
            rw [Read.position_recipients reading]
            rfl

/-- What a participant asks for is done, and a fault costs it its place. -/
theorem process_some (router : Router) (body : Datagram) (id : ParticipantId) :
    router.process body (some id) =
      match Request.of body with
      | .malformed cause => router.disconnect id cause.message
      | .instruct instruction => router.step (.call id instruction)
      | .address recipients =>
          ⟨router, router.forward recipients body (some id)⟩ := by
  unfold process
  rw [handle_some]
  cases Request.of body with
  | malformed cause => rfl
  | address recipients => rfl
  | instruct instruction =>
      simp only [step]
      cases found : router.members.get? id with
      | none =>
          rw [obey_of_unknown found]
          rfl
      | some member => rw [obey_of_member found]

/-- The parent can address participants, and nothing else. -/
theorem process_none (router : Router) (body : Datagram) :
    router.process body none =
      match Request.of body with
      | .address recipients => ⟨router, router.forward recipients body none⟩
      | _ => pure router := by
  unfold process handle Request.of
  rcases reading : Read.recipients.runAt (Cursor.start body)
    with ⟨result, cursor⟩
  cases result with
  | error cause => rfl
  | ok recipients =>
      simp only
      by_cases control : recipients = [Channel.control]
      · simp only [if_pos control]
        cases (Read.instruction.runAt cursor).1 <;> rfl
      · simp only [if_neg control]
        cases (Read.senderAndType.runAt cursor).1 with
        | error cause => rfl
        | ok fields =>
            rw [Read.position_recipients reading]
            rfl

/-! ## On behalf of somebody who is gone -/

section Gone

variable {router : Router} {id : ParticipantId}

theorem disconnect_of_unknown
    (unknown : router.members.get? id = none) (reason : String) :
    router.disconnect id reason = pure router := by
  simp [disconnect, detach?, unknown]

/-- Whatever a participant that is gone has sent is treated as left behind. -/
theorem process_of_unknown
    (unknown : router.members.get? id = none) (body : Datagram) :
    router.process body (some id) = router.handleLeftBehind id body := by
  rw [process_some, handleLeftBehind, handle_some]
  cases Request.of body with
  | malformed cause => exact disconnect_of_unknown unknown cause.message
  | address recipients => rfl
  | instruct instruction =>
      have ignored : router.step (.call id instruction) = pure router := by
        simp only [step, obey_of_unknown unknown]
      refine ignored.trans ?_
      simp only [obey_of_unknown unknown]

theorem value_handleLeftBehind_of_unknown
    (unknown : router.members.get? id = none) (body : Datagram) :
    (router.handleLeftBehind id body).value = router := by
  rw [handleLeftBehind, handle_some]
  cases Request.of body with
  | malformed cause => rfl
  | instruct instruction =>
      simp only
      rw [obey_of_unknown unknown]
      rfl
  | address recipients => rfl

/-- What comes of a group that a participant left behind. -/
def saidOfGroup (router : Router) (id : ParticipantId)
    (group : Channel × List Datagram) : List Output :=
  group.2.flatMap (fun body => (router.handleLeftBehind id body).outputs) ++
    router.units.announce (.clearPostRemoves group.1)

theorem routeLeftBehind_of_unknown
    (unknown : router.members.get? id = none)
    (groups : List (Channel × List Datagram)) :
    router.routeLeftBehind id groups =
      ⟨router, groups.flatMap (router.saidOfGroup id)⟩ := by
  have bodies : ∀ bodies : List Datagram,
      bodies.foldlM (handleLeftBehind id) router =
      ⟨router, bodies.flatMap fun body =>
        (router.handleLeftBehind id body).outputs⟩ :=
    fun bodies => Emitting.foldlM_of_stays fun body _ =>
      value_handleLeftBehind_of_unknown unknown body
  rw [routeLeftBehind, Emitting.foldlM_of_stays]
  · simp only [bodies, Emitting.outputs_bind, Emitting.outputs_emit,
      Emitting.outputs_pure, List.append_nil]
    rfl
  · intro group _
    rw [Emitting.value_bind, bodies]
    rfl

end Gone

theorem members_detach
    {router : Router} {id : ParticipantId}
    {detaching : Emitting (Router × Member)}
    (detached : router.detach? id = some detaching) :
    detaching.value.1.members = router.members.erase id := by
  rcases Option.map_eq_some_iff.mp detached with ⟨member, _, rfl⟩
  rfl

theorem get?_of_detached
    {router : Router} {id : ParticipantId}
    {detaching : Emitting (Router × Member)}
    (detached : router.detach? id = some detaching) :
    detaching.value.1.members.get? id = none := by
  rw [members_detach detached, Table.get?_erase, if_pos rfl]

/-- Nothing that a participant leaves behind changes a router without it. -/
theorem value_disconnect (router : Router) (id : ParticipantId)
    (reason : String) :
    (router.disconnect id reason).value =
      (router.step (.terminate id)).value := by
  rw [disconnect, step]
  cases detached : router.detach? id with
  | none => rfl
  | some detaching =>
      have stays : (detaching.value.1.routeLeftBehind id
          detaching.value.2.postRemoves.groups).value = detaching.value.1 := by
        rw [routeLeftBehind_of_unknown (get?_of_detached detached)]
      exact stays

theorem outputs_disconnect
    {router : Router} {id : ParticipantId}
    {detaching : Emitting (Router × Member)}
    (detached : router.detach? id = some detaching) (reason : String) :
    (router.disconnect id reason).outputs = detaching.outputs ++
      .expel detaching.value.2.participant reason ::
        detaching.value.2.postRemoves.groups.flatMap
          (detaching.value.1.saidOfGroup id) := by
  rw [disconnect, detached]
  simp only [Emitting.outputs_bind, Emitting.outputs_emit,
    routeLeftBehind_of_unknown (get?_of_detached detached)]
  rfl

/-- What becomes of the router, whoever a datagram comes from. -/
theorem value_process (router : Router) (body : Datagram) (id : ParticipantId) :
    (router.process body (some id)).value =
      match Request.of body with
      | .malformed _ => (router.step (.terminate id)).value
      | .instruct instruction => (router.step (.call id instruction)).value
      | .address _ => router := by
  rw [process_some]
  cases Request.of body with
  | malformed cause => exact value_disconnect router id cause.message
  | instruct instruction => rfl
  | address recipients => rfl

theorem value_process_none (router : Router) (body : Datagram) :
    (router.process body none).value = router := by
  rw [process_none]
  cases Request.of body <;> rfl

end Router

end ChannelRouter
