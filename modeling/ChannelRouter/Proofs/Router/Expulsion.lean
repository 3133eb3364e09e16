import ChannelRouter.Proofs.Director.Agreement
import ChannelRouter.Proofs.Router.Announces
import ChannelRouter.Proofs.Router.Grammar

/-!
# Who is expelled

Of all moves of a router only expelling expels.  So processing a datagram costs
a member its place exactly if the grammar of datagrams does not have it; then
the member is told so once, and nobody else is.
-/

namespace ChannelRouter

/-- Whom an output expels, and the reason that is given. -/
def Output.expulsion? : Output → Option (Participant × String)
  | expel participant reason => some (participant, reason)
  | _ => none

/-- Who is expelled among outputs, and the reasons that are given. -/
def expulsions (outputs : List Output) : List (Participant × String) :=
  outputs.filterMap Output.expulsion?

theorem expulsions_append (first second : List Output) :
    expulsions (first ++ second) = expulsions first ++ expulsions second :=
  List.filterMap_append

theorem expulsions_foldlM
    {σ α : Type} {step : σ → α → Emitting σ}
    (each : ∀ state item, expulsions (step state item).outputs = [])
    (items : List α) (start : σ) :
    expulsions (items.foldlM step start).outputs = [] := by
  have composes : Emitting.Composes fun (_ : σ) said (_ : σ) =>
      expulsions said = [] := by
    refine ⟨fun _ => rfl, ?_⟩
    intro first second third said more spares too
    rw [expulsions_append, spares, too, List.append_nil]
  exact composes.foldlM (fun state item _ => each state item) start

namespace Router

theorem expulsions_of_announces
    {allowed : Instruction → Prop} {outputs : List Output}
    (announces : Announces allowed outputs) : expulsions outputs = [] := by
  apply List.filterMap_eq_nil_iff.mpr
  intro output listed
  rcases announces output listed with ⟨instruction, _, rfl⟩
  rfl

theorem expulsions_announce (units : UnitTable) (instruction : Instruction) :
    expulsions (units.announce instruction) = [] :=
  expulsions_of_announces (announces_announce units (Eq.refl instruction))

theorem expulsions_forward
    (router : Router) (recipients : List Channel) (body : Datagram)
    (origin : Option ParticipantId) :
    expulsions (router.forward recipients body origin) = [] := by
  apply List.filterMap_eq_nil_iff.mpr
  intro output listed
  rw [forward, route_eq_map, List.mem_append] at listed
  rcases listed with routed | relayed
  · rcases List.mem_map.mp routed with ⟨receiver, _, rfl⟩
    rfl
  · rw [((mem_relay_iff router body origin output).mp relayed).1]
    rfl

theorem expulsions_effect
    (router : Router) (id : ParticipantId) (member : Member)
    (instruction : Instruction) :
    expulsions (router.effect id member instruction).outputs = [] :=
  expulsions_of_announces (announces_effect router id member instruction)

theorem expulsions_handleLeftBehind
    (id : ParticipantId) (router : Router) (body : Datagram) :
    expulsions (router.handleLeftBehind id body).outputs = [] := by
  rw [handleLeftBehind]
  cases handled : router.handle body (some id) with
  | error refusal => rfl
  | ok done =>
      rcases handle_eq_ok handled with
        ⟨actor, instruction, _, obeyed⟩ | ⟨recipients, _, rfl⟩
      · rcases obey_eq_ok obeyed with ⟨member, _, rfl⟩
        exact expulsions_effect router actor member instruction
      · exact expulsions_forward router recipients body (some id)

/-- Nothing that is left behind expels anybody. -/
theorem expulsions_routeLeftBehind
    (router : Router) (id : ParticipantId)
    (groups : List (Channel × List Datagram)) :
    expulsions (router.routeLeftBehind id groups).outputs = [] := by
  apply expulsions_foldlM
  intro before group
  simp only [Emitting.outputs_bind, Emitting.outputs_emit,
    Emitting.outputs_pure, expulsions_append,
    expulsions_foldlM (expulsions_handleLeftBehind id),
    expulsions_announce]
  rfl

variable {router : Router} {id : ParticipantId} {member : Member}

/-- A member can be detached, and what is given back is what was kept for it. -/
theorem detach?_of_member (found : router.members.get? id = some member) :
    ∃ detaching, router.detach? id = some detaching ∧
      detaching.value.2 = member := by
  rw [detach?, found]
  exact ⟨_, rfl, rfl⟩

theorem expulsions_disconnect
    (found : router.members.get? id = some member) (reason : String) :
    expulsions (router.disconnect id reason).outputs =
      [(member.participant, reason)] := by
  rcases detach?_of_member found with ⟨detaching, detached, rfl⟩
  rw [disconnect, detached]
  simp only [Emitting.outputs_bind, Emitting.outputs_emit, expulsions_append,
    expulsions_routeLeftBehind,
    expulsions_of_announces (announces_detach detached)]
  rfl

/--
What is in the grammar is obeyed or goes to its recipients, and costs nobody a
place.
-/
theorem process_of_grammatical
    (found : router.members.get? id = some member)
    {body : Datagram} (grammatical : body.Grammatical) :
    (router.process body (some id)).value.isRegistered id = true ∧
      expulsions (router.process body (some id)).outputs = [] := by
  have accepted := grammatical.not_malformed
  rw [process_some, isRegistered_iff]
  cases asks : Request.of body with
  | malformed cause =>
      rw [asks] at accepted
      cases accepted
  | instruct instruction =>
      rcases member_effect found instruction with ⟨updated, updatedFound, _⟩
      simp only [step, obey_of_member found]
      exact ⟨⟨updated, updatedFound⟩,
        expulsions_effect router id member instruction⟩
  | address recipients =>
      exact ⟨⟨member, found⟩,
        expulsions_forward router recipients body (some id)⟩

/-- What is not in the grammar is malformed, and costs its sender its place. -/
theorem process_of_not_grammatical
    (found : router.members.get? id = some member)
    {body : Datagram} (faulty : ¬ body.Grammatical) :
    (router.process body (some id)).value.isRegistered id = false ∧
      ∃ reason, expulsions (router.process body (some id)).outputs =
        [(member.participant, reason)] := by
  rw [← Datagram.isMalformed_eq_false_iff, Bool.not_eq_false] at faulty
  cases asks : Request.of body with
  | malformed cause =>
      refine ⟨isRegistered_process_of_malformed router id asks,
        cause.message, ?_⟩
      rw [process_some, asks]
      exact expulsions_disconnect found cause.message
  | instruct instruction =>
      rw [asks] at faulty
      cases faulty
  | address recipients =>
      rw [asks] at faulty
      cases faulty

/--
Processing a datagram of a member costs the member its place exactly if the
grammar does not have the datagram.  Then the member is expelled once, and
nobody else is; otherwise nobody is expelled.
-/
theorem loses_place_iff_not_grammatical
    (found : router.members.get? id = some member) (body : Datagram) :
    let processed := router.process body (some id)
    (processed.value.isRegistered id = false ↔ ¬ body.Grammatical) ∧
      (¬ body.Grammatical →
        ∃ reason, expulsions processed.outputs =
          [(member.participant, reason)]) ∧
      (body.Grammatical → expulsions processed.outputs = []) := by
  intro processed
  by_cases grammatical : body.Grammatical
  · rcases process_of_grammatical found grammatical with ⟨stays, spares⟩
    have keepsPlace : processed.value.isRegistered id ≠ false := by
      simp [processed, stays]
    refine ⟨iff_of_false keepsPlace (not_not_intro grammatical), ?_,
      fun _ => spares⟩
    exact fun faulty => absurd grammatical faulty
  · rcases process_of_not_grammatical found grammatical with ⟨gone, expelled⟩
    refine ⟨iff_of_true gone grammatical, fun _ => expelled, ?_⟩
    exact fun wellFormed => absurd wellFormed grammatical

/-- One byte of a channel is too few; no recipient at all is no fault. -/
theorem loses_place_with_a_truncated_instruction :
    let router := (empty (some .new)).register ⟨1, 0⟩
    let truncated := (Field.controlHeader 9000).encode ++ [7]
    let unaddressed := (Field.header [] 100 1).encode
    router.members.get? 1 = some (.new ⟨1, 0⟩) ∧
      ¬ Datagram.Grammatical truncated ∧
      (router.process truncated (some 1)).value.isRegistered 1 = false ∧
      (∃ reason, expulsions (router.process truncated (some 1)).outputs =
        [(⟨1, 0⟩, reason)]) ∧
      Datagram.Grammatical unaddressed ∧
      expulsions (router.process unaddressed (some 1)).outputs = [] := by
  intro router truncated unaddressed
  have found : router.members.get? 1 = some (.new ⟨1, 0⟩) := by decide
  have faulty : ¬ Datagram.Grammatical truncated := by decide
  have faultless : Datagram.Grammatical unaddressed := by decide
  have costs := loses_place_iff_not_grammatical found truncated
  have spares := loses_place_iff_not_grammatical found unaddressed
  exact ⟨found, faulty, costs.1.mpr faulty, costs.2.1 faulty, faultless,
    spares.2.2 faultless⟩

end Router

end ChannelRouter
