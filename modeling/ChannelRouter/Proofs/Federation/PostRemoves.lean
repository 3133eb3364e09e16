import ChannelRouter.Proofs.Director.LeftBehind
import ChannelRouter.Proofs.Federation.Obeyable

/-!
# What the parent has on file

A router tells its parent what is filed and what is withdrawn under a channel,
but not on whose behalf.  So the parent keeps one file where the router keeps
one for each participant.  Everything filed reaches the parent's file, and stays
there until anything is withdrawn under the channel, by whomever; then the file
is empty, whatever others still have pending.
-/

namespace ChannelRouter

/-- What is read back of a datagram behind a count of four bytes. -/
def Datagram.cut (body : Datagram) : Datagram :=
  body.take (body.length % 2 ^ 32)

namespace Instruction

/-- What is filed under a channel. -/
def filedUnder? (channel : Channel) : Instruction → Option Datagram
  | addPostRemove under body => if under = channel then some body else none
  | _ => none

/-- What the parent reads when it is told of an instruction that is obeyed. -/
def mirrored : Instruction → List Instruction
  | addPostRemove channel body => [.addPostRemove channel body.cut]
  | clearPostRemoves channel => [.clearPostRemoves channel]
  | _ => []

end Instruction

namespace PostRemoves

variable {channel : Channel} {instructions : List Instruction}

/-- What is filed comes after what is there, unless something is withdrawn. -/
theorem under_foldl_after
    (kept : .clearPostRemoves channel ∉ instructions)
    (postRemoves : PostRemoves) :
    (instructions.foldl after postRemoves).under channel =
      postRemoves.under channel ++
        instructions.filterMap (·.filedUnder? channel) := by
  induction instructions generalizing postRemoves with
  | nil => simp
  | cons instruction rest ih =>
      have keptLater : .clearPostRemoves channel ∉ rest :=
        fun listed => kept (List.mem_cons_of_mem instruction listed)
      rw [List.foldl_cons, ih keptLater]
      cases instruction with
      | addPostRemove under body =>
          by_cases same : under = channel
          · subst same
            simp [after, Instruction.filedUnder?]
          · simp [after, Instruction.filedUnder?, same, Ne.symm same]
      | clearPostRemoves under =>
          have different : channel ≠ under := by
            rintro rfl
            exact kept List.mem_cons_self
          simp [after, Instruction.filedUnder?, different]
      | _ => simp [after, Instruction.filedUnder?]

/-- Nothing is left where something was withdrawn and nothing filed. -/
theorem under_foldl_after_eq_nil
    (nothing : ∀ body, .addPostRemove channel body ∉ instructions)
    {postRemoves : PostRemoves}
    (withdrawn : postRemoves.under channel = [] ∨
      .clearPostRemoves channel ∈ instructions) :
    (instructions.foldl after postRemoves).under channel = [] := by
  induction instructions generalizing postRemoves with
  | nil =>
      rcases withdrawn with already | impossible
      · exact already
      · cases impossible
  | cons instruction rest ih =>
      rw [List.foldl_cons]
      apply ih fun body listed =>
        nothing body (List.mem_cons_of_mem instruction listed)
      cases instruction with
      | addPostRemove under body =>
          have different : channel ≠ under := by
            rintro rfl
            exact nothing body List.mem_cons_self
          simpa [after, different] using withdrawn
      | clearPostRemoves under =>
          by_cases same : channel = under
          · simp [after, same]
          · simpa [after, same] using withdrawn
      | _ => simpa [after] using withdrawn

/-- An instruction adds at most what it files. -/
theorem under_after_sublist
    (postRemoves : PostRemoves) (instruction : Instruction)
    (channel : Channel) :
    ((postRemoves.after instruction).under channel).Sublist
      (postRemoves.under channel ++
        (instruction.filedUnder? channel).toList) := by
  cases instruction with
  | addPostRemove under body =>
      by_cases same : channel = under
      · simp [after, Instruction.filedUnder?, same]
      · simp [after, Instruction.filedUnder?, same, Ne.symm same]
  | clearPostRemoves under =>
      by_cases same : channel = under
      · simp [after, Instruction.filedUnder?, same]
      · simp [after, Instruction.filedUnder?, same]
  | _ => simp [after, Instruction.filedUnder?]

end PostRemoves

namespace Router

variable {router : Router} {id : ParticipantId} {channel : Channel}

/-! ## What the parent is told -/

/-- What a datagram asks its receiver to file or to withdraw. -/
def filing? (body : Datagram) : Option Instruction :=
  match Request.of body with
  | .instruct instruction =>
      if instruction.isFiling then some instruction else none
  | _ => none

/-- What outputs ask the parent to file or to withdraw, in order. -/
def filings (outputs : List Output) : List Instruction :=
  (Federation.parentBound outputs).filterMap filing?

@[simp]
theorem filings_nil : filings [] = [] := rfl

theorem filings_append (first second : List Output) :
    filings (first ++ second) = filings first ++ filings second := by
  rw [filings, parentBound_append, List.filterMap_append]
  rfl

theorem mem_filings_iff (outputs : List Output) (instruction : Instruction) :
    instruction ∈ filings outputs ↔
      ∃ body, .toParent body ∈ outputs ∧ filing? body = some instruction := by
  have bound : ∀ body, body ∈ Federation.parentBound outputs ↔
      .toParent body ∈ outputs := by
    intro body
    rw [Federation.parentBound, List.mem_filterMap]
    constructor
    · rintro ⟨output, listed, isBody⟩
      cases output with
      | toParent other =>
          injection isBody with isBody
          exact isBody ▸ listed
      | deliver receiver other => cases isBody
      | expel participant reason => cases isBody
    · exact fun listed => ⟨_, listed, rfl⟩
  simp only [filings, List.mem_filterMap, bound]

theorem filing?_of_instruct
    {body : Datagram} {instruction : Instruction}
    (files : filing? body = some instruction) :
    Request.of body = .instruct instruction := by
  rw [filing?] at files
  split at files
  · rename_i asked asks
    split at files
    · injection files with same
      rw [asks, same]
    · cases files
  · cases files

theorem filing?_of_addressed
    {body : Datagram} {recipients : List Channel}
    (asks : Request.of body = .address recipients) :
    filing? body = none := by
  rw [filing?, asks]

theorem filing?_encode_of_isSubscription
    {instruction : Instruction}
    (subscription : instruction.isSubscription = true) :
    filing? instruction.encode = none := by
  rw [filing?, Request.of_encode
    (Instruction.counted_of_isSubscription subscription)]
  cases instruction
  case addPostRemove => cases subscription
  case clearPostRemoves => cases subscription
  all_goals rfl

theorem Announces.filings_eq_nil
    {outputs : List Output}
    (announces : Announces (·.isSubscription = true) outputs) :
    filings outputs = [] := by
  rw [List.eq_nil_iff_forall_not_mem]
  intro instruction listed
  rcases (mem_filings_iff outputs instruction).mp listed
    with ⟨body, queued, files⟩
  rcases announces _ queued with ⟨announced, subscription, same⟩
  injection same with isBody
  rw [isBody, filing?_encode_of_isSubscription subscription] at files
  cases files

theorem filings_announce
    {units : UnitTable} (linked : units.parent = some .new)
    {instruction : Instruction} (filing : instruction.isFiling = true) :
    filings (units.announce instruction) = instruction.mirrored := by
  have told : Federation.parentBound (units.announce instruction) =
      [instruction.encode] := by
    rw [UnitTable.announce, linked]
    rfl
  rw [filings, told, List.filterMap_cons, List.filterMap_nil, filing?]
  cases instruction with
  | addPostRemove under body =>
      rw [Request.of_addPostRemove]
      rfl
  | clearPostRemoves under =>
      have asks : Request.of (Instruction.clearPostRemoves under).encode =
          .instruct (.clearPostRemoves under) := Request.of_encode trivial
      rw [asks]
      rfl
  | _ => cases filing

theorem filings_effect
    (linked : router.parent = some .new) (id : ParticipantId) (member : Member)
    (instruction : Instruction) :
    filings (router.effect id member instruction).outputs =
      instruction.mirrored := by
  have silent : instruction.isFiling = false →
      filings (router.effect id member instruction).outputs = [] := by
    intro other
    apply Announces.filings_eq_nil
    apply (announces_effect router id member instruction).mono
    rintro announced (subscription | ⟨_, filing⟩)
    · exact subscription
    · rw [other] at filing
      cases filing
  cases instruction with
  | addPostRemove under body =>
      rw [effect, Emitting.outputs_bind, Emitting.outputs_pure, List.append_nil]
      exact filings_announce linked rfl
  | clearPostRemoves under =>
      rw [effect, Emitting.outputs_bind, Emitting.outputs_pure, List.append_nil]
      exact filings_announce linked rfl
  | _ => exact silent rfl

theorem filings_forward
    (router : Router) {body : Datagram} {recipients : List Channel}
    (origin : Option ParticipantId)
    (asks : Request.of body = .address recipients) :
    filings (router.forward recipients body origin) = [] := by
  rw [filings, forward, parentBound_append, parentBound_route,
    parentBound_relay]
  split
  · simp [filing?_of_addressed asks]
  · rfl

/-! ## Who filed it -/

/-- What a participant has filed among others. -/
def filedBy (id : ParticipantId) (filed : List (ParticipantId × Datagram)) :
    List Datagram :=
  (filed.filter (·.1 = id)).map (·.2)

theorem pending_effect
    {member : Member} (found : router.members.get? id = some member)
    (instruction : Instruction) (other : ParticipantId) (channel : Channel) :
    (router.effect id member instruction).value.pending other channel =
      if other = id then (member.postRemoves.after instruction).under channel
      else router.pending other channel := by
  split
  · rename_i same
    subst same
    rcases exists_get?_effect found (router.interest other) instruction with
      ⟨updated, here, isAfter, _⟩
    rw [pending, here, ← isAfter]
    rfl
  · rename_i different
    rw [pending, pending, get?_effect_of_ne different]

/--
All that a router puts out to be filed under a channel can be attributed to
participants such that each has nothing pending but what it had before and what
is attributed to it.
-/
def Attributes (channel : Channel) (before : Router) (said : List Output)
    (after : Router) : Prop :=
  before.parent = some .new → after.parent = some .new ∧
    ∃ filed : List (ParticipantId × Datagram),
      (filings said).filterMap (·.filedUnder? channel) = filed.map (·.2.cut) ∧
        ∀ id, (after.pending id channel).Sublist
          (before.pending id channel ++ filedBy id filed)

theorem attributes_of_silent
    {before after : Router} {said : List Output}
    (sameParent : after.parent = before.parent)
    (nothing : (filings said).filterMap (·.filedUnder? channel) = [])
    (fewer : ∀ id, (after.pending id channel).Sublist
      (before.pending id channel)) :
    Attributes channel before said after := by
  intro linked
  refine ⟨sameParent.trans linked, [], nothing, ?_⟩
  intro id
  rw [filedBy, List.filter_nil, List.map_nil, List.append_nil]
  exact fewer id

theorem composes_attributes (channel : Channel) :
    Emitting.Composes (Attributes channel) where
  stay := fun _ => attributes_of_silent rfl rfl fun _ => List.Sublist.refl _
  append := by
    intro first second third said more earlier later linked
    rcases earlier linked with ⟨linkedBetween, filed, isSaid, pending⟩
    rcases later linkedBetween
      with ⟨linkedAfter, filedLater, isMore, pendingLater⟩
    refine ⟨linkedAfter, filed ++ filedLater, ?_, ?_⟩
    · rw [filings_append, List.filterMap_append, isSaid, isMore,
        List.map_append]
    · intro id
      rw [filedBy, List.filter_append, List.map_append, ← List.append_assoc]
      exact (pendingLater id).trans ((pending id).append (List.Sublist.refl _))

theorem attributes_obey
    {instruction : Instruction} {done : Emitting Router}
    (obeyed : router.obey id instruction = .ok done) :
    Attributes channel router done.outputs done.value := by
  rcases obey_eq_ok obeyed with ⟨member, found, rfl⟩
  intro linked
  refine ⟨(parent_effect router id member instruction).trans linked,
    (instruction.filedUnder? channel).toList.map (id, ·), ?_, ?_⟩
  · rw [filings_effect linked]
    cases instruction with
    | addPostRemove under body =>
        by_cases same : under = channel <;>
          simp [Instruction.mirrored, Instruction.filedUnder?, same]
    | _ => rfl
  · intro other
    rw [pending_effect found]
    split
    · rename_i same
      have here : router.pending other channel =
          member.postRemoves.under channel := by
        rw [pending, same, found]
        rfl
      have all :
          filedBy other ((instruction.filedUnder? channel).toList.map (id, ·)) =
          (instruction.filedUnder? channel).toList := by
        rw [same]
        cases instruction.filedUnder? channel <;> simp [filedBy]
      rw [here, all]
      exact member.postRemoves.under_after_sublist instruction channel
    · exact List.sublist_append_left _ _

theorem respected_attributes (channel : Channel) :
    Respected (Attributes channel) where
  toComposes := composes_attributes channel
  obey := attributes_obey
  forward := by
    intro router body recipients origin addressed
    have asks := (request_eq_address_iff body recipients).mpr addressed
    apply attributes_of_silent rfl
    · rw [filings_forward router origin asks]
      rfl
    · exact fun _ => List.Sublist.refl _
  detach := by
    -- The parent is not told here: what is withdrawn on a departure are moves
    -- of their own.
    intro router id detaching detached
    apply attributes_of_silent (respected_parent.detach detached)
    · rw [(announces_detach detached).filings_eq_nil]
      rfl
    · intro other
      rw [pending, members_detach detached, Table.get?_erase]
      split
      · exact List.nil_sublist _
      · exact List.Sublist.refl _
  expel := by
    intro router participant reason
    exact attributes_of_silent rfl rfl fun _ => List.Sublist.refl _
  withdraw := by
    intro router under linked
    refine ⟨linked, [], ?_, fun _ => List.sublist_append_left _ _⟩
    rw [filings_announce linked rfl]
    rfl

theorem attributes_register (router : Router) (participant : Participant) :
    Attributes channel router [] (router.register participant) := by
  refine attributes_of_silent rfl rfl ?_
  intro id
  rw [pending, register, Table.get?_insert]
  split
  · exact List.nil_sublist _
  · exact List.Sublist.refl _

/-! ## Moves that withdraw -/

/--
If the output asks the parent for anything about post-removes, it withdraws
some.
-/
def OnlyWithdraws : Output → Prop
  | .toParent body =>
      ∀ instruction, filing? body = some instruction →
        ∃ channel, instruction = .clearPostRemoves channel
  | _ => True

theorem onlyWithdraws_of_filings
    {outputs : List Output}
    (each : ∀ instruction ∈ filings outputs, ∃ channel, instruction =
      .clearPostRemoves channel) :
    ∀ output ∈ outputs, OnlyWithdraws output := by
  intro output listed
  cases output with
  | toParent body =>
      intro instruction files
      exact each instruction
        ((mem_filings_iff outputs instruction).mpr ⟨body, listed, files⟩)
  | deliver receiver body => trivial
  | expel participant reason => trivial

theorem clear_of_mem_filings
    {outputs : List Output} (only : ∀ output ∈ outputs, OnlyWithdraws output) :
    ∀ instruction ∈ filings outputs, ∃ channel, instruction =
      .clearPostRemoves channel := by
  intro instruction listed
  rcases (mem_filings_iff outputs instruction).mp listed
    with ⟨body, queued, files⟩
  exact only _ queued instruction files

theorem onlyWithdraws_announce
    (units : UnitTable) (channel : Channel) :
    ∀ output ∈ units.announce (.clearPostRemoves channel),
      OnlyWithdraws output := by
  have announces : Announces (· = .clearPostRemoves channel)
      (units.announce (.clearPostRemoves channel)) :=
        announces_announce units rfl
  intro output listed
  rcases announces output listed with ⟨_, rfl, rfl⟩
  intro instruction files
  have asks := filing?_of_instruct files
  have written : Request.of (Instruction.clearPostRemoves channel).encode =
      .instruct (.clearPostRemoves channel) := Request.of_encode trivial
  rw [written] at asks
  injection asks with same
  exact ⟨channel, same.symm⟩

/-- Of what somebody left behind who is gone, nothing is filed. -/
theorem onlyWithdraws_routeLeftBehind
    (unknown : router.members.get? id = none)
    (groups : List (Channel × List Datagram)) :
    ∀ output ∈ (router.routeLeftBehind id groups).outputs,
      OnlyWithdraws output := by
  intro output listed
  rw [routeLeftBehind_of_unknown unknown] at listed
  rcases List.mem_flatMap.mp listed with ⟨group, _, said⟩
  rcases List.mem_append.mp said with ofBodies | withdraws
  · rcases List.mem_flatMap.mp ofBodies with ⟨body, _, handled⟩
    refine onlyWithdraws_of_filings ?_ output handled
    rw [handleLeftBehind, handle_some]
    cases asks : Request.of body with
    | malformed cause => simp
    | instruct instruction => simp [obey_of_unknown unknown]
    | address recipients => simp [filings_forward router (some id) asks]
  · exact onlyWithdraws_announce _ group.1 output withdraws

theorem onlyWithdraws_disconnect (router : Router) (id : ParticipantId)
    (reason : String) :
    ∀ output ∈ (router.disconnect id reason).outputs, OnlyWithdraws output := by
  rw [disconnect]
  cases detached : router.detach? id with
  | none => simp
  | some detaching =>
      intro output listed
      rcases List.mem_append.mp listed with detaches | others
      · refine onlyWithdraws_of_filings ?_ output detaches
        simp [(announces_detach detached).filings_eq_nil]
      · rcases List.mem_append.mp others with expels | routes
        · rw [List.mem_singleton.mp expels]
          trivial
        · exact onlyWithdraws_routeLeftBehind
            (get?_of_detached detached) _ output routes

/-- A move files or withdraws, if it does either, but not both. -/
theorem not_mem_filings_step
    (linked : router.parent = some .new) {event : Event}
    (withdraws : .clearPostRemoves channel ∈
      filings (router.step event).outputs)
    (under : Channel) (body : Datagram) :
    .addPostRemove under body ∉ filings (router.step event).outputs := by
  have called : ∀ id instruction,
      .clearPostRemoves channel ∈
        filings (router.step (.call id instruction)).outputs →
        .addPostRemove under body ∉
          filings (router.step (.call id instruction)).outputs := by
    intro id instruction withdrawn
    simp only [step] at withdrawn ⊢
    cases found : router.members.get? id with
    | none => simp [obey_of_unknown found]
    | some member =>
        simp only [obey_of_member found, filings_effect linked] at withdrawn ⊢
        cases instruction <;> simp [Instruction.mirrored] at withdrawn ⊢
  cases event with
  | register participant => simp [step]
  | call id instruction => exact called id instruction withdraws
  | process whole origin =>
      cases origin with
      | none =>
          simp only [step, process_none]
          cases asks : Request.of whole with
          | malformed cause => simp
          | instruct instruction => simp
          | address recipients => simp [filings_forward router none asks]
      | some id =>
          simp only [step, process_some] at withdraws ⊢
          cases asks : Request.of whole with
          | malformed cause =>
              intro files
              rcases clear_of_mem_filings
                (onlyWithdraws_disconnect router id cause.message) _ files
                with ⟨_, impossible⟩
              cases impossible
          | instruct instruction =>
              rw [asks] at withdraws
              exact called id instruction withdraws
          | address recipients => simp [filings_forward router (some id) asks]
  | terminate id =>
      simp only [step]
      cases detached : router.detach? id with
      | none => simp
      | some detaching => simp [(announces_detach detached).filings_eq_nil]
  | withdraw other =>
      intro files
      rcases clear_of_mem_filings (onlyWithdraws_announce router.units other) _
        files with
        ⟨_, impossible⟩
      cases impossible

/-! ## What the parent has on file -/

/--
The parent with which a link has registered and has replayed what is about
post-removes.
-/
def registry (above : Option ParentLink) (link : Participant)
    (outputs : List Output) : Router :=
  ((empty above).run
    (.register link ::
      ((Federation.parentBound outputs).filter fun body =>
        (filing? body).isSome).map
        fun body => .process body (some link.id))).value

theorem postRemoves_replayed
    {parent : Router} {member : Member}
    (found : parent.members.get? id = some member) (bodies : List Datagram) :
    ∃ updated, (parent.run
        ((bodies.filter fun body => (filing? body).isSome).map
          fun body => .process body (some id))).value.members.get? id =
          some updated ∧
      updated.postRemoves =
        (bodies.filterMap filing?).foldl PostRemoves.after
          member.postRemoves := by
  induction bodies generalizing parent member with
  | nil => exact ⟨member, found, rfl⟩
  | cons body rest ih =>
      cases files : filing? body with
      | none =>
          rw [List.filter_cons_of_neg (by simp [files]),
            List.filterMap_cons_none files]
          exact ih found
      | some instruction =>
          have obeyed : parent.step (.process body (some id)) =
              parent.effect id member instruction := by
            simp only [step, process_some, filing?_of_instruct files,
              obey_of_member found]
          rcases exists_get?_effect found (parent.interest id) instruction with
            ⟨between, betweenFound, isAfter, _⟩
          rcases ih betweenFound with ⟨updated, updatedFound, isUpdated⟩
          rw [List.filter_cons_of_pos (by simp [files]), List.map_cons,
            run_cons, obeyed, List.filterMap_cons_some files, List.foldl_cons,
            ← isAfter]
          exact ⟨updated, updatedFound, isUpdated⟩

theorem pending_registry
    (above : Option ParentLink) (link : Participant) (outputs : List Output)
    (channel : Channel) :
    (registry above link outputs).pending link.id channel =
      ((filings outputs).foldl PostRemoves.after .empty).under channel := by
  have registered : ((empty above).register link).members.get? link.id =
      some (.new link) := by
    simp [register]
  rcases postRemoves_replayed registered (Federation.parentBound outputs) with
    ⟨updated, found, isUpdated⟩
  have here : (registry above link outputs).members.get? link.id =
      some updated := found
  rw [pending, here, Option.map_some, Option.getD_some, isUpdated]
  rfl

theorem pending_registry_append
    (above : Option ParentLink) (link : Participant) (outputs : List Output)
    {more : List Output} (kept : .clearPostRemoves channel ∉ filings more) :
    (registry above link (outputs ++ more)).pending link.id channel =
      (registry above link outputs).pending link.id channel ++
        (filings more).filterMap (·.filedUnder? channel) := by
  rw [pending_registry, pending_registry, filings_append, List.foldl_append,
    PostRemoves.under_foldl_after kept]

theorem pending_registry_append_of_withdrawn
    (above : Option ParentLink) (link : Participant) (outputs : List Output)
    {more : List Output} (withdrawn : .clearPostRemoves channel ∈ filings more)
    (nothing : ∀ body, .addPostRemove channel body ∉ filings more) :
    (registry above link (outputs ++ more)).pending link.id channel = [] := by
  rw [pending_registry, filings_append, List.foldl_append]
  exact PostRemoves.under_foldl_after_eq_nil nothing (Or.inr withdrawn)

theorem run_concat_call
    {director : Director} {events : List Director.Event} {member : Member}
    (found : (director.run events).value.router.members.get? id = some member)
    (instruction : Instruction) :
    let before := director.run events
    let after := director.run (events ++ [.call id instruction])
    let effect := before.value.router.effect id member instruction
    after.outputs = before.outputs ++ effect.outputs ∧
      after.value.router = effect.value := by
  intro before after effect
  have isAfter : after = before >>= (Director.run · [.call id instruction]) :=
    Director.run_append director events [.call id instruction]
  rw [isAfter, Emitting.outputs_bind, Emitting.value_bind, Director.run_cons,
    Director.step_call, Router.step, obey_of_member found]
  exact ⟨congrArg _ ((List.append_nil _).trans (List.append_nil _)), rfl⟩

/--
A director makes moves of its router, and the parent files what it is told.
From any point on, as long as nothing is withdrawn under a channel, everything
filed under it comes to the parent, behind what was there; and what a
participant has pending in the end it had pending at that point, or it is at the
parent.  But a move that withdraws anything under a channel leaves the parent
with nothing under it.  So when one member withdraws what it has filed, or
withdraws without having filed anything, what others have pending stays pending
here and is lost at the parent.
-/
theorem filed_since_the_last_withdrawal_is_at_the_parent
    (capacity : Nat) (events : List Director.Event) (above : Option ParentLink)
    (link : Participant) :
    let below := (Director.start capacity (some .new)).run events
    (∃ moves : List Event,
      (empty (some .new)).run moves = ⟨below.value.router, below.outputs⟩ ∧
      (∀ channel earlier later, moves = earlier ++ later →
        let before := (empty (some .new)).run earlier
        .clearPostRemoves channel ∉ filings (before.value.run later).outputs →
          ∃ filed : List (ParticipantId × Datagram),
            (registry above link below.outputs).pending link.id channel =
                (registry above link before.outputs).pending link.id channel ++
                  filed.map (·.2.cut) ∧
              ∀ id, (below.value.router.pending id channel).Sublist
                (before.value.pending id channel ++ filedBy id filed)) ∧
      ∀ channel earlier move later, moves = earlier ++ move :: later →
        let before := (empty (some .new)).run earlier
        let after := (empty (some .new)).run (earlier ++ [move])
        .clearPostRemoves channel ∈ filings (before.value.step move).outputs →
          (registry above link after.outputs).pending link.id channel = []) ∧
    ∀ id other channel, other ≠ id →
      below.value.router.isRegistered other = true →
      let after := (Director.start capacity (some .new)).run
        (events ++ [.call other (.clearPostRemoves channel)])
      (registry above link after.outputs).pending link.id channel = [] ∧
        after.value.router.pending id channel =
          below.value.router.pending id channel := by
  intro below
  have linked : ∀ moves : List Event,
      ((empty (some .new)).run moves).value.parent = some .new :=
    fun moves => parent_run (empty (some .new)) moves
  rcases Director.exists_router_run
    (Director.start capacity (some .new)) events with
    ⟨moves, reaches, emits, _⟩
  have isRun : (empty (some .new)).run moves =
      ⟨below.value.router, below.outputs⟩ := by
    rw [← reaches, ← emits]
    rfl
  constructor
  · refine ⟨moves, isRun, ?_, ?_⟩
    · intro channel earlier later split before kept
      have registers : ∀ (router : Router) (participant : Participant),
          Attributes channel router [] (router.register participant) :=
            attributes_register
      have attributes :=
        (respected_attributes channel).run registers before.value later
      rcases attributes (linked earlier) with ⟨_, filed, isSaid, pending⟩
      -- The run goes on from the split, and so does the stream of what the
      -- parent is told.
      have composed : before >>= (run · later) =
          ⟨below.value.router, below.outputs⟩ := by
        rw [← isRun, split, run_append]
      have said : below.outputs =
          before.outputs ++ (before.value.run later).outputs :=
        (congrArg Emitting.outputs composed).symm
      have reached : below.value.router = (before.value.run later).value :=
        (congrArg Emitting.value composed).symm
      refine ⟨filed, ?_, ?_⟩
      · rw [said, pending_registry_append above link
          before.outputs kept, isSaid]
      · rw [reached]
        exact pending
    · intro channel earlier move later split before after withdrawn
      have said : after.outputs =
          before.outputs ++ (before.value.step move).outputs := by
        show ((empty (some .new)).run (earlier ++ [move])).outputs = _
        rw [run_append, Emitting.outputs_bind, run_cons, Emitting.outputs_bind]
        exact congrArg _ (List.append_nil _)
      rw [said]
      apply pending_registry_append_of_withdrawn above link
        before.outputs withdrawn
      exact not_mem_filings_step (linked earlier) withdrawn channel
  · intro id other channel different known after
    rcases (isRegistered_iff _ _).mp known with ⟨member, found⟩
    have stays : below.value.router.parent = some .new := by
      rw [← reaches]
      exact linked moves
    rcases run_concat_call found (.clearPostRemoves channel)
      with ⟨said, reached⟩
    have told : filings
        (below.value.router.effect other member
          (.clearPostRemoves channel)).outputs =
          [.clearPostRemoves channel] := filings_effect stays other member _
    constructor
    · show (registry above link after.outputs).pending link.id channel = []
      rw [said]
      apply pending_registry_append_of_withdrawn
      · rw [told]
        exact List.mem_singleton_self _
      · intro body listed
        rw [told] at listed
        cases List.mem_singleton.mp listed
    · show after.value.router.pending id channel = _
      rw [reached, pending_effect found, if_neg (Ne.symm different)]

/--
Somebody withdraws who has filed nothing.  What another has filed stays pending
here, but the parent has forgotten it and sends nothing when the link is lost.
-/
theorem withdrawing_nothing_loses_what_another_has_filed :
    let will := Datagram.ofFields [.header [5] 1 3]
    let events : List Director.Event :=
      [.register ⟨1, 0⟩, .register ⟨2, 0⟩, .call 1 (.addPostRemove 7 will),
        .call 2 (.clearPostRemoves 7)]
    let below := (Director.start 4096 (some .new)).run events
    let parent := registry (some .new) ⟨4, 0⟩ below.outputs
    below.value.router.pending 1 7 = [will] ∧ parent.pending 4 7 = [] ∧
      (parent.disconnect 4 "").outputs = [.expel ⟨4, 0⟩ ""] := by
  decide

end Router

end ChannelRouter
