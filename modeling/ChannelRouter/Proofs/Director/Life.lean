import ChannelRouter.Proofs.Director.Departure
import ChannelRouter.Proofs.Federation.Calls

/-!
# The life of a participant

A participant is welcomed, its datagrams are processed one after the other, and
then it is dismissed: terminated, and what that queued is dispatched.  As long
as it sends what the grammar has, it keeps its place until it is dismissed,
nobody else loses a place, and nothing of what it causes comes back to it.
-/

namespace ChannelRouter

/-! ## Outputs that spare a participant -/

/-- The output expels nobody, and it is not for the participant. -/
def Output.Spares (id : ParticipantId) : Output → Prop
  | deliver receiver _ => receiver.id ≠ id
  | toParent _ => True
  | expel _ _ => False

/-- All outputs spare the participant. -/
def Spared (id : ParticipantId) (outputs : List Output) : Prop :=
  ∀ output ∈ outputs, output.Spares id

theorem spared_nil {id : ParticipantId} : Spared id [] :=
  fun _ impossible => nomatch impossible

theorem Spared.append
    {id : ParticipantId} {first second : List Output}
    (spared : Spared id first) (too : Spared id second) :
    Spared id (first ++ second) := by
  intro output listed
  rcases List.mem_append.mp listed with here | there
  · exact spared output here
  · exact too output there

namespace Router

variable {router : Router} {id : ParticipantId} {member : Member}
  {body : Datagram}

theorem spared_of_announces
    {allowed : Instruction → Prop} {outputs : List Output}
    (announces : Announces allowed outputs) (id : ParticipantId) :
    Spared id outputs := by
  intro output listed
  rcases announces output listed with ⟨instruction, _, rfl⟩
  trivial

/-- What is forwarded never goes back to where it came from. -/
theorem spared_forward
    (router : Router) (recipients : List Channel) (body : Datagram)
    (id : ParticipantId) :
    Spared id (router.forward recipients body (some id)) := by
  rw [forward, route_eq_map]
  apply Spared.append
  · intro output listed
    rcases List.mem_map.mp listed with ⟨receiver, isReceiver, rfl⟩
    have foreign := of_decide_eq_true (List.mem_filter.mp isReceiver).2
    exact fun same => foreign (congrArg some same)
  · intro output listed
    rw [((mem_relay_iff router body (some id) output).mp listed).1]
    trivial

theorem spared_handleLeftBehind (id : ParticipantId) (router : Router)
    (body : Datagram) :
    Spared id (router.handleLeftBehind id body).outputs := by
  rw [handleLeftBehind]
  cases handled : router.handle body (some id) with
  | error refusal => exact spared_nil
  | ok done =>
      rcases handle_eq_ok handled with
        ⟨actor, instruction, _, obeyed⟩ | ⟨recipients, _, rfl⟩
      · rcases obey_eq_ok obeyed with ⟨member, _, rfl⟩
        exact spared_of_announces
          (announces_effect router actor member instruction) id
      · exact spared_forward router recipients body id

theorem spared_saidOfGroup
    (router : Router) (id : ParticipantId) (group : Channel × List Datagram) :
    Spared id (router.saidOfGroup id group) := by
  apply Spared.append
  · intro output listed
    rcases List.mem_flatMap.mp listed with ⟨body, _, here⟩
    exact spared_handleLeftBehind id router body output here
  · exact spared_of_announces
      (announces_announce router.units
        (Eq.refl (Instruction.clearPostRemoves group.1))) id

/-- A datagram in the grammar leaves its sender registered, and spares it. -/
theorem spared_process
    (registered : router.isRegistered id = true)
    (grammatical : body.Grammatical) :
    (router.process body (some id)).value.isRegistered id = true ∧
      Spared id (router.process body (some id)).outputs := by
  rcases (isRegistered_iff router id).mp registered with ⟨member, found⟩
  refine ⟨(process_of_grammatical found grammatical).1, ?_⟩
  have accepted := grammatical.not_malformed
  rw [process_some]
  cases asks : Request.of body with
  | malformed cause =>
      rw [asks] at accepted
      cases accepted
  | instruct instruction =>
      simp only [step, obey_of_member found]
      exact spared_of_announces
        (announces_effect router id member instruction) id
  | address recipients => exact spared_forward router recipients body id

end Router

namespace Director

open Router

variable {director : Director} {id : ParticipantId} {bodies : List Datagram}

/-! ## The life of a participant -/

/-- Process a datagram at once, unless the director has shut down. -/
def process (director : Director) (queued : Queued) : Emitting Director :=
  if director.running then
    (fun router => { director with router }) <$>
      director.router.process queued.body queued.origin
  else pure director

/-- Give a newcomer an identifier and register it. -/
def welcome (director : Director) : Director :=
  director.takeId.2.register ⟨director.takeId.1, 1⟩

/-- Process the datagrams of a participant in their order. -/
def hear (director : Director) (id : ParticipantId) (bodies : List Datagram) :
    Emitting Director :=
  bodies.foldlM (fun director body => director.process ⟨body, some id⟩) director

/-- Terminate a participant, and dispatch what that queued. -/
def dismiss (director : Director) (id : ParticipantId) : Emitting Director :=
  director.step (.terminate id) >>= dispatch

/-- A newcomer is welcomed, its datagrams are processed, and it is dismissed. -/
def life (director : Director) (bodies : List Datagram) : Emitting Director :=
  director.welcome.hear director.nextId bodies >>= (dismiss · director.nextId)

theorem hear_append (director : Director) (id : ParticipantId)
    (earlier later : List Datagram) :
    director.hear id (earlier ++ later) =
      director.hear id earlier >>= (hear · id later) :=
  List.foldlM_append

theorem hear_concat (director : Director) (id : ParticipantId)
    (earlier : List Datagram) (body : Datagram) :
    director.hear id (earlier ++ [body]) =
      director.hear id earlier >>= (process · ⟨body, some id⟩) := by
  rw [hear_append]
  simp only [hear, List.foldlM_cons, List.foldlM_nil, bind_pure]

/-! ## Queueing and processing -/

theorem dispatch_of_stopped (stopped : director.running = false) :
    director.dispatch = pure director := by
  rw [dispatch, if_neg (by simp [stopped])]

theorem running_dispatch (director : Director) :
    director.dispatch.value.running = director.running := by
  rw [dispatch]
  split <;> rfl

theorem dispatch_dispatch (director : Director) :
    director.dispatch.value.dispatch = pure director.dispatch.value := by
  cases running : director.running with
  | false =>
      rw [dispatch_of_stopped running, Emitting.value_pure,
        dispatch_of_stopped running]
  | true =>
      apply dispatch_of_nothing
      · rw [running_dispatch, running]
      · rw [dispatch_of_running running]
        rfl

theorem enqueue_of_stopped (stopped : director.running = false)
    (queued : Queued) : director.enqueue queued = .error .shutdown := by
  rw [enqueue, if_pos (by simp [stopped])]

theorem enqueue_of_running (running : director.running = true)
    (queued : Queued) :
    director.enqueue queued = .ok (director.step (.enqueue queued)) := by
  rw [step, enqueue, if_neg (by simp [running])]
  split <;> rfl

/--
A datagram that is queued is processed after everything that waits, if at all.
-/
theorem enqueue_and_process (director : Director) (queued : Queued) :
    director.step (.enqueue queued) >>= dispatch =
      director.dispatch >>= (process · queued) := by
  cases running : director.running with
  | false =>
      have refused : director.step (.enqueue queued) = pure director := by
        rw [step, enqueue_of_stopped running]
      rw [refused, pure_bind, dispatch_of_stopped running, pure_bind, process,
        if_neg (by simp [running])]
  | true =>
      rw [enqueue_and_dispatch running]
      apply Emitting.bind_congr_value
      rw [process, if_pos (by rw [running_dispatch, running])]

/-! ## While the participant is there -/

/-- Nothing waits, and the participant is registered. -/
structure Attends (director : Director) (id : ParticipantId) : Prop where
  nothing : director.queue = []
  registered : director.router.isRegistered id = true

theorem attends_welcome (nothing : director.queue = []) :
    director.welcome.Attends director.nextId where
  nothing := nothing
  registered := by
    rw [isRegistered_iff]
    refine ⟨.new ⟨director.nextId, 1⟩, ?_⟩
    simp [welcome, takeId, register, Router.register]

/-- Nothing comes of dispatching while nothing waits. -/
theorem Attends.settled (attends : director.Attends id) :
    director.dispatch = pure director := by
  cases running : director.running with
  | false => exact dispatch_of_stopped running
  | true => exact dispatch_of_nothing running attends.nothing

theorem Attends.process
    (attends : director.Attends id) {body : Datagram}
    (grammatical : body.Grammatical) :
    (director.process ⟨body, some id⟩).value.Attends id ∧
      Spared id (director.process ⟨body, some id⟩).outputs := by
  rw [Director.process]
  split
  · rcases spared_process attends.registered grammatical
      with ⟨registered, spared⟩
    rw [Emitting.outputs_map]
    exact ⟨⟨attends.nothing, registered⟩, spared⟩
  · exact ⟨attends, spared_nil⟩

theorem Attends.hear
    (attends : director.Attends id)
    (grammatical : ∀ body ∈ bodies, body.Grammatical) :
    (director.hear id bodies).value.Attends id ∧
      Spared id (director.hear id bodies).outputs :=
  (Emitting.composes_keeping (Attends · id) (Output.Spares id)).foldlM
    (fun _ body listed present => present.process (grammatical body listed))
      director attends

theorem running_process (director : Director) (queued : Queued) :
    (director.process queued).value.running = director.running := by
  rw [process]
  split <;> rfl

theorem running_hear (director : Director) (id : ParticipantId)
    (bodies : List Datagram) :
    (director.hear id bodies).value.running = director.running := by
  induction bodies generalizing director with
  | nil => rfl
  | cons body rest ih =>
      exact (ih _).trans (running_process director ⟨body, some id⟩)

theorem hear_of_stopped (stopped : director.running = false) :
    director.hear id bodies = pure director := by
  induction bodies with
  | nil => rfl
  | cons body rest ih =>
      rw [hear, List.foldlM_cons, process,
        if_neg (by simp [stopped]), pure_bind]
      exact ih

/-! ## When the participant is dismissed -/

/--
Nothing comes to whoever is dismissed, and all that it left behind can be
queued.
-/
structure Goes (director : Director) (id : ParticipantId) : Prop where
  queued : (director.terminate id).value.2 = .ok ()
  spared : Spared id (director.dismiss id).outputs

theorem dismiss_eq (director : Director) (id : ParticipantId) :
    director.dismiss id = director.terminate id >>= fun left =>
      left.1.dispatch := by
  rw [dismiss, step, bind_map_left]

theorem isRegistered_dismiss (director : Director) (id : ParticipantId) :
    (director.dismiss id).value.router.isRegistered id = false := by
  have dismissed : (director.dismiss id).value =
      (director.run [.terminate id, .dispatch]).value :=
    rfl
  rw [dismissed, run_cons, Emitting.value_bind]
  apply isRegistered_run _ (isRegistered_terminate director id)
  intro participant registers
  cases List.mem_singleton.mp registers

theorem Attends.goes
    (attends : director.Attends id) (running : director.running = true) :
    director.Goes id := by
  rcases (isRegistered_iff _ id).mp attends.registered with ⟨member, found⟩
  rcases detach?_of_member found with ⟨detaching, detached, _⟩
  rcases terminate_and_dispatch running attends.nothing detached
    with ⟨queued, _, said⟩
  refine ⟨queued, ?_⟩
  intro output listed
  rw [dismiss_eq] at listed
  rcases List.mem_append.mp (said.mem_iff.mp listed) with announced | leftBehind
  · exact spared_of_announces (announces_detach detached) id output announced
  · rcases List.mem_flatMap.mp leftBehind with ⟨group, _, here⟩
    exact spared_saidOfGroup detaching.value.1 id group output here

/-- Whoever has just been welcomed has left nothing behind. -/
theorem goes_welcome_of_stopped (stopped : director.running = false) :
    director.welcome.Goes director.nextId := by
  have found : director.welcome.router.members.get? director.nextId =
      some (.new ⟨director.nextId, 1⟩) := by
    simp [welcome, takeId, register, Router.register]
  rcases detach?_of_member found with ⟨detaching, detached, isNew⟩
  have leaves : director.welcome.terminate director.nextId =
      detaching >>= fun left =>
        pure ({ director.welcome with router := left.1 }, .ok ()) := by
    simp only [terminate, detached]
    apply Emitting.bind_congr_value
    rw [isNew]
    rfl
  refine ⟨by rw [leaves]; rfl, ?_⟩
  rw [dismiss_eq, leaves]
  have silent := @dispatch_of_stopped
    { director.welcome with router := detaching.value.1 } stopped
  simp only [Emitting.outputs_bind, Emitting.value_bind, Emitting.outputs_pure,
    Emitting.value_pure, silent, List.append_nil]
  exact spared_of_announces (announces_detach detached) director.nextId

/--
Whatever is on file when a participant is dismissed is routed once it is gone.
-/
theorem Attends.routes_filed
    (attends : director.Attends id) (running : director.running = true)
    {member : Member} (found : director.router.members.get? id = some member)
    {channel : Channel} {left : Datagram}
    (filed : left ∈ member.postRemoves.under channel) :
    (handleLeftBehind id (director.dismiss id).value.router left).outputs ⊆
      (director.dismiss id).outputs := by
  rcases detach?_of_member found with ⟨detaching, detached, rfl⟩
  rcases terminate_and_dispatch running attends.nothing detached
    with ⟨_, reached, said⟩
  rw [dismiss_eq, reached]
  intro output caused
  apply said.mem_iff.mpr
  apply List.mem_append_right
  cases filing : detaching.value.2.postRemoves.filed.get? channel with
  | none =>
      rw [PostRemoves.under, filing] at filed
      exact absurd filed List.not_mem_nil
  | some under =>
      rw [PostRemoves.under, filing] at filed
      refine List.mem_flatMap.mpr
        ⟨(channel, under), Table.mem_of_lookup filing, ?_⟩
      apply List.mem_append_left
      exact List.mem_flatMap.mpr ⟨left, filed, caused⟩

/-! ## The whole life -/

theorem goes_heard
    (nothing : director.queue = [])
    (grammatical : ∀ body ∈ bodies, body.Grammatical) :
    (director.welcome.hear director.nextId bodies).value.Goes
      director.nextId := by
  cases running : director.running with
  | false =>
      rw [@hear_of_stopped director.welcome director.nextId bodies running]
      exact goes_welcome_of_stopped running
  | true =>
      apply ((attends_welcome nothing).hear grammatical).1.goes
      rw [running_hear]
      exact running

theorem spared_life
    (nothing : director.queue = [])
    (grammatical : ∀ body ∈ bodies, body.Grammatical) :
    Spared director.nextId (director.life bodies).outputs :=
  ((attends_welcome nothing).hear grammatical).2.append
    (goes_heard nothing grammatical).spared

/--
What a participant files with its last datagram is routed once it is gone.
-/
theorem routes_last_filed
    (nothing : director.queue = []) (running : director.running = true)
    {earlier : List Datagram} {last : Datagram}
    (grammatical : ∀ body ∈ earlier ++ [last], body.Grammatical)
    {channel : Channel} {left : Datagram}
    (files : Request.of last = .instruct (.addPostRemove channel left)) :
    let lived := director.life (earlier ++ [last])
    (handleLeftBehind director.nextId lived.value.router left).outputs ⊆
      lived.outputs := by
  intro lived
  have heardAll := (attends_welcome nothing).hear grammatical
  have heardEarlier := (attends_welcome nothing).hear fun body listed =>
    grammatical body (List.mem_append_left _ listed)
  rw [hear_concat] at heardAll
  let heard := (director.welcome.hear director.nextId earlier).value
  let after := (heard.process ⟨last, some director.nextId⟩).value
  have heardRunning : heard.running = true := (running_hear _ _ _).trans running
  have afterRunning : after.running = true :=
    (running_process _ _).trans heardRunning
  rcases (isRegistered_iff _ _).mp heardEarlier.1.registered
    with ⟨member, found⟩
  have isLived : lived = director.welcome.hear director.nextId earlier >>=
      (process · ⟨last, some director.nextId⟩) >>=
        (dismiss · director.nextId) := by
    rw [← hear_concat]
    rfl
  have filed : after.router.members.get? director.nextId =
      some { member with
        postRemoves := member.postRemoves.add channel left } := by
    have obeyed : heard.router.process last (some director.nextId) =
        heard.router.effect director.nextId member
          (.addPostRemove channel left) := by
      rw [process_some, files]
      simp only [Router.step, heard, obey_of_member found]
    simp only [after]
    rw [process, if_pos heardRunning, Emitting.value_map, obeyed]
    simp [Router.effect, Router.keep]
  have isUnder :
      left ∈ (member.postRemoves.add channel left).under channel := by simp
  have routes := heardAll.1.routes_filed afterRunning filed isUnder
  rw [isLived]
  exact fun output caused => List.mem_append_right _ (routes caused)

end Director

end ChannelRouter
