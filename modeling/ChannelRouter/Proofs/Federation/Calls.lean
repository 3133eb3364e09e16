import ChannelRouter.Proofs.Router.Expulsion

/-!
# Announcements act as calls

A link writes what it announces as bytes, and a parent reads them like those of
any participant.  What the parent then does is what the same call on behalf of
the link's participant would have done, to its tables, to everybody it hands
something to and to a parent of its own.  The queue in front of the parent
changes nothing about that.
-/

namespace ChannelRouter

theorem Emitting.bind_congr_value
    {α β : Type} {first : Emitting α} {next other : α → Emitting β}
    (same : next first.value = other first.value) :
    first >>= next = first >>= other := by
  apply Emitting.ext
  · rw [value_bind, value_bind, same]
  · rw [outputs_bind, outputs_bind, same]

namespace Director

variable {director : Director}

/-! ## One datagram after everything that waits -/

theorem dispatch_of_running (running : director.running = true) :
    director.dispatch =
      (fun router => { director with router, queue := [] }) <$>
        director.queue.foldlM
          (fun router queued => router.process queued.body queued.origin)
            director.router := by
  rw [dispatch, if_pos running, map_eq_pure_bind]

theorem dispatch_of_nothing (running : director.running = true)
    (nothing : director.queue = []) : director.dispatch = pure director := by
  rw [dispatch_of_running running, nothing, List.foldlM_nil,
    map_pure, ← nothing]

/--
The last datagram of the queue is processed by a director that has dispatched
the others.
-/
theorem dispatch_concat (running : director.running = true) (queued : Queued) :
    { director with queue := director.queue ++ [queued] }.dispatch =
      director.dispatch >>= fun settled =>
        (fun router => { settled with router }) <$>
          settled.router.process queued.body queued.origin := by
  have whole := @dispatch_of_running
    { director with queue := director.queue ++ [queued] } running
  rw [whole, dispatch_of_running running, List.foldlM_append,
    bind_map_left, map_bind]
  simp only [List.foldlM_cons, List.foldlM_nil, bind_pure]

/--
Queueing a datagram and dispatching everything is processing it after what
waits.
-/
theorem enqueue_and_dispatch (running : director.running = true)
    (queued : Queued) : director.step (.enqueue queued) >>= dispatch =
      director.dispatch >>= fun settled =>
        (fun router => { settled with router }) <$>
          settled.router.process queued.body queued.origin := by
  rw [step, enqueue, if_neg (by simp [running])]
  by_cases free : director.queue.length < director.room
  · rw [if_pos free]
    exact dispatch_concat running queued
  · rw [if_neg free]
    simp only [bind_assoc, pure_bind]
    apply Emitting.bind_congr_value
    -- The full queue has just been dispatched, so what is queued now is alone
    -- in it.
    have settles : director.dispatch.value.running = true ∧
        director.dispatch.value.queue = [] := by
      rw [dispatch_of_running running]
      exact ⟨running, rfl⟩
    rw [dispatch_concat settles.1,
      dispatch_of_nothing settles.1 settles.2, pure_bind]

theorem running_step_enqueue (running : director.running = true)
    (queued : Queued) :
    (director.step (.enqueue queued)).value.running = true := by
  rw [step, enqueue, if_neg (by simp [running])]
  by_cases free : director.queue.length < director.room
  · rw [if_pos free]
    exact running
  · rw [if_neg free, dispatch_of_running running]
    exact running

end Director

/-! ## One announcement -/

/--
Whatever a link in working order announces arrives as one datagram, and that
datagram does what the instruction does as a call: at once, and behind whatever
waits in a queue.  It never costs the participant from whom it comes its place.
-/
structure Instruction.ActsAsCall (instruction : Instruction) : Prop where
  queued : ∀ link : ParentLink, link.drained = true →
    link.announce instruction = [.toParent instruction.encode]
  obeyed : ∀ (router : Router) id member, router.members.get? id = some member →
    router.obey id instruction =
      .ok (router.process instruction.encode (some id))
  spared : ∀ (router : Router) id member, router.members.get? id = some member →
    (∃ updated, (router.process instruction.encode (some id)).value.members.get?
      id = some updated ∧ updated.participant = member.participant) ∧
    expulsions (router.process instruction.encode (some id)).outputs = []
  dispatched : ∀ (director : Director) id, director.running = true →
    director.step (.enqueue ⟨instruction.encode, some id⟩) >>=
      Director.dispatch =
      director.dispatch >>= (Director.step · (.call id instruction))

namespace Router

theorem process_encode_eq_step
    {instruction : Instruction} (counted : instruction.Counted)
    (router : Router) (id : ParticipantId) :
    router.process instruction.encode (some id) =
      router.step (.call id instruction) := by
  rw [process_some, Request.of_encode counted]

end Router

theorem Instruction.Counted.actsAsCall {instruction : Instruction}
    (counted : instruction.Counted) : instruction.ActsAsCall where
  queued := by
    intro link drained
    rw [ParentLink.announce, ParentLink.relay, if_pos drained]
  obeyed := by
    intro router id member found
    rw [Router.process_encode found counted, Router.obey_of_member found]
  spared := by
    intro router id member found
    rw [Router.process_encode found counted]
    exact ⟨Router.member_effect found instruction,
      Router.expulsions_effect router id member instruction⟩
  dispatched := by
    intro director id running
    rw [Director.enqueue_and_dispatch running]
    apply Emitting.bind_congr_value
    rw [Director.step_call, Router.process_encode_eq_step counted]

/-! ## All that a link announces -/

/--
Datagrams that act as calls do so one after the other, however often the queue
is full.
-/
theorem Director.run_announced
    {instructions : List Instruction}
    (each : ∀ instruction ∈ instructions, instruction.ActsAsCall)
    {director : Director} (running : director.running = true)
    (id : ParticipantId) :
    director.run
        (instructions.map (fun instruction =>
          .enqueue ⟨instruction.encode, some id⟩) ++ [.dispatch]) =
      director.dispatch >>=
        (Director.run · (instructions.map (.call id ·))) := by
  induction instructions generalizing director with
  | nil => rfl
  | cons instruction rest ih =>
      let queued : Queued := ⟨instruction.encode, some id⟩
      have others :=
        ih (fun other listed => each other (List.mem_cons_of_mem _ listed))
        (running_step_enqueue running queued)
      have first :=
        (each instruction List.mem_cons_self).dispatched director id running
      calc director.run (.enqueue queued ::
            (rest.map (fun instruction =>
              .enqueue ⟨instruction.encode, some id⟩) ++ [.dispatch]))
          = director.step (.enqueue queued) >>= fun settled =>
              settled.dispatch >>=
                (Director.run · (rest.map (.call id ·))) := by
            rw [run_cons]
            exact Emitting.bind_congr_value others
        _ = (director.step (.enqueue queued) >>= Director.dispatch) >>=
              (Director.run · (rest.map (.call id ·))) := (bind_assoc ..).symm
        _ = director.dispatch >>= fun settled =>
              settled.step (.call id instruction) >>=
                (Director.run · (rest.map (.call id ·))) := by
            rw [first, bind_assoc]
        _ = director.dispatch >>=
              (Director.run
                · (.call id instruction :: rest.map (.call id ·))) := by
            simp only [run_cons]

/--
Each of the six things that a link announces acts as a call at the parent, for
every channel, every range, and every datagram to be filed whose bytes can be
counted.  So do any number of them in a row.
-/
theorem announcements_act_as_calls :
    (∀ channel, (Instruction.addChannel channel).ActsAsCall) ∧
    (∀ channel, (Instruction.removeChannel channel).ActsAsCall) ∧
    (∀ range, (Instruction.addRange range).ActsAsCall) ∧
    (∀ range, (Instruction.removeRange range).ActsAsCall) ∧
    (∀ channel body, body.length < UInt32.size →
      (Instruction.addPostRemove channel body).ActsAsCall) ∧
    (∀ channel, (Instruction.clearPostRemoves channel).ActsAsCall) ∧
    ∀ instructions : List Instruction,
      (∀ instruction ∈ instructions, instruction.ActsAsCall) →
      ∀ (director : Director) id, director.running = true →
        director.run
            (instructions.map (fun instruction =>
              .enqueue ⟨instruction.encode, some id⟩) ++ [.dispatch]) =
          director.dispatch >>=
            (Director.run · (instructions.map (.call id ·))) := by
  have counted : ∀ {instruction : Instruction}, instruction.Counted →
    instruction.ActsAsCall :=
    Instruction.Counted.actsAsCall
  exact ⟨fun _ => counted trivial, fun _ => counted trivial, fun _ =>
    counted trivial, fun _ => counted trivial, fun _ _ fits => counted fits,
    fun _ => counted trivial,
    fun _ each _ id running => Director.run_announced each running id⟩

/--
A whole datagram filed through a queue with room for one, at a parent with a
parent.
-/
theorem announcements_act_as_calls_with_little_room :
    let news := (Field.header [7] 100 1).encode
    let filing := Instruction.addPostRemove 7 news
    let opening := Instruction.addChannel 9
    let director :=
      ((Director.start 1 (some .new)).run [.register ⟨1, 0⟩]).value
    let announced := director.run
      [.enqueue ⟨filing.encode, some 1⟩,
        .enqueue ⟨opening.encode, some 1⟩, .dispatch]
    news.length < UInt32.size ∧ director.running = true ∧
      announced = director.dispatch >>=
        (Director.run · [.call 1 filing, .call 1 opening]) ∧
      Federation.parentBound announced.outputs =
        [filing.encode, opening.encode] := by
  intro news filing opening director announced
  have fits : news.length < UInt32.size := by decide
  have running : director.running = true := by decide
  rcases announcements_act_as_calls with ⟨opens, _, _, _, files, _, inARow⟩
  have each : ∀ instruction ∈ [filing, opening], instruction.ActsAsCall := by
    intro instruction listed
    rcases List.mem_cons.mp listed with rfl | later
    · exact files 7 news fits
    · rw [List.mem_singleton.mp later]
      exact opens 9
  exact ⟨fits, running,
    inARow [filing, opening] each director 1 running, by decide⟩

end ChannelRouter
