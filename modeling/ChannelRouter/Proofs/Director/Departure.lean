import ChannelRouter.Proofs.Director.Deferral
import ChannelRouter.Proofs.Federation.Joint
import ChannelRouter.Proofs.Router.Expulsion

/-!
# Two ways to leave

A participant that is terminated has what it left behind queued, and the queue
makes of it what it makes of anything a stranger sends.  One that is expelled
has it routed on the spot.  Either way it has been detached before, so both owe
the same to those that are still there.
-/

namespace ChannelRouter

namespace Director

open Router

variable {director : Director} {id : ParticipantId}

theorem terminate_and_dispatch
    {detaching : Emitting (Router × Member)}
    (running : director.running = true) (nothing : director.queue = [])
    (detached : director.router.detach? id = some detaching) :
    let terminated := director.terminate id
    let drained := terminated >>= fun left => left.1.dispatch
    terminated.value.2 = .ok () ∧
      drained.value = { director with router := detaching.value.1 } ∧
      drained.outputs.Perm
        (detaching.outputs ++
          detaching.value.2.postRemoves.groups.flatMap
            (detaching.value.1.saidOfGroup id)) := by
  intro terminated drained
  have unknown := get?_of_detached detached
  have waits := waitsFor_of_nothing running nothing detaching.value.1 id
  rcases Defers.queueLeftBehind waits unknown
    detaching.value.2.postRemoves.groups with ⟨succeeds, queued⟩
  have dispatched := queued.append (Defers.dispatch queued.waits unknown)
  have settled := (queued.waits.dispatch unknown).2
  have isTerminated : terminated = detaching >>= fun left =>
      { director with router := left.1 }.queueLeftBehind id
        left.2.postRemoves.groups := by
    simp only [terminated, terminate, detached]
  have isDrained : drained = detaching >>= fun left =>
      { director with router := left.1 }.queueLeftBehind id
        left.2.postRemoves.groups >>= fun left => left.1.dispatch := by
    simp only [drained, isTerminated, bind_assoc]
  refine ⟨?_, ?_, ?_⟩
  · rw [isTerminated]
    exact succeeds
  · rw [isDrained]
    refine dispatched.kept.trans ?_
    rw [settled, ← nothing]
  · rw [isDrained]
    have said := dispatched.said_perm nothing settled
    rw [List.append_nil] at said
    exact said.append_left detaching.outputs

/--
With nothing waiting, terminating a member and dispatching what it left behind
comes to the same as expelling it, however much it left behind, of whatever
kind, and however little room there is.  The director ends up alike, everybody
is handed the same datagrams and the parent is sent the same, if in another
order.  Only, who is expelled is told so, once.
-/
theorem terminated_and_expelled_alike
    (running : director.running = true) (nothing : director.queue = [])
    {member : Member} (found : director.router.members.get? id = some member)
    (reason : String) :
    let terminated := director.terminate id
    let drained := terminated >>= fun left => left.1.dispatch
    let expelled := director.router.disconnect id reason
    terminated.value.2 = .ok () ∧
      drained.value = { director with router := expelled.value } ∧
      (∀ receiver, (Joint.handed receiver drained.outputs).Perm
        (Joint.handed receiver expelled.outputs)) ∧
      (Federation.parentBound drained.outputs).Perm
        (Federation.parentBound expelled.outputs) ∧
      expulsions drained.outputs = [] ∧
      expelled.outputs.Perm
        (.expel member.participant reason :: drained.outputs) := by
  intro terminated drained expelled
  rcases detach?_of_member found with ⟨detaching, detached, rfl⟩
  rcases terminate_and_dispatch running nothing detached
    with ⟨succeeds, alike, said⟩
  have gone : expelled.value = detaching.value.1 := by
    simp only [expelled, value_disconnect, Router.step, detached]
    rfl
  have told : expulsions expelled.outputs = _ :=
    expulsions_disconnect found reason
  have outputs : expelled.outputs.Perm
      (.expel detaching.value.2.participant reason :: drained.outputs) := by
    rw [outputs_disconnect detached reason]
    exact List.perm_middle.trans (said.symm.cons _)
  refine ⟨succeeds, gone ▸ alike, ?_, ?_, ?_, outputs⟩
  · intro receiver
    have same : (Joint.handed receiver expelled.outputs).Perm
        (Joint.handed receiver
          (.expel detaching.value.2.participant reason :: drained.outputs)) :=
      outputs.filterMap _
    exact same.symm
  · have same : (Federation.parentBound expelled.outputs).Perm
        (Federation.parentBound
          (.expel detaching.value.2.participant reason :: drained.outputs)) :=
      outputs.filterMap _
    exact same.symm
  · have same : (expulsions expelled.outputs).Perm
        (expulsions
          (.expel detaching.value.2.participant reason :: drained.outputs)) :=
      outputs.filterMap _
    rw [told] at same
    exact List.nil_perm.mp same.cons_inv

/--
Two groups, with a fault and an instruction among them, and room for one
datagram.
-/
theorem terminated_and_expelled_alike_with_little_room :
    let news := (Field.header [7] 100 1).encode
    let director := ((start 1 (some .new)).run
      [.register ⟨1, 0⟩, .register ⟨2, 0⟩, .call 2 (.addChannel 7),
        .call 1 (.addPostRemove 5 news), .call 1 (.addPostRemove 5 [1]),
        .call 1 (.addPostRemove 6 (Instruction.addChannel 7).encode),
        .call 1 (.addPostRemove 6 news)]).value
    let drained := director.terminate 1 >>= fun left => left.1.dispatch
    let expelled := director.router.disconnect 1 "gone"
    (director.running = true ∧ director.queue = []) ∧
      (∃ member, director.router.members.get? 1 = some member) ∧
      drained.value = { director with router := expelled.value } ∧
      (Joint.handed ⟨2, 0⟩ drained.outputs).Perm
        (Joint.handed ⟨2, 0⟩ expelled.outputs) ∧
      Joint.handed ⟨2, 0⟩ expelled.outputs = [news.drop 9, news.drop 9] ∧
      (Federation.parentBound drained.outputs).Perm
        (Federation.parentBound expelled.outputs) ∧
      Federation.parentBound drained.outputs ≠
        Federation.parentBound expelled.outputs := by
  intro news director drained expelled
  have running : director.running = true := by decide
  have nothing : director.queue = [] := by decide
  have known : (director.router.members.get? 1).isSome = true := by decide
  rcases Option.isSome_iff_exists.mp known with ⟨member, found⟩
  have alike := terminated_and_expelled_alike running nothing found "gone"
  exact ⟨⟨running, nothing⟩, ⟨member, found⟩, alike.2.1,
    alike.2.2.1 ⟨2, 0⟩, by decide, alike.2.2.2.1, by decide⟩

end Director

end ChannelRouter
