import ChannelRouter.Proofs.Director
import ChannelRouter.Proofs.Router.Request

/-!
# What is left behind waits for its turn

A participant that is gone can neither be obeyed nor be at fault, so whenever
something that it left behind is dispatched, it only goes to its recipients and
to the parent.  Queueing therefore says later what routing says now: what has
been said and what is still owed to those that wait make up what was due before,
in another order.
-/

namespace ChannelRouter

namespace Director

open Router

variable {director : Director} {router : Router} {id : ParticipantId}

/--
The director has the router, and nothing waits but for the sake of one
participant.
-/
structure WaitsFor (director : Director) (router : Router)
    (id : ParticipantId) : Prop where
  running : director.running = true
  router_eq : director.router = router
  queue : ∀ queued ∈ director.queue, queued.origin = some id

/--
What becomes of a director without a waiting datagram that gets another router.
-/
theorem waitsFor_of_nothing
    (running : director.running = true) (nothing : director.queue = [])
    (router : Router) (id : ParticipantId) :
    { director with router }.WaitsFor router id := by
  refine ⟨running, rfl, ?_⟩
  show ∀ queued ∈ director.queue, queued.origin = some id
  rw [nothing]
  exact fun _ impossible => nomatch impossible

/-- What is still to come of datagrams that a participant left behind. -/
def owed (router : Router) (id : ParticipantId) (waiting : List Queued) :
    List Output :=
  waiting.flatMap fun queued => (router.handleLeftBehind id queued.body).outputs

theorem owed_concat (waiting : List Queued) (queued : Queued) :
    owed router id (waiting ++ [queued]) =
      owed router id waiting ++
        (router.handleLeftBehind id queued.body).outputs := by
  rw [owed, List.flatMap_append, List.flatMap_singleton, owed]

namespace WaitsFor

theorem dispatch_eq
    (waits : director.WaitsFor router id)
    (unknown : router.members.get? id = none) :
    director.dispatch =
      ⟨{ director with queue := [] }, owed router id director.queue⟩ := by
  have leftBehind : ∀ queued ∈ director.queue,
      router.process queued.body queued.origin =
        router.handleLeftBehind id queued.body := by
    intro queued listed
    rw [waits.queue queued listed, process_of_unknown unknown]
  have stays : ∀ queued ∈ director.queue,
      (router.process queued.body queued.origin).value = router := by
    intro queued listed
    rw [leftBehind queued listed, value_handleLeftBehind_of_unknown unknown]
  have said : director.queue.flatMap
      (fun queued => (router.process queued.body queued.origin).outputs) =
        owed router id director.queue :=
    List.flatMap_congr fun queued listed =>
      congrArg Emitting.outputs (leftBehind queued listed)
  rw [Director.dispatch, if_pos waits.running, waits.router_eq,
    Emitting.foldlM_of_stays stays, said]
  apply Emitting.ext
  · rw [← waits.router_eq]
    rfl
  · exact List.append_nil _

theorem dispatch
    (waits : director.WaitsFor router id)
    (unknown : router.members.get? id = none) :
    director.dispatch.value.WaitsFor router id ∧
      director.dispatch.value.queue = [] := by
  rw [waits.dispatch_eq unknown]
  exact ⟨⟨waits.running, waits.router_eq, fun _ impossible =>
    nomatch impossible⟩, rfl⟩

theorem concat
    (waits : director.WaitsFor router id) {queued : Queued}
    (sent : queued.origin = some id) :
    { director with queue := director.queue ++ [queued] }.WaitsFor
      router id where
  running := waits.running
  router_eq := waits.router_eq
  queue := by
    intro other listed
    rcases List.mem_append.mp listed with before | last
    · exact waits.queue other before
    · rw [List.mem_singleton.mp last, sent]

end WaitsFor

/--
The director goes from one state to another, nothing but its queue changing.
What it has said and what it still owes are what it owed before and what came
due.
-/
structure Defers
    (router : Router) (id : ParticipantId)
    (before : Director) (said : List Output) (after : Director)
    (due : List Output) : Prop where
  waits : after.WaitsFor router id
  kept : after = { before with queue := after.queue }
  balance : (said ++ owed router id after.queue).Perm
    (owed router id before.queue ++ due)

namespace Defers

theorem stay (waits : director.WaitsFor router id) :
    Defers router id director [] director [] where
  waits := waits
  kept := rfl
  balance := by rw [List.append_nil, List.nil_append]

theorem append
    {first second third : Director} {said more due next : List Output}
    (earlier : Defers router id first said second due)
    (later : Defers router id second more third next) :
    Defers router id first (said ++ more) third (due ++ next) where
  waits := later.waits
  kept := by rw [later.kept, earlier.kept]
  balance := by
    rw [List.append_assoc, ← List.append_assoc _ due]
    exact (later.balance.append_left said).trans
      (List.append_assoc .. ▸ earlier.balance.append_right next)

/-- What comes due and is said at once. -/
theorem settle (waits : director.WaitsFor router id) (said : List Output) :
    Defers router id director said director said where
  waits := waits
  kept := rfl
  balance := List.perm_append_comm

theorem dispatch
    (waits : director.WaitsFor router id)
    (unknown : router.members.get? id = none) :
    Defers router id director director.dispatch.outputs
      director.dispatch.value [] where
  waits := (waits.dispatch unknown).1
  kept := by rw [waits.dispatch_eq unknown]
  balance := by rw [waits.dispatch_eq unknown]; rfl

theorem concat
    (waits : director.WaitsFor router id) (body : Datagram) :
    Defers router id director []
      { director with queue := director.queue ++ [⟨body, some id⟩] }
      (router.handleLeftBehind id body).outputs where
  waits := waits.concat rfl
  kept := rfl
  balance := by rw [List.nil_append, owed_concat]

theorem enqueue
    (waits : director.WaitsFor router id)
    (unknown : router.members.get? id = none) (body : Datagram) :
    ∃ done, director.enqueue ⟨body, some id⟩ = .ok done ∧
      Defers router id director done.outputs done.value
        (router.handleLeftBehind id body).outputs := by
  rw [Director.enqueue, if_neg (by simp [waits.running])]
  split
  · exact ⟨_, rfl, concat waits body⟩
  · have dispatched := dispatch waits unknown
    exact ⟨_, rfl, dispatched.append (concat dispatched.waits body)⟩

theorem enqueueAll
    (waits : director.WaitsFor router id)
    (unknown : router.members.get? id = none) (bodies : List Datagram) :
    let queueing := director.enqueueAll (bodies.map fun body => ⟨body, some id⟩)
    queueing.value.2 = .ok () ∧
      Defers router id director queueing.outputs queueing.value.1
        (bodies.flatMap fun body =>
          (router.handleLeftBehind id body).outputs) := by
  induction bodies generalizing director with
  | nil => exact ⟨rfl, stay waits⟩
  | cons body rest ih =>
      rcases enqueue waits unknown body with ⟨done, enqueued, defers⟩
      rcases ih defers.waits with ⟨succeeds, others⟩
      rw [List.map_cons, Director.enqueueAll, enqueued]
      exact ⟨succeeds, defers.append others⟩

theorem queueLeftBehind
    (waits : director.WaitsFor router id)
    (unknown : router.members.get? id = none)
    (groups : List (Channel × List Datagram)) :
    let queueing := director.queueLeftBehind id groups
    queueing.value.2 = .ok () ∧
      Defers router id director queueing.outputs queueing.value.1
        (groups.flatMap (router.saidOfGroup id)) := by
  induction groups generalizing director with
  | nil => exact ⟨rfl, stay waits⟩
  | cons group rest ih =>
      have queued := enqueueAll waits unknown group.2
      rcases attempt :
        director.enqueueAll (group.2.map fun body => ⟨body, some id⟩) with
        ⟨⟨reached, result⟩, said⟩
      rw [attempt] at queued
      rcases queued with ⟨rfl, bodies⟩
      rcases ih bodies.waits with ⟨succeeds, others⟩
      obtain rfl := bodies.waits.router_eq
      have withdraws := settle bodies.waits
        (reached.router.units.announce (.clearPostRemoves group.1))
      rw [Director.queueLeftBehind, attempt, List.flatMap_cons, saidOfGroup,
        List.append_assoc]
      exact ⟨succeeds, bodies.append (withdraws.append others)⟩

/--
Once everything is dispatched, all that came due has been said, and only that.
-/
theorem said_perm
    {before after : Director} {said due : List Output}
    (defers : Defers router id before said after due)
    (nothing : before.queue = []) (settled : after.queue = []) :
    said.Perm due := by
  have balance := defers.balance
  rw [nothing, settled] at balance
  simpa only [owed, List.flatMap_nil, List.append_nil, List.nil_append]
    using balance

end Defers

end Director

end ChannelRouter
