import ChannelRouter.Proofs.Director.Agreement
import ChannelRouter.Proofs.Director.Deferral

/-!
# Participants are independent of one another

Where every event settles before the next one, the account of a participant is
what its own events make of it.  Everybody shares the tables of the router and
the queue in front of it, and what somebody leaves behind is dispatched like
anything else; none of that reaches another account.  So a run without the
events of everybody else leaves a participant with the same account.
-/

namespace ChannelRouter

namespace Director

open Router

/-- On whose behalf an event happens; nobody's, if it comes from the parent. -/
def Event.actor : Event → Option ParticipantId
  | .register participant => some participant.id
  | .call id _ => some id
  | .enqueue queued => queued.origin
  | .dispatch => none
  | .dispatchOldest => none
  | .terminate id => some id
  | .shutDown => none

/-- The events, each with everything dispatched before the next. -/
def settling (events : List Event) : List Event :=
  events.flatMap fun event => [event, .dispatch]

end Director

namespace Account

/-- What an event on behalf of a participant makes of its account. -/
def afterEvent (account : Option Account) : Director.Event → Option Account
  | .register _ => some opened
  | .call _ instruction => account.map (·.after instruction)
  | .enqueue queued => afterDatagram account queued.body
  | .dispatch => account
  | .dispatchOldest => account
  | .terminate _ => none
  | .shutDown => account

/-- The account that the events of a participant make, whatever else happens. -/
def ofEvents (id : ParticipantId) (events : List Director.Event) :
    Option Account :=
  (events.filter (·.actor = some id)).foldl afterEvent none

end Account

namespace Director

open Router

variable {director : Director} {router : Router} {id : ParticipantId}

/-! ## One event -/

/-- The router once an event has settled. -/
def settle (router : Router) : Event → Router
  | .register participant => router.register participant
  | .call id instruction => (router.step (.call id instruction)).value
  | .enqueue queued => (router.process queued.body queued.origin).value
  | .dispatch => router
  | .dispatchOldest => router
  | .terminate id => (router.step (.terminate id)).value
  | .shutDown => router

/-- The director runs, nothing waits, and its tables agree. -/
structure Settled (director : Director) : Prop where
  running : director.running = true
  queue : director.queue = []
  coherent : director.router.Coherent

theorem settled_start (capacity : Nat) (parent : Option ParentLink) :
    (start capacity parent).Settled :=
  ⟨rfl, rfl, coherent_empty parent⟩

theorem room_pos (director : Director) : 0 < director.room :=
  Nat.lt_of_lt_of_le Nat.zero_lt_one (Nat.le_max_right director.capacity 1)

namespace Settled

variable {event : Event}

theorem dispatch (settled : director.Settled) :
    director.dispatch.value = director := by
  rw [Director.dispatch, if_pos settled.running, settled.queue]
  show { director with queue := [] } = director
  rw [← settled.queue]

theorem router_enqueue (settled : director.Settled) (queued : Queued) :
    (director.step (.enqueue queued)).value.dispatch.value =
      { director with router :=
        (director.router.process queued.body queued.origin).value } := by
  have accepted : (director.step (.enqueue queued)).value =
      { director with queue := [queued] } := by
    have free : director.queue.length < director.room := by
      rw [settled.queue]
      exact room_pos director
    rw [step, enqueue, if_neg (by simp [settled.running]),
      if_pos free, settled.queue]
    rfl
  rw [accepted, Director.dispatch, if_pos settled.running]
  show { director with
    router := (director.router.process queued.body queued.origin).value,
      queue := [] } = _
  rw [← settled.queue]

theorem waitsFor_terminate (settled : director.Settled) (id : ParticipantId) :
    (director.step (.terminate id)).value.WaitsFor
      (director.router.step (.terminate id)).value id := by
  have unknown :
      (director.router.step (.terminate id)).value.members.get? id = none :=
    (isRegistered_eq_false_iff _ id).mp
      (Router.isRegistered_terminate director.router id)
  rw [step, Emitting.value_map, terminate]
  cases detached : director.router.detach? id with
  | none =>
      simp only [Router.step, detached]
      exact waitsFor_of_nothing settled.running settled.queue director.router id
  | some detaching =>
      simp only [Router.step, detached] at unknown ⊢
      have waits :=
        waitsFor_of_nothing settled.running settled.queue detaching.value.1 id
      exact (Defers.queueLeftBehind waits unknown _).2.waits

theorem coherent_settle
    (coherent : router.Coherent)
    (fresh : ∀ participant, event = .register participant →
      router.isRegistered participant.id = false) :
    (settle router event).Coherent := by
  cases event with
  | register participant => exact coherent.register (fresh participant rfl)
  | call id instruction =>
      have orderly : router.Orderly [.call id instruction] := ⟨trivial, trivial⟩
      exact coherent.run orderly
  | enqueue queued => exact respected_coherent.process router _ _ coherent
  | dispatch => exact coherent
  | dispatchOldest => exact coherent
  | terminate id =>
      have orderly : router.Orderly [.terminate id] := ⟨trivial, trivial⟩
      exact coherent.run orderly
  | shutDown => exact coherent

theorem step_dispatch
    (settled : director.Settled) (staysUp : event ≠ .shutDown)
    (orderly : event.Orderly director) :
    (director.step event).value.dispatch.value.Settled ∧
      (director.step event).value.dispatch.value.router =
        settle director.router event := by
  have coherent : (settle director.router event).Coherent := by
    apply coherent_settle settled.coherent
    rintro participant rfl
    exact orderly
  cases event with
  | register participant =>
      have after : (director.step (.register participant)).value.Settled :=
        ⟨settled.running, settled.queue, coherent⟩
      rw [after.dispatch]
      exact ⟨after, rfl⟩
  | call id instruction =>
      have after : (director.step (.call id instruction)).value.Settled := by
        rw [step_call, Emitting.value_map]
        exact ⟨settled.running, settled.queue, coherent⟩
      rw [after.dispatch]
      refine ⟨after, ?_⟩
      rw [step_call, Emitting.value_map]
      rfl
  | enqueue queued =>
      rw [settled.router_enqueue]
      exact ⟨⟨settled.running, settled.queue, coherent⟩, rfl⟩
  | dispatch =>
      have same : (director.step .dispatch).value = director := settled.dispatch
      rw [same, settled.dispatch]
      exact ⟨settled, rfl⟩
  | dispatchOldest =>
      have same : (director.step .dispatchOldest).value = director := by
        rw [step, dispatchOldest, settled.queue]
        rfl
      rw [same, settled.dispatch]
      exact ⟨settled, rfl⟩
  | terminate id =>
      have unknown :
          (director.router.step (.terminate id)).value.members.get? id = none :=
        (isRegistered_eq_false_iff _ id).mp
          (Router.isRegistered_terminate director.router id)
      rcases (settled.waitsFor_terminate id).dispatch unknown
        with ⟨waits, empty⟩
      refine ⟨⟨waits.running, empty, ?_⟩, waits.router_eq⟩
      rw [waits.router_eq]
      exact coherent
  | shutDown => exact absurd rfl staysUp

end Settled

/-- An event acts on the account of its actor, and on no other. -/
theorem account_settle
    (coherent : router.Coherent) (event : Event)
    (fresh : ∀ participant, event = .register participant →
      router.isRegistered participant.id = false) (id : ParticipantId) :
    (settle router event).account id =
      if event.actor = some id then Account.afterEvent (router.account id) event
      else router.account id := by
  cases event with
  | register participant =>
      rw [settle, coherent.account_register (fresh participant rfl) id]
      simp only [Event.actor, Account.afterEvent, Option.some.injEq, eq_comm]
  | call actor instruction =>
      rw [settle, coherent.account_call actor id instruction]
      by_cases same : id = actor
      · simp [Event.actor, Account.afterEvent, same]
      · simp [Event.actor, same, Ne.symm same]
  | enqueue queued =>
      rcases queued with ⟨body, origin⟩
      cases origin with
      | none =>
          rw [settle, value_process_none]
          simp [Event.actor]
      | some actor =>
          rw [settle, coherent.account_process body actor id]
          by_cases same : id = actor
          · simp [Event.actor, Account.afterEvent, same]
          · simp [Event.actor, same, Ne.symm same]
  | dispatch => simp [settle, Event.actor]
  | dispatchOldest => simp [settle, Event.actor]
  | terminate gone =>
      rw [settle, coherent.account_terminate gone id]
      by_cases same : id = gone
      · simp [Event.actor, Account.afterEvent, same]
      · simp [Event.actor, same, Ne.symm same]
  | shutDown => simp [settle, Event.actor]

/-! ## Runs -/

/-- The event is the participant's, or nobody's. -/
def Event.concerns (id : ParticipantId) (event : Event) : Bool :=
  event.actor = none ∨ event.actor = some id

theorem filter_actor_filter_concerns (id : ParticipantId)
    (events : List Event) :
    (events.filter (·.concerns id)).filter (·.actor = some id) =
      events.filter (·.actor = some id) := by
  rw [List.filter_filter]
  apply List.filter_congr
  intro event _
  by_cases own : event.actor = some id
  · simp [own, Event.concerns]
  · simp [own]

section Runs

variable {events : List Event} {event : Event}

theorem run_settling_cons (director : Director) (event : Event)
    (rest : List Event) : (director.run (settling (event :: rest))).value =
      ((director.step event).value.dispatch.value.run
        (settling rest)).value := by
  show (director.run (event :: .dispatch :: settling rest)).value = _
  rw [run_cons, Emitting.value_bind, run_cons, Emitting.value_bind]
  rfl

theorem orderly_settling_cons_iff (director : Director) (event : Event)
    (rest : List Event) : director.Orderly (settling (event :: rest)) ↔
      event.Orderly director ∧
        (director.step event).value.dispatch.value.Orderly (settling rest) := by
  show director.Orderly (event :: .dispatch :: settling rest) ↔ _
  simp only [Orderly, Event.Orderly, true_and]
  exact Iff.rfl

/-- The events of a participant make its account. -/
theorem Settled.account_run
    (settled : director.Settled) (staysUp : .shutDown ∉ events)
    (orderly : director.Orderly (settling events)) :
    (director.run (settling events)).value.router.Coherent ∧
      ∀ id, (director.run (settling events)).value.router.account id =
        (events.filter (·.actor = some id)).foldl Account.afterEvent
          (director.router.account id) := by
  induction events generalizing director with
  | nil => exact ⟨settled.coherent, fun _ => rfl⟩
  | cons event rest ih =>
      rw [orderly_settling_cons_iff] at orderly
      rw [List.mem_cons, not_or] at staysUp
      rcases settled.step_dispatch (Ne.symm staysUp.1) orderly.1
        with ⟨after, reaches⟩
      rcases ih after staysUp.2 orderly.2 with ⟨coherent, accounts⟩
      rw [run_settling_cons]
      refine ⟨coherent, fun id => ?_⟩
      have acts := account_settle settled.coherent event
        (by rintro participant rfl; exact orderly.1) id
      rw [accounts id, reaches, acts]
      by_cases own : event.actor = some id
      · rw [if_pos own, List.filter_cons_of_pos (by simpa using own),
          List.foldl_cons]
      · rw [if_neg own, List.filter_cons_of_neg (by simpa using own)]

/-- Without the events of others, nobody registers twice either. -/
theorem Settled.orderly_filter
    {other : Director} (settled : director.Settled)
    (otherSettled : other.Settled)
    (same : other.router.account id = director.router.account id)
    (staysUp : .shutDown ∉ events)
    (orderly : director.Orderly (settling events)) :
    other.Orderly (settling (events.filter (·.concerns id))) := by
  induction events generalizing director other with
  | nil => trivial
  | cons event rest ih =>
      rw [orderly_settling_cons_iff] at orderly
      rw [List.mem_cons, not_or] at staysUp
      rcases settled.step_dispatch (Ne.symm staysUp.1) orderly.1
        with ⟨after, reaches⟩
      have acts := account_settle settled.coherent event
        (by rintro participant rfl; exact orderly.1) id
      by_cases concerns : event.concerns id = true
      · have orderlyToo : event.Orderly other := by
          cases event with
          | register participant =>
              have isOwn : participant.id = id := by
                simpa [Event.concerns, Event.actor] using concerns
              show other.router.isRegistered participant.id = false
              rw [isOwn, ← isSome_account, same, isSome_account, ← isOwn]
              exact orderly.1
          | call _ _ => trivial
          | enqueue _ => trivial
          | dispatch => trivial
          | dispatchOldest => trivial
          | terminate _ => trivial
          | shutDown => trivial
        rcases otherSettled.step_dispatch (Ne.symm staysUp.1) orderlyToo with
          ⟨otherAfter, otherReaches⟩
        have otherActs := account_settle otherSettled.coherent event
          (by rintro participant rfl; exact orderlyToo) id
        rw [List.filter_cons_of_pos concerns, orderly_settling_cons_iff]
        refine ⟨orderlyToo, ih after otherAfter ?_ staysUp.2 orderly.2⟩
        rw [otherReaches, reaches, otherActs, acts, same]
      · have notOwn : event.actor ≠ some id := by
          intro own
          exact concerns (by simp [Event.concerns, own])
        rw [List.filter_cons_of_neg concerns]
        apply ih after otherSettled _ staysUp.2 orderly.2
        rw [reaches, acts, if_neg notOwn, same]

/--
Where every event settles before the next, what a participant holds, goes by and
leaves behind is what its own events make of it.  A run with the events of
everybody else left out comes to the same for it.
-/
theorem account_is_made_by_own_events
    {capacity : Nat} {parent : Option ParentLink} (staysUp : .shutDown ∉ events)
    (orderly : (start capacity parent).Orderly (settling events))
    (id : ParticipantId) :
    let router := ((start capacity parent).run (settling events)).value.router
    let account := Account.ofEvents id events
    let alone := events.filter (·.concerns id)
    let routerAlone :=
      ((start capacity parent).run (settling alone)).value.router
    router.isRegistered id = account.isSome ∧
      router.Shows id (account.getD .opened) ∧
      (start capacity parent).Orderly (settling alone) ∧
      routerAlone.isRegistered id = router.isRegistered id ∧
      routerAlone.channelsOf id = router.channelsOf id ∧
      routerAlone.rangesOf id = router.rangesOf id ∧
      routerAlone.nameOf id = router.nameOf id ∧
      routerAlone.urlOf id = router.urlOf id ∧
      ∀ channel, routerAlone.pending id channel =
        router.pending id channel := by
  intro router account alone routerAlone
  have settled := settled_start capacity parent
  have orderlyAlone : (start capacity parent).Orderly (settling alone) :=
    settled.orderly_filter settled rfl staysUp orderly
  have staysUpAlone : .shutDown ∉ alone :=
    fun listed => staysUp (List.mem_of_mem_filter listed)
  rcases settled.account_run staysUp orderly with ⟨coherent, accounts⟩
  rcases settled.account_run staysUpAlone orderlyAlone
    with ⟨coherentAlone, accountsAlone⟩
  have isAccount : router.account id = account := accounts id
  have isAccountAlone : routerAlone.account id = account := by
    refine (accountsAlone id).trans ?_
    rw [filter_actor_filter_concerns]
    rfl
  have shows : router.Shows id ((router.account id).getD .opened) :=
    coherent.shows_account id
  have showsAlone :
      routerAlone.Shows id ((routerAlone.account id).getD .opened) :=
    coherentAlone.shows_account id
  rw [isAccount] at shows
  rw [isAccountAlone] at showsAlone
  refine ⟨?_, shows, orderlyAlone, ?_, shows.congr showsAlone⟩
  · rw [← isAccount, isSome_account]
  · rw [← isSome_account, ← isSome_account, isAccount, isAccountAlone]

theorem account_is_made_by_own_events_while_another_leaves :
    let events : List Event :=
      [.register ⟨1, 0⟩, .register ⟨2, 0⟩,
        .call 1 (.addRange ⟨10, 20, by decide⟩), .call 2 (.addRange ⟨15, 30,
        by decide⟩), .call 2 (.addPostRemove 7 [1]),
        .enqueue ⟨(Instruction.removeRange ⟨12, 16, by decide⟩).encode, some 1⟩,
          .terminate 2]
    let router := ((start 4 none).run (settling events)).value.router
    let alone := events.filter (·.concerns 1)
    .shutDown ∉ events ∧
      (start 4 none).Orderly (settling events) ∧
      router.rangesOf 1 = [⟨10, 11, by decide⟩, ⟨17, 20, by decide⟩] ∧
      router.Shows 1 ((Account.ofEvents 1 events).getD .opened) ∧
      ((start 4 none).run (settling alone)).value.router.rangesOf 1 =
        router.rangesOf 1 := by
  intro events router alone
  have staysUp : .shutDown ∉ events := by decide
  have orderly : (start 4 none).Orderly (settling events) := by decide
  have made := account_is_made_by_own_events staysUp orderly 1
  exact ⟨staysUp, orderly, by decide, made.2.1, made.2.2.2.2.2.1⟩

end Runs

end Director

end ChannelRouter
