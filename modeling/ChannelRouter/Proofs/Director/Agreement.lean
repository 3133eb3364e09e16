import ChannelRouter.Proofs.Director
import ChannelRouter.Proofs.Router.Account
import ChannelRouter.Proofs.Router.Delivery

/-!
# Members, units and pieces agree in every director

Who holds what is written down with the member, in the unit of the channel and
in the pieces of ranges.  Whatever a director has been through, the three tell
the same, as long as nobody registered twice.  Somebody who has left is written
down nowhere, and stays so until registering again.
-/

namespace ChannelRouter

namespace Router

variable {router : Router} {id : ParticipantId}

/--
The members, the units and the pieces tell the same of who holds what.  In
particular the unit does not have a member yet whenever the router subscribes
it, which the table of units leaves to its caller.
-/
structure Agreement (router : Router) : Prop where
  unit_iff : ∀ channel, router.units.contains channel = true ↔
    ∃ id, router.isRegistered id = true ∧ channel ∈ router.channelsOf id
  mem_unit_iff : ∀ {channel unit}, router.units.units.get? channel = some unit →
    ∀ participant, participant ∈ unit.members ↔
      router.Registered participant ∧ channel ∈ router.channelsOf participant.id
  nodup_unit : ∀ {channel unit}, router.units.units.get? channel = some unit →
    (unit.members.map Participant.id).Nodup
  count_unit : ∀ {channel unit}, router.units.units.get? channel = some unit →
    unit.count = unit.members.length
  fresh : ∀ {id member channel}, router.members.get? id = some member →
    (member.channels.contains channel || router.ranges.covers id channel) =
      false → ∀ {unit}, router.units.units.get? channel = some unit →
        ∀ participant ∈ unit.members, participant.id ≠ member.participant.id
  holder_registered : ∀ piece ∈ router.ranges.pieces, ∀ id ∈ piece.holders,
    router.isRegistered id = true
  index_registered : ∀ id, router.ranges.index.contains id = true →
    router.isRegistered id = true
  exclusive : ∀ id, ∀ channel ∈ router.channelsOf id,
    router.ranges.covers id channel = false ∧
      ∀ range ∈ router.rangesOf id, range.contains channel = false

/-- Neither members, units, pieces nor the index know the identifier. -/
structure Absent (router : Router) (id : ParticipantId) : Prop where
  unregistered : router.isRegistered id = false
  noUnit : ∀ {channel unit}, router.units.units.get? channel = some unit →
    ∀ participant ∈ unit.members, participant.id ≠ id
  noPiece : ∀ piece ∈ router.ranges.pieces, id ∉ piece.holders
  noEntry : router.ranges.index.contains id = false

theorem isRegistered_iff (router : Router) (id : ParticipantId) :
    router.isRegistered id = true ↔
      ∃ member, router.members.get? id = some member :=
  Option.isSome_iff_exists

theorem isRegistered_eq_false_iff (router : Router) (id : ParticipantId) :
    router.isRegistered id = false ↔ router.members.get? id = none := by
  simp [isRegistered, Table.contains]

theorem isRegistered_of_mem_channelsOf {channel : Channel}
    (held : channel ∈ router.channelsOf id) :
    router.isRegistered id = true := by
  rcases (mem_channelsOf_iff router id channel).mp held with ⟨member, found, _⟩
  exact (isRegistered_iff router id).mpr ⟨member, found⟩

/-! ## The agreement of a coherent router -/

namespace Coherent

theorem isRegistered_of_covers (coherent : router.Coherent) {channel : Channel}
    (covers : router.ranges.covers id channel = true) :
    router.isRegistered id = true := by
  cases found : router.members.get? id with
  | none => exact absurd covers (coherent.not_covers_of_unknown found channel)
  | some member => exact (isRegistered_iff router id).mpr ⟨member, found⟩

theorem isRegistered_of_mem_holders (coherent : router.Coherent) {piece : Piece}
    (listed : piece ∈ router.ranges.pieces) (holds : id ∈ piece.holders) :
    router.isRegistered id = true := by
  have covers : router.ranges.covers id piece.range.first = true := by
    rw [RangeTable.covers_iff coherent.wellFormed.ascending]
    exact ⟨piece, listed, piece.range.contains_first, holds⟩
  exact coherent.isRegistered_of_covers covers

theorem isRegistered_of_mem_index (coherent : router.Coherent)
    (indexed : router.ranges.index.contains id = true) :
    router.isRegistered id = true := by
  have holding := (coherent.wellFormed.contains_index_iff id).mp indexed
  rcases List.exists_mem_of_ne_nil _ holding with ⟨range, listed⟩
  exact coherent.isRegistered_of_covers
    ((coherent.wellFormed.inSome_indexed_iff id range.first).mp
      ⟨range, listed, range.contains_first⟩)

theorem opened_unit (coherent : router.Coherent) {channel : Channel}
    {unit : ChannelUnit}
    (found : router.units.units.get? channel = some unit)
    (participant : Participant) :
    participant ∈ unit.members ↔
      router.Registered participant ∧
        channel ∈ router.channelsOf participant.id := by
  rw [← coherent.mem_unit_iff channel participant, UnitTable.resolve?, found]
  rfl

theorem agreement (coherent : router.Coherent) : router.Agreement where
  unit_iff := by
    intro channel
    rw [coherent.listed.contains_iff]
    constructor
    · rintro ⟨participant, member, found, _, held⟩
      exact ⟨participant.id, (isRegistered_iff router _).mpr ⟨member, found⟩,
        (mem_channelsOf_iff router _ channel).mpr ⟨member, found, held⟩⟩
    · rintro ⟨id, _, held⟩
      rcases (mem_channelsOf_iff router id channel).mp held
        with ⟨member, found, listed⟩
      have named := coherent.named found
      exact ⟨member.participant, member, named.symm ▸ found, rfl, listed⟩
  mem_unit_iff := coherent.opened_unit
  nodup_unit := fun found => (coherent.listed.opened _ _ found).nodup
  count_unit := fun found => (coherent.listed.opened _ _ found).count_eq
  fresh := by
    intro id member channel found free unit unitFound participant listed same
    have held := ((coherent.opened_unit unitFound participant).mp listed).2
    rw [same, coherent.named found, channelsOf_of_get? found] at held
    rw [Bool.or_eq_false_iff] at free
    exact Bool.eq_false_iff.mp free.1 (List.contains_iff_mem.mpr held)
  holder_registered :=
    fun _ listed _ holds => coherent.isRegistered_of_mem_holders listed holds
  index_registered :=
    fun _ indexed => coherent.isRegistered_of_mem_index indexed
  exclusive := by
    intro id channel held
    have uncovered := coherent.not_covers_of_mem held
    refine ⟨Bool.eq_false_iff.mpr uncovered, ?_⟩
    intro range listed
    apply Bool.eq_false_iff.mpr
    intro inRange
    exact uncovered ((coherent.wellFormed.inSome_rangesOf_iff id channel).mp
      ⟨range, listed, inRange⟩)

/-- Whoever is not registered is written down nowhere. -/
theorem absent (coherent : router.Coherent)
    (unregistered : router.isRegistered id = false) : router.Absent id where
  unregistered := unregistered
  noUnit := by
    rintro channel unit found participant listed rfl
    have held := ((coherent.opened_unit found participant).mp listed).2
    rw [isRegistered_of_mem_channelsOf held] at unregistered
    cases unregistered
  noPiece := by
    intro piece listed holds
    rw [coherent.isRegistered_of_mem_holders listed holds] at unregistered
    cases unregistered
  noEntry := by
    apply Bool.eq_false_iff.mpr
    intro indexed
    rw [coherent.isRegistered_of_mem_index indexed] at unregistered
    cases unregistered

end Coherent

/-! ## Leaving -/

/-- Nothing but registering makes a member. -/
theorem respected_unregistered (id : ParticipantId) :
    Respected fun before _ after =>
      before.isRegistered id = false → after.isRegistered id = false where
  stay := fun _ unregistered => unregistered
  append := fun first second unregistered => second (first unregistered)
  obey := by
    intro router actor instruction done obeyed unregistered
    rcases obey_eq_ok obeyed with ⟨member, found, rfl⟩
    rw [isRegistered_eq_false_iff] at unregistered ⊢
    have different : id ≠ actor := by
      rintro rfl
      rw [unregistered] at found
      cases found
    rw [get?_effect_of_ne different, unregistered]
  forward := fun _ _ _ _ _ unregistered => unregistered
  detach := by
    intro router gone detaching detached unregistered
    rw [isRegistered_eq_false_iff] at unregistered ⊢
    rw [members_detach detached, Table.get?_erase, unregistered, ite_self]
  expel := fun _ _ _ unregistered => unregistered
  withdraw := fun _ _ unregistered => unregistered

theorem isRegistered_terminate (router : Router) (id : ParticipantId) :
    (router.step (.terminate id)).value.isRegistered id = false := by
  rw [isRegistered_eq_false_iff, step]
  cases detached : router.detach? id with
  | none => exact Option.map_eq_none_iff.mp detached
  | some detaching =>
      exact get?_of_detached detached

theorem isRegistered_process_of_malformed
    (router : Router) (id : ParticipantId) {body : Datagram}
    {cause : FormatError} (asks : Request.of body = .malformed cause) :
    (router.process body (some id)).value.isRegistered id = false := by
  rw [value_process, asks]
  exact isRegistered_terminate router id

end Router

namespace Director

open Router

variable {director : Director} {id : ParticipantId}

theorem router_dispatch (running : director.running = true) :
    director.dispatch.value.router =
      (director.router.run
        (director.queue.map fun queued =>
          .process queued.body queued.origin)).value := by
  rw [dispatch, if_pos running, Router.run, List.foldlM_map]
  rfl

/-- Dispatching costs whoever sent a malformed datagram its place. -/
theorem isRegistered_dispatch
    (running : director.running = true) {body : Datagram} {cause : FormatError}
    (waits : ⟨body, some id⟩ ∈ director.queue)
    (asks : Request.of body = .malformed cause) :
    director.dispatch.value.router.isRegistered id = false := by
  rcases List.append_of_mem waits with ⟨earlier, later, split⟩
  rw [router_dispatch running, split, List.map_append, List.map_cons,
    Router.run_append, Emitting.value_bind, Router.run_cons,
    Emitting.value_bind]
  apply (respected_unregistered id).toComposes.foldlM
  · intro router event listed
    rcases List.mem_map.mp listed with ⟨queued, _, rfl⟩
    exact (respected_unregistered id).process router queued.body queued.origin
  · exact isRegistered_process_of_malformed _ id asks

theorem isRegistered_dispatchOldest
    (running : director.running = true) {body : Datagram} {cause : FormatError}
    {waiting : List Queued}
    (waits : director.queue = ⟨body, some id⟩ :: waiting)
    (asks : Request.of body = .malformed cause) :
    director.dispatchOldest.value.router.isRegistered id = false := by
  rw [dispatchOldest_of_waiting running waits]
  exact isRegistered_process_of_malformed director.router id asks

theorem isRegistered_terminate (director : Director) (id : ParticipantId) :
    (director.step (.terminate id)).value.router.isRegistered id = false := by
  show (director.terminate id).value.1.router.isRegistered id = false
  rw [terminate]
  cases detached : director.router.detach? id with
  | none =>
      rw [Emitting.value_pure, isRegistered_eq_false_iff]
      exact Option.map_eq_none_iff.mp detached
  | some detaching =>
      apply (traces_queueLeftBehind _ id _).respects (respected_unregistered id)
      rw [isRegistered_eq_false_iff]
      exact get?_of_detached detached

/-- A participant that is not registered stays so until it registers. -/
theorem isRegistered_run
    {events : List Event}
    (elsewhere : ∀ participant, .register participant ∈ events →
      participant.id ≠ id)
    (unregistered : director.router.isRegistered id = false) :
    (director.run events).value.router.isRegistered id = false := by
  induction events generalizing director with
  | nil => exact unregistered
  | cons event rest ih =>
      apply ih fun participant listed =>
        elsewhere participant (List.mem_cons_of_mem _ listed)
      by_cases registers : ∃ participant, event = .register participant
      · rcases registers with ⟨participant, rfl⟩
        have different := elsewhere participant List.mem_cons_self
        rw [isRegistered_eq_false_iff] at unregistered ⊢
        simpa [step, register, Router.register, different.symm]
          using unregistered
      · exact (traces_step director event (not_exists.mp registers)).respects
          (respected_unregistered id) unregistered

/-- The event makes the participant leave. -/
def Ousts (director : Director) (id : ParticipantId) : Event → Prop
  | .terminate other => other = id
  | .dispatch => director.running = true ∧
      ∃ body cause, ⟨body, some id⟩ ∈ director.queue ∧
      Request.of body = .malformed cause
  | .dispatchOldest => director.running = true ∧
      ∃ body cause waiting, director.queue = ⟨body, some id⟩ :: waiting ∧
        Request.of body = .malformed cause
  | _ => False

theorem isRegistered_step_of_ousts {event : Event}
    (ousts : director.Ousts id event) :
    (director.step event).value.router.isRegistered id = false := by
  cases event with
  | terminate other =>
      cases ousts
      exact isRegistered_terminate director id
  | dispatch =>
      rcases ousts with ⟨running, body, cause, waits, asks⟩
      exact isRegistered_dispatch running waits asks
  | dispatchOldest =>
      rcases ousts with ⟨running, body, cause, waiting, waits, asks⟩
      exact isRegistered_dispatchOldest running waits asks
  | register participant => exact ousts.elim
  | call other instruction => exact ousts.elim
  | enqueue queued => exact ousts.elim
  | shutDown => exact ousts.elim

theorem coherent_run
    {capacity : Nat} {parent : Option ParentLink} {events : List Event}
    (orderly : (start capacity parent).Orderly events) :
    ((start capacity parent).run events).value.router.Coherent := by
  rcases exists_router_run (start capacity parent) events
    with ⟨moves, reaches, _, orderlyMoves⟩
  rw [← reaches]
  exact (coherent_empty parent).run (orderlyMoves orderly)

/--
In every director that nobody has registered with twice, the members, the units
and the pieces agree.  Whoever is terminated or sends a malformed datagram is in
no unit and in no piece from then on, unless it registers again.
-/
theorem members_units_and_pieces_agree
    {capacity : Nat} {parent : Option ParentLink} {events : List Event}
    (orderly : (start capacity parent).Orderly events) :
    let director := ((start capacity parent).run events).value
    director.router.Agreement ∧
      (∀ id, director.router.isRegistered id = false →
        director.router.Absent id) ∧
      (∀ id reason, (director.router.disconnect id reason).value.Absent id) ∧
      ∀ id event later, director.Ousts id event →
        director.Orderly (event :: later) →
        (∀ participant, .register participant ∈ later → participant.id ≠ id) →
          (director.run (event :: later)).value.router.Absent id := by
  intro director
  have coherent : director.router.Coherent := coherent_run orderly
  refine ⟨coherent.agreement, fun id => coherent.absent, ?_, ?_⟩
  · intro id reason
    have disconnected :=
      (respected_coherent.disconnect director.router id reason) coherent
    apply disconnected.absent
    rw [value_disconnect]
    exact Router.isRegistered_terminate director.router id
  · intro id event later ousts orderlyLater elsewhere
    have reached :
        ((start capacity parent).run (events ++ event :: later)).value =
        (director.run (event :: later)).value := by
      rw [run_append, Emitting.value_bind]
    rw [← reached]
    apply (coherent_run
      ((orderly_append_iff _ _ _).mpr ⟨orderly, orderlyLater⟩)).absent
    rw [reached, run_cons, Emitting.value_bind]
    exact isRegistered_run elsewhere (isRegistered_step_of_ousts ousts)

theorem members_units_and_pieces_agree_after_a_fault :
    let events : List Event :=
      [.register ⟨1, 0⟩, .register ⟨2, 0⟩, .call 1 (.addChannel 7),
        .call 2 (.addChannel 7), .call 1 (.addRange ⟨10, 20, by decide⟩),
        .call 2 (.addRange ⟨15, 30, by decide⟩),
        .enqueue ⟨[], some 1⟩]
    let director := ((start 4 none).run events).value
    (start 4 none).Orderly events ∧
      director.router.Agreement ∧
      director.router.units.resolve? 7 = some [⟨1, 0⟩, ⟨2, 0⟩] ∧
      director.Ousts 1 .dispatch ∧
      (director.run [.dispatch, .register ⟨3, 0⟩]).value.router.Absent 1 := by
  intro events director
  have orderly : (start 4 none).Orderly events := by decide
  have agree := members_units_and_pieces_agree orderly
  have ousts : director.Ousts 1 .dispatch := by
    refine ⟨by decide, [], .truncated 1 0, by decide, rfl⟩
  refine ⟨orderly, agree.1, by decide, ousts, ?_⟩
  apply agree.2.2.2 1 .dispatch [.register ⟨3, 0⟩] ousts
  · decide
  · intro participant listed
    rw [List.mem_singleton] at listed
    injection listed with same
    rw [same]
    decide

end Director

end ChannelRouter
