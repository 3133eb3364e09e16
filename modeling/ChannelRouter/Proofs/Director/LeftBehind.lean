import ChannelRouter.Proofs.Director.Agreement
import ChannelRouter.Proofs.Director.Passages

/-!
# What participants leave behind is handled once

Of each departure, everything that is due waits or has been handled, once and in
the order of filing, and nothing else is ever handled for its sake.  That is so
whether what is left behind is routed at once or queued, and whatever comes of
it if somebody else has joined under the same identifier by then.
-/

namespace ChannelRouter

/-- What is carried for a cause. -/
def carried (cause : Cause) (parcels : List Parcel) : List Queued :=
  (parcels.filter (·.cause = cause)).map Parcel.queued

section Carried

variable {id : ParticipantId} {departure : Nat} {channel : Channel}

theorem carried_append (cause : Cause) (earlier later : List Parcel) :
    carried cause (earlier ++ later) =
      carried cause earlier ++ carried cause later := by
  simp [carried]

theorem carried_parcels_sent (group : Channel × List Datagram) :
    carried .sent (Record.parcels id departure group) = [] := by
  simp [carried, Record.parcels, List.filter_map, Function.comp_def]

theorem carried_parcels
    (place : Nat) (channel : Channel) (group : Channel × List Datagram) :
    carried (.leftBehind place channel) (Record.parcels id departure group) =
      if place = departure ∧ channel = group.1 then group.2.map (⟨·, some id⟩)
        else [] := by
  by_cases same : place = departure ∧ channel = group.1
  · rcases same with ⟨rfl, rfl⟩
    simp [carried, Record.parcels, List.filter_map, Function.comp_def]
  · have other : ¬ (departure = place ∧ group.1 = channel) :=
      fun swapped => same ⟨swapped.1.symm, swapped.2.symm⟩
    simp [carried, Record.parcels, List.filter_map,
      Function.comp_def, same, other]

theorem carried_groups_sent (groups : List (Channel × List Datagram)) :
    carried .sent (groups.flatMap (Record.parcels id departure)) = [] := by
  induction groups with
  | nil => rfl
  | cons group rest ih =>
      rw [List.flatMap_cons, carried_append, carried_parcels_sent, ih]
      rfl

theorem carried_groups_of_ne {place : Nat} (different : place ≠ departure)
    (channel : Channel) (groups : List (Channel × List Datagram)) :
    carried (.leftBehind place channel)
      (groups.flatMap (Record.parcels id departure)) = [] := by
  induction groups with
  | nil => rfl
  | cons group rest ih =>
      rw [List.flatMap_cons, carried_append, carried_parcels, ih,
        if_neg (by simp [different])]
      rfl

theorem carried_entries
    {entries : List (Channel × List Datagram)}
    (ordered : (entries.map (·.1)).Pairwise (· < ·)) (channel : Channel) :
    carried (.leftBehind departure channel)
      (entries.flatMap (Record.parcels id departure)) =
      ((Table.lookup channel entries).getD []).map (⟨·, some id⟩) := by
  induction entries with
  | nil => rfl
  | cons group rest ih =>
      rw [List.map_cons, List.pairwise_cons] at ordered
      rw [List.flatMap_cons, carried_append, carried_parcels,
        ih ordered.2, Table.lookup]
      by_cases same : channel = group.1
      · -- The keys ascend, so the channel has no second group.
        have once : Table.lookup channel rest = none := by
          cases found : Table.lookup channel rest with
          | none => rfl
          | some bodies =>
              have listed :=
                List.mem_map_of_mem (f := Prod.fst) (Table.mem_of_lookup found)
              exact absurd (ordered.1 channel listed) (same ▸ Std.lt_irrefl)
        rw [if_pos ⟨rfl, same⟩, if_pos same, once]
        exact List.append_nil _
      · rw [if_neg fun both => same both.2, if_neg same]
        rfl

theorem carried_groups
    {postRemoves : PostRemoves} (ordered : postRemoves.filed.Ordered)
    (channel : Channel) :
    carried (.leftBehind departure channel)
        (postRemoves.groups.flatMap (Record.parcels id departure)) =
      (postRemoves.under channel).map (⟨·, some id⟩) :=
  carried_entries ordered channel

end Carried

theorem PostRemoves.ordered_after
    {postRemoves : PostRemoves} (ordered : postRemoves.filed.Ordered)
    (instruction : Instruction) :
    (postRemoves.after instruction).filed.Ordered := by
  cases instruction with
  | addPostRemove channel body => exact ordered.insert channel _
  | clearPostRemoves channel => exact ordered.erase channel
  | _ => exact ordered

namespace Record

open Router

variable {record : Record} {sent : List Queued} {ahead : List Parcel}
  {id : ParticipantId}

/--
The journal is true of the router.  Once what is ahead has been handled, what
was sent has been handled, and so has everything that is due, in order.
-/
structure Faithful (record : Record) (sent : List Queued)
    (ahead : List Parcel) : Prop where
  ordered : ∀ {id member}, record.router.members.get? id = some member →
    member.postRemoves.filed.Ordered
  regular : Note.Regular record.journal
  present : ∀ id, record.router.isRegistered id = Note.present id record.journal
  pending : ∀ id channel,
    record.router.pending id channel = Note.pending id channel record.journal
  sent_eq : carried .sent (record.handled ++ ahead) = sent
  due_eq : ∀ departure channel,
    carried (.leftBehind departure channel) (record.handled ++ ahead) =
      Note.due record.journal departure channel

namespace Faithful

theorem start (parent : Option ParentLink) :
    (Record.start parent).Faithful [] [] where
  ordered := fun found => nomatch found
  regular := by simp [Record.start, Note.Regular]
  present := fun _ => rfl
  pending := fun _ _ => rfl
  sent_eq := rfl
  due_eq :=
    fun _ channel => (Note.due_of_length_le (Nat.zero_le _) channel).symm

theorem register
    (faithful : record.Faithful sent ahead) {participant : Participant}
    (fresh : record.router.isRegistered participant.id = false) :
    (record.register participant).Faithful sent ahead := by
  have elsewhere : ∀ {other}, other ≠ participant.id →
      (record.router.register participant).members.get? other =
        record.router.members.get? other := by
    intro other different
    simp [Router.register, different]
  have here : (record.router.register participant).members.get? participant.id =
      some (.new participant) := by
    simp [Router.register]
  constructor
  · intro other member found
    by_cases same : other = participant.id
    · subst same
      rw [Record.register, here] at found
      injection found with isNew
      exact isNew ▸ Table.ordered_empty
    · exact faithful.ordered (elsewhere same ▸ found)
  · apply faithful.regular.concat
    rw [← faithful.present]
    exact fresh
  · intro other
    rw [Record.register, Note.present_concat, ← faithful.present]
    by_cases same : other = participant.id
    · subst same
      simp [isRegistered, Table.contains, here, Note.presentAfter]
    · simp [isRegistered, Table.contains, elsewhere same,
        Note.presentAfter, Ne.symm same]
  · intro other channel
    rw [Record.register, Note.pending_concat, ← faithful.pending]
    by_cases same : other = participant.id
    · subst same
      rw [isRegistered_eq_false_iff] at fresh
      simp [Router.pending, here, fresh, Note.pendingAfter,
        Note.settles, Note.filed?]
      rfl
    · simp [Router.pending, elsewhere same, Note.pendingAfter,
        Note.settles, Note.filed?]
  · exact faithful.sent_eq
  · intro departure channel
    rw [Record.register, Note.due_concat _ (by simp)]
    exact faithful.due_eq departure channel

theorem obey
    (faithful : record.Faithful sent ahead) {instruction : Instruction}
    {done : Emitting Router}
    (obeyed : record.router.obey id instruction = .ok done) :
    Faithful
      { record with
        router := done.value
        journal :=
          record.journal ++ Note.ofInstruction id instruction } sent ahead := by
  rcases obey_eq_ok obeyed with ⟨member, found, rfl⟩
  rcases exists_get?_effect found (record.router.interest id) instruction with
    ⟨updated, here, isAfter, _⟩
  have elsewhere : ∀ {other}, other ≠ id →
      (record.router.effect id member instruction).value.members.get? other =
        record.router.members.get? other :=
    fun different => get?_effect_of_ne different record.router
      member instruction
  have known : record.router.isRegistered id = true :=
    (isRegistered_iff record.router id).mpr ⟨member, found⟩
  constructor
  · intro other otherMember otherFound
    by_cases same : other = id
    · subst same
      rw [here] at otherFound
      injection otherFound with isUpdated
      rw [← isUpdated, isAfter]
      exact PostRemoves.ordered_after (faithful.ordered found) instruction
    · exact faithful.ordered (elsewhere same ▸ otherFound)
  · apply faithful.regular.append_ofInstruction
    rw [← faithful.present]
    exact known
  · intro other
    rw [Note.present_append_ofInstruction, ← faithful.present]
    by_cases same : other = id
    · subst same
      rw [known, isRegistered_iff]
      exact ⟨updated, here⟩
    · rw [isRegistered, isRegistered, Table.contains,
        Table.contains, elsewhere same]
  · intro other channel
    by_cases same : other = id
    · subst same
      have agrees := faithful.pending other channel
      rw [Router.pending, found] at agrees
      rw [Note.pending_append_ofInstruction _ _ _ agrees, Router.pending,
        here, ← isAfter]
      rfl
    · rw [Note.pending_append_ofInstruction_of_ne _ _ _ same,
        ← faithful.pending, Router.pending, Router.pending, elsewhere same]
  · exact faithful.sent_eq
  · intro departure channel
    rw [Note.due_append_ofInstruction]
    exact faithful.due_eq departure channel

theorem call
    (faithful : record.Faithful sent ahead) (id : ParticipantId)
    (instruction : Instruction) :
    (record.call id instruction).value.Faithful sent ahead := by
  rw [Record.call]
  cases outcome : record.router.obey id instruction with
  | ok done => exact faithful.obey outcome
  | error refusal => exact faithful

theorem send (faithful : record.Faithful sent ahead) (queued : Queued) :
    record.Faithful (sent ++ [queued]) (ahead ++ [⟨queued, .sent⟩]) where
  ordered := faithful.ordered
  regular := faithful.regular
  present := faithful.present
  pending := faithful.pending
  sent_eq := by
    rw [← List.append_assoc, carried_append, faithful.sent_eq]
    rfl
  due_eq := by
    intro departure channel
    rw [← List.append_assoc, carried_append, faithful.due_eq]
    exact List.append_nil _

/-- What is ahead is handled. -/
theorem advance {parcel : Parcel}
    (faithful : record.Faithful sent (parcel :: ahead)) :
    Faithful { record with handled := record.handled ++ [parcel] }
      sent ahead where
  ordered := faithful.ordered
  regular := faithful.regular
  present := faithful.present
  pending := faithful.pending
  sent_eq := by
    rw [List.append_assoc]
    exact faithful.sent_eq
  due_eq := by
    intro departure channel
    rw [List.append_assoc]
    exact faithful.due_eq departure channel

theorem handle {parcel : Parcel}
    (faithful : record.Faithful sent (parcel :: ahead)) :
    (record.handle parcel).value.Faithful sent ahead := by
  have advanced := faithful.advance
  rcases parcel with ⟨⟨body, origin⟩, cause⟩
  rw [Record.handle]
  cases outcome : record.router.handle body origin with
  | error refusal => exact advanced
  | ok done =>
      cases origin with
      | none =>
          rcases handle_eq_ok outcome
            with ⟨_, _, impossible, _⟩ | ⟨recipients, _, rfl⟩
          · cases impossible
          · simpa [settle, Note.ofQueued] using advanced
      | some id =>
          rw [handle_some] at outcome
          cases asks : Request.of body with
          | malformed refusal =>
              rw [asks] at outcome
              cases outcome
          | address recipients =>
              rw [asks] at outcome
              injection outcome with isDone
              simpa [settle, Note.ofQueued, asks, ← isDone] using advanced
          | instruct instruction =>
              rw [asks] at outcome
              simpa [settle, Note.ofQueued, asks] using advanced.obey outcome

theorem handleAll {parcels : List Parcel}
    (faithful : record.Faithful sent (parcels ++ ahead)) :
    (parcels.foldlM Record.handle record).value.Faithful sent ahead := by
  induction parcels generalizing record with
  | nil => exact faithful
  | cons parcel rest ih =>
      rw [List.foldlM_cons, Emitting.value_bind]
      exact ih faithful.handle

/-- Somebody leaves, and what it leaves behind is put somewhere ahead. -/
theorem without
    {before : List Parcel} (faithful : record.Faithful sent (before ++ ahead))
    {detaching : Emitting (Router × Member)}
    (detached : record.router.detach? id = some detaching) :
    (record.without id detaching.value.1).Faithful sent
      (before ++ (detaching.value.2.postRemoves.groups.flatMap
        (parcels id record.journal.length) ++ ahead)) := by
  have members := members_detach detached
  rcases Option.map_eq_some_iff.mp detached with ⟨member, found, isDetaching⟩
  have isMember : detaching.value.2 = member := by
    rw [← isDetaching]
    rfl
  have known : record.router.isRegistered id = true :=
    (isRegistered_iff record.router id).mpr ⟨member, found⟩
  rw [isMember, Record.without]
  constructor
  · intro other otherMember otherFound
    rw [members, Table.get?_erase] at otherFound
    split at otherFound
    · cases otherFound
    · exact faithful.ordered otherFound
  · apply faithful.regular.concat
    rw [← faithful.present]
    exact known
  · intro other
    rw [Note.present_concat, ← faithful.present, isRegistered,
      isRegistered, Table.contains, Table.contains, members, Table.get?_erase]
    by_cases same : other = id
    · simp [same, Note.presentAfter]
    · simp [same, Note.presentAfter, Ne.symm same]
  · intro other channel
    rw [Note.pending_concat, ← faithful.pending, Router.pending,
      Router.pending, members, Table.get?_erase]
    by_cases same : other = id
    · simp [same, Note.pendingAfter, Note.settles]
    · simp [same, Note.pendingAfter, Note.settles, Note.filed?, Ne.symm same]
  · rw [← faithful.sent_eq]
    simp only [carried_append, carried_groups_sent, List.nil_append]
  · intro place channel
    have balance := faithful.due_eq place channel
    rw [carried_append, carried_append] at balance
    rw [carried_append, carried_append, carried_append]
    by_cases leaves : place = record.journal.length
    · -- Nothing has been handled for the sake of a departure that is only now
      -- taking place.
      subst leaves
      rw [Note.due_of_length_le le_rfl, List.append_eq_nil_iff,
        List.append_eq_nil_iff] at balance
      have agrees : member.postRemoves.under channel =
          Note.pending id channel record.journal := by
        rw [← faithful.pending, Router.pending, found]
        rfl
      rw [balance.1, balance.2.1, balance.2.2,
        carried_groups (faithful.ordered found), Note.due_append_cons, agrees,
        List.append_nil]
      rfl
    · rw [carried_groups_of_ne leaves, Note.due_concat_of_ne _ _ leaves]
      exact balance

theorem routeLeftBehind
    {departure : Nat} {groups : List (Channel × List Datagram)}
    (faithful : record.Faithful sent
      (groups.flatMap (parcels id departure) ++ ahead)) :
    (record.routeLeftBehind id departure groups).value.Faithful sent ahead := by
  induction groups generalizing record with
  | nil => exact faithful
  | cons group rest ih =>
      rw [List.flatMap_cons, List.append_assoc] at faithful
      rw [Record.routeLeftBehind, List.foldlM_cons, Emitting.value_bind]
      exact ih faithful.handleAll

theorem disconnect
    (faithful : record.Faithful sent ahead) (id : ParticipantId)
    (reason : String) :
    (record.disconnect id reason).value.Faithful sent ahead := by
  rw [Record.disconnect]
  cases detached : record.router.detach? id with
  | none => exact faithful
  | some detaching =>
      have before : record.Faithful sent ([] ++ ahead) := faithful
      exact (before.without detached).routeLeftBehind

theorem process {parcel : Parcel}
    (faithful : record.Faithful sent (parcel :: ahead)) :
    (record.process parcel).value.Faithful sent ahead := by
  unfold Record.process
  split
  · split
    · exact faithful.handle.disconnect _ _
    · exact faithful.handle
  · exact faithful.handle

end Faithful

end Record

namespace History

open Director (Event)

variable {history : History} {sent : List Queued} {ahead : List Parcel}

theorem faithful_dispatch
    (faithful : history.record.Faithful sent (history.waiting ++ ahead)) :
    history.dispatch.value.record.Faithful sent ahead := by
  have processed : ∀ (waiting : List Parcel) (record : Record),
      record.Faithful sent (waiting ++ ahead) →
        (waiting.foldlM Record.process record).value.Faithful sent ahead := by
    intro waiting
    induction waiting with
    | nil => exact fun _ before => before
    | cons parcel rest ih =>
        intro record before
        rw [List.foldlM_cons, Emitting.value_bind]
        exact ih _ before.process
  exact processed history.waiting history.record faithful

theorem faithful_dispatch_all
    (faithful : history.record.Faithful sent history.waiting) :
    history.dispatch.value.record.Faithful sent [] := by
  apply faithful_dispatch
  rwa [List.append_nil]

theorem faithful_dispatchOldest
    (faithful : history.record.Faithful sent history.waiting) :
    history.dispatchOldest.value.record.Faithful sent
      history.dispatchOldest.value.waiting := by
  rcases history with ⟨record, waiting, capacity⟩
  cases waiting with
  | nil => exact faithful
  | cons parcel later => exact faithful.process

theorem faithful_enqueue
    {parcel : Parcel}
    (faithful : history.record.Faithful sent
      (history.waiting ++ parcel :: ahead)) :
    (history.enqueue parcel).value.record.Faithful sent
      ((history.enqueue parcel).value.waiting ++ ahead) := by
  rw [enqueue]
  split
  · show history.record.Faithful sent ((history.waiting ++ [parcel]) ++ ahead)
    rwa [List.append_assoc]
  · exact faithful_dispatch faithful

theorem faithful_enqueueAll
    {parcels : List Parcel}
    (faithful : history.record.Faithful sent
      (history.waiting ++ (parcels ++ ahead))) :
    (parcels.foldlM enqueue history).value.record.Faithful sent
      ((parcels.foldlM enqueue history).value.waiting ++ ahead) := by
  induction parcels generalizing history with
  | nil => exact faithful
  | cons parcel rest ih =>
      rw [List.foldlM_cons, Emitting.value_bind]
      exact ih (faithful_enqueue faithful)

theorem faithful_queueLeftBehind
    {id : ParticipantId} {departure : Nat}
    {groups : List (Channel × List Datagram)}
    (faithful : history.record.Faithful sent
      (history.waiting ++
        (groups.flatMap (Record.parcels id departure) ++ ahead))) :
    (history.queueLeftBehind id departure groups).value.record.Faithful sent
      ((history.queueLeftBehind id departure groups).value.waiting ++
        ahead) := by
  induction groups generalizing history with
  | nil => exact faithful
  | cons group rest ih =>
      rw [List.flatMap_cons, List.append_assoc] at faithful
      rw [queueLeftBehind, List.foldlM_cons, Emitting.value_bind]
      exact ih (faithful_enqueueAll faithful)

theorem faithful_terminate
    (faithful : history.record.Faithful sent history.waiting)
    (id : ParticipantId) :
    (history.terminate id).value.record.Faithful sent
      (history.terminate id).value.waiting := by
  rw [terminate]
  cases detached : history.record.router.detach? id with
  | none => exact faithful
  | some detaching =>
      have before : history.record.Faithful sent (history.waiting ++ []) := by
        rwa [List.append_nil]
      let remaining : History :=
        { history with record := history.record.without id detaching.value.1 }
      have leaves : remaining.record.Faithful sent
          (remaining.waiting ++ (detaching.value.2.postRemoves.groups.flatMap
            (Record.parcels id history.record.journal.length) ++ [])) :=
        before.without detached
      have queued := faithful_queueLeftBehind leaves
      rwa [List.append_nil] at queued

/-- The datagram that an event sends. -/
def queued? : Event → Option Queued
  | .enqueue queued => some queued
  | _ => none

theorem faithful_step
    (faithful : history.record.Faithful sent history.waiting) (event : Event)
    (fresh : ∀ participant, event = .register participant →
      history.record.router.isRegistered participant.id = false) :
    (history.step event).value.record.Faithful (sent ++ (queued? event).toList)
      (history.step event).value.waiting := by
  have silent : ∀ {after : History}, after.record.Faithful sent after.waiting →
      after.record.Faithful (sent ++ []) after.waiting := by
    intro after kept
    rwa [List.append_nil]
  cases event with
  | enqueue queued =>
      have waits := faithful_enqueue (faithful.send queued)
      rwa [List.append_nil] at waits
  | register participant =>
      exact silent (faithful.register (fresh participant rfl))
  | call id instruction => exact silent (faithful.call id instruction)
  | dispatch => exact silent (faithful_dispatch_all faithful)
  | dispatchOldest => exact silent (faithful_dispatchOldest faithful)
  | terminate id => exact silent (faithful_terminate faithful id)
  | shutDown => exact silent faithful

theorem faithful_run
    (faithful : history.record.Faithful sent history.waiting)
    {events : List Event}
    (staysUp : .shutDown ∉ events) (orderly : history.director.Orderly events) :
    (history.run events).value.record.Faithful
      (sent ++ events.filterMap queued?)
      (history.run events).value.waiting := by
  induction events generalizing history sent with
  | nil =>
      rw [List.filterMap_nil, List.append_nil]
      exact faithful
  | cons event rest ih =>
      rw [List.mem_cons, not_or] at staysUp
      have reaches : (history.step event).value.director =
          (history.director.step event).value :=
        congrArg Emitting.value (map_step history (Ne.symm staysUp.1))
      have stepped := faithful_step faithful event
        (by rintro participant rfl; exact orderly.1)
      have after := ih stepped staysUp.2 (reaches ▸ orderly.2)
      rw [run, List.foldlM_cons, Emitting.value_bind]
      rw [List.append_assoc] at after
      cases sends : queued? event with
      | none =>
          rw [List.filterMap_cons_none sends]
          rwa [sends] at after
      | some queued =>
          rw [List.filterMap_cons_some sends]
          rwa [sends] at after

/-- What is waiting or has been handled, the oldest first. -/
def accepted (history : History) : List Parcel :=
  history.record.handled ++ history.waiting

/--
The journal is true of the router, and what was sent has been accepted once.
For the sake of a departure, what the one who left had filed under a channel has
been accepted once and in order; but nothing of what it had withdrawn, or had
left behind before.
-/
structure HandlesOnce (history : History) (sent : List Queued) : Prop where
  regular : Note.Regular history.record.journal
  present : ∀ id,
    history.record.router.isRegistered id =
      Note.present id history.record.journal
  pending : ∀ id channel,
    history.record.router.pending id channel =
      Note.pending id channel history.record.journal
  sent_once : carried .sent history.accepted = sent
  due_once : ∀ departure channel,
    carried (.leftBehind departure channel) history.accepted =
      Note.due history.record.journal departure channel
  fires : ∀ {earlier between later : List Note} {id channel body},
    history.record.journal =
      earlier ++ .filed id channel body :: (between ++ .left id :: later) →
      (∀ note ∈ between, note.settles id channel = false) →
        carried (.leftBehind (earlier.length + 1 + between.length) channel)
          history.accepted =
          (Note.pending id channel earlier).map (⟨·, some id⟩) ++
            ⟨body, some id⟩ ::
              (between.filterMap (Note.filed? id channel)).map (⟨·, some id⟩)
  forgets : ∀ {earlier between later : List Note} {id channel note},
    history.record.journal = earlier ++ note :: (between ++ .left id :: later) →
      note.settles id channel = true →
        carried (.leftBehind (earlier.length + 1 + between.length) channel)
          history.accepted =
          (Note.pending id channel between).map (⟨·, some id⟩)

theorem due_departure
    (earlier : List Note) (note : Note) (between later : List Note)
    (id : ParticipantId) (channel : Channel) :
    Note.due (earlier ++ note :: (between ++ .left id :: later))
        (earlier.length + 1 + between.length) channel =
      (Note.pending id channel (earlier ++ note :: between)).map
        (⟨·, some id⟩) := by
  have place : earlier.length + 1 + between.length =
      (earlier ++ note :: between).length := by
    rw [List.length_append, List.length_cons]
    omega
  rw [place, ← List.cons_append, ← List.append_assoc, Note.due_append_cons]

theorem handlesOnce (faithful : history.record.Faithful sent history.waiting) :
    history.HandlesOnce sent where
  regular := faithful.regular
  present := faithful.present
  pending := faithful.pending
  sent_once := faithful.sent_eq
  due_once := faithful.due_eq
  fires := by
    intro earlier between later id channel body isJournal unsettled
    refine (faithful.due_eq _ channel).trans ?_
    rw [isJournal, due_departure, List.append_cons,
      Note.pending_append _ unsettled, Note.pending_concat, Note.pendingAfter]
    simp [Note.settles, Note.filed?]
  forgets := by
    intro earlier between later id channel note isJournal settled
    refine (faithful.due_eq _ channel).trans ?_
    rw [isJournal, due_departure, Note.pending_append_of_settles _ _ settled]

/-- Withdrawing reaches no other channel and nobody else. -/
theorem pending_step_clear
    (router : Router) {actor id : ParticipantId} {under channel : Channel}
    (elsewhere : actor ≠ id ∨ under ≠ channel) :
    (router.step (.call actor (.clearPostRemoves under))).value.pending
      id channel = router.pending id channel := by
  rw [Router.step]
  cases found : router.members.get? actor with
  | none =>
      rw [Router.obey_of_unknown found]
      rfl
  | some member =>
      rw [Router.obey_of_member found]
      by_cases same : id = actor
      · subst same
        have different : ¬ channel = under := fun equal =>
          elsewhere.elim (fun apart => apart rfl)
            (fun apart => apart equal.symm)
        simp [Router.effect, Router.keep, Router.pending, found, different]
      · simp [Router.effect, Router.keep, Router.pending, same]

/-- Nobody's leaving reaches what others have filed. -/
theorem pending_step_terminate
    (router : Router) {gone id : ParticipantId} (different : gone ≠ id)
    (channel : Channel) :
    (router.step (.terminate gone)).value.pending id channel =
      router.pending id channel := by
  rw [Router.step]
  cases detached : router.detach? gone with
  | none => rfl
  | some detaching =>
      show (detaching.value.1).pending id channel = _
      rw [Router.pending, Router.members_detach detached, Table.get?_erase,
        if_neg (Ne.symm different)]
      rfl

/--
What the director says altogether is what it says of each parcel in its turn.
-/
theorem handles_run
    {capacity : Nat} {parent : Option ParentLink} {events : List Event}
    (staysUp : .shutDown ∉ events) {earlier later : List Parcel}
    {parcel : Parcel}
    (split : ((start capacity parent).run events).value.record.handled =
      earlier ++ parcel :: later) :
    Record.Handles (.start parent)
      ((Director.start capacity parent).run events).outputs
      ((start capacity parent).run events).value.record earlier parcel := by
  have same := congrArg Emitting.outputs
    (map_run (start capacity parent) staysUp)
  rw [Emitting.outputs_map] at same
  have passes := passes_run (start capacity parent) events
  rw [same] at passes
  exact passes.handles rfl split

/--
What participants leave behind is handled once, or not at all if they withdraw
it first.  A director that runs is its history without notes; and in that
history everything that is due has been accepted, and after dispatching it has
been handled, each parcel in its turn, where what the router says of it is said.
Withdrawing and leaving are nobody else's business.
-/
theorem left_behind_is_handled_once
    {capacity : Nat} {parent : Option ParentLink} {events : List Event}
    (staysUp : .shutDown ∉ events)
    (orderly : (Director.start capacity parent).Orderly events) :
    let history := ((start capacity parent).run events).value
    let router := history.record.router
    let dispatched := history.dispatch.value
    let outputs :=
      ((Director.start capacity parent).run (events ++ [.dispatch])).outputs
    director <$> (start capacity parent).run events =
        (Director.start capacity parent).run events ∧
      history.HandlesOnce (events.filterMap queued?) ∧
      dispatched.HandlesOnce (events.filterMap queued?) ∧
      dispatched.accepted = dispatched.record.handled ∧
      (∀ earlier parcel later,
        dispatched.record.handled = earlier ++ parcel :: later →
          Record.Handles (.start parent) outputs dispatched.record
            earlier parcel) ∧
      (∀ actor under id channel, actor ≠ id ∨ under ≠ channel →
        (router.step (.call actor (.clearPostRemoves under))).value.pending
            id channel = router.pending id channel ∧
          ∀ body, Request.of body = .instruct (.clearPostRemoves under) →
            (router.process body (some actor)).value.pending id channel =
              router.pending id channel) ∧
      ∀ gone id channel, gone ≠ id →
        (router.step (.terminate gone)).value.pending id channel =
          router.pending id channel ∧
          ∀ reason, (router.disconnect gone reason).value.pending id channel =
            router.pending id channel := by
  intro history router dispatched outputs
  have empty : (start capacity parent).record.Faithful []
      (start capacity parent).waiting :=
    Record.Faithful.start parent
  have faithful :
      history.record.Faithful (events.filterMap queued?) history.waiting :=
    faithful_run empty staysUp orderly
  refine ⟨map_run _ staysUp, handlesOnce faithful,
    handlesOnce (faithful_dispatch_all faithful), List.append_nil _, ?_, ?_, ?_⟩
  · intro earlier parcel later split
    have reached : ((start capacity parent).run (events ++ [.dispatch])).value =
        dispatched := by
      rw [run, List.foldlM_append, Emitting.value_bind]
      rfl
    rw [← reached] at split ⊢
    exact handles_run (by simp [staysUp]) split
  · intro actor under id channel elsewhere
    refine ⟨pending_step_clear router elsewhere, ?_⟩
    intro body asks
    rw [Router.value_process, asks]
    exact pending_step_clear router elsewhere
  · intro gone id channel different
    refine ⟨pending_step_terminate router different channel, ?_⟩
    intro reason
    rw [Router.value_disconnect]
    exact pending_step_terminate router different channel

theorem left_behind_is_handled_once_after_two_terminations :
    let events : List Event :=
      [.register ⟨1, 0⟩, .call 1 (.addPostRemove 7 [1]),
        .call 1 (.addPostRemove 8 [3]),
        .enqueue ⟨(Instruction.addPostRemove 7 [2]).encode, some 1⟩,
        .call 1 (.clearPostRemoves 8), .dispatch, .terminate 1, .terminate 1]
    let dispatched := ((start 1 none).run events).value.dispatch.value
    .shutDown ∉ events ∧
      (Director.start 1 none).Orderly events ∧
      dispatched.record.journal =
        [.joined 1, .filed 1 7 [1], .filed 1 8 [3], .cleared 1 8,
          .filed 1 7 [2], .left 1] ∧
      dispatched.HandlesOnce (events.filterMap queued?) ∧
      carried (.leftBehind 5 7) dispatched.record.handled =
        [⟨[1], some 1⟩, ⟨[2], some 1⟩] ∧
      carried (.leftBehind 5 8) dispatched.record.handled = [] := by
  intro events dispatched
  have staysUp : .shutDown ∉ events := by decide
  have orderly : (Director.start 1 none).Orderly events := by decide
  have handled := left_behind_is_handled_once staysUp orderly
  exact ⟨staysUp, orderly, by decide, handled.2.2.1, by decide, by decide⟩

end History

end ChannelRouter
