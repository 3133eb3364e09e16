import ChannelRouter.Proofs.Director.Life
import ChannelRouter.Service.Events

/-!
# What a service hands on

What a director says is handed on to the outlets of connections and to the
parent.  As long as no other connection comes to an end, nothing else becomes of
it, and the connection of a participant that is spared has no part in it.  A
service without that connection, with whatever director and whatever it has
counted, hands on the same.
-/

namespace ChannelRouter

namespace Outlet

variable {outlet : Outlet} {now : Nat}

/-- Nothing has waited too long to be written. -/
def InTime (outlet : Outlet) (now : Nat) : Prop :=
  ∀ waiting, outlet.waiting = some waiting → now < waiting.deadline

/-- Nothing that is written now fails. -/
structure Takes (outlet : Outlet) (now : Nat) : Prop where
  whole : outlet.stage ≠ .failing
  inTime : outlet.InTime now

theorem inTime_of_idle (idle : outlet.waiting = none) (now : Nat) :
    outlet.InTime now := by
  intro waiting waits
  rw [idle] at waits
  cases waits

theorem expire_of_inTime (inTime : outlet.InTime now) :
    outlet.expire now = outlet.quietly := by
  rw [expire]
  cases waits : outlet.waiting with
  | none => rfl
  | some waiting => exact if_neg (Nat.not_le_of_lt (inTime waiting waits))

theorem Takes.write
    (takes : outlet.Takes now) {deadline : Nat} (later : now < deadline)
    (body : Datagram) :
    (outlet.write deadline body).failed = false ∧
      (outlet.write deadline body).outlet.Takes now := by
  rcases outlet with ⟨stage, window, waiting, torn, finishing, deserted⟩
  cases stage with
  | failing => exact absurd rfl takes.whole
  | broken => exact ⟨rfl, takes⟩
  | closed => exact ⟨rfl, takes⟩
  | writing =>
      rcases window with _ | window
      · exact ⟨rfl, takes⟩
      · rcases waiting with _ | waiting
        · simp only [Outlet.write, fill]
          split
          · exact ⟨rfl, nofun, takes.inTime⟩
          · refine ⟨rfl, nofun, ?_⟩
            rintro _ ⟨⟩
            exact later
        · refine ⟨rfl, nofun, ?_⟩
          rintro _ ⟨⟩
          exact takes.inTime waiting rfl

theorem waiting_finish (outlet : Outlet) :
    outlet.finish.waiting = outlet.waiting := by
  rw [finish, settle]
  split
  · split <;> rfl
  · rfl

end Outlet

namespace Service

variable {service : Service} {id : ConnectionId} {connection : Connection}

/-- Hand on outputs, one after the other. -/
def hand (service : Service) (outputs : List Output) : Service :=
  outputs.foldl absorbOutput service

theorem hand_append (service : Service) (first second : List Output) :
    service.hand (first ++ second) = (service.hand first).hand second :=
  List.foldl_append

/-! ## The director and the counts -/

theorem endReading_with
    (service : Service) (director : Director) (metrics : Metrics)
    (id : ConnectionId) :
    { service with director, metrics }.endReading id =
      { service.endReading id with director, metrics } := by
  simp only [endReading]
  cases service.connections.get? id with
  | none => rfl
  | some connection =>
      simp only
      split <;> rfl

/--
Handing on touches no director, and what was counted before makes no difference.
-/
theorem absorbOutput_with
    (service : Service) (director : Director) (metrics : Metrics)
    (output : Output) :
    ∃ counted, { service with director, metrics }.absorbOutput output =
      { service.absorbOutput output with director, metrics := counted } := by
  cases output with
  | toParent body => exact ⟨metrics, rfl⟩
  | expel participant reason =>
      simp only [absorbOutput, connectionOf?]
      cases (service.connections.entries.find? _).map Prod.fst with
      | none => exact ⟨metrics, rfl⟩
      | some id => exact ⟨metrics, endReading_with service director metrics id⟩
  | deliver receiver body =>
      simp only [absorbOutput, connectionOf?]
      cases (service.connections.entries.find? _).map Prod.fst with
      | none => exact ⟨metrics, rfl⟩
      | some id =>
          simp only [atOutlet]
          cases service.connections.get? id with
          | none => exact ⟨metrics, rfl⟩
          | some connection =>
              simp only [absorbEffect]
              split
              · exact ⟨_, endReading_with
                  { service with metrics := _, outbox := _, connections := _ }
                    director _ id⟩
              · exact ⟨_, rfl⟩

theorem hand_with
    (service : Service) (director : Director) (metrics : Metrics)
    (outputs : List Output) :
    ∃ counted, { service with director, metrics }.hand outputs =
      { service.hand outputs with director, metrics := counted } := by
  induction outputs generalizing service metrics with
  | nil => exact ⟨metrics, rfl⟩
  | cons output rest ih =>
      rcases absorbOutput_with service director metrics output
        with ⟨counted, first⟩
      rcases ih (service.absorbOutput output) counted with ⟨others, rest⟩
      exact ⟨others, (congrArg (hand · _) first).trans rest⟩

theorem director_hand (service : Service) (outputs : List Output) :
    (service.hand outputs).director = service.director := by
  rcases hand_with service service.director service.metrics outputs
    with ⟨counted, handed⟩
  have same := congrArg Service.director handed
  exact same

/-! ## While no other connection comes to an end -/

/-- Every connection but one goes on, whatever is written to it. -/
structure Calm (service : Service) (id : ConnectionId) : Prop where
  ordered : service.connections.Ordered
  patient : 0 < service.settings.writePatience
  others : ∀ other connection, other ≠ id →
    service.connections.get? other = some connection →
    connection.stage ≠ .leaving ∧ connection.outlet.Takes service.now

/-- The one connection is there, and nothing waits to be written to it. -/
structure Serves (service : Service) (id : ConnectionId)
    (connection : Connection) : Prop extends service.Calm id where
  own : service.connections.get? id = some connection
  idle : connection.outlet.waiting = none

/-- The service without a connection. -/
def besides (service : Service) (id : ConnectionId) : Service :=
  { service with connections := service.connections.erase id }

theorem absorbEffect_of_success {effect : OutletEffect}
    (succeeds : effect.failed = false) :
    service.absorbEffect id connection effect =
      { service with
        metrics := effect.written.foldl
          (fun metrics body => metrics.carried .outbound body) service.metrics
        outbox := (effect.arrived.map (ServiceOutput.arrived id)).reverse ++
          service.outbox }.put id { connection with outlet :=
            effect.outlet } := by
  rw [absorbEffect]
  simp only [succeeds, Bool.false_eq_true, if_false]
  rfl

theorem Calm.put (calm : service.Calm id) (connection : Connection) :
    (service.put id connection).Calm id where
  ordered := calm.ordered.insert id connection
  patient := calm.patient
  others := by
    intro other reached different found
    rw [Service.put, Table.get?_insert, if_neg different] at found
    exact calm.others other reached different found

theorem Calm.put_other
    (calm : service.Calm id) {other : ConnectionId} {reached : Connection}
    (goesOn : reached.stage ≠ .leaving ∧ reached.outlet.Takes service.now) :
    (service.put other reached).Calm id where
  ordered := calm.ordered.insert other reached
  patient := calm.patient
  others := by
    intro another looked different found
    rw [Service.put, Table.get?_insert] at found
    split at found
    · cases found
      exact goesOn
    · exact calm.others another looked different found

/-- Where nobody is connected, nobody's connection comes to an end. -/
theorem calm_start
    {settings : ServiceSettings} (patient : 0 < settings.writePatience)
    (director : Director)
    (metrics : Metrics) (id : ConnectionId) :
    (start settings director metrics).Calm id where
  ordered := Table.ordered_empty
  patient := patient
  others := fun _ _ _ impossible => nomatch impossible

theorem Calm.serves_put
    (calm : service.Calm id) (idle : connection.outlet.waiting = none) :
    (service.put id connection).Serves id connection :=
  { calm.put connection with
    own := by rw [Service.put, Table.get?_insert, if_pos rfl]
    idle }

theorem Calm.besides_put (calm : service.Calm id) (connection : Connection) :
    (service.put id connection).besides id = service.besides id := by
  simp only [besides, Service.put, calm.ordered.erase_insert_self]

namespace Serves

/-- It is a matter of the connections alone. -/
theorem regardless
    (serves : service.Serves id connection) (director : Director)
    (metrics : Metrics) (outbox : List ServiceOutput) :
    { service with director, metrics, outbox }.Serves id connection :=
  { serves with }

/-- What is put for another connection. -/
theorem put_other
    (serves : service.Serves id connection) {other : ConnectionId}
    (different : other ≠ id) {reached : Connection}
    (goesOn : reached.stage ≠ .leaving ∧ reached.outlet.Takes service.now) :
    (service.put other reached).Serves id connection ∧
      (service.put other reached).besides id =
        (service.besides id).put other reached := by
  refine ⟨⟨serves.toCalm.put_other goesOn, ?_, serves.idle⟩, ?_⟩
  · rw [put, Table.get?_insert, if_neg different.symm]
    exact serves.own
  · simp only [besides, put,
      serves.ordered.erase_insert_of_ne reached different]

/-- Who is looked for, other than the participant itself, is found elsewhere. -/
theorem connectionOf?_besides
    (serves : service.Serves id connection) {receiver : ParticipantId}
    (different : receiver ≠ connection.participant) :
    (service.besides id).connectionOf? receiver =
      service.connectionOf? receiver := by
  rw [connectionOf?, besides, Table.find?_erase, connectionOf?]
  intro value listed
  have same := (serves.ordered.mem_entries_iff id value).mp listed
  rw [serves.own] at same
  cases same
  exact beq_false_of_ne different.symm

theorem found_elsewhere
    (serves : service.Serves id connection) {receiver : ParticipantId}
    {other : ConnectionId} (different : receiver ≠ connection.participant)
    (sought : service.connectionOf? receiver = some other) :
    other ≠ id ∧ ∃ reached, service.connections.get? other = some reached := by
  rcases Option.map_eq_some_iff.mp sought with ⟨⟨_, reached⟩, found, rfl⟩
  have present := (serves.ordered.mem_entries_iff _ reached).mp
    (List.mem_of_find?_eq_some found)
  refine ⟨?_, reached, present⟩
  rintro rfl
  have isReceiver := List.find?_some found
  rw [serves.own] at present
  cases present
  exact different (eq_of_beq isReceiver).symm

/--
What spares the participant is handed on as if the connection were not there.
-/
theorem absorbOutput
    (serves : service.Serves id connection) {output : Output}
    (spares : output.Spares connection.participant) :
    (service.absorbOutput output).Serves id connection ∧
      (service.absorbOutput output).besides id =
        (service.besides id).absorbOutput output := by
  cases output with
  | expel participant reason => exact spares.elim
  | toParent body => exact ⟨serves.regardless _ _ _, rfl⟩
  | deliver receiver body =>
      simp only [Service.absorbOutput, serves.connectionOf?_besides spares]
      cases sought : service.connectionOf? receiver.id with
      | none => exact ⟨serves, rfl⟩
      | some other =>
          rcases serves.found_elsewhere spares sought
            with ⟨different, reached, present⟩
          rcases serves.others other reached different present
            with ⟨stays, takes⟩
          rcases takes.write (Nat.lt_add_of_pos_right serves.patient) body
            with ⟨succeeds, goesOn⟩
          have alsoPresent : (service.besides id).connections.get? other =
              some reached := by
            rw [besides, Table.get?_erase, if_neg different, present]
          simp only [atOutlet, present, alsoPresent]
          rw [absorbEffect_of_success succeeds,
            absorbEffect_of_success
              (show (reached.outlet.write ((service.besides id).now +
              (service.besides id).settings.writePatience) body).failed =
              false from succeeds)]
          exact (serves.regardless _ _ _).put_other different ⟨stays, goesOn⟩

theorem hand
    (serves : service.Serves id connection) {outputs : List Output}
    (spared : Spared connection.participant outputs) :
    (service.hand outputs).Serves id connection ∧
      (service.hand outputs).besides id =
        (service.besides id).hand outputs := by
  induction outputs generalizing service with
  | nil => exact ⟨serves, rfl⟩
  | cons output rest ih =>
      rcases serves.absorbOutput (spared output List.mem_cons_self)
        with ⟨still, first⟩
      rcases ih still (fun other listed =>
        spared other (List.mem_cons_of_mem output listed)) with ⟨kept, others⟩
      refine ⟨kept, others.trans ?_⟩
      rw [first]
      rfl

/-! ## Taking over what a director has done -/

/-- No write is late. -/
theorem failLateWrites (serves : service.Serves id connection) :
    service.failLateWrites = service := by
  rw [Service.failLateWrites]
  apply List.foldl_fixed'
  intro other
  rw [atOutlet]
  cases present : service.connections.get? other with
  | none => rfl
  | some reached =>
      have inTime : reached.outlet.InTime service.now := by
        by_cases same : other = id
        · rw [same, serves.own] at present
          cases present
          exact Outlet.inTime_of_idle serves.idle service.now
        · exact (serves.others other reached same present).2.inTime
      simp only [Outlet.expire_of_inTime inTime]
      rw [absorbEffect_of_success rfl, put]
      exact congrArg (fun connections => { service with connections })
        (serves.ordered.insert_of_get? present)

/-- A director is taken over, what it says is handed on, and that is all. -/
theorem absorb
    (serves : service.Serves id connection) {emitting : Emitting Director}
    (spared : Spared connection.participant emitting.outputs) :
    service.absorb emitting =
      { service with director := emitting.value }.hand emitting.outputs ∧
      (service.absorb emitting).Serves id connection := by
  have taken :
      { service with director := emitting.value }.Serves id connection :=
    serves.regardless _ _ _
  have handed := (taken.hand spared).1
  have same : service.absorb emitting =
      { service with director := emitting.value }.hand emitting.outputs :=
        handed.failLateWrites
  exact ⟨same, same ▸ handed⟩

end Serves

end Service

end ChannelRouter
