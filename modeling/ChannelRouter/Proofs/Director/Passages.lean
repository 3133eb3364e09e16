import ChannelRouter.Proofs.Director.History

/-!
# What is said of everything that is handled

A record comes about move by move, and each move says something.  Most moves
handle nothing; the others handle one parcel, and say what the router says of
it.  So a record passes through the handling of every parcel it has handled, one
after the other, and what the router says of each is among what is said
altogether.
-/

namespace ChannelRouter

/-- What a router does about a parcel.  What it refuses does nothing. -/
def Router.handleParcel (router : Router) (parcel : Parcel) : Emitting Router :=
  match router.handle parcel.queued.body parcel.queued.origin with
  | .ok done => done
  | .error _ => pure router

namespace Record

variable {before after record : Record} {said : List Output} {parcel : Parcel}

theorem outputs_handle (record : Record) (parcel : Parcel) :
    (record.handle parcel).outputs =
      (record.router.handleParcel parcel).outputs := by
  rw [← Emitting.outputs_map Record.router, map_handle]
  rfl

theorem handled_settle
    (record : Record) (outcome : Except RoutingError (Emitting Router))
    (notes : List Note) :
    (record.settle outcome notes).value.handled = record.handled := by
  cases outcome with
  | ok done => rfl
  | error refusal => rfl

theorem handled_handle (record : Record) (parcel : Parcel) :
    (record.handle parcel).value.handled = record.handled ++ [parcel] :=
  handled_settle { record with handled := record.handled ++ [parcel] } _ _

/-- One thing that happens to a record, and what is said of it. -/
inductive Move : Record → List Output → Record → Prop
  | register (record : Record) (participant : Participant) :
      Move record [] (record.register participant)
  | call (record : Record) (id : ParticipantId) (instruction : Instruction) :
      Move record (record.call id instruction).outputs
        (record.call id instruction).value
  | handle (record : Record) (parcel : Parcel) :
      Move record (record.handle parcel).outputs (record.handle parcel).value
  | leave {record : Record} {id : ParticipantId}
      {detaching : Emitting (Router × Member)}
      (detached : record.router.detach? id = some detaching) :
      Move record detaching.outputs (record.without id detaching.value.1)
  | expel (record : Record) (participant : Participant) (reason : String) :
      Move record [.expel participant reason] record
  | withdraw (record : Record) (channel : Channel) :
      Move record (record.router.units.announce (.clearPostRemoves channel))
        record

/-- A record comes about from another one, move by move. -/
inductive Passes : Record → List Output → Record → Prop
  | stay (record : Record) : Passes record [] record
  | go {first second third : Record} {said more : List Output} :
      Passes first said second → Move second more third →
        Passes first (said ++ more) third

/--
A move handles nothing, or it handles one parcel and says what comes of it.
-/
theorem Move.handles (move : Move before said after) :
    after.handled = before.handled ∨
      ∃ parcel, said = (before.handle parcel).outputs ∧
        after = (before.handle parcel).value := by
  cases move with
  | register participant => exact Or.inl rfl
  | call id instruction => exact Or.inl (handled_settle before _ _)
  | handle parcel => exact Or.inr ⟨parcel, rfl, rfl⟩
  | leave detached => exact Or.inl rfl
  | expel participant reason => exact Or.inl rfl
  | withdraw channel => exact Or.inl rfl

theorem composes_passes : Emitting.Composes Passes where
  stay := .stay
  append := by
    intro first second third said more earlier later
    induction later with
    | stay => rwa [List.append_nil]
    | go _ move ih =>
        rw [← List.append_assoc]
        exact ih.go move

theorem Move.passes (move : Move before said after) :
    Passes before said after :=
  (Passes.stay before).go move

/--
How a parcel has been handled on the way from one record to another: by the
router of a record that had handled what is earlier, which then said of the
parcel what is said between what was said before and what was said later.
-/
def Handles (before : Record) (said : List Output) (after : Record)
    (earlier : List Parcel) (parcel : Parcel) : Prop :=
  ∃ (reached : Record) (first more : List Output),
    reached.handled = earlier ∧
      said = first ++ (reached.router.handleParcel parcel).outputs ++ more ∧
      Passes before first reached ∧
      Passes (reached.handle parcel).value more after

theorem Handles.go
    {earlier : List Parcel}
    (handles : Handles before said record earlier parcel)
    {more : List Output} (move : Move record more after) :
    Handles before (said ++ more) after earlier parcel := by
  rcases handles with ⟨reached, first, rest, isEarlier, rfl, passes, goesOn⟩
  exact ⟨reached, first, rest ++ more, isEarlier, List.append_assoc .., passes,
    goesOn.go move⟩

/-- Whatever has been handled was handled in its turn. -/
theorem Passes.handles
    (passes : Passes before said after) (nothing : before.handled = [])
    {earlier later : List Parcel}
    (split : after.handled = earlier ++ parcel :: later) :
    Handles before said after earlier parcel := by
  induction passes generalizing later with
  | stay => simp [nothing] at split
  | @go second third said more passes move ih =>
      rcases move.handles with same | ⟨last, isSaid, isThird⟩
      · rw [same] at split
        exact (ih split).go move
      · rw [isThird, handled_handle] at split
        rcases List.eq_nil_or_concat later with rfl | ⟨between, other, rfl⟩
        · -- The parcel is the one that this move handles.
          rcases List.append_inj' split rfl with ⟨isEarlier, isLast⟩
          cases isLast
          refine ⟨second, said, [], isEarlier, ?_, passes, ?_⟩
          · rw [List.append_nil, isSaid, outputs_handle]
          · rw [isThird]
            exact .stay _
        · rw [List.concat_eq_append, ← List.cons_append, ← List.append_assoc]
            at split
          exact (ih (List.append_inj' split rfl).1).go move

/-! ## What a record does passes through its moves -/

theorem passes_handleAll (parcels : List Parcel) (record : Record) :
    Passes record (parcels.foldlM handle record).outputs
      (parcels.foldlM handle record).value :=
  composes_passes.foldlM
    (fun record parcel _ => (Move.handle record parcel).passes) record

theorem passes_routeLeftBehind
    (record : Record) (id : ParticipantId) (departure : Nat)
    (groups : List (Channel × List Datagram)) :
    Passes record (record.routeLeftBehind id departure groups).outputs
      (record.routeLeftBehind id departure groups).value := by
  apply composes_passes.foldlM
  intro between group _
  apply composes_passes.append (passes_handleAll _ between)
  simpa using (Move.withdraw _ group.1).passes

theorem passes_disconnect
    (record : Record) (id : ParticipantId) (reason : String) :
    Passes record (record.disconnect id reason).outputs
      (record.disconnect id reason).value := by
  rw [disconnect]
  cases detached : record.router.detach? id with
  | none => exact composes_passes.stay record
  | some detaching =>
      apply composes_passes.append (Move.leave detached).passes
      apply composes_passes.append (Move.expel _ _ reason).passes
      exact passes_routeLeftBehind _ id _ _

theorem passes_process (record : Record) (parcel : Parcel) :
    Passes record (record.process parcel).outputs
      (record.process parcel).value := by
  have handled := (Move.handle record parcel).passes
  unfold process
  split
  · split
    · exact composes_passes.append handled (passes_disconnect _ _ _)
    · exact handled
  · exact handled

end Record

namespace History

open Director (Event)

/-- What is said while the record of a history goes on. -/
theorem composes_passes :
    Emitting.Composes fun (before : History) said (after : History) =>
      before.record.Passes said after.record where
  stay := fun history => .stay history.record
  append := Record.composes_passes.append

theorem passes_dispatch (history : History) :
    history.record.Passes history.dispatch.outputs
      history.dispatch.value.record := by
  rw [dispatch, Emitting.outputs_map]
  exact Record.composes_passes.foldlM
    (fun record parcel _ => record.passes_process parcel) history.record

theorem passes_dispatchOldest (history : History) :
    history.record.Passes history.dispatchOldest.outputs
      history.dispatchOldest.value.record := by
  rw [dispatchOldest]
  split
  · exact .stay history.record
  · rw [Emitting.outputs_map]
    exact history.record.passes_process _

theorem passes_enqueue (history : History) (parcel : Parcel) :
    history.record.Passes (history.enqueue parcel).outputs
      (history.enqueue parcel).value.record := by
  rw [enqueue]
  split
  · exact .stay history.record
  · rw [Emitting.outputs_map]
    exact passes_dispatch history

theorem passes_queueLeftBehind
    (history : History) (id : ParticipantId) (departure : Nat)
    (groups : List (Channel × List Datagram)) :
    history.record.Passes
      (history.queueLeftBehind id departure groups).outputs
      (history.queueLeftBehind id departure groups).value.record := by
  apply composes_passes.foldlM
  intro before group _
  refine composes_passes.append (composes_passes.foldlM ?_ before) ?_
  · exact fun between parcel _ => passes_enqueue between parcel
  · simpa using (Record.Move.withdraw _ group.1).passes

theorem passes_terminate (history : History) (id : ParticipantId) :
    history.record.Passes (history.terminate id).outputs
      (history.terminate id).value.record := by
  rw [terminate]
  cases detached : history.record.router.detach? id with
  | none => exact .stay history.record
  | some detaching =>
      apply Record.composes_passes.append (Record.Move.leave detached).passes
      exact passes_queueLeftBehind
        { history with record := history.record.without id detaching.value.1 }
        id _ _

theorem passes_step (history : History) (event : Event) :
    history.record.Passes (history.step event).outputs
      (history.step event).value.record := by
  cases event with
  | register participant =>
      exact (Record.Move.register history.record participant).passes
  | call id instruction =>
      rw [step, Emitting.outputs_map]
      exact (Record.Move.call history.record id instruction).passes
  | enqueue queued => exact passes_enqueue history ⟨queued, .sent⟩
  | dispatch => exact passes_dispatch history
  | dispatchOldest => exact passes_dispatchOldest history
  | terminate id => exact passes_terminate history id
  | shutDown => exact .stay history.record

theorem passes_run (history : History) (events : List Event) :
    history.record.Passes (history.run events).outputs
      (history.run events).value.record :=
  composes_passes.foldlM
    (fun before event _ => passes_step before event) history

end History

end ChannelRouter
