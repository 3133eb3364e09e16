import ChannelRouter.Proofs.Router.Request

/-!
# Calls and datagrams, step by step

The router computes what a call or a datagram makes of it and hands over the
whole result, or a refusal and nothing else.  Something that runs changes one
table after the other, speaks to the parent in between, and may find a fault at
any field; if it is refused late, what it has done by then stays done.

A procedure is of that kind: it keeps its effects through a refusal.  Here are
the calls and the handling of a datagram as procedures, effect by effect, and
each of them comes to what the router computes at once.  So every refusal comes
before the first effect.
-/

namespace ChannelRouter

/--
Something that runs on a router, speaks meanwhile, and may be refused on the
way.
-/
abbrev Procedure (α : Type) := ExceptT RoutingError (StateT Router Emitting) α

namespace Procedure

variable {α β : Type}

/-- How a procedure ends, the router it leaves, and what it said up to then. -/
def runOn (procedure : Procedure α) (router : Router) :
    Emitting (Except RoutingError α × Router) :=
  (ExceptT.run procedure).run router

/-- Look at the router, and go on only if there is nothing to object to. -/
def examine (find : Router → Except RoutingError α) : Procedure α :=
  ExceptT.mk fun router => pure (find router, router)

/-- Change the router, speaking to others. -/
def act (effect : Router → Emitting (α × Router)) : Procedure α :=
  ExceptT.mk fun router => (fun done => (.ok done.1, done.2)) <$> effect router

/-- Go on with what is read at a cursor. -/
def read (read : Read α) (cursor : Cursor) : Procedure (α × Cursor) :=
  examine fun _ =>
    match read.runAt cursor with
    | (.ok value, reached) => .ok (value, reached)
    | (.error cause, _) => .error (.malformed cause)

/-! ## Single effects -/

/-- The member with an identifier. -/
def entry (id : ParticipantId) : Procedure Member := examine (·.member id)

/-- Keep something else for a member. -/
def write (id : ParticipantId) (member : Member) : Procedure Unit :=
  act fun router =>
    pure ((), { router with members := router.members.insert id member })

/-- Whether a participant holds a channel by a range. -/
def covers (id : ParticipantId) (channel : Channel) : Procedure Bool :=
  act fun router => pure (router.ranges.covers id channel, router)

/--
Put a participant into the unit of a channel, announcing a unit that opens.
-/
def join (channel : Channel) (participant : Participant) : Procedure Unit :=
  act fun router => do
    let (units, _) ← router.units.subscribe channel participant
    pure ((), { router with units })

/--
Take a participant out of the unit of a channel, announcing a unit that closes.
-/
def leave (id : ParticipantId) (channel : Channel) : Procedure Unit :=
  act fun router => do
    let (units, _) ← router.units.unsubscribe channel id
    pure ((), { router with units })

/-- Add a participant to the pieces of a range, to learn what that changes. -/
def addPieces (range : ChannelRange) (participant : Participant) :
    Procedure CoverageChange :=
  act fun router =>
    let (ranges, change) := router.ranges.add range participant
    pure (change, { router with ranges })

/-- Take a participant off the pieces of a range, to learn what that changes. -/
def removePieces (range : ChannelRange) (id : ParticipantId) :
    Procedure CoverageChange :=
  act fun router =>
    let (ranges, change) := router.ranges.remove range id
    pure (change, { router with ranges })

/-- Say something about the router as it is. -/
def say (outputs : Router → List Output) : Procedure Unit :=
  act fun router => do
    Emitting.emit (outputs router)
    pure ((), router)

/-- Tell the parent, if there is one. -/
def announce (instruction : Instruction) : Procedure Unit :=
  say (·.units.announce instruction)

/-- Tell the parent which portions gained or lost all coverage. -/
def mirror (change : CoverageChange) : Procedure Unit :=
  say fun router => Router.announceCoverage router.units change

/-! ## Calls and datagrams -/

/-- What is done about an instruction of a member. -/
def carryOut (id : ParticipantId) (member : Member) :
    Instruction → Procedure Unit
  | .addChannel channel => do
    if member.channels.contains channel || (← covers id channel) then
      pure ()
    else
      write id { member with channels := member.channels.insert channel }
      join channel member.participant
  | .removeChannel channel => do
    if member.channels.contains channel then
      write id { member with channels := member.channels.erase channel }
      leave id channel
    else
      pure ()
  | .addRange range => do
    let change ← addPieces range member.participant
    mirror change
    write id { member with channels := member.channels.outside range }
    (member.channels.inside range).forM (leave id)
  | .removeRange range => do
    write id { member with channels := member.channels.outside range }
    (member.channels.inside range).forM (leave id)
    let change ← removePieces range id
    mirror change
  | .addPostRemove channel body => do
    announce (.addPostRemove channel body)
    write id { member with postRemoves := member.postRemoves.add channel body }
  | .clearPostRemoves channel => do
    write id { member with postRemoves := member.postRemoves.clear channel }
    announce (.clearPostRemoves channel)
  | .setName name => write id { member with name := some name }
  | .setUrl url => write id { member with url := some url }

/-- A call on behalf of a participant. -/
def perform (id : ParticipantId) (instruction : Instruction) :
    Procedure Unit := do
  let member ← entry id
  carryOut id member instruction

/-- A call about a range that is given by its ends. -/
def performBetween (id : ParticipantId) (about : ChannelRange → Instruction)
    (first last : Channel) : Procedure Unit := do
  let range ← examine fun _ =>
      (ChannelRange.ofEnds first last).mapError .malformed
  perform id (about range)

/-- What a datagram asks for, one read and one effect after the other. -/
def handle (body : Datagram) (origin : Option ParticipantId) :
    Procedure Unit := do
  let (recipients, cursor) ← read Read.recipients (Cursor.start body)
  if recipients = [Channel.control] then
    let id ← examine fun _ =>
      match origin with
      | none => .error .controlWithoutOrigin
      | some id => .ok id
    let (instruction, _) ← read Read.instruction cursor
    perform id instruction
  else
    let _ ← read Read.senderAndType cursor
    say fun router => router.route recipients (body.drop cursor.position) origin
    say fun router => router.relay body origin

/-! ## Running -/

theorem runOn_bind
    (first : Procedure α) (next : α → Procedure β) (router : Router) :
    (first >>= next).runOn router =
      first.runOn router >>= fun reached =>
        match reached.1 with
        | .ok value => (next value).runOn reached.2
        | .error refusal => pure (.error refusal, reached.2) := by
  have continued : (first >>= next).runOn router =
      first.runOn router >>= fun reached =>
      (ExceptT.bindCont next reached.1).run reached.2 := rfl
  rw [continued]
  congr 1
  funext reached
  cases reached.1 <;> rfl

/-- The procedure has the effect and is never refused. -/
def Acts (procedure : Procedure α)
    (effect : Router → Emitting (α × Router)) : Prop :=
  ∀ router, procedure.runOn router =
    (fun done => (.ok done.1, done.2)) <$> effect router

theorem acts_act (effect : Router → Emitting (α × Router)) :
    (act effect).Acts effect :=
  fun _ => rfl

theorem acts_pure (value : α) :
    (pure value : Procedure α).Acts fun router => pure (value, router) :=
  fun _ => rfl

theorem Acts.runOn_bind
    {first : Procedure α} {effect : Router → Emitting (α × Router)}
    (acts : first.Acts effect) (next : α → Procedure β) (router : Router) :
    (first >>= next).runOn router =
      effect router >>= fun done => (next done.1).runOn done.2 := by
  rw [Procedure.runOn_bind, acts, bind_map_left]

theorem Acts.bind
    {first : Procedure α} {next : α → Procedure β}
    {effect : Router → Emitting (α × Router)}
    {more : α → Router → Emitting (β × Router)}
    (acts : first.Acts effect)
    (continues : ∀ value, (next value).Acts (more value)) :
    (first >>= next).Acts fun router => effect router >>= fun done =>
      more done.1 done.2 := by
  intro router
  rw [acts.runOn_bind, map_bind]
  exact congrArg (effect router >>= ·)
    (funext fun done => continues done.1 done.2)

theorem acts_leaveAll (id : ParticipantId) (channels : List Channel) :
    Acts (channels.forM (leave id)) fun router =>
      (fun units => ((), { router with units })) <$>
        router.units.unsubscribeAll channels id := by
  induction channels with
  | nil => exact acts_pure ()
  | cons channel rest ih =>
      intro router
      refine ((acts_act _).bind fun _ => ih) router |>.trans ?_
      simp only [UnitTable.unsubscribeAll, List.foldlM_cons,
        bind_assoc, pure_bind, map_eq_pure_bind]

theorem acts_carryOut (id : ParticipantId) (member : Member)
    (instruction : Instruction) :
    (carryOut id member instruction).Acts fun router =>
      (fun after => ((), after)) <$> router.effect id member instruction := by
  intro router
  cases instruction with
  | addChannel channel =>
      rw [carryOut, covers, (acts_act _).runOn_bind, pure_bind]
      simp only [Router.effect]
      split
      · rfl
      · refine ((acts_act _).bind fun _ => acts_act _) router |>.trans ?_
        simp only [Router.keep, bind_assoc, pure_bind, map_eq_pure_bind]
  | removeChannel channel =>
      rw [carryOut]
      simp only [Router.effect]
      split
      · refine ((acts_act _).bind fun _ => acts_act _) router |>.trans ?_
        simp only [Router.keep, bind_assoc, pure_bind, map_eq_pure_bind]
      · rfl
  | addRange range =>
      refine ((acts_act _).bind fun _ => (acts_act _).bind fun _ =>
        (acts_act _).bind fun _ =>
        acts_leaveAll id _) router |>.trans ?_
      simp only [Router.effect, Router.keep, bind_assoc, pure_bind,
        map_eq_pure_bind]
  | removeRange range =>
      refine ((acts_act _).bind fun _ => (acts_leaveAll id _).bind fun _ =>
        (acts_act _).bind fun _ =>
        acts_act _) router |>.trans ?_
      simp only [Router.effect, Router.keep, bind_assoc, pure_bind,
        map_eq_pure_bind]
  | addPostRemove channel body =>
      refine ((acts_act _).bind fun _ => acts_act _) router |>.trans ?_
      simp only [Router.effect, Router.keep, bind_assoc, pure_bind,
        map_eq_pure_bind]
  | clearPostRemoves channel =>
      refine ((acts_act _).bind fun _ => acts_act _) router |>.trans ?_
      simp only [Router.effect, Router.keep, bind_assoc, pure_bind,
        map_eq_pure_bind]
  | setName name => rfl
  | setUrl url => rfl

theorem runOn_examine_bind
    (find : Router → Except RoutingError α) (next : α → Procedure β)
    (router : Router) :
    (examine find >>= next).runOn router =
      match find router with
      | .ok value => (next value).runOn router
      | .error refusal => pure (.error refusal, router) := by
  have looked : (examine find).runOn router = pure (find router, router) := rfl
  rw [runOn_bind, looked, pure_bind]

/-! ## At once -/

/-- All that was computed takes effect, or, if it was refused, nothing does. -/
def transact (router : Router) :
    Except RoutingError (Emitting Router) →
      Emitting (Except RoutingError Unit × Router)
  | .ok done => (fun after => (.ok (), after)) <$> done
  | .error refusal => pure (.error refusal, router)

theorem runOn_perform (id : ParticipantId) (instruction : Instruction)
    (router : Router) :
    (perform id instruction).runOn router =
      transact router (router.obey id instruction) := by
  rw [perform, entry, runOn_examine_bind, Router.member]
  cases found : router.members.get? id with
  | none => rw [Router.obey_of_unknown found]; rfl
  | some member =>
      rw [Router.obey_of_member found]
      refine (acts_carryOut id member instruction router).trans ?_
      rw [Functor.map_map, transact]

theorem runOn_performBetween
    (id : ParticipantId) (about : ChannelRange → Instruction)
    (first last : Channel) (router : Router) :
    (performBetween id about first last).runOn router =
      transact router
        ((ChannelRange.ofEnds first last).mapError .malformed >>= fun range =>
          router.obey id (about range)) := by
  rw [performBetween, runOn_examine_bind]
  cases ChannelRange.ofEnds first last with
  | error inverted => rfl
  | ok range => exact runOn_perform id (about range) router

theorem runOn_handle (body : Datagram) (origin : Option ParticipantId)
    (router : Router) :
    (handle body origin).runOn router =
      transact router (router.handle body origin) := by
  unfold handle
  rw [Router.handle, read, runOn_examine_bind]
  rcases Read.recipients.runAt (Cursor.start body) with ⟨outcome, cursor⟩
  cases outcome with
  | error cause => rfl
  | ok recipients =>
      simp only
      split
      · rw [runOn_examine_bind]
        cases origin with
        | none => rfl
        | some id =>
            simp only
            rw [read, runOn_examine_bind]
            rcases Read.instruction.runAt cursor with ⟨asking, reached⟩
            cases asking with
            | error cause => rfl
            | ok instruction => exact runOn_perform id instruction router
      · rw [read, runOn_examine_bind]
        rcases Read.senderAndType.runAt cursor with ⟨addressing, reached⟩
        cases addressing with
        | error cause => rfl
        | ok sender =>
            refine ((acts_act _).bind fun _ => acts_act _) router |>.trans ?_
            apply Emitting.ext
            · rfl
            · simp only [transact, Emitting.outputs_map, Emitting.outputs_bind,
                Emitting.outputs_emit, Emitting.outputs_pure,
                Emitting.value_bind,
                Emitting.value_pure, List.append_nil]

/--
Whenever the procedure is refused, the router is as it was and nothing was said.
-/
def LeavesNoTrace (procedure : Procedure α) : Prop :=
  ∀ router refusal, (procedure.runOn router).value.1 = .error refusal →
    (procedure.runOn router).value.2 = router ∧
    (procedure.runOn router).outputs = []

theorem leavesNoTrace_of_transact
    {procedure : Procedure Unit}
    {compute : Router → Except RoutingError (Emitting Router)}
    (atOnce : ∀ router, procedure.runOn router =
      transact router (compute router)) :
    procedure.LeavesNoTrace := by
  intro router refusal refused
  rw [atOnce] at refused ⊢
  cases computed : compute router with
  | error cause => exact ⟨rfl, rfl⟩
  | ok done =>
      rw [computed] at refused
      cases refused

/-- A datagram from the parent is processed by handling it. -/
theorem value_runOn_handle_none (body : Datagram) (router : Router) :
    ((handle body none).runOn router).value.2 =
      (router.process body none).value := by
  rw [runOn_handle]
  unfold Router.process
  cases router.handle body none <;> rfl

/--
A datagram that is refused and a call that is refused, for whatever reason,
leave the members, units and pieces as they were, and nobody has heard of them.
This is so although the effects come one by one, since together they come to
what the router does at once.  A datagram without an origin changes nothing in
any case.
-/
theorem refusals_leave_no_trace :
    (∀ body origin, (handle body origin).LeavesNoTrace ∧
      ∀ router, (handle body origin).runOn router =
        transact router (router.handle body origin)) ∧
    (∀ id instruction, (perform id instruction).LeavesNoTrace ∧
      ∀ router, (perform id instruction).runOn router =
        transact router (router.obey id instruction)) ∧
    (∀ id about first last,
      (performBetween id about first last).LeavesNoTrace) ∧
    ∀ body router, ((handle body none).runOn router).value.2 = router ∧
      (router.process body none).value = router := by
  refine ⟨?_, ?_, ?_, ?_⟩
  · intro body origin
    exact ⟨leavesNoTrace_of_transact (runOn_handle body origin),
      runOn_handle body origin⟩
  · intro id instruction
    exact ⟨leavesNoTrace_of_transact (runOn_perform id instruction),
      runOn_perform id instruction⟩
  · intro id about first last
    exact leavesNoTrace_of_transact (runOn_performBetween id about first last)
  · intro body router
    rw [value_runOn_handle_none]
    exact ⟨Router.value_process_none router body,
      Router.value_process_none router body⟩

theorem refusals_of_each_kind_leave_no_trace :
    let router := ((Router.empty (some .new)).run
      [.register ⟨1, 0⟩, .call 1 (.addChannel 7),
        .call 1 (.addRange ⟨10, 20, by decide⟩)]).value
    let header (messageType : UInt16) :=
      (Field.controlHeader messageType).encode
    let inverted :=
      header 9002 ++ (Field.channel 9).encode ++ (Field.channel 8).encode
    let refused (procedure : Procedure Unit) (refusal : RoutingError) :=
      procedure.runOn router = ⟨(.error refusal, router), []⟩
    refused (handle (header 9000 ++ [7]) (some 1))
      (.malformed (.truncated 8 1)) ∧
      refused (handle (header 9004) (some 1))
        (.malformed (.unknownControl 9004)) ∧
      refused (handle inverted (some 1)) (.malformed (.invertedRange 9 8)) ∧
      refused (handle (header 9012 ++ [1, 0, 0, 0, 255]) (some 1))
        (.malformed .invalidText) ∧
      refused (handle (header 9000 ++ (Field.channel 8).encode) (some 2))
        (.unknownParticipant 2) ∧
      refused (handle (header 9000 ++ (Field.channel 8).encode) none)
        .controlWithoutOrigin ∧
      refused (perform 2 (.setName "a")) (.unknownParticipant 2) ∧
      refused (performBetween 1 .removeRange 9 8)
        (.malformed (.invertedRange 9 8)) := by
  intro router header inverted refused
  have traceless : ∀ {procedure : Procedure Unit} {refusal : RoutingError},
      procedure.LeavesNoTrace → (procedure.runOn router).value.1 =
        .error refusal → refused procedure refusal := by
    intro procedure refusal leaves isRefused
    rcases leaves router refusal isRefused with ⟨same, silent⟩
    exact Emitting.ext (Prod.ext isRefused same) silent
  rcases refusals_leave_no_trace with ⟨datagrams, calls, ranges, _⟩
  refine ⟨traceless (datagrams _ _).1 ?_, traceless (datagrams _ _).1 ?_,
    traceless (datagrams _ _).1 ?_, traceless (datagrams _ _).1 ?_,
    traceless (datagrams _ _).1 ?_, traceless (datagrams _ _).1 ?_,
    traceless (calls _ _).1 ?_, traceless (ranges _ _ _ _) ?_⟩
  all_goals decide

end Procedure

end ChannelRouter
