import ChannelRouter.Proofs.Director
import ChannelRouter.Proofs.Router.Account
import ChannelRouter.Proofs.Router.Announces
import ChannelRouter.Proofs.Wire.RoundTrip
import ChannelRouter.Proofs.Wire.Streaming

/-!
# What a director emits can be framed

Where no datagram that enters the queue is above a limit, none that comes out
is.  A datagram is handed on whole or without its front, and an announcement is
short, except where something is filed: that is announced once more, in a
datagram of its own, and comes out again when its owner is gone.  It fits
because it came in such a datagram, and what is stored keeps fitting.
-/

namespace ChannelRouter

/-! ## How long instructions are -/

namespace Instruction

theorem length_encode (instruction : Instruction) :
    instruction.encode.length =
      11 + (instruction.fields.map Field.width).sum := by
  rw [encode, Datagram.length_ofFields, List.map_cons, List.sum_cons]
  rfl

/--
Nothing that is announced on its own is longer than an announcement of a range.
-/
theorem length_encode_le
    {instruction : Instruction}
    (announced : instruction.isSubscription = true ∨
      instruction.isFiling = true)
    (notFiled : ∀ channel body, instruction ≠ .addPostRemove channel body) :
    instruction.encode.length ≤ 27 := by
  rw [length_encode]
  cases instruction with
  | addPostRemove channel body => exact absurd rfl (notFiled channel body)
  | setName name =>
      rcases announced with impossible | impossible <;> cases impossible
  | setUrl url =>
      rcases announced with impossible | impossible <;> cases impossible
  | _ => simp [fields, Field.width]

theorem length_encode_addPostRemove (channel : Channel) (body : Datagram) :
    (addPostRemove channel body).encode.length = 23 + body.length := by
  rw [length_encode]
  simp only [fields, List.map_cons, List.map_nil, List.sum_cons, List.sum_nil,
    Field.width]
  omega

end Instruction

/--
A datagram in which something is filed is at least as long as it has to be.
-/
theorem Request.length_encode_le
    {whole : Datagram} {channel : Channel} {body : Datagram}
    (asks : Request.of whole = .instruct (.addPostRemove channel body)) :
    (Instruction.addPostRemove channel body).encode.length ≤ whole.length := by
  rw [Request.of] at asks
  rcases reading : Read.recipients.runAt (Cursor.start whole)
    with ⟨result, cursor⟩
  rw [reading] at asks
  cases result with
  | error cause => cases asks
  | ok recipients =>
      have reached := Read.reached_recipients reading
      simp only at asks
      split at asks
      · rename_i control
        rw [reached, control] at asks
        rcases instructed :
          Read.instruction.runAt ⟨whole, 1 + 8 * [Channel.control].length⟩ with
          ⟨answer, behind⟩
        rw [instructed] at asks
        cases answer with
        | error cause => cases asks
        | ok instruction =>
            injection asks with isInstruction
            subst isInstruction
            have within := Read.runAt_instruction_addPostRemove instructed
            rw [Instruction.length_encode_addPostRemove]
            simpa [Nat.add_right_comm] using within
      · split at asks <;> cases asks

/-! ## The router -/

/-- The datagram of an output is not above a limit. -/
def Output.Fits (limit : Nat) : Output → Prop
  | .deliver _ body => body.length ≤ limit
  | .toParent body => body.length ≤ limit
  | .expel _ _ => True

/-- Whatever is filed fits, also into the datagram that announces it. -/
def PostRemoves.Fits (limit : Nat) (postRemoves : PostRemoves) : Prop :=
  ∀ group ∈ postRemoves.groups, ∀ body ∈ group.2,
    (Instruction.addPostRemove group.1 body).encode.length ≤ limit

namespace PostRemoves

variable {limit : Nat} {postRemoves : PostRemoves}

theorem Fits.add
    (fits : postRemoves.Fits limit) {channel : Channel} {body : Datagram}
    (filed : (Instruction.addPostRemove channel body).encode.length ≤ limit) :
    (postRemoves.add channel body).Fits limit := by
  intro group listed other inside
  rcases Table.mem_place listed with rfl | before
  · rcases List.mem_append.mp inside with earlier | last
    · rw [under] at earlier
      cases known : postRemoves.filed.get? channel with
      | none =>
          rw [known] at earlier
          cases earlier
      | some bodies =>
          rw [known] at earlier
          exact fits (channel, bodies) (Table.mem_of_lookup known) other earlier
    · rw [List.mem_singleton.mp last]
      exact filed
  · exact fits group before other inside

theorem Fits.clear (fits : postRemoves.Fits limit) (channel : Channel) :
    (postRemoves.clear channel).Fits limit :=
  fun group listed => fits group (List.mem_of_mem_filter listed)

theorem Fits.after
    (fits : postRemoves.Fits limit) {instruction : Instruction}
    (filed : ∀ channel body, instruction = .addPostRemove channel body →
      instruction.encode.length ≤ limit) :
    (postRemoves.after instruction).Fits limit := by
  cases instruction with
  | addPostRemove channel body => exact fits.add (filed channel body rfl)
  | clearPostRemoves channel => exact fits.clear channel
  | _ => exact fits

end PostRemoves

namespace Router

variable {limit : Nat} {router : Router} {id : ParticipantId}

/-- Whatever somebody is going to leave behind fits. -/
def Fits (limit : Nat) (router : Router) : Prop :=
  ∀ id member, router.members.get? id = some member →
    member.postRemoves.Fits limit

/--
A move after which everything stored still fits, and with which nothing else
comes out.
-/
def KeepsFitting (limit : Nat) (before : Router) (said : List Output)
    (after : Router) : Prop :=
  before.Fits limit → after.Fits limit ∧ ∀ output ∈ said, output.Fits limit

theorem composes_keepsFitting : Emitting.Composes (KeepsFitting limit) :=
  Emitting.composes_keeping (Fits limit) (Output.Fits limit)

/-! ### Moves -/

theorem Announces.fits
    {allowed : Instruction → Prop} {outputs : List Output}
    (announces : Announces allowed outputs)
    (short : ∀ instruction, allowed instruction →
      instruction.encode.length ≤ limit) :
    ∀ output ∈ outputs, output.Fits limit := by
  intro output listed
  rcases announces output listed with ⟨instruction, isAllowed, rfl⟩
  exact short instruction isAllowed

theorem short_of_isSubscription
    (room : 27 ≤ limit) (instruction : Instruction)
    (subscription : instruction.isSubscription = true) :
    instruction.encode.length ≤ limit := by
  refine Nat.le_trans
    (Instruction.length_encode_le (Or.inl subscription) ?_) room
  rintro channel body rfl
  cases subscription

theorem keepsFitting_obey
    (room : 27 ≤ limit) {instruction : Instruction} {done : Emitting Router}
    (obeyed : router.obey id instruction = .ok done)
    (filed : ∀ channel body, instruction = .addPostRemove channel body →
      instruction.encode.length ≤ limit) :
    KeepsFitting limit router done.outputs done.value := by
  rcases obey_eq_ok obeyed with ⟨member, found, rfl⟩
  rcases exists_get?_effect found (router.interest id) instruction with
    ⟨updated, here, isAfter, _⟩
  intro fits
  constructor
  · intro other otherMember otherFound
    by_cases same : other = id
    · subst same
      rw [here] at otherFound
      injection otherFound with isUpdated
      rw [← isUpdated, isAfter]
      exact (fits other member found).after filed
    · rw [get?_effect_of_ne same] at otherFound
      exact fits other otherMember otherFound
  · apply (announces_effect router id member instruction).fits
    rintro announced (subscription | ⟨rfl, filing⟩)
    · exact short_of_isSubscription room announced subscription
    · by_cases files : ∃ channel body, announced = .addPostRemove channel body
      · rcases files with ⟨channel, body, isFiled⟩
        exact filed channel body isFiled
      · refine Nat.le_trans
          (Instruction.length_encode_le (Or.inr filing) ?_) room
        intro channel body isFiled
        exact files ⟨channel, body, isFiled⟩

theorem keepsFitting_forward
    (recipients : List Channel) {body : Datagram}
    (origin : Option ParticipantId) (small : body.length ≤ limit) :
    KeepsFitting limit router (router.forward recipients body origin)
      router := by
  intro fits
  refine ⟨fits, ?_⟩
  intro output listed
  rcases List.mem_append.mp listed with routed | relayed
  · rw [route_eq_map] at routed
    rcases List.mem_map.mp routed with ⟨receiver, _, rfl⟩
    show (body.drop (1 + 8 * recipients.length)).length ≤ limit
    rw [List.length_drop]
    omega
  · rw [((mem_relay_iff router body origin output).mp relayed).1]
    exact small

theorem keepsFitting_withdraw (room : 27 ≤ limit) (channel : Channel) :
    KeepsFitting limit router
      (router.units.announce (.clearPostRemoves channel)) router := by
  intro fits
  have announces : Announces (· = .clearPostRemoves channel)
      (router.units.announce (.clearPostRemoves channel)) :=
        announces_announce router.units rfl
  refine ⟨fits, announces.fits ?_⟩
  rintro instruction rfl
  exact Nat.le_trans (Instruction.length_encode_le (Or.inr rfl) (by simp)) room

theorem keepsFitting_detach
    (room : 27 ≤ limit) {detaching : Emitting (Router × Member)}
    (detached : router.detach? id = some detaching) :
    KeepsFitting limit router detaching.outputs detaching.value.1 := by
  intro fits
  refine ⟨?_, (announces_detach detached).fits (short_of_isSubscription room)⟩
  intro other member found
  rw [members_detach detached, Table.get?_erase] at found
  split at found
  · cases found
  · exact fits other member found

/-- What a member that goes leaves behind has been stored. -/
theorem Fits.left
    (fits : router.Fits limit) {detaching : Emitting (Router × Member)}
    (detached : router.detach? id = some detaching) :
    detaching.value.2.postRemoves.Fits limit := by
  rcases Option.map_eq_some_iff.mp detached with ⟨member, found, rfl⟩
  exact fits id member found

/-! ### Datagrams -/

theorem keepsFitting_handle
    (room : 27 ≤ limit) {body : Datagram} (small : body.length ≤ limit)
    {origin : Option ParticipantId} {done : Emitting Router}
    (handled : router.handle body origin = .ok done) :
    KeepsFitting limit router done.outputs done.value := by
  cases origin with
  | none =>
      rcases handle_eq_ok handled
        with ⟨_, _, impossible, _⟩ | ⟨recipients, _, rfl⟩
      · cases impossible
      · exact keepsFitting_forward recipients none small
  | some id =>
      rw [handle_some] at handled
      cases asks : Request.of body with
      | malformed cause =>
          rw [asks] at handled
          cases handled
      | instruct instruction =>
          rw [asks] at handled
          apply keepsFitting_obey room handled
          rintro channel filed rfl
          exact Nat.le_trans (Request.length_encode_le asks) small
      | address recipients =>
          rw [asks] at handled
          injection handled with isDone
          subst isDone
          exact keepsFitting_forward recipients (some id) small

theorem length_le_of_filed
    {channel : Channel} {body : Datagram}
    (filed : (Instruction.addPostRemove channel body).encode.length ≤ limit) :
    body.length ≤ limit := by
  rw [Instruction.length_encode_addPostRemove] at filed
  omega

theorem keepsFitting_routeLeftBehind
    (room : 27 ≤ limit) (router : Router) (id : ParticipantId)
    {postRemoves : PostRemoves} (fit : postRemoves.Fits limit) :
    KeepsFitting limit router
      (router.routeLeftBehind id postRemoves.groups).outputs
      (router.routeLeftBehind id postRemoves.groups).value := by
  apply composes_keepsFitting.foldlM
  intro before group listed
  apply composes_keepsFitting.append
  · apply composes_keepsFitting.foldlM
    intro between body inside
    have small : body.length ≤ limit :=
      length_le_of_filed (fit group listed body inside)
    rw [handleLeftBehind]
    cases handled : between.handle body (some id) with
    | ok done => exact keepsFitting_handle room small handled
    | error refusal => exact composes_keepsFitting.stay between
  · rw [Emitting.outputs_bind, Emitting.outputs_pure, List.append_nil]
    exact keepsFitting_withdraw room group.1

theorem keepsFitting_disconnect
    (room : 27 ≤ limit) (router : Router) (id : ParticipantId)
    (reason : String) :
    KeepsFitting limit router (router.disconnect id reason).outputs
      (router.disconnect id reason).value := by
  intro fits
  rw [disconnect]
  cases detached : router.detach? id with
  | none => exact composes_keepsFitting.stay router fits
  | some detaching =>
      have expels : KeepsFitting limit detaching.value.1
          [.expel detaching.value.2.participant reason] detaching.value.1 := by
        intro remaining
        refine ⟨remaining, ?_⟩
        intro output listed
        rw [List.mem_singleton.mp listed]
        trivial
      -- The groups come from the router before the departure, which is why it
      -- must have fitted.
      have routes := keepsFitting_routeLeftBehind room detaching.value.1 id
        (fits.left detached)
      exact composes_keepsFitting.append (keepsFitting_detach room detached)
        (composes_keepsFitting.append expels routes) fits

theorem keepsFitting_process
    (room : 27 ≤ limit) (router : Router) {body : Datagram}
    (small : body.length ≤ limit) (origin : Option ParticipantId) :
    KeepsFitting limit router (router.process body origin).outputs
      (router.process body origin).value := by
  unfold process
  cases handled : router.handle body origin with
  | ok done => exact keepsFitting_handle room small handled
  | error cause =>
      cases origin with
      | none => exact composes_keepsFitting.stay router
      | some id =>
          simp only
          split
          · exact keepsFitting_disconnect room router id cause.message
          · exact composes_keepsFitting.stay router

end Router

/-! ## The director -/

namespace Director

variable {limit : Nat} {director : Director}

/-- Whatever is stored or waits fits. -/
structure Fits (limit : Nat) (director : Director) : Prop where
  router : director.router.Fits limit
  queue : ∀ queued ∈ director.queue, queued.body.length ≤ limit

/--
Where everything fits before, it does so after, and so does what is said
meanwhile.
-/
def KeepsFitting (limit : Nat) (before : Director) (said : List Output)
    (after : Director) : Prop :=
  before.Fits limit → after.Fits limit ∧ ∀ output ∈ said, output.Fits limit

theorem composes_keepsFitting : Emitting.Composes (KeepsFitting limit) :=
  Emitting.composes_keeping (Fits limit) (Output.Fits limit)

/-- What keeps everything fitting in the router does so in its director. -/
theorem keepsFitting_of_router
    {said : List Output} {remaining : Router}
    (keeps : Router.KeepsFitting limit director.router said remaining) :
    KeepsFitting limit director said { director with router := remaining } := by
  intro fits
  rcases keeps fits.router with ⟨remains, saidFits⟩
  exact ⟨⟨remains, fits.queue⟩, saidFits⟩

theorem keepsFitting_dispatch (room : 27 ≤ limit) (director : Director) :
    KeepsFitting limit director director.dispatch.outputs
      director.dispatch.value := by
  intro fits
  rw [dispatch]
  split
  · have each : ∀ router : Router, ∀ queued ∈ director.queue,
        Router.KeepsFitting limit router
          (router.process queued.body queued.origin).outputs
          (router.process queued.body queued.origin).value :=
      fun router queued listed =>
        Router.keepsFitting_process room router
          (fits.queue queued listed) queued.origin
    have processed :=
      Router.composes_keepsFitting.foldlM each director.router fits.router
    rw [Emitting.outputs_bind, Emitting.outputs_pure, List.append_nil]
    exact ⟨⟨processed.1, by simp⟩, processed.2⟩
  · exact composes_keepsFitting.stay director fits

theorem keepsFitting_dispatchOldest (room : 27 ≤ limit) (director : Director) :
    KeepsFitting limit director director.dispatchOldest.outputs
      director.dispatchOldest.value := by
  intro fits
  rcases isQueue : director.queue with _ | ⟨queued, waiting⟩
  · rw [dispatchOldest, isQueue]
    exact composes_keepsFitting.stay director fits
  · have small := fits.queue
    rw [isQueue, List.forall_mem_cons] at small
    rw [dispatchOldest, isQueue]
    simp only
    split
    · have processed := Router.keepsFitting_process room director.router small.1
        queued.origin fits.router
      rw [Emitting.outputs_bind, Emitting.outputs_pure, List.append_nil]
      exact ⟨⟨processed.1, small.2⟩, processed.2⟩
    · exact composes_keepsFitting.stay director fits

theorem Fits.concat
    (fits : director.Fits limit) {queued : Queued}
    (small : queued.body.length ≤ limit) :
    Fits limit { director with queue := director.queue ++ [queued] } where
  router := fits.router
  queue := by
    intro other listed
    rcases List.mem_append.mp listed with before | last
    · exact fits.queue other before
    · rw [List.mem_singleton.mp last]
      exact small

theorem keepsFitting_enqueue
    (room : 27 ≤ limit) {queued : Queued} (small : queued.body.length ≤ limit)
    {done : Emitting Director} (enqueued : director.enqueue queued = .ok done) :
    KeepsFitting limit director done.outputs done.value := by
  intro fits
  rw [enqueue] at enqueued
  split at enqueued
  · cases enqueued
  · split at enqueued
    · injection enqueued with isDone
      subst isDone
      exact ⟨fits.concat small, by simp⟩
    · injection enqueued with isDone
      subst isDone
      rcases keepsFitting_dispatch room director fits
        with ⟨dispatched, saidFits⟩
      rw [Emitting.outputs_bind, Emitting.outputs_pure, List.append_nil]
      exact ⟨dispatched.concat small, saidFits⟩

theorem keepsFitting_terminate
    (room : 27 ≤ limit) (director : Director) (id : ParticipantId) :
    KeepsFitting limit director (director.terminate id).outputs
      (director.terminate id).value.1 := by
  intro fits
  rw [terminate]
  cases detached : director.router.detach? id with
  | none => exact composes_keepsFitting.stay director fits
  | some detaching =>
      have left := fits.router.left detached
      have detaches :=
        keepsFitting_of_router (Router.keepsFitting_detach room detached)
      refine composes_keepsFitting.append detaches ?_ fits
      apply queueLeftBehind_of_each composes_keepsFitting
      · intro before group listed body inside done enqueued
        have small : body.length ≤ limit :=
          Router.length_le_of_filed (left group listed body inside)
        exact keepsFitting_enqueue room small enqueued
      · intro before channel
        have withdraws : Router.KeepsFitting limit before.router
            (before.router.units.announce (.clearPostRemoves channel))
              before.router :=
          Router.keepsFitting_withdraw room channel
        exact keepsFitting_of_router withdraws

/--
The event brings nothing in that does not fit, and files nothing without a
datagram.
-/
def Event.Fits (limit : Nat) : Event → Prop
  | enqueue queued => queued.body.length ≤ limit
  | call _ (.addPostRemove _ _) => False
  | _ => True

instance (limit : Nat) : (event : Event) → Decidable (event.Fits limit)
  | .enqueue queued => inferInstanceAs (Decidable (queued.body.length ≤ limit))
  | .call _ (.addPostRemove _ _) => instDecidableFalse
  | .call _ (.addChannel _) => instDecidableTrue
  | .call _ (.removeChannel _) => instDecidableTrue
  | .call _ (.addRange _) => instDecidableTrue
  | .call _ (.removeRange _) => instDecidableTrue
  | .call _ (.clearPostRemoves _) => instDecidableTrue
  | .call _ (.setName _) => instDecidableTrue
  | .call _ (.setUrl _) => instDecidableTrue
  | .register _ => instDecidableTrue
  | .dispatch => instDecidableTrue
  | .dispatchOldest => instDecidableTrue
  | .terminate _ => instDecidableTrue
  | .shutDown => instDecidableTrue

theorem keepsFitting_step
    (room : 27 ≤ limit) (director : Director) {event : Event}
    (eventFits : event.Fits limit) :
    KeepsFitting limit director (director.step event).outputs
      (director.step event).value := by
  cases event with
  | register participant =>
      intro fits
      refine ⟨⟨?_, fits.queue⟩, by simp [step]⟩
      intro id member found
      simp only [step, register, Router.register, Emitting.value_pure,
        Table.get?_insert] at found
      split at found
      · injection found with isNew
        rw [← isNew]
        intro group listed
        cases listed
      · exact fits.router id member found
  | call id instruction =>
      rw [step_call, Emitting.outputs_map, Emitting.value_map]
      apply keepsFitting_of_router
      rw [Router.step]
      cases obeyed : director.router.obey id instruction with
      | error refusal => exact Router.composes_keepsFitting.stay director.router
      | ok done =>
          apply Router.keepsFitting_obey room obeyed
          intro channel body isFiled
          rw [isFiled] at eventFits
          exact eventFits.elim
  | enqueue queued =>
      cases enqueued : director.enqueue queued with
      | error refusal =>
          simpa [step, enqueued] using composes_keepsFitting.stay director
      | ok done => simpa [step, enqueued]
          using keepsFitting_enqueue room eventFits enqueued
  | dispatch => exact keepsFitting_dispatch room director
  | dispatchOldest => exact keepsFitting_dispatchOldest room director
  | terminate id =>
      rw [step, Emitting.outputs_map]
      exact keepsFitting_terminate room director id
  | shutDown => exact fun fits =>
      ⟨⟨fits.router, by simp [step, shutDown]⟩, by simp [step]⟩

theorem keepsFitting_run
    (room : 27 ≤ limit) {events : List Event}
    (eventsFit : ∀ event ∈ events, event.Fits limit) (director : Director) :
    KeepsFitting limit director (director.run events).outputs
      (director.run events).value :=
  composes_keepsFitting.foldlM
    (fun before event listed =>
      keepsFitting_step room before (eventsFit event listed)) director

theorem fits_start (limit capacity : Nat) (parent : Option ParentLink) :
    (start capacity parent).Fits limit where
  router := fun _ _ impossible => nomatch impossible
  queue := fun _ impossible => nomatch impossible

/--
If the datagrams that enter the queue are not above a limit, and an announcement
of a range is not either, then nothing above it is handed to anybody or queued
for the parent.  So everything can be framed if the limit is the largest size
there is; and whatever of it is framed for the parent, a parent with the same
limit takes every frame of it, however the stream is cut, and refuses nothing on
the way.
-/
theorem whatever_is_emitted_can_be_framed
    (capacity : Nat) (parent : Option ParentLink)
    {events : List Event} {limit : Nat}
    (room : 27 ≤ limit) (fits : ∀ event ∈ events, event.Fits limit) :
    let outputs := ((start capacity parent).run events).outputs
    (∀ receiver body, .deliver receiver body ∈ outputs → body.length ≤ limit) ∧
      (∀ body, .toParent body ∈ outputs → body.length ≤ limit) ∧
      (limit ≤ maxDatagramSize →
        (∀ receiver body, .deliver receiver body ∈ outputs →
          Frame.encode body = .ok (Frame.ofBody body)) ∧
        ∀ body, .toParent body ∈ outputs →
          Frame.encode body = .ok (Frame.ofBody body)) ∧
      ∀ sent frames, (∀ body ∈ sent, .toParent body ∈ outputs) →
        sent.mapM Frame.encode = .ok frames → ∀ pieces : List (List UInt8),
          (pieces.flatten <+: frames.flatten →
            (Frame.ofPieces limit pieces).refusal = none) ∧
            (pieces.flatten = frames.flatten →
              Frame.ofPieces limit pieces = ⟨sent, [], none⟩) := by
  intro outputs
  have small : ∀ output ∈ outputs, output.Fits limit :=
    (keepsFitting_run room fits _ (fits_start limit capacity parent)).2
  have delivered : ∀ receiver body, .deliver receiver body ∈ outputs →
      body.length ≤ limit :=
    fun receiver body listed => small (.deliver receiver body) listed
  have queued : ∀ body, .toParent body ∈ outputs → body.length ≤ limit :=
    fun body listed => small (.toParent body) listed
  refine ⟨delivered, queued, ?_, ?_⟩
  · intro framable
    constructor
    · intro receiver body listed
      exact Frame.encode_eq_ofBody
        (Nat.le_trans (delivered receiver body listed) framable)
    · intro body listed
      exact Frame.encode_eq_ofBody (Nat.le_trans (queued body listed) framable)
  · intro sent frames fromHere framed pieces
    rcases Frame.ofBody_of_mapM_encode framed with ⟨framable, isStream⟩
    have allowed : ∀ body ∈ sent, body.length ≤ min limit maxDatagramSize :=
      fun body listed => Nat.le_min.mpr
        ⟨queued body (fromHere body listed), framable body listed⟩
    have whole : Frame.Drains limit frames.flatten ⟨sent, [], none⟩ :=
      isStream ▸ Frame.drains_flatMap_ofBody allowed
    have arrives := Frame.drains_ofPieces limit pieces
    constructor
    · rintro ⟨more, isWhole⟩
      exact arrives.refusal_eq_none_of_append (isWhole ▸ whole) rfl
    · intro same
      exact (same ▸ arrives).eq_of_drains whole

/-- What one participant files comes out three times, and fits each time. -/
theorem filed_datagram_can_be_framed_whenever_it_comes_out :
    let will := Datagram.ofFields [.header [5] 1 2, .u8 7]
    let events : List Event :=
      [.register ⟨1, 0⟩, .register ⟨2, 0⟩, .call 2 (.addChannel 5),
        .enqueue ⟨(Instruction.addPostRemove 9 will).encode, some 1⟩,
          .dispatch, .terminate 1,
        .dispatch]
    let outputs := ((start 1 (some .new)).run events).outputs
    27 ≤ 43 ∧ (∀ event ∈ events, event.Fits 43) ∧
      Federation.parentBound outputs =
        [(Instruction.addChannel 5).encode,
          (Instruction.addPostRemove 9 will).encode,
          (Instruction.clearPostRemoves 9).encode, will] ∧
      .deliver ⟨2, 0⟩ (will.drop 9) ∈ outputs ∧
      ∀ body, .toParent body ∈ outputs → body.length ≤ 43 := by
  intro will events outputs
  have fits : ∀ event ∈ events, event.Fits 43 := by decide
  have room : 27 ≤ 43 := by decide
  have framed := whatever_is_emitted_can_be_framed 1 (some .new) room fits
  exact ⟨room, fits, by decide, by decide, framed.2.1⟩

end Director

end ChannelRouter
