import ChannelRouter.Proofs.Federation.Joint

/-!
# What the link carries

A datagram sent below reaches everybody on both sides who holds one of its
recipients, once, and nothing comes back over the link.

A datagram sent above reaches everybody above, and the link gets one copy if
anybody below wants it.  But a copy begins with the sender, and the router below
takes it for a datagram that begins with its recipients.  So nobody below is
handed the copy, whoever may be handed something else.
-/

namespace ChannelRouter

namespace Joint

open Router

/--
Everybody who is due a copy is handed one, and nobody is handed anything else.
-/
structure DeliversOnce (router : Router) (recipients : List Channel)
    (origin : Option ParticipantId) (copy : Datagram) (outputs : List Output) :
    Prop where
  once : ∀ receiver, router.Receives recipients origin receiver →
    outputs.count (.deliver receiver copy) = 1
  only : ∀ receiver text, .deliver receiver text ∈ outputs →
    router.Receives recipients origin receiver ∧ text = copy

variable {router : Router} {body : Datagram} {recipients : List Channel}
  {origin : Option ParticipantId} {link : Participant} {joint : Joint}

/-- The datagram without its recipients. -/
def copyOf (body : Datagram) (recipients : List Channel) : Datagram :=
  body.drop (1 + 8 * recipients.length)

theorem process_of_addressed
    (router : Router) (addressed : Addressed body recipients)
    (origin : Option ParticipantId) :
    router.process body origin =
      ⟨router, router.forward recipients body origin⟩ := by
  have asks := (request_eq_address_iff body recipients).mpr addressed
  cases origin with
  | none => rw [process_none, asks]
  | some id => rw [process_some, asks]

theorem deliversOnce_process
    (coherent : router.Coherent) (addressed : Addressed body recipients)
    (origin : Option ParticipantId) :
    DeliversOnce router recipients origin (copyOf body recipients)
      (router.process body origin).outputs := by
  rw [process_of_addressed router addressed]
  have relayed : ∀ receiver text,
      .deliver receiver text ∉ router.relay body origin := by
    intro receiver text listed
    cases ((mem_relay_iff _ _ _ _).mp listed).1
  constructor
  · intro receiver receives
    show (router.route _ _ _ ++ router.relay body origin).count _ = 1
    rw [List.count_append, List.count_eq_zero_of_not_mem (relayed receiver _),
      Nat.add_zero]
    apply List.count_eq_one_of_mem (coherent.nodup_route _ _ _)
    exact (coherent.deliver_mem_route_iff _ _ _ _).mpr receives
  · intro receiver text listed
    rcases List.mem_append.mp listed with routed | relays
    · rcases (coherent.mem_route_iff _ _ _ _).mp routed
        with ⟨other, receives, same⟩
      injection same with isReceiver isText
      exact ⟨isReceiver ▸ receives, isText⟩
    · exact absurd relays (relayed receiver text)

theorem mem_handed_iff (receiver : Participant) (outputs : List Output)
    (text : Datagram) :
    text ∈ handed receiver outputs ↔ .deliver receiver text ∈ outputs := by
  rw [handed, List.mem_filterMap]
  constructor
  · rintro ⟨output, listed, isText⟩
    cases output with
    | deliver other body =>
        simp only at isText
        split at isText
        · rename_i same
          injection isText with same'
          rwa [← same, ← same']
        · cases isText
    | toParent body => cases isText
    | expel participant reason => cases isText
  · intro listed
    exact ⟨_, listed, if_pos rfl⟩

theorem count_handed (receiver : Participant) (outputs : List Output)
    (text : Datagram) :
    (handed receiver outputs).count text =
      outputs.count (.deliver receiver text) := by
  induction outputs with
  | nil => rfl
  | cons output rest ih =>
      rw [List.count_cons, ← ih]
      cases output with
      | toParent body => rfl
      | expel participant reason => rfl
      | deliver other body =>
          by_cases same : other = receiver
          · subst same
            simp [handed, List.count_cons]
          · simp [handed, same]

section Handed

variable {copy : Datagram} {outputs : List Output}

theorem handed_of_not_receives
    (delivers : DeliversOnce router recipients origin copy outputs)
    (without : ¬ router.Receives recipients origin link) :
    handed link outputs = [] := by
  apply List.eq_nil_iff_forall_not_mem.mpr
  intro text listed
  exact without
    (delivers.only link text ((mem_handed_iff link outputs text).mp listed)).1

theorem handed_of_receives
    (delivers : DeliversOnce router recipients origin copy outputs)
    (receives : router.Receives recipients origin link) :
    handed link outputs = [copy] := by
  have once : (handed link outputs).count copy = 1 := by
    rw [count_handed]
    exact delivers.once link receives
  have only : ∀ text ∈ handed link outputs, copy = text := by
    intro text listed
    exact (delivers.only link text
      ((mem_handed_iff link outputs text).mp listed)).2.symm
  rw [List.count_eq_length.mpr only] at once
  rcases List.length_eq_one_iff.mp once with ⟨text, isText⟩
  rw [isText, only text (isText ▸ List.mem_singleton_self text)]

end Handed

/-- Nobody is handed the whole of what the router takes for a datagram. -/
theorem deliver_whole_not_mem (router : Router) (body : Datagram)
    (receiver : Participant) :
    .deliver receiver body ∉ (router.process body none).outputs := by
  intro listed
  rw [process_none] at listed
  cases asks : Request.of body with
  | malformed cause =>
      rw [asks] at listed
      cases listed
  | instruct instruction =>
      rw [asks] at listed
      cases listed
  | address recipients =>
      rw [asks] at listed
      rcases List.mem_append.mp listed with routed | relayed
      · rw [route_eq_map] at routed
        rcases List.mem_map.mp routed with ⟨other, _, same⟩
        injection same with _ isWhole
        have shorter := congrArg List.length isWhole
        rw [List.length_drop] at shorter
        have empty : body = [] := List.length_eq_zero_iff.mp (by omega)
        rw [empty] at asks
        cases asks
      · cases ((mem_relay_iff _ _ _ _).mp relayed).1

theorem Linked.relays
    (linked : joint.Linked link) (addressed : Addressed body recipients)
    (sender : ParticipantId) :
    Federation.parentBound (joint.below.process body (some sender)).outputs =
      [body] := by
  have drains : joint.below.parent.any ParentLink.drained = true := by
    rw [Router.parent, linked.parent]
    rfl
  rw [process_of_addressed joint.below addressed]
  show Federation.parentBound
    (joint.below.route _ _ _ ++ joint.below.relay _ _) = _
  rw [parentBound_append, parentBound_route, parentBound_relay, drains]
  rfl

theorem Linked.no_echo
    (linked : joint.Linked link) (addressed : Addressed body recipients) :
    handed link (joint.above.process body (some link.id)).outputs = [] :=
  handed_of_not_receives
    (deliversOnce_process linked.above addressed (some link.id))
    fun receives => receives.2.1 rfl

/-- What is sent below has risen, and everything is as it was. -/
theorem Linked.rise_of_sent
    (linked : joint.Linked link) (quiet : joint.Quiet)
    (addressed : Addressed body recipients) (sender : ParticipantId) :
    (joint.step link (.below (.process body (some sender)))).step link .rise =
      joint := by
  have rises : joint.step link (.below (.process body (some sender))) =
      { joint with rising := [body] } := by
    show { joint with
      below := (joint.below.process body (some sender)).value
      rising := joint.rising ++
        Federation.parentBound
          (joint.below.process body (some sender)).outputs } = _
    rw [linked.relays addressed,
      process_of_addressed joint.below addressed, quiet.1]
    rfl
  rw [rises]
  show { joint with
    rising := []
    above := (joint.above.process body (some link.id)).value
    sinking := joint.sinking ++
      handed link (joint.above.process body (some link.id)).outputs } = _
  rw [linked.no_echo addressed, process_of_addressed joint.above addressed,
    List.append_nil]
  rcases joint with ⟨below, rising, above, sinking⟩
  rcases quiet with ⟨nothingRises, nothingSinks⟩
  rw [show rising = [] from nothingRises]

theorem sinking_of_sent
    (quiet : joint.Quiet) (body : Datagram) (origin : Option ParticipantId) :
    (joint.step link (.above (.process body origin))).sinking =
      handed link (joint.above.process body origin).outputs := by
  show joint.sinking ++ _ = _
  rw [quiet.2]
  rfl

theorem Linked.receives_iff
    (linked : joint.Linked link) (quiet : joint.Quiet)
    (recipients : List Channel) (foreign : origin ≠ some link.id) :
    joint.above.Receives recipients origin link ↔
      ∃ channel ∈ recipients, ∃ id, joint.below.Holds id channel := by
  simp only [Receives, linked.holds_iff quiet.1]
  exact ⟨fun due => due.2.2, fun wanted =>
    ⟨linked.registered, foreign.symm, wanted⟩⟩

/--
What somebody below sends is handed out once on both sides, and nothing comes
back.
-/
structure CarriedUp (link : Participant) (joint : Joint) (body : Datagram)
    (recipients : List Channel) (sender : ParticipantId) : Prop where
  below :
    DeliversOnce joint.below recipients (some sender) (copyOf body recipients)
    (joint.below.process body (some sender)).outputs
  rises : Federation.parentBound
    (joint.below.process body (some sender)).outputs = [body]
  above :
    DeliversOnce joint.above recipients (some link.id) (copyOf body recipients)
    (joint.above.process body (some link.id)).outputs
  returns : (joint.step link (.below (.process body (some sender)))).step
    link .rise = joint

/--
What is sent above is handed out once above.  The link gets a copy exactly if
somebody below holds a recipient, but nobody below is handed that copy; they
would be, once each, if the link were handed all of the datagram.
-/
structure LostDown (link : Participant) (joint : Joint) (body : Datagram)
    (recipients : List Channel) (origin : Option ParticipantId) : Prop where
  above : DeliversOnce joint.above recipients origin (copyOf body recipients)
    (joint.above.process body origin).outputs
  sinks : (∃ channel ∈ recipients, ∃ id, joint.below.Holds id channel) →
    (joint.step link (.above (.process body origin))).sinking =
      [copyOf body recipients]
  stays : (¬ ∃ channel ∈ recipients, ∃ id, joint.below.Holds id channel) →
    (joint.step link (.above (.process body origin))).sinking = []
  lost : ∀ receiver, .deliver receiver (copyOf body recipients) ∉
    (joint.below.process (copyOf body recipients) none).outputs
  whole : DeliversOnce joint.below recipients none (copyOf body recipients)
    (joint.below.process body none).outputs

/-- With nothing on its way, a datagram is carried up once, and down never. -/
theorem upward_once_and_downward_never
    {link : Participant} {parent : Option ParentLink} {events : List Event}
    (fair : (start link parent).Fair link events)
    (quiet : ((start link parent).run link events).Quiet)
    {body : Datagram} {recipients : List Channel}
    (addressed : Addressed body recipients) :
    let joint := (start link parent).run link events
    (∀ sender, joint.CarriedUp link body recipients sender) ∧
      ∀ origin, origin ≠ some link.id →
        joint.LostDown link body recipients origin := by
  intro joint
  have linked : joint.Linked link := (linked_start link parent).run fair
  constructor
  · intro sender
    exact {
      below := deliversOnce_process linked.below addressed (some sender)
      rises := linked.relays addressed sender
      above := deliversOnce_process linked.above addressed (some link.id)
      returns := linked.rise_of_sent quiet addressed sender }
  · intro origin foreign
    have above := deliversOnce_process linked.above addressed origin
    have receives := linked.receives_iff quiet recipients foreign
    have sinking : (joint.step link (.above (.process body origin))).sinking =
        handed link (joint.above.process body origin).outputs :=
      sinking_of_sent quiet body origin
    exact {
      above := above
      sinks := fun wanted =>
        sinking.trans (handed_of_receives above (receives.mpr wanted))
      stays := fun unwanted =>
        sinking.trans (handed_of_not_receives above (unwanted ∘ receives.mp))
      lost := deliver_whole_not_mem joint.below (copyOf body recipients)
      whole := deliversOnce_process linked.below addressed none }

/--
The first below wants 7 and the second 5, and the router above knows.  A fourth
is registered there.
-/
def sevenAndFive : List Event :=
  [.above (.register ⟨4, 0⟩), .below (.register ⟨1, 0⟩),
    .below (.register ⟨2, 0⟩), .below (.call 1 (.addChannel 7)),
    .below (.call 2 (.addChannel 5)), .rise, .rise]

/-- Sent to 7 by 1281, with the type 768 and nine bytes. -/
def toSeven : Datagram :=
  (Field.header [7] 1281 768).encode ++ List.replicate 9 0

theorem addressed_toSeven : Addressed toSeven [7] :=
  ⟨⟨toSeven, 9⟩, (1281, 768), by decide, by decide, by decide⟩

theorem upward_once_and_downward_never_to_seven :
    let joint := (start ⟨1, 0⟩ none).run ⟨1, 0⟩ sevenAndFive
    (start ⟨1, 0⟩ none).Fair ⟨1, 0⟩ sevenAndFive ∧
      joint.Quiet ∧
      Addressed toSeven [7] ∧
      (joint.below.process toSeven (some 2)).outputs.count
        (.deliver ⟨1, 0⟩ (toSeven.drop 9)) = 1 ∧
      (joint.step ⟨1, 0⟩ (.above (.process toSeven (some 4)))).sinking =
        [toSeven.drop 9] ∧
      .deliver ⟨1, 0⟩ (toSeven.drop 9) ∉
        (joint.below.process (toSeven.drop 9) none).outputs := by
  intro joint
  have fair : (start ⟨1, 0⟩ none).Fair ⟨1, 0⟩ sevenAndFive := by decide
  have quiet : joint.Quiet := by decide
  have holds : joint.below.Holds 1 7 := Or.inl (by decide)
  have carried := upward_once_and_downward_never fair quiet addressed_toSeven
  have downward := carried.2 (some 4) (by decide)
  refine ⟨fair, quiet, addressed_toSeven, ?_, ?_, downward.lost ⟨1, 0⟩⟩
  · apply (carried.1 2).below.once ⟨1, 0⟩
    exact ⟨⟨_, rfl, rfl⟩, by decide, 7, by decide, holds⟩
  · exact downward.sinks ⟨7, by decide, 1, holds⟩

/--
What is meant for the holder of 7 goes, shorn of nine more bytes, to the holder
of 5.
-/
theorem downward_copy_goes_astray :
    let joint := (start ⟨1, 0⟩ none).run ⟨1, 0⟩ sevenAndFive
    let sent := joint.step ⟨1, 0⟩ (.above (.process toSeven (some 4)))
    (start ⟨1, 0⟩ none).Fair ⟨1, 0⟩ sevenAndFive ∧
      joint.Quiet ∧
      Addressed toSeven [7] ∧
      joint.above.isRegistered 4 = true ∧
      joint.below.Receives [7] none ⟨1, 0⟩ ∧
      ¬ joint.below.Holds 2 7 ∧
      sent.sinking = [toSeven.drop 9] ∧
      (sent.below.process (toSeven.drop 9) none).outputs =
        [.deliver ⟨2, 0⟩ (toSeven.drop 18)] := by
  intro joint sent
  have holds : joint.below.Holds 1 7 := Or.inl (by decide)
  refine ⟨by decide, by decide, addressed_toSeven, by decide, ?_, ?_,
    by decide, by decide⟩
  · exact ⟨⟨_, rfl, rfl⟩, by decide, 7, by decide, holds⟩
  · rintro (discrete | ranged)
    · exact absurd discrete (by decide)
    · exact absurd ranged (by decide)

end Joint

end ChannelRouter
