import ChannelRouter.Proofs.Federation.Obeyable

/-!
# Two routers and the link between them

What the router below queues for its parent rises to the router above, which
takes it for datagrams of a participant of its own, the link.  What the router
above hands to the link sinks to the router below, which takes it for datagrams
of its parent.  Both take their time.

The link holds above what is wanted below, up to what is still rising.
-/

namespace ChannelRouter

/-- Two routers, one below the other, and what is on its way between them. -/
structure Joint where
  below : Router
  /-- What the router below has queued for its parent, the oldest first. -/
  rising : List Datagram
  above : Router
  /-- What the router above has handed to the link, the oldest first. -/
  sinking : List Datagram
deriving DecidableEq, Repr

namespace Joint

open Router

/-- What outputs hand to a participant. -/
def handed (receiver : Participant) (outputs : List Output) : List Datagram :=
  outputs.filterMap fun
    | .deliver other body => if other = receiver then some body else none
    | _ => none

/-- What can happen to two routers. -/
inductive Event where
  | below (event : Router.Event)
  | above (event : Router.Event)
  /-- The oldest that rises arrives above. -/
  | rise
  /-- The oldest that sinks arrives below. -/
  | sink
deriving DecidableEq, Repr

/-- Nobody is below, and nobody but the link is above. -/
def start (link : Participant) (parent : Option ParentLink) : Joint where
  below := .empty (some .new)
  rising := []
  above := (Router.empty parent).register link
  sinking := []

/-- The router below acts, and what it queues for its parent begins to rise. -/
def actBelow (joint : Joint) (acting : Emitting Router) : Joint :=
  { joint with
    below := acting.value
    rising := joint.rising ++ Federation.parentBound acting.outputs }

/-- The router above acts, and what it hands to the link begins to sink. -/
def actAbove (joint : Joint) (link : Participant)
    (acting : Emitting Router) : Joint :=
  { joint with
    above := acting.value
    sinking := joint.sinking ++ handed link acting.outputs }

/-- What an event does.  Where nothing is on its way, nothing arrives. -/
def step (link : Participant) (joint : Joint) : Event → Joint
  | .below event => joint.actBelow (joint.below.step event)
  | .above event => joint.actAbove link (joint.above.step event)
  | .rise =>
      match joint.rising with
      | [] => joint
      | body :: rest =>
          { joint with rising := rest }.actAbove link
            (joint.above.process body (some link.id))
  | .sink =>
      match joint.sinking with
      | [] => joint
      | body :: rest =>
          { joint with sinking := rest }.actBelow
            (joint.below.process body none)

/-- What a sequence of events does. -/
def run (link : Participant) (joint : Joint) (events : List Event) : Joint :=
  events.foldl (step link) joint

/--
Nobody registers twice on either side, and the router above hears from the link
only what rises.
-/
def Event.Fair (link : Participant) (joint : Joint) : Event → Prop
  | .below event => event.Orderly joint.below
  | .above event => event.Orderly joint.above ∧ event.actor ≠ some link.id
  | .rise => True
  | .sink => True

instance (link : Participant) (joint : Joint) :
    (event : Event) → Decidable (event.Fair link joint)
  | .below event => inferInstanceAs (Decidable (event.Orderly joint.below))
  | .above event =>
      inferInstanceAs
        (Decidable (event.Orderly joint.above ∧ event.actor ≠ some link.id))
  | .rise => instDecidableTrue
  | .sink => instDecidableTrue

/-- Every event of the run is fair by the time it happens. -/
def Fair (link : Participant) : Joint → List Event → Prop
  | _, [] => True
  | joint, event :: events =>
      event.Fair link joint ∧ Fair link (joint.step link event) events

instance decidableFair (link : Participant) :
    (joint : Joint) → (events : List Event) → Decidable (joint.Fair link events)
  | _, [] => instDecidableTrue
  | joint, event :: events =>
      have := decidableFair link (joint.step link event) events
      inferInstanceAs (Decidable (event.Fair link joint ∧ _))

/-- Nothing is on its way. -/
def Quiet (joint : Joint) : Prop := joint.rising = [] ∧ joint.sinking = []

instance (joint : Joint) : Decidable joint.Quiet :=
  inferInstanceAs (Decidable (joint.rising = [] ∧ joint.sinking = []))

/-! ## The link -/

/-- Both routers are in order, and the link has above what is wanted below. -/
structure Linked (link : Participant) (joint : Joint) : Prop where
  below : joint.below.Coherent
  above : joint.above.Coherent
  indexed : joint.below.units.Indexed
  parent : joint.below.units.parent = some .new
  registered : joint.above.Registered link
  obeyable : ∀ body ∈ joint.rising, Obeyable body
  mirrors :
    Tells (joint.rising.map Output.toParent) (joint.above.interest link.id)
    joint.below.wanted

variable {link : Participant} {joint : Joint}

theorem parentBound_toParent (bodies : List Datagram) :
    Federation.parentBound (bodies.map Output.toParent) = bodies := by
  rw [Federation.parentBound, List.filterMap_map]
  exact List.filterMap_some

theorem announced_toParent (bodies : List Datagram) :
    announced (bodies.map Output.toParent) = bodies.filter changesInterest := by
  rw [announced, parentBound_toParent]

theorem linked_start (link : Participant) (parent : Option ParentLink) :
    (start link parent).Linked link where
  below := coherent_empty _
  above := (coherent_empty parent).register rfl
  indexed := UnitTable.indexed_empty _
  parent := rfl
  registered := ⟨.new link, by simp [start, register], rfl⟩
  obeyable := fun _ impossible => nomatch impossible
  mirrors := by
    show Tells [] (((Router.empty parent).register link).interest link.id) _
    rw [interest_register, start, wanted_empty]
    exact tells_of_silent announced_nil _

theorem Linked.actBelow
    (linked : joint.Linked link) {acting : Emitting Router}
    (coherent : acting.value.Coherent) (civil : Civil acting.outputs)
    (reports : Reports joint.below acting.outputs acting.value) :
    (joint.actBelow acting).Linked link := by
  rcases reports linked.below.wellFormed linked.indexed linked.parent
    with ⟨_, indexed, parent, tells⟩
  refine ⟨coherent, linked.above, indexed, parent, linked.registered, ?_, ?_⟩
  · intro body listed
    rcases List.mem_append.mp listed with before | queued
    · exact linked.obeyable body before
    · rcases List.mem_filterMap.mp queued with ⟨output, said, isBody⟩
      cases output with
      | toParent other => cases isBody; exact civil _ said
      | deliver receiver other => cases isBody
      | expel participant reason => cases isBody
  · show Tells ((joint.rising ++ Federation.parentBound acting.outputs).map
      Output.toParent) _ _
    rw [List.map_append]
    apply linked.mirrors.append
    rcases tells with ⟨instructions, isAnnounced, subscriptions, leads⟩
    refine ⟨instructions, ?_, subscriptions, leads⟩
    rw [announced_toParent]
    exact isAnnounced

theorem registered_of_same
    {before after : Router} (same : before.Same after link.id)
    (registered : before.Registered link) : after.Registered link := by
  rcases registered with ⟨member, found, isLink⟩
  exact ⟨member, same.member.trans found, isLink⟩

theorem Linked.actAbove
    (linked : joint.Linked link) {acting : Emitting Router}
    (coherent : acting.value.Coherent)
    (same : joint.above.Same acting.value link.id) :
    (joint.actAbove link acting).Linked link := by
  refine ⟨linked.below, coherent, linked.indexed, linked.parent, ?_,
    linked.obeyable, ?_⟩
  · exact registered_of_same same linked.registered
  · show Tells _ (acting.value.interest link.id) _
    rw [same.interest]
    exact linked.mirrors

/-- What does not concern the interest of a participant leaves it alone. -/
theorem after_of_not_subscription
    (interest : Interest) {instruction : Instruction}
    (other : instruction.isSubscription = false) :
    interest.after instruction = interest := by
  cases instruction with
  | addChannel channel => cases other
  | removeChannel channel => cases other
  | addRange range => cases other
  | removeRange range => cases other
  | addPostRemove channel body => rfl
  | clearPostRemoves channel => rfl
  | setName name => rfl
  | setUrl url => rfl

/--
What rises first is the next that the interest of the link has to be told.
-/
theorem tells_rest
    {body : Datagram} {rest : List Datagram} {before wanted : Interest}
    {instruction : Instruction}
    (tells : Tells ((body :: rest).map Output.toParent) before wanted)
    (asks : Request.of body = .instruct instruction)
    (changes : changesInterest body = instruction.isSubscription) :
    Tells (rest.map Output.toParent) (before.after instruction) wanted := by
  rcases tells with ⟨instructions, isAnnounced, subscriptions, leads⟩
  rw [announced_toParent] at isAnnounced
  cases subscription : instruction.isSubscription with
  | false =>
      rw [subscription] at changes
      rw [List.filter_cons_of_neg (by simp [changes])] at isAnnounced
      refine ⟨instructions, ?_, subscriptions, ?_⟩
      · rw [announced_toParent, isAnnounced]
      · rw [after_of_not_subscription before subscription, leads]
  | true =>
      rw [subscription] at changes
      rw [List.filter_cons_of_pos changes] at isAnnounced
      cases instructions with
      | nil => cases isAnnounced
      | cons first others =>
          rw [List.map_cons] at isAnnounced
          injection isAnnounced with isFirst areOthers
          have counted := Instruction.counted_of_isSubscription
            (subscriptions first List.mem_cons_self)
          rw [isFirst, Request.of_encode counted] at asks
          injection asks with same
          subst same
          refine ⟨others, ?_, ?_, leads⟩
          · rw [announced_toParent, areOthers]
          · exact fun other listed =>
              subscriptions other (List.mem_cons_of_mem first listed)

/-- The link obeys the first of what rises. -/
theorem Linked.rise
    {body : Datagram} {rest : List Datagram}
    (linked : joint.Linked link) (rising : joint.rising = body :: rest) :
    (joint.step link .rise).Linked link := by
  have coherent :=
    respected_coherent.process joint.above body (some link.id) linked.above
  have obeyable : ∀ other ∈ rest, Obeyable other := by
    intro other listed
    apply linked.obeyable
    rw [rising]
    exact List.mem_cons_of_mem body listed
  have mirrors := linked.mirrors
  rw [rising] at mirrors
  rw [step, rising]
  rcases linked.obeyable body (rising ▸ List.mem_cons_self) with
    ⟨instruction, asks, changes⟩ | ⟨recipients, addressed⟩
  · rcases linked.registered with ⟨member, found, isLink⟩
    have acts : (joint.above.process body (some link.id)).value =
        (joint.above.effect link.id member instruction).value := by
      rw [value_process, asks]
      simp only [Router.step, obey_of_member found]
    rcases member_effect found instruction
      with ⟨updated, updatedFound, sameParticipant⟩
    refine ⟨linked.below, coherent, linked.indexed, linked.parent,
      ?_, obeyable, ?_⟩
    · refine ⟨updated, ?_, sameParticipant.trans isLink⟩
      exact (congrArg (·.members.get? link.id) acts).trans updatedFound
    · show Tells _
        ((joint.above.process body (some link.id)).value.interest link.id) _
      rw [acts, linked.above.interest_effect found instruction]
      exact tells_rest mirrors asks changes
  · have acts : (joint.above.process body (some link.id)).value =
        joint.above := by
      rw [value_process, (request_eq_address_iff body recipients).mpr addressed]
    refine ⟨linked.below, coherent, linked.indexed, linked.parent,
      ?_, obeyable, ?_⟩
    · show (joint.above.process body (some link.id)).value.Registered link
      rw [acts]
      exact linked.registered
    · show Tells _
        ((joint.above.process body (some link.id)).value.interest link.id) _
      rw [acts]
      rcases mirrors with ⟨instructions, isAnnounced, subscriptions, leads⟩
      refine ⟨instructions, ?_, subscriptions, leads⟩
      have silent := not_changesInterest_of_addressed addressed
      rw [announced_toParent, List.filter_cons_of_neg (by simp [silent])]
        at isAnnounced
      exact (announced_toParent rest).trans isAnnounced

theorem Linked.step
    (linked : joint.Linked link) {event : Event}
    (fair : event.Fair link joint) :
    (joint.step link event).Linked link := by
  cases event with
  | below event =>
      have orderly : joint.below.Orderly [event] := ⟨fair, trivial⟩
      have coherent : (joint.below.step event).value.Coherent :=
        linked.below.run orderly
      apply linked.actBelow coherent
      · apply respected_civil.step
        exact fun _ _ => civil_nil
      · apply respected_reports.step
        exact fun _ _ wellFormed indexed parent =>
          ⟨wellFormed, indexed, parent, tells_of_silent announced_nil _⟩
  | above event =>
      have orderly : joint.above.Orderly [event] := ⟨fair.1, trivial⟩
      have coherent : (joint.above.step event).value.Coherent :=
        linked.above.run orderly
      exact linked.actAbove coherent (linked.above.same_step fair.2)
  | rise =>
      cases rising : joint.rising with
      | nil =>
          rw [Joint.step, rising]
          exact linked
      | cons body rest => exact linked.rise rising
  | sink =>
      cases sinking : joint.sinking with
      | nil =>
          rw [Joint.step, sinking]
          exact linked
      | cons body rest =>
          have remaining :
              ({ joint with sinking := rest } : Joint).Linked link :=
            ⟨linked.below, linked.above, linked.indexed, linked.parent,
              linked.registered, linked.obeyable, linked.mirrors⟩
          rw [Joint.step, sinking]
          apply remaining.actBelow
          · exact respected_coherent.process joint.below body none linked.below
          · exact respected_civil.process joint.below body none
          · exact respected_reports.process joint.below body none

theorem Linked.run
    (linked : joint.Linked link) {events : List Event}
    (fair : joint.Fair link events) :
    (joint.run link events).Linked link := by
  induction events generalizing joint with
  | nil => exact linked
  | cons event rest ih => exact ih (linked.step fair.1) fair.2

/-- With nothing rising, the link holds above what anybody holds below. -/
theorem Linked.holds_iff
    (linked : joint.Linked link) (quiet : joint.rising = [])
    (channel : Channel) :
    joint.above.Holds link.id channel ↔ ∃ id, joint.below.Holds id channel := by
  have mirrors := linked.mirrors
  rw [quiet] at mirrors
  rcases mirrors with ⟨instructions, isAnnounced, _, leads⟩
  cases instructions with
  | cons first others => cases isAnnounced
  | nil =>
      have holds : joint.above.interest link.id = joint.below.wanted := leads
      have discrete : channel ∈ joint.above.channelsOf link.id ↔
          joint.below.units.contains channel = true ∧
          ¬ joint.below.ranges.Covered channel :=
        Set.ext_iff.mp (congrArg Interest.discrete holds) channel
      have ranged : joint.above.ranges.covers link.id channel = true ↔
          joint.below.ranges.Covered channel :=
        Set.ext_iff.mp (congrArg Interest.ranged holds) channel
      rw [linked.below.exists_holds_iff, Holds, discrete, ranged]
      show _ ↔ _ ∨ joint.below.ranges.Covered channel
      tauto

end Joint

end ChannelRouter
