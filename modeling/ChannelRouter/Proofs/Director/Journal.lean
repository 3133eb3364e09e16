import ChannelRouter.Director
import ChannelRouter.Proofs.Router.Account
import Mathlib.Data.List.Induction

/-!
# The journal of a router

A journal tells who joins and leaves, and what is filed and withdrawn.  From it
one can tell what a participant has pending under a channel: what it filed there
since it last withdrew everything or left.  This is what is due when it leaves
next.
-/

namespace ChannelRouter

/-- What a journal tells of. -/
inductive Note where
  | joined (id : ParticipantId)
  | filed (id : ParticipantId) (channel : Channel) (body : Datagram)
  | cleared (id : ParticipantId) (channel : Channel)
  | left (id : ParticipantId)
deriving DecidableEq, Repr

namespace Note

/-- What is noted of an instruction that is obeyed. -/
def ofInstruction (id : ParticipantId) : Instruction → List Note
  | .addPostRemove channel body => [.filed id channel body]
  | .clearPostRemoves channel => [.cleared id channel]
  | _ => []

/-- What is noted of a datagram that is handled. -/
def ofQueued (queued : Queued) : List Note :=
  match queued.origin, Request.of queued.body with
  | some id, .instruct instruction => ofInstruction id instruction
  | _, _ => []

/-- Whom a note is about. -/
def actor : Note → ParticipantId
  | .joined id => id
  | .filed id _ _ => id
  | .cleared id _ => id
  | .left id => id

/-- Whether somebody joins. -/
def joins : Note → Bool
  | .joined _ => true
  | _ => false

/-- What a participant files under a channel, if that is what is noted. -/
def filed? (id : ParticipantId) (channel : Channel) : Note → Option Datagram
  | .filed other under body =>
      if other = id ∧ under = channel then some body else none
  | _ => none

/-- With this, nothing is pending any more. -/
def settles (id : ParticipantId) (channel : Channel) : Note → Bool
  | .cleared other under => other = id ∧ under = channel
  | .left other => other = id
  | _ => false

/-- What is pending after one more note. -/
def pendingAfter (id : ParticipantId) (channel : Channel)
    (bodies : List Datagram) (note : Note) : List Datagram :=
  if note.settles id channel then []
    else bodies ++ (note.filed? id channel).toList

/--
What a participant has filed under a channel and neither withdrawn nor left
behind.
-/
def pending (id : ParticipantId) (channel : Channel) (journal : List Note) :
    List Datagram :=
  journal.foldl (pendingAfter id channel) []

/-- Whether the participant is there after one more note. -/
def presentAfter (id : ParticipantId) (present : Bool) : Note → Bool
  | .joined other => present || other == id
  | .left other => present && other != id
  | _ => present

/-- Whether the participant has joined and not left. -/
def present (id : ParticipantId) (journal : List Note) : Bool :=
  journal.foldl (presentAfter id) false

/-- Nobody joins who is present, and whoever is not does nothing else. -/
def Regular (journal : List Note) : Prop :=
  ∀ place note, journal[place]? = some note →
    present note.actor (journal.take place) = !note.joins

/-- What is to be handled because of a departure. -/
def due (journal : List Note) (departure : Nat) (channel : Channel) :
    List Queued :=
  match journal[departure]? with
  | some (.left id) =>
      (pending id channel (journal.take departure)).map (⟨·, some id⟩)
  | _ => []

variable {journal : List Note} {id : ParticipantId} {channel : Channel}

theorem pending_concat
    (id : ParticipantId) (channel : Channel)
    (journal : List Note) (note : Note) :
    pending id channel (journal ++ [note]) =
      pendingAfter id channel (pending id channel journal) note :=
  List.foldl_concat _ _ _ _

theorem present_concat (id : ParticipantId)
    (journal : List Note) (note : Note) :
    present id (journal ++ [note]) =
      presentAfter id (present id journal) note :=
  List.foldl_concat _ _ _ _

/-- What is filed later comes after what is pending. -/
theorem pending_append
    (earlier : List Note) {later : List Note}
    (unsettled : ∀ note ∈ later, note.settles id channel = false) :
    pending id channel (earlier ++ later) =
      pending id channel earlier ++ later.filterMap (filed? id channel) := by
  induction later using List.reverseRecOn with
  | nil => simp
  | append_singleton before note ih =>
      have kept :=
        unsettled note
          (List.mem_append_right before (List.mem_singleton_self note))
      have others : ∀ note ∈ before, note.settles id channel = false :=
        fun other listed => unsettled other (List.mem_append_left _ listed)
      rw [← List.append_assoc, pending_concat, ih others, pendingAfter,
        if_neg (by simp [kept]), List.filterMap_append, List.append_assoc]
      cases found : filed? id channel note with
      | none => simp [found]
      | some body => simp [found]

/-- What was pending before it was withdrawn or left behind does not matter. -/
theorem pending_append_of_settles
    (earlier : List Note) {note : Note} (later : List Note)
    (settled : note.settles id channel = true) :
    pending id channel (earlier ++ note :: later) =
      pending id channel later := by
  rw [pending, List.foldl_append, List.foldl_cons, pendingAfter, if_pos settled]
  rfl

theorem due_of_length_le {departure : Nat} (beyond : journal.length ≤ departure)
    (channel : Channel) : due journal departure channel = [] := by
  rw [due, List.getElem?_eq_none beyond]

theorem due_concat_of_ne
    (journal : List Note) (note : Note) {departure : Nat}
    (different : departure ≠ journal.length) (channel : Channel) :
    due (journal ++ [note]) departure channel =
      due journal departure channel := by
  rcases Nat.lt_or_gt_of_ne different with within | beyond
  · rw [due, due, List.getElem?_append_left within,
      List.take_append_of_le_length within.le]
  · have longer : (journal ++ [note]).length ≤ departure := by
      rw [List.length_append, List.length_singleton]
      exact beyond
    rw [due_of_length_le longer, due_of_length_le beyond.le]

theorem due_append_cons
    (earlier : List Note) (note : Note) (later : List Note)
    (channel : Channel) :
    due (earlier ++ note :: later) earlier.length channel =
      match note with
      | .left id => (pending id channel earlier).map (⟨·, some id⟩)
      | _ => [] := by
  rw [due, List.getElem?_append_right le_rfl, Nat.sub_self,
    List.getElem?_cons_zero, List.take_left]
  cases note <;> rfl

theorem due_concat
    (journal : List Note) {note : Note} (stays : ∀ id, note ≠ .left id)
    (departure : Nat) (channel : Channel) :
    due (journal ++ [note]) departure channel =
      due journal departure channel := by
  by_cases last : departure = journal.length
  · rw [last, due_append_cons, due_of_length_le le_rfl]
    split
    · exact absurd rfl (stays _)
    · rfl
  · exact due_concat_of_ne journal note last channel

theorem Regular.concat
    (regular : Regular journal) {note : Note}
    (next : present note.actor journal = !note.joins) :
    Regular (journal ++ [note]) := by
  intro place other found
  rcases Nat.lt_trichotomy place journal.length with within | rfl | beyond
  · rw [List.getElem?_append_left within] at found
    rw [List.take_append_of_le_length within.le]
    exact regular place other found
  · rw [List.getElem?_concat_length] at found
    injection found with same
    rw [List.take_left, ← same, next]
  · have longer : (journal ++ [note]).length ≤ place := by
      rw [List.length_append, List.length_singleton]
      exact beyond
    rw [List.getElem?_eq_none longer] at found
    cases found

/-! ## What is noted of an instruction -/

section Instructions

variable (journal : List Note) (id : ParticipantId) (instruction : Instruction)

theorem present_append_ofInstruction (other : ParticipantId) :
    present other (journal ++ ofInstruction id instruction) =
      present other journal := by
  cases instruction with
  | addPostRemove channel body => exact present_concat other journal _
  | clearPostRemoves channel => exact present_concat other journal _
  | _ => exact congrArg (present other) (List.append_nil journal)

theorem due_append_ofInstruction (departure : Nat) (channel : Channel) :
    due (journal ++ ofInstruction id instruction) departure channel =
      due journal departure channel := by
  cases instruction with
  | addPostRemove under body =>
      exact due_concat journal (by simp) departure channel
  | clearPostRemoves under =>
      exact due_concat journal (by simp) departure channel
  | _ => exact congrArg (due · departure channel) (List.append_nil journal)

theorem pending_append_ofInstruction_of_ne
    {other : ParticipantId} (different : other ≠ id) (channel : Channel) :
    pending other channel (journal ++ ofInstruction id instruction) =
      pending other channel journal := by
  cases instruction with
  | addPostRemove under body =>
      rw [ofInstruction, pending_concat]
      simp [pendingAfter, settles, filed?, different.symm]
  | clearPostRemoves under =>
      rw [ofInstruction, pending_concat]
      simp [pendingAfter, settles, filed?, different.symm]
  | _ => exact congrArg (pending other channel) (List.append_nil journal)

theorem pending_append_ofInstruction
    {postRemoves : PostRemoves} {channel : Channel}
    (agrees : postRemoves.under channel = pending id channel journal) :
    pending id channel (journal ++ ofInstruction id instruction) =
      (postRemoves.after instruction).under channel := by
  cases instruction with
  | addPostRemove under body =>
      rw [ofInstruction, pending_concat, ← agrees, PostRemoves.after,
        PostRemoves.under_add]
      by_cases same : channel = under
      · simp [pendingAfter, settles, filed?, same]
      · simp [pendingAfter, settles, filed?, same, Ne.symm same]
  | clearPostRemoves under =>
      rw [ofInstruction, pending_concat, ← agrees, PostRemoves.after,
        PostRemoves.under_clear]
      by_cases same : channel = under
      · simp [pendingAfter, settles, same]
      · simp [pendingAfter, settles, filed?, same, Ne.symm same]
  | _ =>
      exact (congrArg (pending id channel) (List.append_nil journal)).trans
        agrees.symm

theorem Regular.append_ofInstruction
    {journal : List Note} {id : ParticipantId} (regular : Regular journal)
    (known : present id journal = true) (instruction : Instruction) :
    Regular (journal ++ ofInstruction id instruction) := by
  cases instruction with
  | addPostRemove channel body => exact regular.concat known
  | clearPostRemoves channel => exact regular.concat known
  | _ => exact (List.append_nil journal).symm ▸ regular

end Instructions

end Note

end ChannelRouter
