import ChannelRouter.Proofs.Wire.Access
import ChannelRouter.Proofs.Wire.Fitting
import ChannelRouter.Router.Dispatch

/-!
# Peeking

A peek computes from the count byte alone where a field stands.  It finds the
same field as the reads that pass over everything in front of it, because those
reach exactly that place if it is within the datagram and fail if it is not.
Past the end a peek fails as well.
-/

namespace ChannelRouter

open ChannelRouter.Field (channelBytes)

namespace Read

variable {α β : Type}

/--
From a cursor, the read gets to the place if it is within the datagram, or else
fails.
-/
def Gets (read : Read α) (cursor : Cursor) (place : Nat) : Prop :=
  (place ≤ cursor.body.length ∧
    ∃ value, read.runAt cursor = (.ok value, cursor.seek place)) ∨
    (cursor.body.length < place ∧
      ∃ refusal reached, read.runAt cursor = (.error refusal, reached))

theorem Gets.bind
    {first : Read α} {next : Read β} {cursor : Cursor} {place : Nat}
    {widths : List Nat}
    (gets : first.Gets cursor place) (consumes : next.Consumes widths) :
    (first >>= fun _ => next).Gets cursor (place + widths.sum) := by
  rcases gets with ⟨inside, value, reads⟩ | ⟨outside, refusal, reached, fails⟩
  · rw [Gets, runAt_bind_of_ok reads]
    rcases consumes (cursor.seek place) inside with
      ⟨fit, result, goesOn⟩ | ⟨further, width, stops, stopped⟩
    · exact Or.inl
        ⟨((cursor.seek place).has_iff _).mp ⟨inside, fit⟩, result, goesOn⟩
    · refine Or.inr ⟨?_, _, _, stopped⟩
      have misfit := stops.lt_sum
      simp only [Cursor.remaining, Cursor.seek] at misfit
      omega
  · rw [Gets, runAt_bind_of_error fails]
    exact Or.inr ⟨Nat.lt_add_right _ outside, refusal, reached, rfl⟩

/--
What stands at a place is read there directly as well as after getting there.
-/
theorem Gets.peek_iff
    {first : Read α} {next : Read β} {cursor : Cursor} {place width : Nat}
    {denote : List UInt8 → β}
    (gets : first.Gets cursor place)
    (takes : next.TakesKnown width denote) (value : β) :
    (next.runAt (cursor.seek place)).1 = .ok value ↔
      ∃ reached, (first >>= fun _ => next).runAt cursor =
        (.ok value, reached) := by
  rcases gets with ⟨inside, passed, reads⟩ | ⟨outside, refusal, reached, fails⟩
  · rw [runAt_bind_of_ok reads]
    constructor
    · exact fun succeeds => ⟨_, Prod.ext succeeds rfl⟩
    · rintro ⟨reached, succeeds⟩
      rw [succeeds]
  · have misses :=
      takes.fails (cursor.seek place) fun has => Nat.not_le_of_lt outside has.1
    rw [runAt_bind_of_error fails, misses]
    constructor
    · intro succeeds
      cases succeeds
    · rintro ⟨_, succeeds⟩
      cases succeeds

theorem gets_recipients (body : Datagram) :
    recipients.Gets (Cursor.start body)
      (Cursor.start body).payloadPosition := by
  rw [Gets, runAt_recipients_start]
  cases body with
  | nil => exact Or.inr ⟨Nat.zero_lt_one, _, _, runAt_countedChannels_nil⟩
  | cons count rest =>
      have widths : (List.replicate count.toNat 8).sum = count.toNat * 8 :=
        List.sum_replicate_nat
      have first : 1 ≤ (count :: rest).length :=
        Nat.succ_le_succ (Nat.zero_le rest.length)
      rw [runAt_countedChannels_cons]
      rcases consumes_channels count.toNat ⟨count :: rest, 1⟩ first
        with ⟨fit, value, reads⟩ | ⟨place, width, stops, stopped⟩
      · rw [widths] at fit reads
        exact Or.inl ⟨((⟨count :: rest, 1⟩ : Cursor).has_iff _).mp ⟨first, fit⟩,
          value, reads⟩
      · refine Or.inr ⟨?_, _, _, stopped⟩
        have misfit := stops.lt_sum
        rw [widths] at misfit
        simp only [Cursor.remaining] at misfit
        show (count :: rest).length < 1 + count.toNat * 8
        omega

/--
Wherever the cursor stands, the recipients that are read end at the payload.
-/
theorem reached_eq_seekPayload
    {cursor reached : Cursor} {receivers : List Channel}
    (succeeds : recipients.runAt cursor = (.ok receivers, reached)) :
    reached = cursor.seekPayload := by
  rw [runAt_recipients, ← runAt_recipients_start] at succeeds
  rcases gets_recipients cursor.body
    with ⟨_, value, reads⟩ | ⟨_, refusal, left, fails⟩
  · rw [reads] at succeeds
    injection succeeds with _ there
    exact there.symm
  · rw [fails] at succeeds
    cases succeeds

/-- The control channel alone is recognised by the first nine bytes. -/
theorem isControl_iff (cursor : Cursor) :
    cursor.isControl = true ↔
      ∃ reached, recipients.runAt cursor =
        (.ok [Channel.control], reached) := by
  rcases cursor with ⟨body, position⟩
  rw [runAt_recipients, Cursor.isControl, Bool.and_eq_true,
    beq_iff_eq, beq_iff_eq]
  constructor
  · rintro ⟨alone, control⟩
    cases body with
    | nil => cases alone
    | cons count rest =>
        have isOne : count = 1 := alone
        have front : rest.take 8 = channelBytes Channel.control := control
        have split : channelBytes Channel.control ++ rest.drop 8 = rest := by
          rw [← front, List.take_append_drop]
        have few : [Channel.control].length ≤ 255 := by decide
        have reads := (reads_countedChannels few).runAt_start (rest.drop 8)
        rw [List.flatMap_singleton, List.cons_append, split] at reads
        rw [isOne]
        exact ⟨_, reads⟩
  · rintro ⟨reached, succeeds⟩
    rcases passes_countedChannels _ _ _ succeeds with ⟨_, ⟨_, rfl⟩, split⟩
    have isBody :
        body = 1 :: (channelBytes Channel.control ++ reached.ahead) := by
      rw [List.flatMap_singleton] at split
      exact split
    have front : (channelBytes Channel.control ++ reached.ahead).take 8 =
        channelBytes Channel.control :=
          List.take_left' (Field.length_channelBytes _)
    rw [isBody]
    exact ⟨rfl, front⟩

end Read

/-- The router takes a datagram for an instruction exactly if the peek does. -/
theorem Router.handle_none_eq_controlWithoutOrigin_iff (router : Router)
    (cursor : Cursor) :
    router.handle cursor.body none = .error .controlWithoutOrigin ↔
      cursor.isControl = true := by
  rw [Read.isControl_iff, Read.runAt_recipients,
    ← Read.runAt_recipients_start, Router.handle]
  rcases Read.recipients.runAt (Cursor.start cursor.body)
    with ⟨outcome, reached⟩
  cases outcome with
  | error cause => simp
  | ok receivers =>
      by_cases control : receivers = [Channel.control]
      · simp [control]
      · cases addressing :
          (Read.senderAndType.runAt reached).1 <;> simp [control, addressing]

namespace Access

theorem runAt_of_peeks {access : Access} (peeks : access.peeks = true)
    (cursor : Cursor) : (access.read.runAt cursor).2 = cursor := by
  cases access
  case recipientCount | isControl | sender | messageType | position
    | remaining | whole => rfl
  all_goals cases peeks

/-- Peeks may be left out of a run, which changes nothing for the others. -/
theorem run_without_peeks (accesses : List Access) (cursor : Cursor) :
    run (accesses.filter (!·.peeks)) cursor =
      ((run accesses cursor).1.filter (!·.1.peeks),
        (run accesses cursor).2) := by
  induction accesses generalizing cursor with
  | nil => rfl
  | cons access others ih =>
      cases peeks : access.peeks with
      | true => simp [peeks, run, ih, runAt_of_peeks peeks]
      | false => simp [peeks, run, ih]

end Access

namespace Cursor

open Read (recipients channel u16)

/--
Peeks agree with reading.  Wherever the cursor stands, the sender and the
message type are found exactly if reading from the beginning gets to them, and
are the same.  The payload is where reading the recipients ends, and the
datagram is an instruction exactly if the control channel is its only recipient,
which is also what the router goes by.  No peek moves the cursor, so peeks may
be left out of any run.
-/
theorem peeks_agree_with_reads (body : Datagram) (position : Nat) :
    let cursor : Cursor := ⟨body, position⟩
    let fresh := Cursor.start body
    (∀ sender, cursor.sender = .ok sender ↔
      ∃ reached, (recipients >>= fun _ => channel).runAt fresh =
        (.ok sender, reached)) ∧
    (∀ messageType, cursor.messageType = .ok messageType ↔
      ∃ reached,
        (recipients >>= fun _ => channel >>= fun _ => u16).runAt fresh =
        (.ok messageType, reached)) ∧
    (∀ receivers reached, recipients.runAt fresh = (.ok receivers, reached) →
      reached = cursor.seekPayload) ∧
    (cursor.isControl = true ↔
      ∃ reached, recipients.runAt fresh = (.ok [Channel.control], reached)) ∧
    (∀ router : Router,
      router.handle body none = .error .controlWithoutOrigin ↔
        cursor.isControl = true) ∧
    (∀ access : Access, access.peeks = true →
      (access.read.runAt cursor).2 = cursor) ∧
    ∀ accesses, Access.run (accesses.filter (!·.peeks)) cursor =
      ((Access.run accesses cursor).1.filter (!·.1.peeks),
        (Access.run accesses cursor).2) := by
  intro cursor fresh
  have named := Read.gets_recipients body
  refine ⟨?_, ?_, ?_, Read.isControl_iff fresh, ?_, ?_, ?_⟩
  · exact fun sender => named.peek_iff (Read.takesKnown_numeral .channel) sender
  · have passed := named.bind Read.consumes_channel
    intro messageType
    rw [← bind_assoc]
    exact passed.peek_iff (Read.takesKnown_numeral .u16) messageType
  · exact fun receivers reached succeeds => Read.reached_eq_seekPayload succeeds
  · exact fun router => router.handle_none_eq_controlWithoutOrigin_iff cursor
  · exact fun access peeks => Access.runAt_of_peeks peeks cursor
  · exact fun accesses => Access.run_without_peeks accesses cursor

/--
An instruction that is too short for a sender, peeked at from past its end.
-/
theorem short_instructions_are_recognised :
    let body := (Field.controlHeader 9000).encode
    let cursor : Cursor := ⟨body, 500⟩
    recipients.runAt (Cursor.start body) = (.ok [Channel.control], ⟨body, 9⟩) ∧
      ⟨body, 9⟩ = cursor.seekPayload ∧
      cursor.sender = .error (.truncated 8 2) ∧
      Access.sender.peeks = true ∧
        (Access.sender.read.runAt cursor).2 = cursor := by
  intro body cursor
  rcases peeks_agree_with_reads body 500 with ⟨_, _, payload, _, _, still, _⟩
  have reads : recipients.runAt (Cursor.start body) =
      (.ok [Channel.control], ⟨body, 9⟩) := by
    decide
  exact ⟨reads, payload _ _ reads, by decide, rfl, still .sender rfl⟩

end Cursor

end ChannelRouter
