import ChannelRouter.Proofs.Wire.Access
import ChannelRouter.Proofs.Wire.Fitting

/-!
# Sums and cuts

Positions are added in 64 bits, and bytes are cut out of a datagram between two
positions.  `Checked` makes every such sum and cut explicit: where a sum is too
large or a cut is out of bounds, there is no result at all.

Each access guards its sums and cuts, so on a datagram that can be addressed
there always is a result, and it is that of the plain read.
-/

namespace ChannelRouter

/-- A number, if 64 bits hold it. -/
def held? (number : Nat) : Option Nat :=
  if number < 2 ^ 64 then some number else none

/--
The bytes between two positions that are in order and within the datagram.
-/
def cut? (body : Datagram) (first last : Nat) : Option (List UInt8) :=
  if first ≤ last ∧ last ≤
    body.length then some ((body.drop first).take (last - first)) else none

/--
A read that comes to nothing where a sum is too large or a cut is out of bounds.
-/
abbrev Checked (α : Type) := ExceptT FormatError (StateT Cursor Option) α

namespace Checked

variable {α β : Type}

/-- The result at a cursor and the cursor after, if there is a result at all. -/
def runAt (checked : Checked α) (cursor : Cursor) :
    Option (Except FormatError α × Cursor) :=
  (ExceptT.run checked).run cursor

/-- No result at all. -/
def fault : Checked α := ExceptT.mk fun _ => none

/-- The next bytes, cut out up to a position that is added. -/
def take (count : Nat) : Checked (List UInt8) :=
  ExceptT.mk fun cursor =>
    if cursor.holds count then do
      let last ← held? (cursor.position + count)
      let bytes ← cut? cursor.body cursor.position last
      pure (.ok bytes, cursor.seek last)
    else
      pure (.error (.truncated count cursor.remaining), cursor)

/--
A numeral, whose bytes are copied to where there is room for exactly its width.
-/
def number (numeral : Numeral) : Checked numeral.Value := do
  let bytes ← take numeral.width
  if bytes.length = numeral.width then pure (numeral.ofBytes bytes) else fault

/-- Bytes behind the count of them. -/
def blob : Checked (List UInt8) := do
  let count : UInt32 ← number .size
  take count.toNat

/-- UTF-8 behind the count of its bytes. -/
def text : Checked String := do
  let bytes ← blob
  match String.fromUTF8? ⟨bytes.toArray⟩ with
  | some value => pure value
  | none => throw .invalidText

/--
Everything from the position to the end, or from the end if the position is past
it.
-/
def remainder : Checked (List UInt8) :=
  ExceptT.mk fun cursor => do
    let last := cursor.body.length
    let bytes ← cut? cursor.body (min cursor.position last) last
    pure (.ok bytes, cursor.seek last)

/-- Move the cursor, to wherever it may be. -/
def seek (place : Nat) : Checked Unit :=
  ExceptT.mk fun cursor => pure (.ok (), cursor.seek place)

/-- So many channels. -/
def channels : Nat → Checked (List Channel)
  | 0 => pure []
  | count + 1 => do
    let next : Channel ← number .channel
    let others ← channels count
    pure (next :: others)

/-- The recipients, from the beginning of the datagram on. -/
def recipients : Checked (List Channel) := do
  seek 0
  let count : UInt8 ← number .u8
  channels count.toNat

/-- Say something about the cursor, if it can be computed, without moving it. -/
def look (tell : Cursor → Option (Except FormatError α)) : Checked α :=
  ExceptT.mk fun cursor => do
    let told ← tell cursor
    pure (told, cursor)

end Checked

namespace Cursor

/-- The position right after the recipients, if 64 bits hold it. -/
def payloadPosition? (cursor : Cursor) : Option Nat := do
  let span ← held? (cursor.recipientCount.toNat * Channel.width)
  held? (1 + span)

/--
Whether the datagram is an instruction, by a cut out of one that is long enough.
-/
def isControl? (cursor : Cursor) : Option Bool :=
  if cursor.recipientCount = 1 ∧ 1 + Channel.width ≤ cursor.body.length then do
    let bytes ← cut? cursor.body 1 (1 + Channel.width)
    pure (bytes == Word.bytes Channel.width Channel.control.toNat)
  else
    pure false

/-- The sender, read with a copy of the cursor. -/
def sender? (cursor : Cursor) : Option (Except FormatError Channel) := do
  let place ← cursor.payloadPosition?
  let (outcome, _) ← (Checked.number .channel).runAt (cursor.seek place)
  pure outcome

/-- The message type, read with a copy of the cursor. -/
def messageType? (cursor : Cursor) : Option (Except FormatError UInt16) := do
  let place ← cursor.payloadPosition?
  let behindSender ← held? (place + Channel.width)
  let (outcome, _) ← (Checked.number .u16).runAt (cursor.seek behindSender)
  pure outcome

end Cursor

namespace Access

/-- An access with all its sums and cuts. -/
def checked : (access : Access) → Checked access.Answer
  | number numeral => Checked.number numeral
  | skip count => discard (Checked.take count)
  | data count => Checked.take count
  | blob => Checked.blob
  | text => Checked.text
  | datagram => Checked.blob
  | remainder => Checked.remainder
  | recipients => Checked.recipients
  | seek place => Checked.seek place
  | seekPayload =>
    ExceptT.mk fun cursor => do
      let place ← cursor.payloadPosition?
      pure (.ok (), cursor.seek place)
  | recipientCount =>
      Checked.look fun cursor => some (.ok cursor.recipientCount)
  | isControl => Checked.look fun cursor => Except.ok <$> cursor.isControl?
  | sender => Checked.look Cursor.sender?
  | messageType => Checked.look Cursor.messageType?
  | position => Checked.look fun cursor => some (.ok cursor.position)
  | remaining => Checked.look fun cursor => some (.ok cursor.remaining)
  | whole => Checked.look fun cursor => some (.ok cursor.body)

/-- One checked access after the other. -/
def runChecked : List Access → Cursor → Option (List Answered × Cursor)
  | [], cursor => some ([], cursor)
  | access :: others, cursor => do
    let (answer, reached) ← access.checked.runAt cursor
    let (answers, last) ← runChecked others reached
    pure (⟨access, answer⟩ :: answers, last)

end Access

namespace Checked

variable {α β : Type}

theorem runAt_bind
    (first : Checked α) (next : α → Checked β) (cursor : Cursor) :
    (first >>= next).runAt cursor =
      first.runAt cursor >>= fun outcome =>
        match outcome.1 with
        | .ok value => (next value).runAt outcome.2
        | .error cause => some (.error cause, outcome.2) := by
  have continued : (first >>= next).runAt cursor =
      first.runAt cursor >>= fun outcome =>
      (ExceptT.bindCont next outcome.1).run outcome.2 := rfl
  rw [continued]
  congr 1
  funext outcome
  cases outcome.1 <;> rfl

/--
On every datagram that can be addressed, the checked read has a result, which is
that of the read, and the datagram stays the same.
-/
def Agrees (checked : Checked α) (read : Read α) : Prop :=
  ∀ cursor : Cursor, cursor.body.length < 2 ^ 64 →
    checked.runAt cursor = some (read.runAt cursor) ∧
      (read.runAt cursor).2.body = cursor.body

theorem agrees_pure (value : α) :
    (pure value : Checked α).Agrees (pure value) :=
  fun _ _ => ⟨rfl, rfl⟩

theorem agrees_throw (cause : FormatError) :
    (throw cause : Checked α).Agrees (throw cause) :=
  fun _ _ => ⟨rfl, rfl⟩

/-- The second part only has to agree on values that the first can give. -/
theorem Agrees.bind
    {first : Checked α} {read : Read α} {next : α → Checked β}
    {continued : α → Read β} (agrees : first.Agrees read)
    (continues : ∀ cursor value reached, read.runAt cursor =
      (.ok value, reached) → (next value).Agrees (continued value)) :
    (first >>= next).Agrees (read >>= continued) := by
  intro cursor addressed
  rcases agrees cursor addressed with ⟨same, body⟩
  rcases reads : read.runAt cursor with ⟨outcome, reached⟩
  rw [reads] at same body
  rw [runAt_bind, same]
  cases outcome with
  | ok value =>
      have still : reached.body.length < 2 ^ 64 := body ▸ addressed
      rcases continues cursor value reached reads reached still
        with ⟨goesOn, kept⟩
      rw [Read.runAt_bind_of_ok reads]
      exact ⟨goesOn, kept.trans body⟩
  | error cause =>
      rw [Read.runAt_bind_of_error reads]
      exact ⟨rfl, body⟩

theorem Agrees.map
    {checked : Checked α} {read : Read α} (agrees : checked.Agrees read)
    (change : α → β) :
    (change <$> checked).Agrees (change <$> read) := by
  rw [map_eq_pure_bind, map_eq_pure_bind]
  exact agrees.bind fun _ value _ _ => agrees_pure (change value)

/-- Within the datagram, neither the sum nor the cut can go wrong. -/
theorem agrees_take (count : Nat) : (take count).Agrees (Read.take count) := by
  intro cursor addressed
  by_cases enough : cursor.Has count
  · have within := (cursor.has_iff count).mp enough
    have fits : cursor.position + count < 2 ^ 64 :=
      Nat.lt_of_le_of_lt within addressed
    have ordered : cursor.position ≤ cursor.position + count :=
      Nat.le_add_right _ _
    rw [Read.runAt_take_of_has enough]
    refine ⟨?_, rfl⟩
    show (if cursor.holds count = true then _ else _ : Option _) = _
    rw [if_pos ((cursor.holds_eq_true_iff count).mpr enough),
      held?, if_pos fits, Option.bind_eq_bind, Option.bind_some, cut?,
      if_pos ⟨ordered, within⟩,
      Nat.add_sub_cancel_left]
    rfl
  · rw [Read.runAt_take_of_not_has enough]
    refine ⟨?_, rfl⟩
    exact if_neg (mt (cursor.holds_eq_true_iff count).mp enough)

theorem agrees_number (numeral : Numeral) :
    (number numeral).Agrees numeral.read := by
  rw [Numeral.read_eq, map_eq_pure_bind]
  apply (agrees_take numeral.width).bind
  intro cursor bytes reached taken
  rw [if_pos (Read.runAt_take taken).1]
  exact agrees_pure (numeral.ofBytes bytes)

theorem agrees_blob : blob.Agrees Read.blob :=
  (agrees_number .size).bind fun _ count _ _ => agrees_take (UInt32.toNat count)

theorem agrees_text : text.Agrees Read.text := by
  apply agrees_blob.bind
  intro _ bytes _ _
  cases String.fromUTF8? ⟨bytes.toArray⟩ with
  | none => exact agrees_throw .invalidText
  | some value => exact agrees_pure value

theorem agrees_remainder : remainder.Agrees Read.remainder := by
  intro cursor _
  have bounds : min cursor.position cursor.body.length ≤ cursor.body.length ∧
      cursor.body.length ≤ cursor.body.length :=
        ⟨Nat.min_le_right _ _, Nat.le_refl _⟩
  have rest : (cursor.body.drop (min cursor.position cursor.body.length)).take
      (cursor.body.length - min cursor.position cursor.body.length) =
        cursor.body.drop cursor.position := by
    rw [← List.length_drop, List.take_length]
    rcases Nat.le_total cursor.position cursor.body.length with inside | outside
    · rw [Nat.min_eq_left inside]
    · rw [Nat.min_eq_right outside, List.drop_length,
        List.drop_of_length_le outside]
  refine ⟨?_, rfl⟩
  show (cut? cursor.body _ _ >>= _ : Option _) = _
  rw [cut?, if_pos bounds, rest]
  rfl

theorem agrees_seek (place : Nat) : (seek place).Agrees (Read.seek place) :=
  fun _ _ => ⟨rfl, rfl⟩

theorem agrees_channels (count : Nat) :
    (channels count).Agrees (Read.channels count) := by
  induction count with
  | zero => exact agrees_pure []
  | succ count ih =>
      exact (agrees_number .channel).bind fun _ next _ _ =>
        ih.bind fun _ others _ _ => agrees_pure (next :: others)

theorem agrees_recipients : recipients.Agrees Read.recipients :=
  (agrees_seek 0).bind fun _ _ _ _ =>
    (agrees_number .u8).bind fun _ count _ _ =>
      agrees_channels (UInt8.toNat count)

theorem agrees_look
    {tell : Cursor → Option (Except FormatError α)}
    {told : Cursor → Except FormatError α}
    (tells : ∀ cursor : Cursor, cursor.body.length < 2 ^ 64 →
      tell cursor = some (told cursor)) :
    (look tell).Agrees (ExceptT.mk fun cursor => (told cursor, cursor)) := by
  intro cursor addressed
  refine ⟨?_, rfl⟩
  show (tell cursor >>= _ : Option _) = _
  rw [tells cursor addressed]
  rfl

end Checked

namespace Cursor

/-- However many recipients are announced, their end is a small number. -/
theorem payloadPosition_lt (cursor : Cursor) :
    cursor.payloadPosition < 2 ^ 12 := by
  have few := cursor.recipientCount.toNat_lt
  unfold payloadPosition Channel.width
  omega

theorem payloadPosition?_eq (cursor : Cursor) :
    cursor.payloadPosition? = some cursor.payloadPosition := by
  have small := cursor.payloadPosition_lt
  unfold payloadPosition at small
  have span : cursor.recipientCount.toNat * Channel.width < 2 ^ 64 := by omega
  have sum : 1 + cursor.recipientCount.toNat * Channel.width <
      2 ^ 64 := by omega
  rw [payloadPosition?, held?, if_pos span, Option.bind_eq_bind,
    Option.bind_some, held?, if_pos sum]
  rfl

theorem isControl?_eq (cursor : Cursor) :
    cursor.isControl? = some cursor.isControl := by
  rw [isControl?, isControl]
  by_cases alone : cursor.recipientCount = 1
  · by_cases long : 1 + Channel.width ≤ cursor.body.length
    · have bounds : 1 ≤ 1 + Channel.width ∧
          1 + Channel.width ≤ cursor.body.length :=
        ⟨Nat.le_add_right _ _, long⟩
      rw [if_pos ⟨alone, long⟩, cut?, if_pos bounds, alone]
      rfl
    · have short : (cursor.body.drop 1).take Channel.width ≠
          Word.bytes Channel.width Channel.control.toNat := by
        intro same
        have lengths := congrArg List.length same
        rw [List.length_take, List.length_drop, Word.length_bytes] at lengths
        have some : 0 < Channel.width := by decide
        omega
      rw [if_neg fun guarded => long guarded.2,
        beq_false_of_ne short, Bool.and_false]
      rfl
  · rw [if_neg fun guarded => alone guarded.1,
      beq_false_of_ne alone, Bool.false_and]
    rfl

theorem sender?_eq {cursor : Cursor} (addressed : cursor.body.length < 2 ^ 64) :
    cursor.sender? = some cursor.sender := by
  have agrees := Checked.agrees_number .channel
    (cursor.seek cursor.payloadPosition) addressed
  rw [sender?, payloadPosition?_eq, Option.bind_eq_bind,
    Option.bind_some, agrees.1]
  rfl

theorem messageType?_eq {cursor : Cursor}
    (addressed : cursor.body.length < 2 ^ 64) :
    cursor.messageType? = some cursor.messageType := by
  have small := cursor.payloadPosition_lt
  have sum : cursor.payloadPosition + Channel.width < 2 ^ 64 := by
    unfold Channel.width
    omega
  have agrees := Checked.agrees_number .u16
    (cursor.seek (cursor.payloadPosition + Channel.width)) addressed
  rw [messageType?, payloadPosition?_eq, Option.bind_eq_bind, Option.bind_some,
    held?, if_pos sum, Option.bind_eq_bind, Option.bind_some, agrees.1]
  rfl

end Cursor

namespace Access

theorem agrees_checked (access : Access) :
    access.checked.Agrees access.read := by
  cases access with
  | number numeral => exact Checked.agrees_number numeral
  | skip count => exact (Checked.agrees_take count).map fun _ => ()
  | data count => exact Checked.agrees_take count
  | blob => exact Checked.agrees_blob
  | text => exact Checked.agrees_text
  | datagram => exact Checked.agrees_blob
  | remainder => exact Checked.agrees_remainder
  | recipients => exact Checked.agrees_recipients
  | seek place => exact Checked.agrees_seek place
  | seekPayload =>
      intro cursor _
      refine ⟨?_, rfl⟩
      show (cursor.payloadPosition? >>= _ : Option _) = _
      rw [cursor.payloadPosition?_eq]
      rfl
  | recipientCount => exact Checked.agrees_look fun _ _ => rfl
  | isControl =>
      apply Checked.agrees_look
      intro cursor _
      rw [cursor.isControl?_eq]
      rfl
  | sender =>
      exact Checked.agrees_look fun _ addressed => Cursor.sender?_eq addressed
  | messageType => exact Checked.agrees_look fun _ addressed =>
      Cursor.messageType?_eq addressed
  | position => exact Checked.agrees_look fun _ _ => rfl
  | remaining => exact Checked.agrees_look fun _ _ => rfl
  | whole => exact Checked.agrees_look fun _ _ => rfl

/-- No access of a run comes to nothing. -/
theorem runChecked_eq
    {cursor : Cursor} (addressed : cursor.body.length < 2 ^ 64)
    (accesses : List Access) :
    runChecked accesses cursor = some (run accesses cursor) := by
  induction accesses generalizing cursor with
  | nil => rfl
  | cons access others ih =>
      rcases access.agrees_checked cursor addressed with ⟨same, body⟩
      rcases reads : access.read.runAt cursor with ⟨answer, reached⟩
      rw [reads] at same body
      have still : reached.body.length < 2 ^ 64 := body ▸ addressed
      simp only [runChecked, run, same, reads, ih still, Option.bind_eq_bind,
        Option.bind_some, Option.pure_def]

end Access

end ChannelRouter
