import ChannelRouter.Proofs.Wire.RoundTrip

/-!
# What a read passes over

An encoding is read wherever it stands.  Here is the other direction: whatever
the bytes are, a read that succeeds has passed over the encoding of the value it
gives, and over nothing else.  What a composed read passes over is put together
from what its parts do.
-/

namespace ChannelRouter

open ChannelRouter.Field (channelBytes typeBytes counted)

/-- The bytes from the position to the end. -/
def Cursor.ahead (cursor : Cursor) : List UInt8 :=
  cursor.body.drop cursor.position

namespace Read

variable {α β : Type}

/--
Wherever the read succeeds, it passes over bytes of a form that the value
determines.
-/
def Passes (read : Read α) (form : α → List UInt8 → Prop) : Prop :=
  ∀ cursor value reached, read.runAt cursor = (.ok value, reached) →
    ∃ passed, form value passed ∧ cursor.ahead = passed ++ reached.ahead

theorem passes_pure (value : α) :
    (pure value : Read α).Passes fun given passed => given = value ∧
      passed = [] := by
  rintro cursor given reached ⟨rfl, rfl⟩
  exact ⟨[], ⟨rfl, rfl⟩, rfl⟩

theorem Passes.bind
    {first : Read α} {next : α → Read β}
    {form : α → List UInt8 → Prop} {more : α → β → List UInt8 → Prop}
    (passes : first.Passes form)
    (continues : ∀ value, (next value).Passes (more value)) :
    (first >>= next).Passes fun result passed =>
      ∃ value front back, form value front ∧ more value result back ∧
        passed = front ++ back := by
  intro cursor result reached succeeds
  rw [runAt_bind_eq_ok_iff] at succeeds
  rcases succeeds with ⟨value, between, here, there⟩
  rcases passes cursor value between here with ⟨front, inForm, split⟩
  rcases continues value between result reached there
    with ⟨back, inMore, splitBack⟩
  refine ⟨front ++ back, ⟨value, front, back, inForm, inMore, rfl⟩, ?_⟩
  rw [split, splitBack, List.append_assoc]

theorem Passes.mono
    {read : Read α} {form weaker : α → List UInt8 → Prop}
    (passes : read.Passes form)
    (follows : ∀ value passed, form value passed → weaker value passed) :
    read.Passes weaker := by
  intro cursor value reached succeeds
  rcases passes cursor value reached succeeds with ⟨passed, inForm, split⟩
  exact ⟨passed, follows value passed inForm, split⟩

theorem Passes.map
    {read : Read α} {form : α → List UInt8 → Prop}
    {changed : β → List UInt8 → Prop}
    (passes : read.Passes form) (change : α → β)
    (follows : ∀ value passed, form value passed →
      changed (change value) passed) :
    (change <$> read).Passes changed := by
  intro cursor result reached succeeds
  rcases (runAt_map_eq_ok_iff change read cursor reached result).mp succeeds
    with ⟨value, reads, rfl⟩
  rcases passes cursor value reached reads with ⟨passed, inForm, split⟩
  exact ⟨passed, follows value passed inForm, split⟩

theorem passes_take (count : Nat) :
    (take count).Passes fun bytes passed => bytes.length = count ∧
      passed = bytes := by
  intro cursor bytes reached succeeds
  rcases runAt_take succeeds with ⟨length, _, there⟩
  change (if cursor.holds count = true then _
    else _ : Except FormatError _ × Cursor) = _ at succeeds
  split at succeeds
  · injection succeeds with isBytes _
    injection isBytes with isBytes
    refine ⟨bytes, ⟨length, rfl⟩, ?_⟩
    rw [there, ← isBytes]
    simp [Cursor.ahead, Cursor.seek, ← List.drop_drop]
  · injection succeeds with failed
    cases failed

theorem passes_number (width : Nat) :
    (number width).Passes fun value passed =>
      value < 256 ^ width ∧ passed = Word.bytes width value := by
  apply (passes_take width).map Word.value
  rintro _ bytes ⟨rfl, rfl⟩
  exact ⟨Word.value_lt bytes, (Word.bytes_value bytes).symm⟩

theorem passes_u8 : u8.Passes fun value passed => passed = [value] := by
  apply (passes_number 1).map UInt8.ofNat
  rintro value _ ⟨fits, rfl⟩
  rw [Nat.pow_one] at fits
  rw [Word.bytes, Nat.mod_eq_of_lt fits, Word.bytes]

theorem passes_u16 :
    u16.Passes fun value passed => passed = typeBytes value := by
  apply (passes_number 2).map UInt16.ofNat
  rintro value _ ⟨fits, rfl⟩
  rw [typeBytes, UInt16.toNat_ofNat_of_lt' fits]

theorem passes_size :
    size.Passes fun value passed => passed = Word.bytes 4 value.toNat := by
  apply (passes_number 4).map UInt32.ofNat
  rintro value _ ⟨fits, rfl⟩
  rw [UInt32.toNat_ofNat_of_lt' fits]

theorem passes_channel :
    channel.Passes fun value passed => passed = channelBytes value := by
  apply (passes_number 8).map UInt64.ofNat
  rintro value _ ⟨fits, rfl⟩
  rw [channelBytes, UInt64.toNat_ofNat_of_lt' fits]
  rfl

theorem passes_blob :
    blob.Passes fun bytes passed => bytes.length < 2 ^ 32 ∧
      passed = counted bytes := by
  apply (passes_size.bind fun count => passes_take count.toNat).mono
  rintro bytes passed ⟨count, front, back, rfl, ⟨length, rfl⟩, rfl⟩
  rw [counted, length]
  exact ⟨count.toNat_lt, rfl⟩

/-- A text that was found in bytes is written as these bytes. -/
theorem toList_toUTF8_of_fromUTF8?
    {bytes : List UInt8} {value : String}
    (valid : String.fromUTF8? ⟨bytes.toArray⟩ = some value) :
    value.toUTF8.toList = bytes := by
  rw [String.fromUTF8?] at valid
  split at valid
  · injection valid with isValue
    subst isValue
    exact toList_loop ⟨bytes.toArray⟩ 0 []
  · cases valid

theorem passes_text :
    text.Passes fun value passed =>
      value.toUTF8.toList.length < 2 ^ 32 ∧
        passed = counted value.toUTF8.toList := by
  intro cursor value reached succeeds
  rw [text, runAt_bind_eq_ok_iff] at succeeds
  rcases succeeds with ⟨bytes, between, taken, checked⟩
  rcases passes_blob cursor bytes between taken with ⟨passed, inForm, split⟩
  cases valid : String.fromUTF8? ⟨bytes.toArray⟩ with
  | none =>
      rw [valid] at checked
      injection checked with failed
      cases failed
  | some found =>
      rw [valid] at checked
      rcases checked with ⟨rfl, rfl⟩
      rw [← toList_toUTF8_of_fromUTF8? valid] at inForm
      exact ⟨passed, inForm, split⟩

theorem passes_range :
    range.Passes fun value passed =>
      passed = channelBytes value.first ++ channelBytes value.last := by
  intro cursor value reached succeeds
  rw [range, runAt_bind_eq_ok_iff] at succeeds
  rcases succeeds with ⟨first, behindFirst, firstRead, others⟩
  rw [runAt_bind_eq_ok_iff] at others
  rcases others with ⟨last, behindLast, lastRead, ordered⟩
  rcases passes_channel _ _ _ firstRead with ⟨_, rfl, split⟩
  rcases passes_channel _ _ _ lastRead with ⟨_, rfl, splitLast⟩
  rw [ChannelRange.ofEnds] at ordered
  split at ordered
  · rename_i made isMade
    split at isMade
    · cases isMade
      rcases ordered with ⟨rfl, rfl⟩
      refine ⟨_, rfl, ?_⟩
      rw [split, splitLast, List.append_assoc]
    · cases isMade
  · injection ordered with failed
    cases failed

theorem passes_channels (count : Nat) :
    (channels count).Passes fun values passed =>
      values.length = count ∧ passed = values.flatMap channelBytes := by
  induction count with
  | zero =>
      apply (passes_pure []).mono
      rintro values passed ⟨rfl, rfl⟩
      exact ⟨rfl, rfl⟩
  | succ count ih =>
      apply (passes_channel.bind fun next => ih.bind fun others =>
        passes_pure (next :: others)).mono
      rintro values passed
        ⟨next, _, _, rfl, ⟨others, _, _, ⟨length, rfl⟩, ⟨rfl, rfl⟩, rfl⟩, rfl⟩
      exact ⟨by rw [List.length_cons, length], by rw [List.append_nil,
        List.flatMap_cons]⟩

theorem passes_countedChannels :
    countedChannels.Passes fun recipients passed => recipients.length ≤ 255 ∧
      passed = UInt8.ofNat recipients.length ::
        recipients.flatMap channelBytes := by
  apply (passes_u8.bind fun count => passes_channels count.toNat).mono
  rintro recipients passed ⟨count, _, _, rfl, ⟨length, rfl⟩, rfl⟩
  rw [length, UInt8.ofNat_toNat]
  exact ⟨Nat.le_of_lt_succ count.toNat_lt, rfl⟩

/-! ## Any bytes of the right number -/

theorem exists_channelBytes
    {bytes : List UInt8} (length : bytes.length = 8) :
    ∃ channel, channelBytes channel = bytes := by
  have fits := Word.value_lt bytes
  rw [length] at fits
  refine ⟨UInt64.ofNat (Word.value bytes), ?_⟩
  rw [channelBytes, UInt64.toNat_ofNat_of_lt' fits, Channel.width, ← length,
    Word.bytes_value]

theorem exists_typeBytes
    {bytes : List UInt8} (length : bytes.length = 2) :
    ∃ messageType, typeBytes messageType = bytes := by
  have fits := Word.value_lt bytes
  rw [length] at fits
  refine ⟨UInt16.ofNat (Word.value bytes), ?_⟩
  rw [typeBytes, UInt16.toNat_ofNat_of_lt' fits, ← length, Word.bytes_value]

end Read

end ChannelRouter
