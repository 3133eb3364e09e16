import ChannelRouter.Proofs.Wire.Word
import ChannelRouter.Wire.Control
import Mathlib.Data.List.Basic

/-!
# Reading what was written

A read reads an encoding if, wherever the encoding stands in a datagram, the
read started at its first byte gives the value and stops behind its last byte.
Encodings of reads that follow one another are appended, so every composed
format is read back as soon as its parts are.

The second half is about the positions that a successful read reaches, whatever
the bytes are.
-/

namespace ChannelRouter

namespace Read

variable {α β : Type}

theorem runAt_bind_of_ok
    {first : Read α} {value : α} {cursor reached : Cursor}
    (succeeds : first.runAt cursor = (.ok value, reached))
    (next : α → Read β) :
    (first >>= next).runAt cursor = (next value).runAt reached := by
  simp only [runAt, ExceptT.run, StateT.run] at succeeds ⊢
  simp only [bind, ExceptT.bind, ExceptT.mk, StateT.bind, succeeds,
    ExceptT.bindCont]

theorem runAt_bind_of_error
    {first : Read α} {cause : FormatError} {cursor reached : Cursor}
    (fails : first.runAt cursor = (.error cause, reached))
    (next : α → Read β) :
    (first >>= next).runAt cursor = (.error cause, reached) := by
  simp only [runAt, ExceptT.run, StateT.run] at fails ⊢
  simp only [bind, ExceptT.bind, ExceptT.mk, StateT.bind, fails,
    ExceptT.bindCont]
  rfl

theorem runAt_map
    (change : α → β) (read : Read α) (cursor : Cursor) :
    (change <$> read).runAt cursor =
      ((read.runAt cursor).1.map change, (read.runAt cursor).2) := by
  rcases reading : read.runAt cursor with ⟨result, reached⟩
  rw [map_eq_pure_bind]
  cases result with
  | ok value => rw [runAt_bind_of_ok reading]; rfl
  | error cause => rw [runAt_bind_of_error reading]; rfl

/-- What a composed read gives when it succeeds. -/
theorem runAt_bind_eq_ok_iff
    (first : Read α) (next : α → Read β)
    (cursor reached : Cursor) (result : β) :
    (first >>= next).runAt cursor = (.ok result, reached) ↔
      ∃ value between, first.runAt cursor = (.ok value, between) ∧
        (next value).runAt between = (.ok result, reached) := by
  rcases reading : first.runAt cursor with ⟨outcome, between⟩
  cases outcome with
  | ok value =>
      rw [runAt_bind_of_ok reading]
      simp
  | error cause =>
      rw [runAt_bind_of_error reading]
      simp

theorem runAt_map_eq_ok_iff
    (change : α → β) (read : Read α) (cursor reached : Cursor) (result : β) :
    (change <$> read).runAt cursor = (.ok result, reached) ↔
      ∃ value, read.runAt cursor = (.ok value, reached) ∧
        change value = result := by
  rw [map_eq_pure_bind, runAt_bind_eq_ok_iff]
  constructor
  · rintro ⟨value, between, reads, rfl, rfl⟩
    exact ⟨value, reads, rfl⟩
  · rintro ⟨value, reads, rfl⟩
    exact ⟨value, reached, reads, rfl⟩

/-! ## Reading an encoding -/

/-- The read gives the value wherever its encoding stands. -/
def Reads (read : Read α) (encoded : List UInt8) (value : α) : Prop :=
  ∀ before after : List UInt8,
    read.runAt ⟨before ++ (encoded ++ after), before.length⟩ =
      (.ok value,
        ⟨before ++ (encoded ++ after), before.length + encoded.length⟩)

theorem reads_pure (value : α) : (pure value : Read α).Reads [] value := by
  intro before after
  rfl

theorem Reads.bind
    {first : Read α} {next : α → Read β}
    {encoded more : List UInt8} {value : α} {result : β}
    (reads : first.Reads encoded value)
    (continues : (next value).Reads more result) :
    (first >>= next).Reads (encoded ++ more) result := by
  intro before after
  have here := reads before (more ++ after)
  have there := continues (before ++ encoded) after
  simp only [List.append_assoc, List.length_append] at here there ⊢
  rw [runAt_bind_of_ok here, there, Nat.add_assoc]

/-- A last step that reads nothing. -/
theorem Reads.finish
    {first : Read α} {next : α → Read β}
    {encoded : List UInt8} {value : α} {result : β}
    (reads : first.Reads encoded value)
    (finishes : (next value).Reads [] result) :
    (first >>= next).Reads encoded result := by
  have composed := reads.bind finishes
  rwa [List.append_nil] at composed

theorem Reads.map
    {read : Read α} {encoded : List UInt8} {value : α}
    (reads : read.Reads encoded value) (change : α → β) :
    (change <$> read).Reads encoded (change value) := by
  intro before after
  rw [runAt_map, reads before after]
  rfl

/-- At the beginning of a datagram. -/
theorem Reads.runAt_start
    {read : Read α} {encoded : List UInt8} {value : α}
    (reads : read.Reads encoded value) (rest : List UInt8) :
    read.runAt (Cursor.start (encoded ++ rest)) =
      (.ok value, ⟨encoded ++ rest, encoded.length⟩) := by
  simpa [Cursor.start] using reads [] rest

/-- Behind what stands before it. -/
theorem Reads.runAt_behind
    {read : Read α} {encoded : List UInt8} {value : α}
    (reads : read.Reads encoded value) (before rest : List UInt8) :
    (read.runAt ⟨before ++ (encoded ++ rest), before.length⟩).1 =
      .ok value := by
  rw [reads before rest]

theorem reads_take (bytes : List UInt8) :
    (take bytes.length).Reads bytes bytes := by
  intro before after
  have enough : Cursor.holds ⟨before ++ (bytes ++ after), before.length⟩
      bytes.length = true := by
    simp [Cursor.holds, Cursor.remaining]
  show (if Cursor.holds _ _ = true then _
    else _ : Except FormatError _ × Cursor) = _
  rw [if_pos enough]
  simp [Cursor.seek]

theorem reads_number
    {width value : Nat} (fits : value < 256 ^ width) :
    (number width).Reads (Word.bytes width value) value := by
  have taken := (reads_take (Word.bytes width value)).map Word.value
  rw [Word.value_bytes, Nat.mod_eq_of_lt fits, Word.length_bytes] at taken
  exact taken

theorem reads_u8 (value : UInt8) : u8.Reads [value] value := by
  have read := ((reads_take [value]).map Word.value).map UInt8.ofNat
  have same : UInt8.ofNat (Word.value [value]) = value := by simp [Word.value]
  rwa [same] at read

theorem reads_u16 (value : UInt16) :
    u16.Reads (Field.typeBytes value) value := by
  have fits : value.toNat < 256 ^ 2 := value.toNat_lt
  have read := (reads_number fits).map UInt16.ofNat
  rwa [UInt16.ofNat_toNat] at read

theorem reads_u32 (value : UInt32) :
    u32.Reads (Word.bytes 4 value.toNat) value := by
  have fits : value.toNat < 256 ^ 4 := value.toNat_lt
  have read := (reads_number fits).map UInt32.ofNat
  rwa [UInt32.ofNat_toNat] at read

theorem reads_channel (value : Channel) :
    channel.Reads (Field.channelBytes value) value := by
  have fits : value.toNat < 256 ^ 8 := value.toNat_lt
  have read := (reads_number fits).map UInt64.ofNat
  rwa [UInt64.ofNat_toNat] at read

theorem reads_channels (values : List Channel) :
    (channels values.length).Reads
      (values.flatMap Field.channelBytes) values := by
  induction values with
  | nil => exact reads_pure []
  | cons value rest ih =>
      exact (reads_channel value).bind (ih.finish (reads_pure (value :: rest)))

theorem reads_range (range : ChannelRange) :
    Read.range.Reads
      (Field.channelBytes range.first ++ Field.channelBytes range.last)
        range := by
  have ordered : ChannelRange.ofEnds range.first range.last = .ok range :=
    dif_pos range.first_le_last
  apply (reads_channel range.first).bind
  apply (reads_channel range.last).finish
  rw [ordered]
  exact reads_pure range

theorem reads_blob
    {bytes : List UInt8} (counted : bytes.length < 2 ^ 32) :
    blob.Reads (Field.counted bytes) bytes := by
  have fits : (UInt32.ofNat bytes.length).toNat = bytes.length :=
    UInt32.toNat_ofNat_of_lt counted
  have count := reads_u32 (UInt32.ofNat bytes.length)
  have content := reads_take bytes
  rw [fits] at count
  rw [← fits] at content
  exact count.bind content

theorem toList_loop
    (bytes : ByteArray) (position : Nat) (read : List UInt8) :
    ByteArray.toList.loop bytes position read =
      read.reverse ++ bytes.data.toList.drop position := by
  induction position, read using ByteArray.toList.loop.induct bytes with
  | case1 position read inside ih =>
      have here : bytes.data.toList.drop position =
          bytes.get! position :: bytes.data.toList.drop (position + 1) := by
        rw [List.drop_eq_getElem_cons (by simpa using inside)]
        congr 1
        rw [ByteArray.get!, getElem!_pos bytes.data position inside]
        rfl
      rw [ByteArray.toList.loop, if_pos inside, ih, here]
      simp
  | case2 position read outside =>
      rw [ByteArray.toList.loop, if_neg outside,
        List.drop_eq_nil_of_le (by simpa using Nat.le_of_not_lt outside),
        List.append_nil]

theorem fromUTF8?_toUTF8 (value : String) :
    String.fromUTF8? ⟨value.toUTF8.toList.toArray⟩ = some value := by
  have same : (⟨value.toUTF8.toList.toArray⟩ : ByteArray) = value.toUTF8 := by
    ext1
    rw [ByteArray.toList, toList_loop]
    simp
  rw [same]
  exact dif_pos value.isValidUTF8

theorem reads_text
    {value : String} (counted : value.toUTF8.toList.length < 2 ^ 32) :
    text.Reads (Field.counted value.toUTF8.toList) value := by
  apply (reads_blob counted).finish
  rw [fromUTF8?_toUTF8]
  exact reads_pure value

end Read

namespace Instruction

/-- The counts of an instruction fit into their fields. -/
def Counted : Instruction → Prop
  | addPostRemove _ body => body.length < 2 ^ 32
  | setName name => name.toUTF8.toList.length < 2 ^ 32
  | setUrl url => url.toUTF8.toList.length < 2 ^ 32
  | _ => True

end Instruction

namespace Read

theorem reads_instructionFields
    {instruction : Instruction} (counted : instruction.Counted) :
    (instructionFields instruction.code).Reads
      (instruction.fields.flatMap Field.encode) instruction := by
  cases instruction
  all_goals
    simp only [Instruction.code, Instruction.fields, instructionFields,
      List.flatMap_cons, List.flatMap_nil, List.append_nil, Field.encode]
  case addChannel channel =>
    exact (reads_channel channel).map Instruction.addChannel
  case removeChannel channel =>
    exact (reads_channel channel).map Instruction.removeChannel
  case addRange range => exact (reads_range range).map Instruction.addRange
  case removeRange range =>
    exact (reads_range range).map Instruction.removeRange
  case addPostRemove channel body =>
      apply (reads_channel channel).bind
      apply (reads_blob counted).finish
      exact reads_pure (Instruction.addPostRemove channel body)
  case clearPostRemoves channel =>
      exact (reads_channel channel).map Instruction.clearPostRemoves
  case setName name => exact (reads_text counted).map Instruction.setName
  case setUrl url => exact (reads_text counted).map Instruction.setUrl

theorem reads_instruction
    {instruction : Instruction} (counted : instruction.Counted) :
    Read.instruction.Reads
      (Field.typeBytes instruction.code.messageType ++
        instruction.fields.flatMap Field.encode) instruction := by
  have known : ControlCode.ofMessageType? instruction.code.messageType =
      some instruction.code :=
    (ControlCode.ofMessageType?_eq_some_iff _ _).mpr rfl
  apply (reads_u16 instruction.code.messageType).bind
  rw [known]
  exact reads_instructionFields counted

/-- Every instruction begins with the control channel as its only recipient. -/
theorem encode_eq_append (instruction : Instruction) :
    instruction.encode =
      (1 :: Field.channelBytes Channel.control) ++
        (Field.typeBytes instruction.code.messageType ++
          instruction.fields.flatMap Field.encode) := by
  simp [Instruction.encode, Datagram.ofFields, Field.encode]

theorem runAt_recipients_encode (instruction : Instruction) :
    Read.recipients.runAt (Cursor.start instruction.encode) =
      (.ok [Channel.control], ⟨instruction.encode, 9⟩) := by
  have control := reads_channels [Channel.control]
  rw [List.flatMap_singleton] at control
  have header : (u8 >>= fun count => channels count.toNat).Reads
      (1 :: Field.channelBytes Channel.control) [Channel.control] :=
    (reads_u8 1).bind control
  have atStart : (seek 0).runAt (Cursor.start instruction.encode) =
      (.ok (), Cursor.start instruction.encode) := rfl
  rw [Read.recipients, runAt_bind_of_ok atStart, encode_eq_append]
  exact header.runAt_start _

theorem runAt_u16_encode (instruction : Instruction) :
    (u16.runAt ⟨instruction.encode, 9⟩).1 =
      .ok instruction.code.messageType := by
  rw [encode_eq_append]
  exact (reads_u16 instruction.code.messageType).runAt_behind
    (1 :: Field.channelBytes Channel.control)
      (instruction.fields.flatMap Field.encode)

theorem runAt_instruction_encode
    {instruction : Instruction} (counted : instruction.Counted) :
    (Read.instruction.runAt ⟨instruction.encode, 9⟩).1 = .ok instruction := by
  have reads := (reads_instruction counted).runAt_behind
    (1 :: Field.channelBytes Channel.control) []
  rw [List.append_nil] at reads
  rw [encode_eq_append]
  exact reads

/-- Two instructions that travel as the same bytes are the same. -/
theorem encode_inj
    {instruction other : Instruction} (counted : instruction.Counted)
    (otherCounted : other.Counted)
    (same : instruction.encode = other.encode) : instruction = other := by
  have read := runAt_instruction_encode counted
  rw [same, runAt_instruction_encode otherCounted] at read
  injection read with isOther
  exact isOther.symm

/-! ## Positions -/

/-- Wherever the read succeeds, it goes ahead by the given number of bytes. -/
def Advances (read : Read α) (count : Nat) : Prop :=
  ∀ cursor value reached, read.runAt cursor = (.ok value, reached) →
    reached = cursor.seek (cursor.position + count)

/-- Bytes that are taken lie within the datagram. -/
theorem runAt_take
    {count : Nat} {cursor reached : Cursor} {bytes : List UInt8}
    (succeeds : (take count).runAt cursor = (.ok bytes, reached)) :
    bytes.length = count ∧ cursor.position + count ≤ cursor.body.length ∧
      reached = cursor.seek (cursor.position + count) := by
  change (if cursor.holds count = true then _
    else _ : Except FormatError _ × Cursor) = _ at succeeds
  split at succeeds
  · rename_i holds
    injection succeeds with isBytes there
    injection isBytes with isBytes
    rcases (Bool.and_eq_true _ _).mp holds with ⟨enough, inside⟩
    have enough : count ≤ cursor.body.length - cursor.position :=
      of_decide_eq_true enough
    have inside : cursor.position ≤ cursor.body.length :=
      of_decide_eq_true inside
    refine ⟨?_, by omega, there.symm⟩
    rw [← isBytes, List.length_take, List.length_drop]
    exact Nat.min_eq_left enough
  · injection succeeds with failed
    cases failed

theorem advances_take (count : Nat) : (take count).Advances count :=
  fun _ _ _ succeeds => (runAt_take succeeds).2.2

theorem Advances.map
    {read : Read α} {count : Nat} (advances : read.Advances count)
    (change : α → β) :
    (change <$> read).Advances count := by
  intro cursor value reached succeeds
  rcases (runAt_map_eq_ok_iff change read cursor reached value).mp succeeds
    with ⟨_, first, rfl⟩
  exact advances cursor _ reached first

theorem advances_number (width : Nat) : (number width).Advances width :=
  (advances_take width).map Word.value

theorem advances_channel : channel.Advances Channel.width :=
  (advances_number 8).map UInt64.ofNat

/--
The channels that a counted read gives are as many as it was told to read.
-/
theorem runAt_channels
    {count : Nat} {cursor reached : Cursor} {values : List Channel}
    (succeeds : (channels count).runAt cursor = (.ok values, reached)) :
    values.length = count ∧
      reached = cursor.seek (cursor.position + Channel.width * count) := by
  induction count generalizing cursor values with
  | zero =>
      rcases succeeds with ⟨rfl, rfl⟩
      exact ⟨rfl, rfl⟩
  | succ count ih =>
      rw [channels, runAt_bind_eq_ok_iff] at succeeds
      rcases succeeds with ⟨next, between, first, others⟩
      rw [runAt_bind_eq_ok_iff] at others
      rcases others with ⟨rest, last, later, rfl, rfl⟩
      rcases ih later with ⟨counted, there⟩
      rw [advances_channel cursor next between first] at there
      constructor
      · simp [counted]
      · rw [there]
        simp only [Cursor.seek, Nat.mul_add, Nat.mul_one]
        congr 1
        omega

/-- The sender stands right behind the count byte and the recipients. -/
theorem reached_recipients
    {body : Datagram} {recipients : List Channel} {reached : Cursor}
    (succeeds : Read.recipients.runAt (Cursor.start body) =
      (.ok recipients, reached)) :
    reached = ⟨body, 1 + 8 * recipients.length⟩ := by
  rw [Read.recipients, runAt_bind_eq_ok_iff] at succeeds
  rcases succeeds with ⟨_, start, ⟨rfl, rfl⟩, counting⟩
  rw [runAt_bind_eq_ok_iff] at counting
  rcases counting with ⟨count, behind, counted, reading⟩
  have advances : u8.Advances 1 := (advances_number 1).map UInt8.ofNat
  rcases runAt_channels reading with ⟨length, there⟩
  rw [there, advances _ count behind counted, length]
  simp [Cursor.seek, Cursor.start, Channel.width]

theorem position_recipients
    {body : Datagram} {recipients : List Channel} {reached : Cursor}
    (succeeds : Read.recipients.runAt (Cursor.start body) =
      (.ok recipients, reached)) :
    reached.position = 1 + 8 * recipients.length := by
  rw [reached_recipients succeeds]

/-- The bytes of a blob stand behind their count, within the datagram. -/
theorem runAt_blob
    {cursor reached : Cursor} {bytes : List UInt8}
    (succeeds : blob.runAt cursor = (.ok bytes, reached)) :
    cursor.position + 4 + bytes.length ≤ cursor.body.length := by
  rw [blob, runAt_bind_eq_ok_iff] at succeeds
  rcases succeeds with ⟨count, behind, counted, taking⟩
  have advances : size.Advances 4 := (advances_number 4).map UInt32.ofNat
  rw [advances cursor count behind counted] at taking
  rcases runAt_take taking with ⟨length, within, _⟩
  rw [length]
  exact within

/-- What is to be filed stands behind the message type and the channel. -/
theorem runAt_instruction_addPostRemove
    {cursor reached : Cursor} {under : Channel} {body : Datagram}
    (succeeds : Read.instruction.runAt cursor =
      (.ok (.addPostRemove under body), reached)) :
    cursor.position + 14 + body.length ≤ cursor.body.length := by
  rw [Read.instruction, runAt_bind_eq_ok_iff] at succeeds
  rcases succeeds with ⟨messageType, behindType, typed, reading⟩
  have advances : u16.Advances 2 := (advances_number 2).map UInt16.ofNat
  rw [advances cursor messageType behindType typed] at reading
  cases known : ControlCode.ofMessageType? messageType with
  | none =>
      rw [known] at reading
      injection reading with failed
      cases failed
  | some code =>
      rw [known] at reading
      cases code
      case addPostRemove =>
        simp only [instructionFields, runAt_bind_eq_ok_iff] at reading
        rcases reading with
          ⟨channel, behindChannel, channelRead, filed, behindBody,
            bodyRead, isFiled⟩
        rw [advances_channel _ channel behindChannel channelRead] at bodyRead
        injection isFiled with isFiled
        injection isFiled with isFiled
        injection isFiled with _ isBody
        subst isBody
        have within := runAt_blob bodyRead
        simp only [Cursor.seek, Channel.width] at within
        omega
      all_goals
        rcases (runAt_map_eq_ok_iff _ _ _ _ _).mp reading
          with ⟨_, _, impossible⟩
        cases impossible

end Read

end ChannelRouter
