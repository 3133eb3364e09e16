import ChannelRouter.Proofs.Router.Request
import ChannelRouter.Proofs.Wire.Passing

/-!
# The grammar of datagrams

What may be sent to the router is said twice: by the reads, which go through the
bytes and stop at the first thing that is wrong, and here by a grammar, which
describes the bytes as a whole.  A datagram is malformed exactly if the grammar
does not have it.
-/

namespace ChannelRouter

open ChannelRouter.Field (channelBytes typeBytes counted)

/-! ## The grammar -/

namespace ControlCode

/-- The bytes are the fields that an instruction with the code needs. -/
def Fields (fields : List UInt8) : ControlCode → Prop
  | addChannel | removeChannel | clearPostRemoves =>
      ∃ channel, fields = channelBytes channel
  | addRange | removeRange =>
      ∃ first last, first ≤ last ∧
        fields = channelBytes first ++ channelBytes last
  | addPostRemove =>
      ∃ channel, ∃ body : Datagram,
        body.length < 2 ^ 32 ∧ fields = channelBytes channel ++ counted body
  | setName | setUrl =>
      ∃ text : String,
        text.toUTF8.toList.length < 2 ^ 32 ∧ fields = counted text.toUTF8.toList

end ControlCode

namespace Datagram

/--
What may be sent: a datagram for recipients other than the control channel
alone, with room for a sender and a message type, or an instruction with all its
fields.  Either may go on after that in any way.
-/
inductive Grammatical : Datagram → Prop where
  | addressed
      (recipients : List Channel) (rest : List UInt8)
      (countable : recipients.length ≤ 255)
      (notControl : recipients ≠ [Channel.control])
      (room : 10 ≤ rest.length) :
      Grammatical
        (UInt8.ofNat recipients.length ::
          recipients.flatMap channelBytes ++ rest)
  | instruction
      (code : ControlCode) (fields rest : List UInt8)
      (complete : code.Fields fields) :
      Grammatical
        (1 :: channelBytes Channel.control ++
          (typeBytes code.messageType ++ fields ++ rest))

end Datagram

namespace Read

/-! ## What is read is in the grammar -/

theorem passes_senderAndType :
    senderAndType.Passes fun _ passed => passed.length = 10 := by
  apply (passes_channel.bind fun sender => passes_u16.bind fun messageType =>
    passes_pure (sender, messageType)).mono
  rintro _ _ ⟨sender, _, _, rfl, ⟨messageType, _, _, rfl, ⟨_, rfl⟩, rfl⟩, rfl⟩
  simp [channelBytes, typeBytes, Channel.width]

theorem passes_instructionFields (code : ControlCode) :
    (instructionFields code).Passes fun _ passed => code.Fields passed := by
  have ends : ∀ make : ChannelRange → Instruction,
      (make <$> range).Passes fun _ passed =>
        ∃ first last, first ≤ last ∧
          passed = channelBytes first ++ channelBytes last :=
    fun make => passes_range.map make fun value _ isPassed =>
      ⟨value.first, value.last, value.first_le_last, isPassed⟩
  have one : ∀ make : Channel → Instruction,
      (make <$> channel).Passes fun _ passed => ∃ channel, passed =
        channelBytes channel :=
    fun make => passes_channel.map make fun value _ isPassed =>
      ⟨value, isPassed⟩
  have words : ∀ make : String → Instruction,
      (make <$> text).Passes fun _ passed => ∃ value : String,
        value.toUTF8.toList.length < 2 ^ 32 ∧
        passed = counted value.toUTF8.toList :=
    fun make => passes_text.map make fun value _ inForm => ⟨value, inForm⟩
  cases code with
  | addChannel => exact one .addChannel
  | removeChannel => exact one .removeChannel
  | addRange => exact ends .addRange
  | removeRange => exact ends .removeRange
  | addPostRemove =>
      apply (passes_channel.bind fun under => passes_blob.bind fun body =>
        passes_pure (Instruction.addPostRemove under body)).mono
      rintro _ _ ⟨under, _, _, rfl,
        ⟨body, _, _, ⟨fits, rfl⟩, ⟨_, rfl⟩, rfl⟩, rfl⟩
      exact ⟨under, body, fits, by rw [List.append_nil]⟩
  | clearPostRemoves => exact one .clearPostRemoves
  | setName => exact words .setName
  | setUrl => exact words .setUrl

theorem passes_instruction :
    Read.instruction.Passes fun _ passed => ∃ code : ControlCode, ∃ fields,
      code.Fields fields ∧ passed = typeBytes code.messageType ++ fields := by
  intro cursor value reached succeeds
  rw [Read.instruction, runAt_bind_eq_ok_iff] at succeeds
  rcases succeeds with ⟨messageType, between, typed, reading⟩
  rcases passes_u16 cursor messageType between typed with ⟨_, rfl, split⟩
  cases known : ControlCode.ofMessageType? messageType with
  | none =>
      rw [known] at reading
      injection reading with failed
      cases failed
  | some code =>
      rw [known] at reading
      rcases passes_instructionFields code _ _ _ reading
        with ⟨fields, complete, splitFields⟩
      refine ⟨_, ⟨code, fields, complete, rfl⟩, ?_⟩
      rw [(ControlCode.ofMessageType?_eq_some_iff messageType code).mp known,
        split, splitFields, List.append_assoc]

/-! ## What is in the grammar is read -/

/-- Any ten bytes are a sender and a message type. -/
theorem reads_senderAndType
    {bytes : List UInt8} (length : bytes.length = 10) :
    ∃ value, senderAndType.Reads bytes value := by
  have front : (bytes.take 8).length = 8 := by simp [length]
  have back : (bytes.drop 8).length = 2 := by simp [length]
  rcases exists_channelBytes front with ⟨sender, isSender⟩
  rcases exists_typeBytes back with ⟨messageType, isType⟩
  have whole := List.take_append_drop 8 bytes
  rw [← isSender, ← isType] at whole
  refine ⟨(sender, messageType), ?_⟩
  rw [← whole]
  apply (reads_channel sender).bind
  apply (reads_u16 messageType).finish
  exact reads_pure (sender, messageType)

/-- The header of an instruction names the control channel alone. -/
theorem reads_control :
    countedChannels.Reads (1 :: channelBytes Channel.control)
      [Channel.control] := by
  have countable : [Channel.control].length ≤ 255 := by decide
  have reads := reads_countedChannels countable
  rwa [List.flatMap_singleton] at reads

/-- Complete fields are those of an instruction. -/
theorem exists_instruction_of_fields
    {code : ControlCode} {fields : List UInt8} (complete : code.Fields fields) :
    ∃ instruction : Instruction, instruction.code = code ∧ instruction.Counted ∧
      instruction.fields.flatMap Field.encode = fields := by
  cases code with
  | addChannel =>
      rcases complete with ⟨channel, rfl⟩
      exact ⟨.addChannel channel, rfl, trivial, List.append_nil _⟩
  | removeChannel =>
      rcases complete with ⟨channel, rfl⟩
      exact ⟨.removeChannel channel, rfl, trivial, List.append_nil _⟩
  | addRange =>
      rcases complete with ⟨first, last, ordered, rfl⟩
      exact ⟨.addRange ⟨first, last, ordered⟩, rfl, trivial,
        congrArg (channelBytes first ++ ·) (List.append_nil _)⟩
  | removeRange =>
      rcases complete with ⟨first, last, ordered, rfl⟩
      exact ⟨.removeRange ⟨first, last, ordered⟩, rfl, trivial,
        congrArg (channelBytes first ++ ·) (List.append_nil _)⟩
  | addPostRemove =>
      rcases complete with ⟨channel, body, fits, rfl⟩
      exact ⟨.addPostRemove channel body, rfl, fits,
        congrArg (channelBytes channel ++ ·) (List.append_nil _)⟩
  | clearPostRemoves =>
      rcases complete with ⟨channel, rfl⟩
      exact ⟨.clearPostRemoves channel, rfl, trivial, List.append_nil _⟩
  | setName =>
      rcases complete with ⟨name, fits, rfl⟩
      exact ⟨.setName name, rfl, fits, List.append_nil _⟩
  | setUrl =>
      rcases complete with ⟨url, fits, rfl⟩
      exact ⟨.setUrl url, rfl, fits, List.append_nil _⟩

end Read

/-! ## The grammar and the reads agree -/

/-- Whether a datagram is at fault. -/
def Request.isMalformed : Request → Bool
  | malformed _ => true
  | _ => false

namespace Datagram

theorem Grammatical.not_malformed
    {body : Datagram} (grammatical : body.Grammatical) :
    (Request.of body).isMalformed = false := by
  cases grammatical with
  | addressed recipients rest countable notControl room =>
      have header := (Read.reads_countedChannels countable).runAt_start rest
      have length : (rest.take 10).length = 10 := by simp [room]
      rcases Read.reads_senderAndType length with ⟨value, reads⟩
      have behind := reads.runAt_behind
        (UInt8.ofNat recipients.length :: recipients.flatMap channelBytes)
          (rest.drop 10)
      rw [List.take_append_drop] at behind
      rw [Request.of, Read.runAt_recipients_start, header]
      simp only [if_neg notControl, behind]
      rfl
  | instruction code fields rest complete =>
      rcases Read.exists_instruction_of_fields complete
        with ⟨asked, rfl, fits, rfl⟩
      have header := Read.reads_control.runAt_start
        (typeBytes asked.code.messageType ++
          asked.fields.flatMap Field.encode ++ rest)
      have behind := (Read.reads_instruction fits).runAt_behind
        (1 :: channelBytes Channel.control) rest
      rw [Request.of, Read.runAt_recipients_start, header]
      simp only [if_true, behind]
      rfl

theorem grammatical_of_not_malformed
    {body : Datagram} (accepted : (Request.of body).isMalformed = false) :
    body.Grammatical := by
  have passes := Read.passes_countedChannels (Cursor.start body)
  rw [Request.of, Read.runAt_recipients_start] at accepted
  rcases reading : Read.countedChannels.runAt (Cursor.start body)
    with ⟨result, cursor⟩
  rw [reading] at accepted passes
  cases result with
  | error cause => cases accepted
  | ok recipients =>
      rcases passes recipients cursor rfl with ⟨header, ⟨countable, rfl⟩, split⟩
      change body = _ at split
      by_cases control : recipients = [Channel.control]
      · subst control
        rcases asking : Read.instruction.runAt cursor with ⟨outcome, reached⟩
        cases outcome with
        | error cause => simp [asking, Request.isMalformed] at accepted
        | ok asked =>
            rcases Read.passes_instruction cursor asked reached asking
              with ⟨_, ⟨code, fields, complete, rfl⟩, splitRest⟩
            rw [split, splitRest, List.flatMap_singleton]
            exact .instruction code fields reached.ahead complete
      · rcases addressing : Read.senderAndType.runAt cursor
          with ⟨outcome, reached⟩
        cases outcome with
        | error cause =>
            simp [control, addressing, Request.isMalformed] at accepted
        | ok sender =>
            rcases Read.passes_senderAndType cursor sender reached addressing
              with ⟨passed, length, splitRest⟩
            have room : 10 ≤ cursor.ahead.length := by
              rw [splitRest, List.length_append, length]
              omega
            rw [split]
            exact .addressed recipients cursor.ahead countable control room

/-- The reads find a fault exactly with what the grammar does not have. -/
theorem isMalformed_eq_false_iff (body : Datagram) :
    (Request.of body).isMalformed = false ↔ body.Grammatical :=
  ⟨grammatical_of_not_malformed, Grammatical.not_malformed⟩

instance (body : Datagram) : Decidable body.Grammatical :=
  decidable_of_iff _ (isMalformed_eq_false_iff body)

end Datagram

end ChannelRouter
