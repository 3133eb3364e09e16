import ChannelRouter.Proofs.Wire.Reading
import ChannelRouter.Wire.Header
import Mathlib.Algebra.BigOperators.Group.List.Basic
import Mathlib.Algebra.Order.Ring.Nat

/-!
# Whole datagrams are read back

A reader knows the kinds of the fields, and of raw data how many bytes there
are.  `Read.field` reads one field of a kind, and `Read.fields` a sequence of
them.  What was written is what is read, and every read stops where the next
field begins, so a datagram of any fields is read to its very end.

A header that comes first may also be read through the read that seeks the
recipients at the beginning.
-/

namespace ChannelRouter

namespace Field

/-- What a reader has to know of a field. -/
inductive Kind where
  | bool
  | u8
  | u16
  | u32
  | u64
  | i8
  | i16
  | i32
  | i64
  | f32
  | f64
  | channel
  | object
  | zone
  | size
  | data (count : Nat)
  | blob
  | text
  | datagram
  | header
  | controlHeader
deriving DecidableEq, Repr

/-- What a field of a kind says. -/
def Kind.Value : Kind → Type
  | bool => Bool
  | u8 => UInt8
  | u16 => UInt16
  | u32 => UInt32
  | u64 => UInt64
  | i8 => Int8
  | i16 => Int16
  | i32 => Int32
  | i64 => Int64
  | f32 => UInt32
  | f64 => UInt64
  | channel => Channel
  | object => ObjectId
  | zone => Zone
  | size => UInt32
  | data _ => List UInt8
  | blob => List UInt8
  | text => String
  | datagram => Datagram
  | header => List Channel × Channel × UInt16
  | controlHeader => List Channel × UInt16

/-- The kind of a field, by which it is read. -/
def kind : Field → Kind
  | bool _ => .bool
  | u8 _ => .u8
  | u16 _ => .u16
  | u32 _ => .u32
  | u64 _ => .u64
  | i8 _ => .i8
  | i16 _ => .i16
  | i32 _ => .i32
  | i64 _ => .i64
  | f32 _ => .f32
  | f64 _ => .f64
  | channel _ => .channel
  | object _ => .object
  | zone _ => .zone
  | size _ => .size
  | data bytes => .data bytes.length
  | blob _ => .blob
  | text _ => .text
  | datagram _ => .datagram
  | header _ _ _ => .header
  | controlHeader _ => .controlHeader

/--
The value that was written.  A control header names the control channel itself.
-/
def value : (field : Field) → field.kind.Value
  | bool value => value
  | u8 value => value
  | u16 value => value
  | u32 value => value
  | u64 value => value
  | i8 value => value
  | i16 value => value
  | i32 value => value
  | i64 value => value
  | f32 bits => bits
  | f64 bits => bits
  | channel value => value
  | object value => value
  | zone value => value
  | size value => value
  | data bytes => bytes
  | blob bytes => bytes
  | text value => value
  | datagram body => body
  | header recipients sender messageType => (recipients, sender, messageType)
  | controlHeader messageType => ([Channel.control], messageType)

/-- The value together with its kind. -/
def entry (field : Field) : Sigma Kind.Value :=
  ⟨field.kind, field.value⟩

/-- The bytes a field takes. -/
def width : Field → Nat
  | bool _ => 1
  | u8 _ => 1
  | u16 _ => 2
  | u32 _ => 4
  | u64 _ => 8
  | i8 _ => 1
  | i16 _ => 2
  | i32 _ => 4
  | i64 _ => 8
  | f32 _ => 4
  | f64 _ => 8
  | channel _ => 8
  | object _ => 4
  | zone _ => 4
  | size _ => 4
  | data bytes => bytes.length
  | blob bytes => 4 + bytes.length
  | text value => 4 + value.utf8ByteSize
  | datagram body => 4 + body.length
  | header recipients _ _ => 1 + 8 * recipients.length + 8 + 2
  | controlHeader _ => 1 + 8 + 2

theorem length_channelBytes (channel : Channel) :
    (channelBytes channel).length = 8 :=
  Word.length_bytes 8 channel.toNat

theorem length_flatMap_channelBytes (recipients : List Channel) :
    (recipients.flatMap channelBytes).length = 8 * recipients.length := by
  simp [List.length_flatMap, length_channelBytes, Nat.mul_comm]

theorem length_toList_toUTF8 (value : String) :
    value.toUTF8.toList.length = value.utf8ByteSize := by
  rw [ByteArray.toList, Read.toList_loop]
  simp

theorem length_encode (field : Field) : field.encode.length = field.width := by
  cases field
  case text value =>
    rw [encode, counted, List.length_append, Word.length_bytes,
      length_toList_toUTF8]
    rfl
  case header recipients sender messageType =>
    simp only [encode, width, typeBytes, List.length_cons, List.length_append,
      length_flatMap_channelBytes, length_channelBytes, Word.length_bytes]
    omega
  all_goals
    simp [encode, width, counted, typeBytes, length_channelBytes,
      Word.length_bytes]

end Field

namespace Datagram

theorem ofFields_append (earlier later : List Field) :
    ofFields (earlier ++ later) = ofFields earlier ++ ofFields later :=
  List.flatMap_append

theorem length_ofFields (fields : List Field) :
    (ofFields fields).length = (fields.map Field.width).sum := by
  simp only [ofFields, List.length_flatMap, Field.length_encode]

/-- Fields that can be written are written one behind the other. -/
theorem foldlM_add?
    {fields : List Field} (writable : ∀ field ∈ fields, field.Writable)
    (body : Datagram) :
    fields.foldlM add? body = some (body ++ ofFields fields) := by
  induction fields generalizing body with
  | nil => simp [ofFields]
  | cons field rest ih =>
      have added : add? body field = some (body ++ field.encode) :=
        if_pos (writable field List.mem_cons_self)
      have others := ih
        (fun other listed => writable other (List.mem_cons_of_mem field listed))
        (body ++ field.encode)
      rw [List.foldlM_cons, added, Option.bind_eq_bind,
        Option.bind_some, others, List.append_assoc]
      rfl

/-- Fields are written together only if each of them can be written. -/
theorem foldlM_add?_eq_some_iff (fields : List Field) (body result : Datagram) :
    fields.foldlM add? body = some result ↔
      (∀ field ∈ fields, field.Writable) ∧
        body ++ ofFields fields = result := by
  constructor
  · intro written
    have writable : ∀ field ∈ fields, field.Writable := by
      induction fields generalizing body with
      | nil => exact fun field listed => absurd listed List.not_mem_nil
      | cons first rest ih =>
          rw [List.foldlM_cons, Option.bind_eq_bind, Option.bind_eq_some_iff]
            at written
          rcases written with ⟨between, added, others⟩
          have firstWritable : first.Writable := by
            by_contra refused
            rw [add?, if_neg refused] at added
            cases added
          exact List.forall_mem_cons.mpr ⟨firstWritable, ih between others⟩
    rw [foldlM_add? writable, Option.some_inj] at written
    exact ⟨writable, written⟩
  · rintro ⟨writable, rfl⟩
    exact foldlM_add? writable body

end Datagram

namespace Read

/-- A header behind its recipients. -/
def addressed (names : Read (List Channel)) :
    Read (List Channel × Channel × UInt16) := do
  let recipients ← names
  let sender ← channel
  let messageType ← u16
  pure (recipients, sender, messageType)

/-- A control header behind its recipients. -/
def instructed (names : Read (List Channel)) :
    Read (List Channel × UInt16) := do
  let recipients ← names
  let messageType ← u16
  pure (recipients, messageType)

/-- Recipients behind the count of them, wherever the cursor stands. -/
def countedChannels : Read (List Channel) := do
  let count ← u8
  channels count.toNat

/-- A field of a kind. -/
def field : (kind : Field.Kind) → Read kind.Value
  | .bool => bool
  | .u8 => u8
  | .u16 => u16
  | .u32 => u32
  | .u64 => u64
  | .i8 => i8
  | .i16 => i16
  | .i32 => i32
  | .i64 => i64
  | .f32 => f32
  | .f64 => f64
  | .channel => channel
  | .object => object
  | .zone => zone
  | .size => size
  | .data count => data count
  | .blob => blob
  | .text => text
  | .datagram => datagram
  | .header => addressed countedChannels
  | .controlHeader => instructed countedChannels

/-- The first field: of a header, the recipients are sought at the beginning. -/
def opening : (kind : Field.Kind) → Read kind.Value
  | .header => addressed recipients
  | .controlHeader => instructed recipients
  | kind => field kind

/-- Fields one behind the other. -/
def fields : List Field.Kind → Read (List (Sigma Field.Kind.Value))
  | [] => pure []
  | kind :: others => do
    let value ← field kind
    let values ← fields others
    pure (⟨kind, value⟩ :: values)

/-- The fields of a whole datagram. -/
def message : List Field.Kind → Read (List (Sigma Field.Kind.Value))
  | [] => pure []
  | kind :: others => do
    let value ← opening kind
    let values ← fields others
    pure (⟨kind, value⟩ :: values)

/-! ## One field -/

theorem reads_bool (value : Bool) :
    bool.Reads [if value then 1 else 0] value := by
  have read := (reads_u8 (if value then 1 else 0)).map (· != 0)
  cases value <;> exact read

theorem reads_u64 (value : UInt64) :
    u64.Reads (Word.bytes 8 value.toNat) value :=
  reads_channel value

theorem reads_i8 (value : Int8) : i8.Reads [value.toUInt8] value :=
  (reads_u8 value.toUInt8).map UInt8.toInt8

theorem reads_i16 (value : Int16) :
    i16.Reads (Word.bytes 2 value.toUInt16.toNat) value :=
  (reads_u16 value.toUInt16).map UInt16.toInt16

theorem reads_i32 (value : Int32) :
    i32.Reads (Word.bytes 4 value.toUInt32.toNat) value :=
  (reads_u32 value.toUInt32).map UInt32.toInt32

theorem reads_i64 (value : Int64) :
    i64.Reads (Word.bytes 8 value.toUInt64.toNat) value :=
  (reads_u64 value.toUInt64).map UInt64.toInt64

theorem reads_countedChannels
    {recipients : List Channel} (counted : recipients.length ≤ 255) :
    countedChannels.Reads
      (UInt8.ofNat recipients.length :: recipients.flatMap Field.channelBytes)
        recipients := by
  have fits : (UInt8.ofNat recipients.length).toNat = recipients.length :=
    UInt8.toNat_ofNat_of_lt (Nat.lt_succ_of_le counted)
  have listed := reads_channels recipients
  rw [← fits] at listed
  exact (reads_u8 (UInt8.ofNat recipients.length)).bind listed

theorem reads_addressed
    {names : Read (List Channel)} {encoded : List UInt8}
    {recipients : List Channel}
    (reads : names.Reads encoded recipients) (sender : Channel)
    (messageType : UInt16) :
    (addressed names).Reads
      (encoded ++ (Field.channelBytes sender ++ Field.typeBytes messageType))
      (recipients, sender, messageType) := by
  apply reads.bind
  apply (reads_channel sender).bind
  apply (reads_u16 messageType).finish
  exact reads_pure (recipients, sender, messageType)

theorem reads_instructed
    {names : Read (List Channel)} {encoded : List UInt8}
    {recipients : List Channel}
    (reads : names.Reads encoded recipients) (messageType : UInt16) :
    (instructed names).Reads (encoded ++ Field.typeBytes messageType)
      (recipients, messageType) := by
  apply reads.bind
  apply (reads_u16 messageType).finish
  exact reads_pure (recipients, messageType)

theorem reads_field {field : Field} (writable : field.Writable) :
    (Read.field field.kind).Reads field.encode field.value := by
  cases field with
  | bool value => exact reads_bool value
  | u8 value => exact reads_u8 value
  | u16 value => exact reads_u16 value
  | u32 value => exact reads_u32 value
  | u64 value => exact reads_u64 value
  | i8 value => exact reads_i8 value
  | i16 value => exact reads_i16 value
  | i32 value => exact reads_i32 value
  | i64 value => exact reads_i64 value
  | f32 bits => exact reads_u32 bits
  | f64 bits => exact reads_u64 bits
  | channel value => exact reads_channel value
  | object value => exact reads_u32 value
  | zone value => exact reads_u32 value
  | size value => exact reads_u32 value
  | data bytes => exact reads_take bytes
  | blob bytes => exact reads_blob writable
  | text value =>
      have counted : value.toUTF8.toList.length < 2 ^ 32 := by
        rw [Field.length_toList_toUTF8]
        exact writable
      exact reads_text counted
  | datagram body => exact reads_blob writable
  | header recipients sender messageType =>
      have reads :=
        reads_addressed (reads_countedChannels writable) sender messageType
      rwa [← List.append_assoc, List.cons_append, List.cons_append] at reads
  | controlHeader messageType =>
      have counted : [Channel.control].length ≤ 255 := by decide
      exact reads_instructed (reads_countedChannels counted) messageType

/-! ## All fields -/

theorem reads_fields {fields : List Field}
    (writable : ∀ field ∈ fields, field.Writable) :
    (Read.fields (fields.map Field.kind)).Reads
      (Datagram.ofFields fields) (fields.map Field.entry) := by
  induction fields with
  | nil => exact reads_pure []
  | cons field rest ih =>
      have others := ih fun other listed =>
        writable other (List.mem_cons_of_mem field listed)
      apply (reads_field (writable field List.mem_cons_self)).bind
      apply others.finish
      exact reads_pure (field.entry :: rest.map Field.entry)

/-- At the very beginning, seeking the recipients there changes nothing. -/
theorem runAt_recipients_start (body : Datagram) :
    recipients.runAt (Cursor.start body) =
      countedChannels.runAt (Cursor.start body) := by
  have atStart : (seek 0).runAt (Cursor.start body) =
      (.ok (), Cursor.start body) := rfl
  rw [recipients, runAt_bind_of_ok atStart]
  rfl

/-- Two reads that start alike go on alike. -/
theorem runAt_bind_congr
    {α β : Type} {first second : Read α} {cursor other : Cursor}
    (alike : first.runAt cursor = second.runAt other) (next : α → Read β) :
    (first >>= next).runAt cursor = (second >>= next).runAt other := by
  rcases reading : second.runAt other with ⟨result, reached⟩
  rw [reading] at alike
  cases result with
  | ok value => rw [runAt_bind_of_ok alike, runAt_bind_of_ok reading]
  | error cause => rw [runAt_bind_of_error alike, runAt_bind_of_error reading]

theorem runAt_opening_start (kind : Field.Kind) (body : Datagram) :
    (opening kind).runAt (Cursor.start body) =
      (field kind).runAt (Cursor.start body) := by
  cases kind with
  | header => exact runAt_bind_congr (runAt_recipients_start body) _
  | controlHeader => exact runAt_bind_congr (runAt_recipients_start body) _
  | _ => rfl

theorem runAt_message_start (kinds : List Field.Kind) (body : Datagram) :
    (message kinds).runAt (Cursor.start body) =
      (fields kinds).runAt (Cursor.start body) := by
  cases kinds with
  | nil => rfl
  | cons kind others => exact runAt_bind_congr (runAt_opening_start kind body) _

/--
Fields that can be written make a datagram.  Reading it field by field never
fails, gives what was written, and goes ahead by the width of each field until
nothing remains, also when the first field is read by seeking the recipients.
-/
theorem fields_are_read_back_as_written
    {fields : List Field} (writable : ∀ field ∈ fields, field.Writable) :
    ∃ body, fields.foldlM Datagram.add? [] = some body ∧
      body.length = (fields.map Field.width).sum ∧
      (∀ earlier field later, fields = earlier ++ field :: later →
        let position := (earlier.map Field.width).sum
        (Read.field field.kind).runAt ⟨body, position⟩ =
          (.ok field.value, ⟨body, position + field.width⟩)) ∧
      (Read.fields (fields.map Field.kind)).runAt (Cursor.start body) =
        (.ok (fields.map Field.entry), ⟨body, body.length⟩) ∧
      (Read.message (fields.map Field.kind)).runAt (Cursor.start body) =
        (.ok (fields.map Field.entry), ⟨body, body.length⟩) ∧
      Cursor.remaining ⟨body, body.length⟩ = 0 := by
  have whole := (reads_fields writable).runAt_start []
  rw [List.append_nil] at whole
  refine ⟨Datagram.ofFields fields, Datagram.foldlM_add? writable [],
    Datagram.length_ofFields fields, ?_, whole, ?_, ?_⟩
  · intro earlier field later split
    have here : field ∈ fields :=
      split ▸ List.mem_append_right earlier List.mem_cons_self
    have reads := reads_field (writable field here)
      (Datagram.ofFields earlier) (Datagram.ofFields later)
    rw [Datagram.length_ofFields, Field.length_encode] at reads
    rw [split, Datagram.ofFields_append]
    exact reads
  · rw [runAt_message_start]
    exact whole
  · exact Nat.sub_self _

/-- A datagram inside a datagram, among raw data, a text and signed numbers. -/
theorem nested_fields_are_read_back_as_written :
    let inner :=
      Datagram.ofFields [.controlHeader 9010, .blob [5, 6], .i16 (-2)]
    let fields : List Field :=
      [.header [4001, 4002] 1000 3, .data [7, 8], .text "é",
        .datagram inner, .i8 (-1)]
    (∀ field ∈ fields, field.Writable) ∧
      ∃ body, fields.foldlM Datagram.add? [] = some body ∧
        (Read.message (fields.map Field.kind)).runAt (Cursor.start body) =
          (.ok (fields.map Field.entry), ⟨body, body.length⟩) := by
  intro inner fields
  have writable : ∀ field ∈ fields, field.Writable := by decide
  rcases fields_are_read_back_as_written writable with
    ⟨body, written, _, _, _, reads, _⟩
  exact ⟨writable, body, written, reads⟩

end Read

end ChannelRouter
