import ChannelRouter.ChannelRange
import ChannelRouter.Wire.Field
import ChannelRouter.Wire.Header

/-!
# Instructions to the router

A datagram whose only recipient is the control channel is an instruction.  Its
message type is one of eight codes, and each code has fields of its own.
`Instruction.encode` writes an instruction and `Read.instruction` reads one
whose header has already been passed; the two agree on every instruction whose
counts fit into their fields.
-/

namespace ChannelRouter

/-- The message types that mean something to the router. -/
inductive ControlCode where
  | addChannel
  | removeChannel
  | addRange
  | removeRange
  | addPostRemove
  | clearPostRemoves
  | setName
  | setUrl
deriving DecidableEq, Repr

namespace ControlCode

/-- Every code, in ascending order. -/
def all : List ControlCode :=
  [addChannel, removeChannel, addRange, removeRange,
    addPostRemove, clearPostRemoves, setName, setUrl]

/-- The message type of a code. -/
def messageType : ControlCode → UInt16
  | addChannel => 9000
  | removeChannel => 9001
  | addRange => 9002
  | removeRange => 9003
  | addPostRemove => 9010
  | clearPostRemoves => 9011
  | setName => 9012
  | setUrl => 9013

/-- The code of a message type. -/
def ofMessageType? (messageType : UInt16) : Option ControlCode :=
  all.find? (·.messageType == messageType)

/-- A code is found again by its message type, and no other number is a code. -/
theorem ofMessageType?_eq_some_iff (messageType : UInt16) (code : ControlCode) :
    ofMessageType? messageType = some code ↔
      code.messageType = messageType := by
  constructor
  · intro found
    have same := List.find?_some found
    exact eq_of_beq same
  · rintro rfl
    cases code <;> rfl

end ControlCode

/-- What a participant can tell the router. -/
inductive Instruction where
  | addChannel (channel : Channel)
  | removeChannel (channel : Channel)
  | addRange (range : ChannelRange)
  | removeRange (range : ChannelRange)
  | addPostRemove (channel : Channel) (body : Datagram)
  | clearPostRemoves (channel : Channel)
  | setName (name : String)
  | setUrl (url : String)
deriving DecidableEq, Repr

namespace Instruction

/-- The code under which an instruction travels. -/
def code : Instruction → ControlCode
  | addChannel _ => .addChannel
  | removeChannel _ => .removeChannel
  | addRange _ => .addRange
  | removeRange _ => .removeRange
  | addPostRemove _ _ => .addPostRemove
  | clearPostRemoves _ => .clearPostRemoves
  | setName _ => .setName
  | setUrl _ => .setUrl

/-- The fields that follow the header of an instruction. -/
def fields : Instruction → List Field
  | addChannel channel => [.channel channel]
  | removeChannel channel => [.channel channel]
  | addRange range => [.channel range.first, .channel range.last]
  | removeRange range => [.channel range.first, .channel range.last]
  | addPostRemove channel body => [.channel channel, .datagram body]
  | clearPostRemoves channel => [.channel channel]
  | setName name => [.text name]
  | setUrl url => [.text url]

/--
The datagram of an instruction.  There is none for a body, a name or a URL of
`2 ^ 32` bytes or more, since its count has four bytes: building one stops the
program.  Here such a count is written modulo `2 ^ 32`, and what is said of
encodings is said of instructions whose counts fit.
-/
def encode (instruction : Instruction) : Datagram :=
  Datagram.ofFields
    (.controlHeader instruction.code.messageType :: instruction.fields)

end Instruction

namespace Read

/-- Two channels that are the ends of a range. -/
def range : Read ChannelRange := do
  let first ← channel
  let last ← channel
  match ChannelRange.ofEnds first last with
  | .ok range => pure range
  | .error inverted => throw inverted

/-- The fields of an instruction with the given code. -/
def instructionFields : ControlCode → Read Instruction
  | .addChannel => .addChannel <$> channel
  | .removeChannel => .removeChannel <$> channel
  | .addRange => .addRange <$> range
  | .removeRange => .removeRange <$> range
  | .addPostRemove => do
    let under ← channel
    let body ← datagram
    pure (.addPostRemove under body)
  | .clearPostRemoves => .clearPostRemoves <$> channel
  | .setName => .setName <$> text
  | .setUrl => .setUrl <$> text

/-- An instruction, from its message type on.  Whatever follows is ignored. -/
def instruction : Read Instruction := do
  let messageType ← u16
  match ControlCode.ofMessageType? messageType with
  | some code => instructionFields code
  | none => throw (.unknownControl messageType)

end Read

end ChannelRouter
