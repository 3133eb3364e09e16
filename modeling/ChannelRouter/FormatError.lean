import ChannelRouter.Channel

/-!
# Malformed input

Everything that can be wrong with bytes a peer sends, as one type of causes.
The wording of each cause stands in `FormatError.message` and nowhere else.
-/

namespace ChannelRouter

/-- The largest datagram body that can be framed. -/
def maxDatagramSize : Nat := 16777216

/-- Why bytes, or the values read from them, are refused. -/
inductive FormatError where
  /-- A frame announces, or a body has, more bytes than are allowed. -/
  | frameTooLarge (size : Nat)
  /-- The bytes end before the frame does. -/
  | incomplete (missing : Nat)
  /-- A field does not fit into what is left of the datagram. -/
  | truncated (needed remaining : Nat)
  /-- A text field is not UTF-8. -/
  | invalidText
  /-- A control datagram has a type that means nothing. -/
  | unknownControl (code : UInt16)
  /-- A channel range ends before it begins. -/
  | invertedRange (first last : Channel)
deriving DecidableEq, Repr

namespace FormatError

/-- The wording of a cause.  The frame limit named is always the general one. -/
def message : FormatError → String
  | frameTooLarge size =>
    s!"Datagram size {size} exceeds maximum {maxDatagramSize}"
  | incomplete missing => s!"Incomplete frame: need {missing} more bytes"
  | truncated needed remaining =>
    s!"Truncated datagram: needed {needed} bytes, {remaining} remaining"
  | invalidText => "Invalid UTF-8 in string field"
  | unknownControl code => s!"Unknown control message type {code.toNat}"
  | invertedRange first last =>
    s!"Inverted channel range [{first.toNat}, {last.toNat}]"

end FormatError

end ChannelRouter
