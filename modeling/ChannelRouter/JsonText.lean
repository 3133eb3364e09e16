/-!
# Texts and objects in JSON

A quoted text escapes the quote, the backslash and the control characters, and
nothing else.  An object lists its members in the given order.
-/

namespace ChannelRouter.JsonText

/-- The digit of a number below sixteen. -/
def hexDigit (number : Nat) : Char := (Nat.toDigits 16 number).headD '0'

/-- A character inside a quoted text. -/
def escaped (c : Char) : List Char :=
  match c with
  | '"' => ['\\', '"']
  | '\\' => ['\\', '\\']
  | '\n' => ['\\', 'n']
  | '\r' => ['\\', 'r']
  | '\t' => ['\\', 't']
  | _ =>
    if c < ' ' then
      ['\\', 'u', '0', '0', hexDigit (c.toNat / 16), hexDigit (c.toNat % 16)]
    else [c]

/-- A text between quotes. -/
def quoted (text : String) : String :=
  "\"" ++ String.ofList (text.toList.flatMap escaped) ++ "\""

/-- An object, from its keys and the texts of its values. -/
def object (members : List (String × String)) : String :=
  "\x7b" ++ String.intercalate "," (members.map fun member =>
    quoted member.1 ++ ":" ++ member.2) ++ "\x7d"

end ChannelRouter.JsonText
