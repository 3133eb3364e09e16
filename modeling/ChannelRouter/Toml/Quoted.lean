import ChannelRouter.Toml.Scan

/-!
# Quoted texts

A text stands between double quotes, where a backslash begins an escape, or
between single quotes, where nothing is special.  Between three quotes of either
kind it may run over several lines: a line end right after the opening is left
out, up to two quotes may stand anywhere, and with double quotes a backslash at
the end of a line leaves out the line end and all blanks and line ends after it.
-/

namespace ChannelRouter.Toml

namespace Quoted

/-- The value of a hexadecimal digit. -/
def hexDigit? (c : Char) : Option Nat :=
  if c.isDigit then some (c.toNat - '0'.toNat)
  else if 'a' ≤ c && c ≤ 'f' then some (c.toNat - 'a'.toNat + 10)
  else if 'A' ≤ c && c ≤ 'F' then some (c.toNat - 'A'.toNat + 10)
  else none

/-- The character whose number stands in so many hexadecimal digits. -/
def codePoint? (count : Nat) (text : List Char) :
    Option (Char × List Char) := do
  let digits ← (text.take count).mapM hexDigit?
  let number := digits.foldl (fun value digit => value * 16 + digit) 0
  if digits.length = count && number.isValidChar then
    pure (Char.ofNat number, text.drop count)
  else none

/-- The character of an escape, after its backslash. -/
def escape? : Scan Char
  | 'b' :: rest => some ('\x08', rest)
  | 't' :: rest => some ('\t', rest)
  | 'n' :: rest => some ('\n', rest)
  | 'f' :: rest => some ('\x0c', rest)
  | 'r' :: rest => some ('\r', rest)
  | '"' :: rest => some ('"', rest)
  | '\\' :: rest => some ('\\', rest)
  | 'u' :: rest => codePoint? 4 rest
  | 'U' :: rest => codePoint? 8 rest
  | _ => none

/-- The text after blanks and line ends. -/
def skipLines : (fuel : Nat) → List Char → List Char
  | 0, text => text
  | fuel + 1, text =>
    match Scan.newline? (Scan.blanks text) with
    | some rest => skipLines fuel rest
    | none => Scan.blanks text

/--
The text after the line end that a backslash leaves out, and what follows it.
-/
def continuation? (text : List Char) : Option (List Char) :=
  (Scan.newline? (Scan.blanks text)).map fun rest => skipLines rest.length rest

/-- How a quoted text is read. -/
structure Style where
  quote : Char
  /-- Whether a backslash begins an escape. -/
  escapes : Bool
  /-- Whether the text may run over several lines. -/
  long : Bool
deriving DecidableEq, Repr

/-- The quotes at the front of a text. -/
def quotes (quote : Char) (text : List Char) : Nat :=
  (text.takeWhile (· == quote)).length

/--
What follows the quotes that end a long text, with those that belong to it.
-/
def closing? (quote : Char) (text : List Char) :
    Option (List Char × List Char) :=
  let count := quotes quote text
  if 3 ≤ count then
    let own := min (count - 3) 2
    some (List.replicate own quote, text.drop (own + 3))
  else none

/--
The content of a quoted text up to its end, the characters so far in reverse.
-/
def contentAfter (style : Style) :
    (fuel : Nat) → (content : List Char) → Scan String
  | 0, _, _ => none
  | _ + 1, _, [] => none
  | fuel + 1, content, c :: rest =>
    if c = style.quote then
      if style.long then
        match closing? style.quote (c :: rest) with
        | some (own, after) =>
          some (String.ofList (content.reverse ++ own), after)
        | none => contentAfter style fuel (c :: content) rest
      else some (String.ofList content.reverse, rest)
    else if c = '\\' ∧ style.escapes then
      match escape? rest with
      | some (escaped, after) =>
        contentAfter style fuel (escaped :: content) after
      | none =>
        if style.long then
          match continuation? rest with
          | some after => contentAfter style fuel content after
          | none => none
        else none
    else if Scan.isPlain c then contentAfter style fuel (c :: content) rest
    else if style.long then
      match Scan.newline? (c :: rest) with
      | some after => contentAfter style fuel ('\n' :: content) after
      | none => none
    else none

/-- The content of a quoted text, after its opening quotes. -/
def content? (style : Style) : Scan String := fun text =>
  contentAfter style (text.length + 1) [] text

/-- A text in one line. -/
def short? (quote : Char) (escapes : Bool) : Scan String
  | [] => none
  | c :: rest =>
    if c = quote then content? ⟨quote, escapes, false⟩ rest else none

/-- A text that may run over several lines. -/
def long? (quote : Char) (escapes : Bool) (text : List Char) :
    Option (String × List Char) :=
  if 3 ≤ quotes quote text then
    let inner := text.drop 3
    content? ⟨quote, escapes, true⟩ ((Scan.newline? inner).getD inner)
  else none

/-- A quoted text of either length. -/
def text? (quote : Char) (escapes : Bool) (text : List Char) :
    Option (String × List Char) :=
  if 3 ≤ quotes quote text then long? quote escapes text
  else short? quote escapes text

end Quoted

end ChannelRouter.Toml
