/-!
# Scanning characters

A scanner takes what it is looking for from the front of a text and gives it
with the rest, or fails.  This module holds the scanners for blanks, line ends
and comments, and for runs of digits.
-/

namespace ChannelRouter.Toml

/-- Something at the front of a text, and the rest. -/
abbrev Scan (α : Type) := List Char → Option (α × List Char)

namespace Scan

/-- Whether a character is a blank inside a line. -/
def isBlank (c : Char) : Bool := c == ' ' || c == '\t'

/-- Whether a character may stand in a comment or, escapes apart, in a text. -/
def isPlain (c : Char) : Bool :=
  c == '\t' || (' ' ≤ c && c ≤ '~') || 0x80 ≤ c.toNat

/-- The text after its blanks. -/
def blanks (text : List Char) : List Char := text.dropWhile isBlank

/-- The text after a line end, if it begins with one. -/
def newline? : List Char → Option (List Char)
  | '\n' :: rest => some rest
  | '\r' :: '\n' :: rest => some rest
  | _ => none

/-- The text after a comment, if it begins with one. -/
def comment : List Char → List Char
  | '#' :: rest => rest.dropWhile isPlain
  | text => text

/--
The text after the end of a line, before which blanks and a comment may stand.
-/
def lineEnd? (text : List Char) : Option (List Char) :=
  match comment (blanks text) with
  | [] => some []
  | rest => newline? rest

/-- Whether a text begins with an expected character; the rest after it. -/
def expect? (c : Char) : List Char → Option (List Char)
  | [] => none
  | head :: rest => if head = c then some rest else none

/-- The text after an expected word. -/
def word? : List Char → List Char → Option (List Char)
  | [], text => some text
  | c :: word, text => (expect? c text).bind (word? word)

/-- The characters of a run, single underscores between which are left out. -/
def runAfter (inRun : Char → Bool) : List Char → List Char × List Char
  | '_' :: c :: rest =>
    if inRun c then
      let (others, rest) := runAfter inRun rest
      (c :: others, rest)
    else ([], '_' :: c :: rest)
  | c :: rest =>
    if inRun c then
      let (others, rest) := runAfter inRun rest
      (c :: others, rest)
    else ([], c :: rest)
  | [] => ([], [])

/-- A run of at least one character, which does not begin with an underscore. -/
def run? (inRun : Char → Bool) : Scan (List Char)
  | [] => none
  | c :: rest =>
    if inRun c then
      let (others, rest) := runAfter inRun rest
      some (c :: others, rest)
    else none

/-- Exactly so many decimal digits, as a number. -/
def digits? (count : Nat) (text : List Char) : Option (Nat × List Char) :=
  let digits := text.take count
  if digits.length = count && digits.all Char.isDigit then
    some (digits.foldl (fun value c => value * 10 + (c.toNat - '0'.toNat)) 0,
      text.drop count)
  else none

end Scan

end ChannelRouter.Toml
