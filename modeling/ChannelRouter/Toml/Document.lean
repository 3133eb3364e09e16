import ChannelRouter.Toml.Number

/-!
# Reading a configuration text

A document is a list of lines, each with a key and a value, a header, or
nothing.  Values nest to a limited depth.  `document?` gives the root table, or
nothing if the text is not well-formed anywhere.
-/

namespace ChannelRouter.Toml

namespace Document

/--
The depth at which values no longer nest, and the parts a key may not have.
-/
def depthLimit : Nat := 80

/-- Whether a character may stand in a key without quotes. -/
def isBare (c : Char) : Bool := c.isAlphanum || c == '_' || c == '-'

/-- One part of a key. -/
def part? : Scan String := fun text =>
  match text with
  | '"' :: _ => Quoted.short? '"' true text
  | '\'' :: _ => Quoted.short? '\'' false text
  | _ =>
    let bare := text.takeWhile isBare
    if bare.isEmpty then none
    else some (String.ofList bare, text.drop bare.length)

/-- The parts of a key, with points between them. -/
def parts : (fuel : Nat) → Scan (List String)
  | 0, _ => none
  | fuel + 1, text => do
    let (part, text) ← part? (Scan.blanks text)
    match Scan.blanks text with
    | '.' :: rest =>
      let (others, rest) ← parts fuel rest
      pure (part :: others, rest)
    | rest => pure ([part], rest)

/-- A key. -/
def key? : Scan (List String) := parts (depthLimit - 1)

/-- The text after blanks, line ends and comments. -/
def skipLines : (fuel : Nat) → List Char → List Char
  | 0, text => text
  | fuel + 1, text =>
    match Scan.newline? (Scan.comment (Scan.blanks text)) with
    | some rest => skipLines fuel rest
    | none => Scan.blanks text

/-- The text after all that may stand between the items of an array. -/
def gap (text : List Char) : List Char := skipLines text.length text

/-- The items of an array after those already read, up to its end. -/
def items (item : Scan Value) : (fuel : Nat) → List Value → Scan (List Value)
  | 0, _, _ => none
  | fuel + 1, found, text =>
    match gap text with
    | ']' :: rest => some (found.reverse, rest)
    | text => do
      let (value, text) ← item text
      match gap text with
      | ',' :: rest => items item fuel (value :: found) rest
      | ']' :: rest => pure ((value :: found).reverse, rest)
      | _ => none

/-- A key and a value. -/
def pair? (item : Scan Value) : Scan (List String × Value) := fun text => do
  let (key, text) ← key? text
  let text ← Scan.expect? '=' text
  let (value, text) ← item (Scan.blanks text)
  pure ((key, value), text)

/-- The entries between braces after those already read, up to the end. -/
def members (item : Scan Value) : (fuel : Nat) → Entries → Scan Entries
  | 0, _, _ => none
  | fuel + 1, entries, text => do
    let ((key, value), text) ← pair? item text
    let entries ← entries.addDotted value true key
    match Scan.blanks text with
    | ',' :: rest => members item fuel entries rest
    | '}' :: rest => pure (entries, rest)
    | _ => none

/-- An array, after its opening bracket. -/
def array? (item : Scan Value) : Scan Value := fun text => do
  let (found, rest) ← items item (text.length + 1) [] text
  pure (.array found, rest)

/-- A table between braces, after the opening one. -/
def braces? (item : Scan Value) : Scan Value := fun text =>
  match Scan.blanks text with
  | '}' :: rest => some (.table .braces [], rest)
  | text => do
    let (entries, rest) ← members item (text.length + 1) [] text
    pure (.table .braces entries, rest)

/-- A value that does not nest. -/
def scalar? : Scan Value := fun text =>
  match text with
  | [] => none
  | '"' :: _ => (Quoted.text? '"' true text).map fun (content, rest) =>
      (.text content, rest)
  | '\'' :: _ => (Quoted.text? '\'' false text).map fun (content, rest) =>
      (.text content, rest)
  | 't' :: _ =>
    (Scan.word? "true".toList text).map fun rest => (.boolean true, rest)
  | 'f' :: _ =>
    (Scan.word? "false".toList text).map fun rest => (.boolean false, rest)
  | _ =>
    match Moment.moment? text with
    | some found => some found
    | none => Number.number? text

/-- A value that nests to the given depth at most. -/
def value? : (depth : Nat) → Scan Value
  | 0, text =>
    match text with
    | '[' :: _ | '\x7b' :: _ => none
    | _ => scalar? text
  | depth + 1, text =>
    match text with
    | '[' :: rest => array? (value? depth) rest
    | '\x7b' :: rest => braces? (value? depth) rest
    | _ => scalar? text

/-- The root table, and the path of the table that the last header opened. -/
structure Progress where
  root : Entries
  current : List String

/-- A header, after its first bracket. -/
def header? (progress : Progress) (text : List Char) :
    Option (Progress × List Char) :=
  match text with
  | '[' :: text => do
    let (key, text) ← key? text
    let text ← Scan.word? [']', ']'] text
    let text ← Scan.lineEnd? text
    let root ← progress.root.openElement key
    pure (⟨root, key⟩, text)
  | _ => do
    let (key, text) ← key? text
    let text ← Scan.expect? ']' text
    let text ← Scan.lineEnd? text
    let root ← progress.root.openTable key
    pure (⟨root, key⟩, text)

/-- A line with a key and a value. -/
def assignment? (progress : Progress) (text : List Char) :
    Option (Progress × List Char) := do
  let ((key, value), text) ← pair? (value? (depthLimit - 1)) text
  let text ← Scan.lineEnd? text
  let root ← progress.root.addAt value key progress.current
  pure ({ progress with root }, text)

/-- The lines of a document after those already read. -/
def lines : (fuel : Nat) → Progress → List Char → Option Entries
  | 0, _, _ => none
  | fuel + 1, progress, text =>
    match Scan.blanks text with
    | [] => some progress.root
    | '#' :: rest => do lines fuel progress (← Scan.lineEnd? ('#' :: rest))
    | '[' :: rest => do
      let (progress, text) ← header? progress rest
      lines fuel progress text
    | text =>
      match Scan.newline? text with
      | some rest => lines fuel progress rest
      | none => do
        let (progress, text) ← assignment? progress text
        lines fuel progress text

end Document

/--
The root table of a text; a byte order mark in front of it does not matter.
-/
def document? (text : String) : Option Entries :=
  let characters :=
    match text.toList with
    | '\uFEFF' :: rest => rest
    | characters => characters
  Document.lines (characters.length + 1) ⟨[], []⟩ characters

end ChannelRouter.Toml
