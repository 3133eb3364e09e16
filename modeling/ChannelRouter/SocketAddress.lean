/-!
# Socket addresses

The text of an address is that of a host and a port.  A version 4 host has four
decimal parts without leading zeros; a version 6 host stands in brackets, may
leave out one run of zero groups, may end in a version 4 address, and may name
a scope.  Nothing is looked up: a name is not an address.

Writing uses one form for each address: groups in lower-case hexadecimal, the
first longest run of at least two zero groups left out, and a version 4 address
that is mapped into version 6 in decimal.
-/

namespace ChannelRouter

/-- The host of a socket address. -/
inductive Host where
  /-- Four bytes. -/
  | v4 (bytes : List Nat)
  /-- Eight groups of sixteen bits, and the scope they are valid in. -/
  | v6 (groups : List Nat) (scope : Nat)
deriving DecidableEq, Repr

/-- A host and a port. -/
structure SocketAddress where
  host : Host
  port : Nat
deriving DecidableEq, Repr

namespace SocketAddress

/-- The value of a digit in a base of up to sixteen. -/
def digit? (base : Nat) (c : Char) : Option Nat :=
  let value :=
    if c.isDigit then some (c.toNat - '0'.toNat)
    else if 'a' ≤ c && c ≤ 'f' then some (c.toNat - 'a'.toNat + 10)
    else if 'A' ≤ c && c ≤ 'F' then some (c.toNat - 'A'.toNat + 10)
    else none
  value.filter (· < base)

/-- The number that digits denote. -/
def numeral (base : Nat) (digits : List Char) : Nat :=
  digits.foldl (fun value c => value * base + (digit? base c).getD 0) 0

/-- Read a number of at least one digit that is below a bound. -/
def number? (base bound : Nat) (text : List Char) : Option (Nat × List Char) :=
  let digits := text.takeWhile fun c => (digit? base c).isSome
  let value := numeral base digits
  if digits.isEmpty || bound ≤ value then none
  else some (value, text.drop digits.length)

/-- Read a part of a version 4 host: up to three digits, no leading zero. -/
def part? (text : List Char) : Option (Nat × List Char) :=
  let digits := text.takeWhile Char.isDigit
  if digits.length ≤ 3 && (digits.head? ≠ some '0' || digits.length = 1) then
    number? 10 256 text
  else none

/-- Read a group of a version 6 host: up to four digits. -/
def group? (text : List Char) : Option (Nat × List Char) :=
  if (text.takeWhile fun c => (digit? 16 c).isSome).length ≤
    4 then number? 16 65536 text
  else none

/-- Pass over an expected character. -/
def expect? (c : Char) : List Char → Option (List Char)
  | [] => none
  | head :: rest => if head = c then some rest else none

/-- Read a version 4 host. -/
def v4? (text : List Char) : Option (List Nat × List Char) := do
  let (first, text) ← part? text
  let text ← expect? '.' text
  let (second, text) ← part? text
  let text ← expect? '.' text
  let (third, text) ← part? text
  let text ← expect? '.' text
  let (fourth, text) ← part? text
  pure ([first, second, third, fourth], text)

/-- Groups at the front of a text, and what follows them. -/
structure Groups where
  groups : List Nat
  /-- Whether the last two groups were written as a version 4 address. -/
  dotted : Bool
  rest : List Char
deriving DecidableEq, Repr

/--
Read as many groups as there are, up to a number.  Between two groups stands a
colon; a version 4 address may stand where two groups have room.
-/
def groups (first : Bool) : Nat → List Char → Groups
  | 0, text => ⟨[], false, text⟩
  | limit + 1, text =>
    match if first then some text else expect? ':' text with
    | none => ⟨[], false, text⟩
    | some after =>
      match if limit = 0 then none else v4? after with
      | some (bytes, rest) =>
        ⟨[bytes.getD 0 0 * 256 + bytes.getD 1 0,
          bytes.getD 2 0 * 256 + bytes.getD 3 0], true, rest⟩
      | none =>
        match group? after with
        | none => ⟨[], false, text⟩
        | some (group, rest) =>
          let others := groups false limit rest
          { others with groups := group :: others.groups }

/-- Read a version 6 host. -/
def v6? (text : List Char) : Option (List Nat × List Char) := do
  let head := groups true 8 text
  if head.groups.length = 8 then return (head.groups, head.rest)
  if head.dotted then failure
  let rest ← expect? ':' head.rest
  let rest ← expect? ':' rest
  let tail := groups true (7 - head.groups.length) rest
  let zeros := 8 - head.groups.length - tail.groups.length
  pure (head.groups ++ List.replicate zeros 0 ++ tail.groups, tail.rest)

/-- Read the scope behind a version 6 host, zero if there is none. -/
def scope? : List Char → Option (Nat × List Char)
  | '%' :: text => number? 10 4294967296 text
  | text => some (0, text)

/-- Read a host, in brackets if it is of version 6. -/
def host? (text : List Char) : Option (Host × List Char) :=
  match v4? text with
  | some (bytes, rest) => some (.v4 bytes, rest)
  | none => do
    let text ← expect? '[' text
    let (groups, text) ← v6? text
    let (scope, text) ← scope? text
    let text ← expect? ']' text
    pure (.v6 groups scope, text)

/-- The address that a text denotes. -/
def parse? (text : String) : Option SocketAddress := do
  let (host, rest) ← host? text.toList
  let rest ← expect? ':' rest
  let (port, rest) ← number? 10 65536 rest
  if rest.isEmpty then pure ⟨host, port⟩ else failure

/-- Whether somebody listens at the address that a text denotes. -/
def reaches (listeners : List SocketAddress) (text : String) : Bool :=
  (parse? text).any listeners.contains

/-- Whether the host is of version 6. -/
def isV6 (address : SocketAddress) : Bool :=
  match address.host with
  | .v4 _ => false
  | .v6 _ _ => true

/-- Texts with a separator between them. -/
def separated (separator : String) (texts : List String) : String :=
  separator.intercalate texts

/-- Four bytes in decimal. -/
def dottedText (bytes : List Nat) : String :=
  separated "." (bytes.map toString)

/-- A group in hexadecimal, without leading zeros. -/
def groupText (group : Nat) : String := String.ofList (Nat.toDigits 16 group)

/-- The number of zero groups at the front. -/
def leadingZeros (groups : List Nat) : Nat := (groups.takeWhile (· == 0)).length

/-- Where the first longest run of zero groups begins, and how long it is. -/
def longestRun : List Nat → Nat × Nat
  | [] => (0, 0)
  | group :: others =>
    let here := leadingZeros (group :: others)
    let (start, length) := longestRun others
    if length ≤ here then (0, here) else (start + 1, length)

/-- Eight groups, with the longest run of zeros left out. -/
def groupsText (groups : List Nat) : String :=
  match groups with
  | [0, 0, 0, 0, 0, 0xFFFF, high, low] =>
    "::ffff:" ++ dottedText [high / 256, high % 256, low / 256, low % 256]
  | _ =>
    let (start, length) := longestRun groups
    if 2 ≤ length then
      separated ":" ((groups.take start).map groupText) ++ "::" ++
        separated ":" ((groups.drop (start + length)).map groupText)
    else separated ":" (groups.map groupText)

/-- The text of an address. -/
def text (address : SocketAddress) : String :=
  match address.host with
  | .v4 bytes => s!"{dottedText bytes}:{address.port}"
  | .v6 groups 0 => s!"[{groupsText groups}]:{address.port}"
  | .v6 groups scope => s!"[{groupsText groups}%{scope}]:{address.port}"

end SocketAddress

end ChannelRouter
