import ChannelRouter.Toml.Quoted
import ChannelRouter.Toml.Value

/-!
# Numbers, dates and times

A number is an integer, in one of four bases, that fits into 64 bits with a
sign, or a decimal fraction that does not exceed the greatest double.  A date
or a time of day is recognised by the mark after its first digits.
-/

namespace ChannelRouter.Toml

namespace Number

/-- The value of digits in a base. -/
def numeral (base : Nat) (digits : List Char) : Nat :=
  digits.foldl (fun value c => value * base + (Quoted.hexDigit? c).getD 0) 0

/-- An integer that fits into 64 bits with a sign. -/
def bounded? (value : Int) : Option Value :=
  if -9223372036854775808 ≤ value ∧
    value ≤ 9223372036854775807 then some (.integer value)
  else none

/-- Whether a digit is one of the given base. -/
def isDigitOf (base : Nat) (c : Char) : Bool :=
  (Quoted.hexDigit? c).any (· < base)

/-- An integer in the given base, after the mark of the base. -/
def based? (base : Nat) : Scan Value := fun text => do
  let (digits, rest) ← Scan.run? (isDigitOf base) text
  let value ← bounded? (numeral base digits)
  pure (value, rest)

/-- The whole part of a decimal number: no digit follows a leading zero. -/
def whole? : Scan (List Char)
  | '0' :: rest => some (['0'], rest)
  | text => Scan.run? Char.isDigit text

/-- A sign, and whether it is a minus. -/
def sign : List Char → Bool × List Char
  | '+' :: rest => (false, rest)
  | '-' :: rest => (true, rest)
  | text => (false, text)

/-- The digits after a point. -/
def fraction? : Scan (List Char)
  | '.' :: rest => Scan.run? Char.isDigit rest
  | _ => none

/-- The exponent of ten. -/
def exponent? : Scan Int
  | c :: rest =>
    if c = 'e' ∨ c = 'E' then do
      let (negative, rest) := sign rest
      let (digits, rest) ← Scan.run? Char.isDigit rest
      let value : Int := numeral 10 digits
      pure (if negative then -value else value, rest)
    else none
  | [] => none

/-- The least number that rounds to no double. -/
def tooLarge : Nat := Nat.pow 2 1024 - Nat.pow 2 970

/-- Whether digits times a power of ten exceed every double. -/
def exceedsDouble (digits : List Char) (exponent : Int) : Bool :=
  let mantissa := numeral 10 digits
  if mantissa = 0 then false
  else if 0 ≤ exponent then
    400 < exponent || tooLarge ≤ mantissa * Nat.pow 10 exponent.toNat
  else
    (-exponent).toNat ≤ digits.length &&
      tooLarge * Nat.pow 10 (-exponent).toNat ≤ mantissa

/-- A decimal fraction, of which something stands after the whole part. -/
def decimal? : Scan Value := fun text => do
  let (negative, text) := sign text
  let (whole, text) ← whole? text
  let (fraction, text) :=
    match fraction? text with
    | some (fraction, rest) => (some fraction, rest)
    | none => (none, text)
  let (exponent, text) :=
    match exponent? text with
    | some (exponent, rest) => (some exponent, rest)
    | none => (none, text)
  if fraction.isNone && exponent.isNone then none
  else
    let places := (fraction.getD []).length
    if !negative && exceedsDouble (whole ++ fraction.getD [])
      (exponent.getD 0 - places) then
      none
    else pure (.float, text)

/-- A fraction that is no number, or larger than all of them. -/
def special? (text : List Char) : Option (Value × List Char) :=
  let (_, text) := sign text
  match Scan.word? ['i', 'n', 'f'] text with
  | some rest => some (.float, rest)
  | none => (Scan.word? ['n', 'a', 'n'] text).map fun rest => (.float, rest)

/-- A decimal integer. -/
def integer? : Scan Value := fun text => do
  let (negative, text) := sign text
  let (digits, rest) ← whole? text
  let value : Int := numeral 10 digits
  let value ← bounded? (if negative then -value else value)
  pure (value, rest)

/-- A number. -/
def number? (text : List Char) : Option (Value × List Char) :=
  match text with
  | '0' :: 'x' :: rest => based? 16 rest
  | '0' :: 'o' :: rest => based? 8 rest
  | '0' :: 'b' :: rest => based? 2 rest
  | _ =>
    match special? text with
    | some found => some found
    | none =>
      match decimal? text with
      | some found => some found
      | none => integer? text

end Number

namespace Moment

/-- The days of a month. -/
def daysIn (year month : Nat) : Nat :=
  match month with
  | 2 => if year % 4 = 0 ∧ (year % 100 ≠ 0 ∨ year % 400 = 0) then 29 else 28
  | 4 | 6 | 9 | 11 => 30
  | _ => 31

/-- The text after a date. -/
def date? (text : List Char) : Option (List Char) := do
  let (year, text) ← Scan.digits? 4 text
  let text ← Scan.expect? '-' text
  let (month, text) ← Scan.digits? 2 text
  let text ← Scan.expect? '-' text
  let (day, text) ← Scan.digits? 2 text
  if 1 ≤ month ∧ month ≤ 12 ∧ 1 ≤ day ∧
    day ≤ daysIn year month then pure text else none

/-- The text after a time of day. -/
def time? (text : List Char) : Option (List Char) := do
  let (hour, text) ← Scan.digits? 2 text
  let text ← Scan.expect? ':' text
  let (minute, text) ← Scan.digits? 2 text
  let text ← Scan.expect? ':' text
  let (second, text) ← Scan.digits? 2 text
  if hour ≤ 23 ∧ minute ≤ 59 ∧ second ≤ 60 then
    match text with
    | '.' :: c :: rest =>
      if c.isDigit then pure (rest.dropWhile Char.isDigit) else none
    | _ => pure text
  else none

/-- The text after a distance from universal time, if it begins with one. -/
def offset (text : List Char) : List Char :=
  match text with
  | [] => []
  | c :: rest =>
    if c = 'Z' ∨ c = 'z' then rest
    else if c = '+' ∨ c = '-' then
      (do
        let (hour, rest) ← Scan.digits? 2 rest
        let rest ← Scan.expect? ':' rest
        let (minute, rest) ← Scan.digits? 2 rest
        if hour ≤ 23 ∧ minute ≤ 59 then some rest else none).getD text
    else text

/-- A date with or without a time, or a time alone. -/
def moment? (text : List Char) : Option (Value × List Char) :=
  match date? text with
  | none => (time? text).map fun rest => (.moment, rest)
  | some rest =>
    match rest with
    | [] => some (.moment, [])
    | c :: after =>
      if c = 'T' ∨ c = 't' ∨ c = ' ' then
        match time? after with
        | some rest => some (.moment, offset rest)
        | none => some (.moment, c :: after)
      else some (.moment, c :: after)

end Moment

end ChannelRouter.Toml
