/-!
# Values of a configuration text

A document is a table of values.  Tables come about in several ways, and whether
a table may still be extended depends on how it came about: by a header, on the
way to another header, on the way along a dotted key, or between braces.

`Entries.addDotted` adds a value under a key, `Entries.openTable` and
`Entries.openElement` do what the two kinds of header ask for, and
`Entries.addAt` adds a value to the table that a header opened.  Each is refused
where it would change what is complete or replace what is there.
-/

namespace ChannelRouter.Toml

/-- How a table came about. -/
inductive Origin where
  | header
  /-- On the way to the table of a header. -/
  | implied
  /-- On the way along a dotted key. -/
  | dotted
  /-- Between braces. -/
  | braces
deriving DecidableEq, Repr

/-- A value.  Of the kinds that no setting has only the kind is kept. -/
inductive Value where
  | text (value : String)
  | integer (value : Int)
  | boolean (value : Bool)
  | float
  | moment
  | array (items : List Value)
  | table (origin : Origin) (entries : List (String × Value))
  /-- The tables that headers in double brackets made, the oldest first. -/
  | tables (elements : List (List (String × Value)))

/-- Keys and values, in the order of their definition. -/
abbrev Entries := List (String × Value)

namespace Entries

/-- The value under a key. -/
def find? (entries : Entries) (key : String) : Option Value :=
  entries.lookup key

/-- Put a value in place of the one under a key. -/
def replace (entries : Entries) (key : String) (value : Value) : Entries :=
  entries.map fun entry => if entry.1 = key then (key, value) else entry

/-- Change the last element of a list, if there is one. -/
def changeLast {α : Type} (change : α → Option α) (items : List α) :
    Option (List α) :=
  match items.getLast? with
  | none => none
  | some last => (change last).map fun changed => items.dropLast ++ [changed]

/--
Add a value under a dotted key.  Tables on the way are made as needed, and those
that a header defined or that stand between braces are closed to it.  The last
part of the key must be new, in a table that a dotted key made or, where
`direct` says so, in the table at hand.
-/
def addDotted (value : Value) :
    (direct : Bool) → List String → Entries → Option Entries
  | _, [], _ => none
  | direct, [key], entries =>
    if direct && (entries.find? key).isNone then some
      (entries ++ [(key, value)]) else none
  | _, key :: path, entries =>
    match entries.find? key with
    | none =>
      (addDotted value true path []).map fun made =>
        entries ++ [(key, .table .dotted made)]
    | some (.table .dotted inner) =>
      (addDotted value true path inner).map fun made =>
        entries.replace key (.table .dotted made)
    | some (.table .implied inner) =>
      (addDotted value false path inner).map fun made =>
        entries.replace key (.table .implied made)
    | some (.tables elements) =>
      (changeLast (addDotted value false path) elements).map fun made =>
        entries.replace key (.tables made)
    | some _ => none

/--
Do something in the table at a path, making tables on the way.  A list of tables
stands for its last element.
-/
def descend (act : String → Entries → Option Entries) :
    List String → Entries → Option Entries
  | [], _ => none
  | [key], entries => act key entries
  | key :: path, entries =>
    match entries.find? key with
    | none =>
      (descend act path []).map fun made =>
        entries ++ [(key, .table .implied made)]
    | some (.table .braces _) => none
    | some (.table origin inner) =>
      (descend act path inner).map fun made =>
        entries.replace key (.table origin made)
    | some (.tables elements) =>
      (changeLast (descend act path) elements).map fun made =>
        entries.replace key (.tables made)
    | some _ => none

/-- Open the table of a header: it is new, or was only implied so far. -/
def openTable : List String → Entries → Option Entries :=
  descend fun key entries =>
    match entries.find? key with
    | none => some (entries ++ [(key, .table .header [])])
    | some (.table .implied inner) =>
      some (entries.replace key (.table .header inner))
    | some _ => none

/--
Open another element of the list of tables of a header in double brackets.
-/
def openElement : List String → Entries → Option Entries :=
  descend fun key entries =>
    match entries.find? key with
    | none => some (entries ++ [(key, .tables [[]])])
    | some (.tables elements) =>
      some (entries.replace key (.tables (elements ++ [[]])))
    | some _ => none

/-- Add a value under a dotted key of the table that a header opened. -/
def addAt (value : Value) (key : List String) :
    List String → Entries → Option Entries
  | [], entries => addDotted value true key entries
  | part :: path, entries =>
    match entries.find? part with
    | some (.table origin inner) =>
      (addAt value key path inner).map fun made =>
        entries.replace part (.table origin made)
    | some (.tables elements) =>
      (changeLast (addAt value key path) elements).map fun made =>
        entries.replace part (.tables made)
    | _ => none

end Entries

end ChannelRouter.Toml
