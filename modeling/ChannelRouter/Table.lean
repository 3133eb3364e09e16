/-!
# Tables

A table maps keys to values and lists its entries by ascending key.  Looking up
compares keys for equality only, so the laws of `get?` hold of every table; the
order matters where entries are listed.
-/

namespace ChannelRouter

/-- Entries by ascending key. -/
structure Table (κ α : Type) where
  entries : List (κ × α)
deriving DecidableEq, Repr

namespace Table

variable {κ α : Type} [LT κ] [DecidableLT κ] [DecidableEq κ]

/-- The table without entries. -/
def empty : Table κ α := ⟨[]⟩

instance : EmptyCollection (Table κ α) := ⟨empty⟩

/-- The first value listed under a key. -/
def lookup (key : κ) : List (κ × α) → Option α
  | [] => none
  | (other, value) :: rest =>
    if key = other then some value else lookup key rest

/-- The value under a key. -/
def get? (table : Table κ α) (key : κ) : Option α :=
  lookup key table.entries

/-- Whether there is a value under a key. -/
def contains (table : Table κ α) (key : κ) : Bool :=
  (table.get? key).isSome

/-- Put an entry where its key belongs, in place of one under the same key. -/
def place (key : κ) (value : α) : List (κ × α) → List (κ × α)
  | [] => [(key, value)]
  | (other, current) :: rest =>
    if key = other then (key, value) :: rest
    else if key < other then (key, value) :: (other, current) :: rest
    else (other, current) :: place key value rest

/-- Set the value under a key. -/
def insert (table : Table κ α) (key : κ) (value : α) : Table κ α :=
  ⟨place key value table.entries⟩

/-- Drop whatever is under a key. -/
def erase (table : Table κ α) (key : κ) : Table κ α :=
  ⟨table.entries.filter (·.1 ≠ key)⟩

/-- Change every value. -/
def map {β : Type} (change : α → β) (table : Table κ α) : Table κ β :=
  ⟨table.entries.map fun entry => (entry.1, change entry.2)⟩

/-- The keys, in order. -/
def keys (table : Table κ α) : List κ := table.entries.map (·.1)

/-- The values, in the order of their keys. -/
def values (table : Table κ α) : List α := table.entries.map (·.2)

/-- The number of entries. -/
def size (table : Table κ α) : Nat := table.entries.length

/-- Whether there is no entry. -/
def isEmpty (table : Table κ α) : Bool := table.entries.isEmpty

omit [LT κ] [DecidableLT κ] in
@[simp]
theorem get?_empty (key : κ) : (empty : Table κ α).get? key = none := rfl

theorem lookup_place (key other : κ) (value : α) (entries : List (κ × α)) :
    lookup other (place key value entries) =
      if other = key then some value else lookup other entries := by
  induction entries with
  | nil => simp [place, lookup]
  | cons entry rest ih =>
    obtain ⟨current, old⟩ := entry
    simp only [place]
    split
    · rename_i same
      subst same
      simp only [lookup]
      split <;> rfl
    · split
      · simp only [lookup]
      · rename_i different _
        simp only [lookup, ih]
        split
        · rename_i here
          subst here
          rw [if_neg (fun same => different same.symm)]
        · rfl

/-- Setting a value changes what is under its key and nothing else. -/
@[simp]
theorem get?_insert (table : Table κ α) (key other : κ) (value : α) :
    (table.insert key value).get? other =
      if other = key then some value else table.get? other :=
  lookup_place key other value table.entries

omit [LT κ] [DecidableLT κ] in
theorem lookup_filter_ne (key other : κ) (entries : List (κ × α)) :
    lookup other (entries.filter (·.1 ≠ key)) =
      if other = key then none else lookup other entries := by
  induction entries with
  | nil => simp [lookup]
  | cons entry rest ih =>
    obtain ⟨current, value⟩ := entry
    by_cases same : current = key
    · subst same
      rw [List.filter_cons_of_neg (by simp), ih]
      simp only [lookup]
      split
      · rfl
      · rfl
    · rw [List.filter_cons_of_pos (by simpa using same)]
      simp only [lookup, ih]
      split
      · rename_i here
        subst here
        rw [if_neg same]
      · rfl

omit [LT κ] [DecidableLT κ] in
/-- Erasing a key empties its place and no other. -/
@[simp]
theorem get?_erase (table : Table κ α) (key other : κ) :
    (table.erase key).get? other = if other = key then none
      else table.get? other :=
  lookup_filter_ne key other table.entries

end Table

end ChannelRouter
