/-!
# Ascending lists

A finite set is kept as the strictly ascending list of its members, so that two
equal sets are the same list.  Insertion is by comparison and erasure by
equality; what each does to membership holds of any list.
-/

namespace ChannelRouter

namespace Ascending

variable {α : Type} [LT α] [DecidableLT α] [DecidableEq α]

/-- Put a member in its place, unless it is there already. -/
def insert (member : α) : List α → List α
  | [] => [member]
  | head :: tail =>
    if member = head then head :: tail
    else if member < head then member :: head :: tail
    else head :: insert member tail

/-- Drop a member, if it is there. -/
def erase (member : α) (members : List α) : List α :=
  members.filter (· ≠ member)

/-- The members of any list, each once and in order. -/
def ofList (members : List α) : List α :=
  members.foldr insert []

@[simp]
theorem mem_insert (member other : α) (members : List α) :
    other ∈ insert member members ↔ other = member ∨ other ∈ members := by
  induction members with
  | nil => simp [insert]
  | cons head tail ih =>
    simp only [insert]
    split
    · rename_i same
      simp [same]
    · split
      · simp
      · simp only [List.mem_cons, ih]
        constructor
        · rintro (here | here | here)
          · exact .inr (.inl here)
          · exact .inl here
          · exact .inr (.inr here)
        · rintro (here | here | here)
          · exact .inr (.inl here)
          · exact .inl here
          · exact .inr (.inr here)

@[simp]
theorem mem_ofList (member : α) (members : List α) :
    member ∈ ofList members ↔ member ∈ members := by
  induction members with
  | nil => simp [ofList]
  | cons head tail ih =>
    simp only [ofList, List.foldr_cons, mem_insert, List.mem_cons] at ih ⊢
    rw [ih]

omit [LT α] [DecidableLT α] in
@[simp]
theorem mem_erase (member other : α) (members : List α) :
    other ∈ erase member members ↔ other ∈ members ∧ other ≠ member := by
  simp [erase]

end Ascending

end ChannelRouter
