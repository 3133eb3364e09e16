import ChannelRouter.Ascending
import ChannelRouter.Table
import Mathlib.Data.List.Find
import Mathlib.Data.List.Nodup

/-!
# Order in ascending lists and tables

Insertion keeps an ascending list ascending, and setting an entry keeps the
keys of a table in order.  In a table whose keys are in order each key has at
most one entry, so what is listed and what is looked up are the same, and so are
two tables in which everything looked up is the same.
-/

namespace ChannelRouter

namespace Ascending

variable {α : Type} [LE α] [LT α] [Std.LawfulOrderLT α] [Std.IsLinearOrder α]

omit [Std.IsLinearOrder α] in
/-- An ascending list has no member twice. -/
theorem nodup_of_pairwise
    {members : List α} (ascending : members.Pairwise (· < ·)) :
    members.Nodup := by
  refine List.Pairwise.imp ?_ ascending
  rintro left right below rfl
  exact Std.lt_irrefl below

variable [DecidableLT α] [DecidableEq α]

theorem pairwise_insert
    (member : α) {members : List α}
    (ascending : members.Pairwise (· < ·)) :
    (insert member members).Pairwise (· < ·) := by
  induction members with
  | nil => simp [insert]
  | cons head tail ih =>
      rw [List.pairwise_cons] at ascending
      simp only [insert]
      split
      · exact List.pairwise_cons.mpr ascending
      · rename_i different
        split
        · rename_i below
          refine List.pairwise_cons.mpr ⟨?_, List.pairwise_cons.mpr ascending⟩
          intro other listed
          rcases List.mem_cons.mp listed with rfl | later
          · exact below
          · exact Std.lt_trans below (ascending.1 other later)
        · rename_i notBelow
          have above : head < member := by
            rcases Std.lt_trichotomy member head with below | same | above
            · exact absurd below notBelow
            · exact absurd same different
            · exact above
          refine List.pairwise_cons.mpr ⟨?_, ih ascending.2⟩
          intro other listed
          rcases (mem_insert member other tail).mp listed with rfl | later
          · exact above
          · exact ascending.1 other later

end Ascending

namespace Table

section Lookup

variable {κ α : Type} [DecidableEq κ]

@[simp]
theorem get?_map {β : Type} (table : Table κ α) (change : α → β) (key : κ) :
    (table.map change).get? key = (table.get? key).map change := by
  rcases table with ⟨entries⟩
  simp only [get?, Table.map]
  induction entries with
  | nil => rfl
  | cons entry rest ih =>
      simp only [List.map_cons, lookup]
      split
      · rfl
      · exact ih

theorem mem_of_lookup
    {key : κ} {value : α} {entries : List (κ × α)}
    (found : lookup key entries = some value) :
    (key, value) ∈ entries := by
  induction entries with
  | nil => simp [lookup] at found
  | cons entry rest ih =>
      simp only [lookup] at found
      split at found
      · rename_i same
        simp only [Option.some.injEq] at found
        subst same found
        exact List.mem_cons_self
      · exact List.mem_cons_of_mem _ (ih found)

theorem mem_keys_iff (table : Table κ α) (key : κ) :
    key ∈ table.keys ↔ table.contains key = true := by
  rcases table with ⟨entries⟩
  simp only [keys, contains, get?]
  induction entries with
  | nil => simp [lookup]
  | cons entry rest ih =>
      rw [List.map_cons, List.mem_cons, lookup]
      split
      · rename_i same
        simp [same]
      · rename_i different
        simpa [different] using ih

/-- A search that does not look for a key finds the same without it. -/
theorem find?_erase
    {table : Table κ α} {key : κ} {sought : κ × α → Bool}
    (elsewhere : ∀ value, (key, value) ∈ table.entries →
      sought (key, value) = false) :
    (table.erase key).entries.find? sought = table.entries.find? sought := by
  rw [erase, List.find?_filter]
  apply List.find?_congr
  rintro ⟨other, value⟩ listed
  by_cases same : other = key
  · cases same
    simp [elsewhere value listed]
  · simp [same]

end Lookup

/-- The entries stand by ascending key. -/
def Ordered {κ α : Type} [LT κ] (table : Table κ α) : Prop :=
  table.keys.Pairwise (· < ·)

theorem ordered_empty {κ α : Type} [LT κ] : (empty : Table κ α).Ordered :=
  List.Pairwise.nil

theorem Ordered.map
    {κ α β : Type} [LT κ] {table : Table κ α}
    (ordered : table.Ordered) (change : α → β) :
    (table.map change).Ordered := by
  simpa [Ordered, keys, Table.map, Function.comp_def] using ordered

theorem Ordered.erase
    {κ α : Type} [LT κ] [DecidableEq κ] {table : Table κ α}
    (ordered : table.Ordered) (key : κ) :
    (table.erase key).Ordered :=
  List.Pairwise.sublist (List.filter_sublist.map _) ordered

variable {κ α : Type} [LE κ] [LT κ] [DecidableLT κ] [DecidableEq κ]
  [Std.LawfulOrderLT κ] [Std.IsLinearOrder κ]

omit [LE κ] [Std.LawfulOrderLT κ] [Std.IsLinearOrder κ] in
theorem mem_place
    {key : κ} {value : α} {entries : List (κ × α)} {entry : κ × α}
    (listed : entry ∈ place key value entries) :
    entry = (key, value) ∨ entry ∈ entries := by
  induction entries with
  | nil => exact Or.inl (List.mem_singleton.mp listed)
  | cons head rest ih =>
      simp only [place] at listed
      split at listed
      · rcases List.mem_cons.mp listed with here | later
        · exact Or.inl here
        · exact Or.inr (List.mem_cons_of_mem head later)
      · split at listed
        · exact List.mem_cons.mp listed
        · rcases List.mem_cons.mp listed with here | later
          · exact Or.inr (List.mem_cons.mpr (Or.inl here))
          · rcases ih later with here | there
            · exact Or.inl here
            · exact Or.inr (List.mem_cons_of_mem head there)

omit [LE κ] [Std.LawfulOrderLT κ] [Std.IsLinearOrder κ] in
theorem mem_keys_place
    {key other : κ} {value : α} {entries : List (κ × α)}
    (listed : other ∈ (place key value entries).map (·.1)) :
    other = key ∨ other ∈ entries.map (·.1) := by
  rcases List.mem_map.mp listed with ⟨entry, placed, rfl⟩
  rcases mem_place placed with rfl | before
  · exact Or.inl rfl
  · exact Or.inr (List.mem_map_of_mem before)

theorem pairwise_keys_place
    (key : κ) (value : α) {entries : List (κ × α)}
    (ordered : (entries.map (·.1)).Pairwise (· < ·)) :
    ((place key value entries).map (·.1)).Pairwise (· < ·) := by
  induction entries with
  | nil => simp [place]
  | cons entry rest ih =>
      rw [List.map_cons, List.pairwise_cons] at ordered
      simp only [place]
      split
      · rename_i same
        subst same
        exact List.pairwise_cons.mpr ordered
      · rename_i different
        split
        · rename_i below
          refine List.pairwise_cons.mpr ⟨?_, List.pairwise_cons.mpr ordered⟩
          intro other listed
          rcases List.mem_cons.mp listed with rfl | later
          · exact below
          · exact Std.lt_trans below (ordered.1 other later)
        · rename_i notBelow
          have above : entry.1 < key := by
            rcases Std.lt_trichotomy key entry.1 with below | same | above
            · exact absurd below notBelow
            · exact absurd same different
            · exact above
          refine List.pairwise_cons.mpr ⟨?_, ih ordered.2⟩
          intro other listed
          rcases mem_keys_place listed with rfl | later
          · exact above
          · exact ordered.1 other later

theorem Ordered.insert
    {table : Table κ α} (ordered : table.Ordered) (key : κ) (value : α) :
    (table.insert key value).Ordered :=
  pairwise_keys_place key value ordered

omit [DecidableLT κ] [Std.IsLinearOrder κ] in
theorem lookup_of_mem
    {key : κ} {value : α} {entries : List (κ × α)}
    (ordered : (entries.map (·.1)).Pairwise (· < ·))
    (listed : (key, value) ∈ entries) :
    lookup key entries = some value := by
  induction entries with
  | nil => simp at listed
  | cons entry rest ih =>
      rw [List.map_cons, List.pairwise_cons] at ordered
      rcases List.mem_cons.mp listed with rfl | later
      · simp [lookup]
      · have below : entry.1 < key :=
          ordered.1 key (List.mem_map_of_mem (f := Prod.fst) later)
        have different : key ≠ entry.1 := by
          rintro rfl
          exact Std.lt_irrefl below
        rw [lookup, if_neg different]
        exact ih ordered.2 later

omit [DecidableLT κ] [Std.IsLinearOrder κ] in
/-- What is listed under a key is what is found under it. -/
theorem Ordered.mem_entries_iff
    {table : Table κ α} (ordered : table.Ordered) (key : κ) (value : α) :
    (key, value) ∈ table.entries ↔ table.get? key = some value :=
  ⟨lookup_of_mem ordered, mem_of_lookup⟩

omit [DecidableLT κ] [DecidableEq κ] [Std.IsLinearOrder κ] in
theorem Ordered.nodup_entries {table : Table κ α} (ordered : table.Ordered) :
    table.entries.Nodup := by
  refine List.Pairwise.imp ?_ (List.pairwise_map.mp ordered)
  rintro left right below rfl
  exact Std.lt_irrefl below

omit [DecidableLT κ] in
/--
Tables whose keys are in order are the same if everything looked up in them is.
-/
theorem Ordered.eq_of_get?
    {table other : Table κ α} (ordered : table.Ordered)
    (alsoOrdered : other.Ordered)
    (same : ∀ key, table.get? key = other.get? key) : table = other := by
  have members : ∀ entry, entry ∈ table.entries ↔ entry ∈ other.entries := by
    rintro ⟨key, value⟩
    rw [ordered.mem_entries_iff, alsoOrdered.mem_entries_iff, same]
  have permuted : table.entries.Perm other.entries :=
    (List.perm_ext_iff_of_nodup ordered.nodup_entries
      alsoOrdered.nodup_entries).mpr members
  have entries : table.entries = other.entries := by
    refine permuted.eq_of_pairwise ?_ (List.pairwise_map.mp ordered)
      (List.pairwise_map.mp alsoOrdered)
    intro left right _ _ below above
    exact absurd (Std.lt_trans below above) Std.lt_irrefl
  cases table
  cases other
  exact congrArg _ entries

/-- Setting what is there already changes nothing. -/
theorem Ordered.insert_of_get?
    {table : Table κ α} (ordered : table.Ordered) {key : κ} {value : α}
    (present : table.get? key = some value) :
    table.insert key value = table := by
  apply (ordered.insert key value).eq_of_get? ordered
  intro other
  rw [get?_insert]
  split
  · rename_i same
    rw [same, present]
  · rfl

theorem Ordered.erase_insert_self
    {table : Table κ α} (ordered : table.Ordered) (key : κ) (value : α) :
    (table.insert key value).erase key = table.erase key := by
  apply ((ordered.insert key value).erase key).eq_of_get? (ordered.erase key)
  intro other
  simp only [get?_erase, get?_insert]
  split <;> rfl

theorem Ordered.erase_insert_of_ne
    {table : Table κ α} (ordered : table.Ordered) {key other : κ} (value : α)
    (different : other ≠ key) :
    (table.insert other value).erase key =
      (table.erase key).insert other value := by
  apply ((ordered.insert other value).erase key).eq_of_get?
    ((ordered.erase key).insert other value)
  intro looked
  simp only [get?_erase, get?_insert]
  split
  · rename_i same
    rw [if_neg (fun also => different (also.symm.trans same))]
  · rfl

end Table

end ChannelRouter
