import ChannelRouter.Proofs.ChannelRange
import Mathlib.Data.List.Pairwise
import Mathlib.Data.List.Sort

/-!
# Maximal runs of channels

A set of channels falls into maximal runs.  A list of ranges in which each ends
before a channel that is in none of them, and the next begins after it, lists
the maximal runs of its channels; so there is one such list for every set.
Joining the neighbours of an ascending list of ranges gives that list.
-/

namespace ChannelRouter

namespace ChannelRange

/-- The range ends before a channel that comes before the other. -/
def Apart (range other : ChannelRange) : Prop :=
  range.last.toNat + 1 < other.first.toNat

instance (range other : ChannelRange) : Decidable (range.Apart other) :=
  inferInstanceAs (Decidable (_ < _))

theorem first_toNat_le_last (range : ChannelRange) :
    range.first.toNat ≤ range.last.toNat :=
  UInt64.le_iff_toNat_le.mp range.first_le_last

theorem contains_iff_toNat (range : ChannelRange) (channel : Channel) :
    range.contains channel = true ↔
      range.first.toNat ≤ channel.toNat ∧ channel.toNat ≤ range.last.toNat := by
  rw [contains_iff, UInt64.le_iff_toNat_le, UInt64.le_iff_toNat_le]

theorem Apart.asymm {range other : ChannelRange} (apart : range.Apart other) :
    ¬ other.Apart range := by
  have here := range.first_toNat_le_last
  have there := other.first_toNat_le_last
  unfold Apart at apart ⊢
  omega

instance : Std.Irrefl Apart := ⟨fun _ apart => apart.asymm apart⟩

instance : Std.Antisymm Apart :=
  ⟨fun _ _ apart reversed => (apart.asymm reversed).elim⟩

theorem Apart.trans
    {first second third : ChannelRange}
    (below : first.Apart second) (above : second.Apart third) :
    first.Apart third := by
  have order := second.first_toNat_le_last
  unfold Apart at below above ⊢
  omega

/--
All channels of the range belong to the set, and no greater range is like that.
-/
structure MaximalRun (set : Channel → Prop) (range : ChannelRange) : Prop where
  inside : ∀ channel, range.contains channel = true → set channel
  eq_of_encloses : ∀ other : ChannelRange, other.encloses range = true →
    (∀ channel, other.contains channel = true → set channel) → other = range

/-- The channel is in one of the ranges. -/
def InSome (ranges : List ChannelRange) (channel : Channel) : Prop :=
  ∃ range ∈ ranges, range.contains channel = true

/-- Ranges are never empty, so a list of them that contains no channel is. -/
theorem eq_nil_of_forall_not_inSome
    {ranges : List ChannelRange}
    (nothing : ∀ channel, ¬ InSome ranges channel) : ranges = [] := by
  rw [List.eq_nil_iff_forall_not_mem]
  intro range listed
  exact nothing range.first ⟨range, listed, range.contains_first⟩

section Gaps

variable {ranges : List ChannelRange} {range : ChannelRange} {channel : Channel}

theorem eq_or_apart
    (gaps : ranges.Pairwise Apart) {other : ChannelRange}
    (listed : range ∈ ranges) (otherListed : other ∈ ranges) :
    range = other ∨ range.Apart other ∨ other.Apart range := by
  have either : ranges.Pairwise fun range other => range.Apart other ∨
      other.Apart range :=
    gaps.imp Or.inl
  have : Std.Symm fun range other : ChannelRange => range.Apart other ∨
      other.Apart range :=
    ⟨fun _ _ => Or.symm⟩
  rcases Classical.em (range = other) with same | different
  · exact Or.inl same
  · exact Or.inr (either.forall listed otherListed different)

/-- The channel after a listed range is in none of them. -/
theorem not_inSome_after
    (gaps : ranges.Pairwise Apart) (listed : range ∈ ranges)
    (next : channel.toNat = range.last.toNat + 1) :
    ¬ InSome ranges channel := by
  rintro ⟨other, otherListed, inOther⟩
  rw [contains_iff_toNat] at inOther
  rcases eq_or_apart gaps listed otherListed with rfl | above | below
  · omega
  · unfold Apart at above
    omega
  · have order := range.first_toNat_le_last
    unfold Apart at below
    omega

/-- The channel before a listed range is in none of them. -/
theorem not_inSome_before
    (gaps : ranges.Pairwise Apart) (listed : range ∈ ranges)
    (previous : channel.toNat + 1 = range.first.toNat) :
    ¬ InSome ranges channel := by
  rintro ⟨other, otherListed, inOther⟩
  rw [contains_iff_toNat] at inOther
  rcases eq_or_apart gaps listed otherListed with rfl | above | below
  · omega
  · have order := range.first_toNat_le_last
    unfold Apart at above
    omega
  · unfold Apart at below
    omega

/--
A range of which all channels are in some listed range lies in one of them.
-/
theorem encloses_of_inSome
    (gaps : ranges.Pairwise Apart) (listed : range ∈ ranges)
    {other : ChannelRange} (begins : range.contains other.first = true)
    (inside : ∀ channel, other.contains channel = true →
      InSome ranges channel) :
    range.encloses other = true := by
  rw [contains_iff_toNat] at begins
  rw [encloses_iff, UInt64.le_iff_toNat_le, UInt64.le_iff_toNat_le]
  refine ⟨begins.1, ?_⟩
  by_contra beyond
  have below : range.last < other.last :=
    UInt64.lt_iff_toNat_lt.mpr (Nat.lt_of_not_le beyond)
  have next := Channel.toNat_add_one_of_lt below
  refine not_inSome_after gaps listed next (inside _ ?_)
  rw [contains_iff_toNat, next]
  omega

/-- A list with gaps lists the maximal runs of its channels. -/
theorem mem_iff_maximalRun
    (gaps : ranges.Pairwise Apart) (range : ChannelRange) :
    range ∈ ranges ↔ MaximalRun (InSome ranges) range := by
  constructor
  · intro listed
    refine ⟨fun channel inRange => ⟨range, listed, inRange⟩, ?_⟩
    intro other encloses inside
    rw [encloses_iff, UInt64.le_iff_toNat_le, UInt64.le_iff_toNat_le]
      at encloses
    have order := range.first_toNat_le_last
    have sameFirst : other.first = range.first := by
      by_contra different
      have distinct : other.first.toNat ≠ range.first.toNat :=
        fun same => different (UInt64.toNat_inj.mp same)
      have below : other.first < range.first :=
        UInt64.lt_iff_toNat_lt.mpr (by omega)
      have previous := Channel.toNat_sub_one_of_lt below
      have positive := UInt64.lt_iff_toNat_lt.mp below
      have precedes : (range.first - 1).toNat + 1 =
          range.first.toNat := by omega
      refine not_inSome_before gaps listed precedes (inside _ ?_)
      rw [contains_iff_toNat]
      omega
    have begins : range.contains other.first = true :=
      sameFirst ▸ range.contains_first
    have within := encloses_of_inSome gaps listed begins inside
    rw [encloses_iff, UInt64.le_iff_toNat_le, UInt64.le_iff_toNat_le] at within
    have sameLast : other.last = range.last := UInt64.toNat_inj.mp (by omega)
    cases other
    cases range
    cases sameFirst
    cases sameLast
    rfl
  · intro maximal
    rcases maximal.inside range.first range.contains_first
      with ⟨found, listed, begins⟩
    have encloses := encloses_of_inSome gaps listed begins maximal.inside
    have same := maximal.eq_of_encloses found encloses
      fun channel inFound => ⟨found, listed, inFound⟩
    exact same ▸ listed

/-- A set of channels is listed with gaps in one way only. -/
theorem eq_of_inSome_iff
    {others : List ChannelRange} (gaps : ranges.Pairwise Apart)
    (otherGaps : others.Pairwise Apart)
    (same : ∀ channel, InSome ranges channel ↔ InSome others channel) :
    ranges = others := by
  have sameSet : InSome ranges = InSome others := by
    ext channel
    exact same channel
  apply gaps.eq_of_mem_iff otherGaps
  intro range
  rw [mem_iff_maximalRun gaps, mem_iff_maximalRun otherGaps, sameSet]

end Gaps

/-- Joining neighbours leaves gaps. -/
theorem pairwise_apart_coalesce
    {ranges : List ChannelRange} (ascending : ranges.Pairwise (·.precedes ·)) :
    (coalesce ranges).Pairwise Apart := by
  induction ranges with
  | nil => exact List.Pairwise.nil
  | cons range rest ih =>
      rw [List.pairwise_cons] at ascending
      have gaps := ih ascending.2
      have above : ∀ run ∈ coalesce rest, range.last.toNat <
          run.first.toNat := by
        intro run listed
        rcases (exists_mem_coalesce_iff rest run.first).mp
          ⟨run, listed, run.contains_first⟩ with ⟨other, otherListed, inOther⟩
        have order := ascending.1 other otherListed
        rw [precedes_iff, UInt64.lt_iff_toNat_lt] at order
        rw [contains_iff_toNat] at inOther
        omega
      rw [coalesce]
      cases joined : coalesce rest with
      | nil => exact List.pairwise_singleton _ _
      | cons next others =>
          rw [joined] at gaps above
          rw [List.pairwise_cons] at gaps
          have below := above next List.mem_cons_self
          simp only
          split
          · -- The joined range ends where the next one ended.
            exact List.pairwise_cons.mpr gaps
          · rename_i separate
            have apart : range.Apart next := by
              have step :=
                Channel.toNat_add_one_of_lt (UInt64.lt_iff_toNat_lt.mpr below)
              have different : range.last.toNat + 1 ≠ next.first.toNat := by
                intro touches
                exact separate ⟨UInt64.lt_iff_toNat_lt.mpr below,
                  UInt64.toNat_inj.mp (step.trans touches)⟩
              unfold Apart
              omega
            refine List.pairwise_cons.mpr ⟨?_, List.pairwise_cons.mpr gaps⟩
            intro run listed
            rcases List.mem_cons.mp listed with rfl | later
            · exact apart
            · exact apart.trans (gaps.1 run later)

end ChannelRange

end ChannelRouter
