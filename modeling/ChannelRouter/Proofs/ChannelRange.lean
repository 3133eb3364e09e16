import ChannelRouter.ChannelRange
import Mathlib.Data.List.Basic

/-!
# Cutting and joining ranges

A range stands for the channels it contains.  Cutting a range leaves parts in
ascending order that contain the same channels between them, each of them on
one side of every cut; joining touching ranges leaves the channels of a list
as they were.
-/

namespace ChannelRouter

namespace ChannelRange

@[simp]
theorem contains_iff (range : ChannelRange) (channel : Channel) :
    range.contains channel = true ↔
      range.first ≤ channel ∧ channel ≤ range.last := by
  simp [contains]

@[simp]
theorem overlaps_iff (range other : ChannelRange) :
    range.overlaps other = true ↔
      range.first ≤ other.last ∧ other.first ≤ range.last := by
  simp [overlaps]

theorem overlaps_eq_false_iff (range other : ChannelRange) :
    range.overlaps other = false ↔
      other.last < range.first ∨ range.last < other.first := by
  simp only [overlaps, Bool.and_eq_false_iff,
    decide_eq_false_iff_not, UInt64.not_le]

@[simp]
theorem encloses_iff (range other : ChannelRange) :
    range.encloses other = true ↔
      range.first ≤ other.first ∧ other.last ≤ range.last := by
  simp [encloses]

@[simp]
theorem precedes_iff (range other : ChannelRange) :
    range.precedes other = true ↔ range.last < other.first := by
  simp [precedes]

theorem contains_first (range : ChannelRange) :
    range.contains range.first = true :=
  (contains_iff _ _).mpr ⟨UInt64.le_refl _, range.first_le_last⟩

theorem contains_last (range : ChannelRange) :
    range.contains range.last = true :=
  (contains_iff _ _).mpr ⟨range.first_le_last, UInt64.le_refl _⟩

/-- Two ranges overlap exactly if some channel lies in both. -/
theorem overlaps_iff_exists (range other : ChannelRange) :
    range.overlaps other = true ↔
      ∃ channel, range.contains channel = true ∧
        other.contains channel = true := by
  have here := range.first_le_last
  have there := other.first_le_last
  constructor
  · intro overlap
    rw [overlaps_iff] at overlap
    by_cases order : range.first ≤ other.first
    · exact ⟨other.first, by simp only [contains_iff]; grind⟩
    · exact ⟨range.first, by simp only [contains_iff]; grind⟩
  · rintro ⟨channel, inRange, inOther⟩
    simp only [contains_iff, overlaps_iff] at *
    grind

/-- Two ranges lie apart exactly if no channel lies in both. -/
theorem overlaps_eq_false_iff_forall (range other : ChannelRange) :
    range.overlaps other = false ↔
      ∀ channel, range.contains channel = true →
        ¬ other.contains channel = true := by
  rw [← Bool.not_eq_true, overlaps_iff_exists]
  simp only [not_exists, not_and]

/-- A range is enclosed exactly if all its channels lie in the other. -/
theorem encloses_iff_forall (range other : ChannelRange) :
    range.encloses other = true ↔
      ∀ channel, other.contains channel = true →
        range.contains channel = true := by
  constructor
  · intro enclosed channel inOther
    simp only [contains_iff, encloses_iff] at *
    exact ⟨UInt64.le_trans enclosed.1 inOther.1,
      UInt64.le_trans inOther.2 enclosed.2⟩
  · intro all
    have lower := (contains_iff _ _).mp (all _ other.contains_first)
    have upper := (contains_iff _ _).mp (all _ other.contains_last)
    exact (encloses_iff _ _).mpr ⟨lower.1, upper.2⟩

/-- Ranges in order share no channel. -/
theorem not_contains_of_precedes
    {range other : ChannelRange} {channel : Channel}
    (order : range.precedes other = true)
    (inRange : range.contains channel = true) :
    other.contains channel = false := by
  simp only [precedes_iff, contains_iff] at order inRange
  simp only [contains, Bool.and_eq_false_iff, decide_eq_false_iff_not]
  grind

theorem precedes_trans
    {first second third : ChannelRange}
    (below : first.precedes second = true)
    (above : second.precedes third = true) :
    first.precedes third = true := by
  have inside := second.first_le_last
  simp only [precedes_iff] at *
  grind

/--
The other range wholly below, wholly above, or wholly inside, if no end cuts it.
-/
theorem precedes_or_encloses_or_precedes
    {range other : ChannelRange}
    (uncut : range.encloses other = true ∨ range.overlaps other = false) :
    other.precedes range = true ∨ range.encloses other = true ∨
      range.precedes other = true := by
  rcases uncut with inside | apart
  · exact Or.inr (Or.inl inside)
  · rcases (overlaps_eq_false_iff _ _).mp apart with above | below
    · exact Or.inl ((precedes_iff _ _).mpr above)
    · exact Or.inr (Or.inr ((precedes_iff _ _).mpr below))

/-- In an ascending list of ranges no channel lies in two. -/
theorem eq_of_contains
    {α : Type} {range : α → ChannelRange} {members : List α}
    (ascending : members.Pairwise fun lower upper =>
      (range lower).precedes (range upper) = true)
    {member other : α} (listed : member ∈ members)
    (otherListed : other ∈ members) {channel : Channel}
    (inMember : (range member).contains channel = true)
    (inOther : (range other).contains channel = true) :
    member = other := by
  have apart : ∀ lower upper, (range lower).precedes (range upper) = true →
      (range lower).contains channel = true →
      (range upper).contains channel = true →
      False := by
    intro lower upper order inLower inUpper
    rw [not_contains_of_precedes order inLower] at inUpper
    cases inUpper
  induction members with
  | nil => cases listed
  | cons head tail ih =>
      rw [List.pairwise_cons] at ascending
      rcases List.mem_cons.mp listed with rfl | later
      · rcases List.mem_cons.mp otherListed with rfl | otherLater
        · rfl
        · exact (apart _ _ (ascending.1 other otherLater) inMember inOther).elim
      · rcases List.mem_cons.mp otherListed with rfl | otherLater
        · exact (apart _ _ (ascending.1 member later) inOther inMember).elim
        · exact ih ascending.2 later otherLater

/-! ## The parts before and after a channel -/

/--
What is left before a channel in reach of the range are the channels below it.
-/
theorem contains_of_before
    {range part : ChannelRange} {channel : Channel}
    (left : range.before channel = some part)
    (reached : channel ≤ range.last) (other : Channel) :
    part.contains other = true ↔
      range.contains other = true ∧ other < channel := by
  rw [before] at left
  split at left
  · rename_i above
    simp only [Option.some.injEq] at left
    subst left
    simp only [contains_iff]
    grind
  · simp at left

theorem before_eq_none_iff (range : ChannelRange) (channel : Channel) :
    range.before channel = none ↔ channel ≤ range.first := by
  rw [before]
  split <;> simp_all

/--
What is left after a channel in reach of the range are the channels above it.
-/
theorem contains_of_after
    {range part : ChannelRange} {channel : Channel}
    (left : range.after channel = some part)
    (reached : range.first ≤ channel) (other : Channel) :
    part.contains other = true ↔
      range.contains other = true ∧ channel < other := by
  rw [after] at left
  split at left
  · rename_i below
    simp only [Option.some.injEq] at left
    subst left
    simp only [contains_iff]
    grind
  · simp at left

theorem after_eq_none_iff (range : ChannelRange) (channel : Channel) :
    range.after channel = none ↔ range.last ≤ channel := by
  rw [after]
  split <;> simp_all

/-! ## Cutting along the ends of another range -/

/-- What two ranges share are the channels in both. -/
theorem contains_of_meet?
    {range other shared : ChannelRange}
    (meeting : range.meet? other = some shared) (channel : Channel) :
    shared.contains channel = true ↔
      range.contains channel = true ∧ other.contains channel = true := by
  rw [meet?] at meeting
  split at meeting
  · simp only [Option.some.injEq] at meeting
    subst meeting
    simp only [contains_iff]
    grind
  · simp at meeting

theorem meet?_eq_none_iff (range other : ChannelRange) :
    range.meet? other = none ↔ range.overlaps other = false := by
  rw [meet?]
  split
  · rename_i overlap
    simp [overlap]
  · rename_i apart
    exact iff_of_true rfl (Bool.not_eq_true _ ▸ apart)

theorem overlaps_of_meet?
    {range other shared : ChannelRange}
    (meeting : range.meet? other = some shared) :
    range.overlaps other = true := by
  by_contra apart
  rw [Bool.not_eq_true, ← meet?_eq_none_iff, meeting] at apart
  cases apart

/-- The parts of a cut contain the channels of the range and no others. -/
theorem exists_mem_cutAlong_iff (range other : ChannelRange)
    (channel : Channel) :
    (∃ part ∈ range.cutAlong other, part.contains channel = true) ↔
      range.contains channel = true := by
  rw [cutAlong]
  split
  · simp
  · rename_i shared meeting
    have overlap := (overlaps_iff _ _).mp (overlaps_of_meet? meeting)
    have inShared := contains_of_meet? meeting channel
    constructor
    · rintro ⟨part, listed, inPart⟩
      simp only [List.mem_append, Option.mem_toList, List.mem_cons] at listed
      rcases listed with left | rfl | left
      · exact ((contains_of_before left overlap.2 channel).mp inPart).1
      · exact (inShared.mp inPart).1
      · exact ((contains_of_after left overlap.1 channel).mp inPart).1
    · intro inRange
      by_cases below : channel < other.first
      · cases left : range.before other.first with
        | none =>
            rw [before_eq_none_iff] at left
            rw [contains_iff] at inRange
            grind
        | some part =>
            exact ⟨part, by simp,
              (contains_of_before left overlap.2 channel).mpr ⟨inRange, below⟩⟩
      · by_cases above : other.last < channel
        · cases left : range.after other.last with
          | none =>
              rw [after_eq_none_iff] at left
              rw [contains_iff] at inRange
              grind
          | some part =>
              exact ⟨part, by simp,
                (contains_of_after left overlap.1 channel).mpr ⟨inRange, above⟩⟩
        · refine ⟨shared, by simp, inShared.mpr ⟨inRange, ?_⟩⟩
          rw [contains_iff]
          exact ⟨UInt64.not_lt.mp below, UInt64.not_lt.mp above⟩

/-- A range whose channels all lie below those of another precedes it. -/
theorem precedes_of_forall
    {range other : ChannelRange}
    (below : ∀ lower upper, range.contains lower = true →
      other.contains upper = true → lower < upper) :
    range.precedes other = true :=
  (precedes_iff _ _).mpr (below _ _ range.contains_last other.contains_first)

/-- The parts of a cut stand in ascending order. -/
theorem pairwise_cutAlong (range other : ChannelRange) :
    (range.cutAlong other).Pairwise (·.precedes · = true) := by
  rw [cutAlong]
  split
  · simp
  · rename_i shared meeting
    have overlap := (overlaps_iff _ _).mp (overlaps_of_meet? meeting)
    have sharedWithin : ∀ channel, shared.contains channel = true →
        other.first ≤ channel ∧ channel ≤ other.last := by
      intro channel inShared
      exact (contains_iff _ _).mp
        ((contains_of_meet? meeting channel).mp inShared).2
    have lowerBelow : ∀ part, range.before other.first = some part →
        ∀ channel, part.contains channel = true → channel < other.first :=
      fun part left channel inPart =>
        ((contains_of_before left overlap.2 channel).mp inPart).2
    have upperAbove : ∀ part, range.after other.last = some part →
        ∀ channel, part.contains channel = true → other.last < channel :=
      fun part left channel inPart =>
        ((contains_of_after left overlap.1 channel).mp inPart).2
    have ordered := other.first_le_last
    rw [List.pairwise_append]
    refine ⟨by cases range.before other.first <;> simp, ?_, ?_⟩
    · rw [List.pairwise_cons]
      refine ⟨?_, by cases range.after other.last <;> simp⟩
      intro upper left
      rw [Option.mem_toList] at left
      refine precedes_of_forall fun channel next inShared inUpper => ?_
      exact UInt64.lt_of_le_of_lt (sharedWithin channel inShared).2
        (upperAbove upper left next inUpper)
    · intro lower leftLower part listed
      rw [Option.mem_toList] at leftLower
      refine precedes_of_forall fun channel next inLower inPart => ?_
      have below := lowerBelow lower leftLower channel inLower
      simp only [List.mem_cons, Option.mem_toList] at listed
      rcases listed with rfl | left
      · exact UInt64.lt_of_lt_of_le below (sharedWithin next inPart).1
      · have above := upperAbove part left next inPart
        grind

/-- Every part of a cut lies wholly inside the other range or wholly outside. -/
theorem uncut_of_mem_cutAlong
    {range other part : ChannelRange}
    (listed : part ∈ range.cutAlong other) :
    other.encloses part = true ∨ other.overlaps part = false := by
  rw [cutAlong] at listed
  split at listed
  · rename_i apart
    rw [meet?_eq_none_iff] at apart
    rw [List.mem_singleton] at listed
    subst listed
    rw [overlaps_eq_false_iff] at apart ⊢
    exact Or.inr apart.symm
  · rename_i shared meeting
    have overlap := (overlaps_iff _ _).mp (overlaps_of_meet? meeting)
    have outside := (overlaps_eq_false_iff_forall other part).mpr
    simp only [List.mem_append, Option.mem_toList, List.mem_cons] at listed
    rcases listed with left | rfl | left
    · refine Or.inr (outside fun channel inOther inPart => ?_)
      have below := ((contains_of_before left overlap.2 channel).mp inPart).2
      rw [contains_iff] at inOther
      grind
    · refine Or.inl ((encloses_iff_forall _ _).mpr fun channel inPart => ?_)
      exact ((contains_of_meet? meeting channel).mp inPart).2
    · refine Or.inr (outside fun channel inOther inPart => ?_)
      have above := ((contains_of_after left overlap.1 channel).mp inPart).2
      rw [contains_iff] at inOther
      grind

/-! ## Joining touching ranges -/

theorem contains_joined_iff
    {range other : ChannelRange} (touch : range.Touches other)
    (channel : Channel) :
    (range.joined other touch).contains channel = true ↔
      range.contains channel = true ∨ other.contains channel = true := by
  rcases touch with ⟨below, next⟩
  have here := range.first_le_last
  have there := other.first_le_last
  simp only [joined, contains_iff]
  grind

/-- Joining neighbours neither adds nor loses a channel. -/
theorem exists_mem_coalesce_iff (ranges : List ChannelRange)
    (channel : Channel) :
    (∃ range ∈ coalesce ranges, range.contains channel = true) ↔
      ∃ range ∈ ranges, range.contains channel = true := by
  induction ranges with
  | nil => simp [coalesce]
  | cons range rest ih =>
      simp only [coalesce]
      split
      · rename_i empty
        rw [empty] at ih
        simp only [List.mem_cons, exists_eq_or_imp, ← ih]
      · rename_i next others joined
        rw [joined] at ih
        simp only [List.mem_cons, exists_eq_or_imp] at ih ⊢
        rw [← ih]
        split
        · simp only [List.mem_cons, exists_eq_or_imp,
            contains_joined_iff, or_assoc]
        · simp only [List.mem_cons, exists_eq_or_imp]

end ChannelRange

end ChannelRouter
