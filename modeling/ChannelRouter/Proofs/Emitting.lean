import ChannelRouter.Participant
import Mathlib.Data.List.Basic

/-!
# Values with outputs

A computation of a value with outputs moves from one state to another and says
something on the way.  What holds of doing nothing, and of two moves together if
it holds of each, holds of every computation that is made of such moves.
-/

namespace ChannelRouter

attribute [ext] Emitting

namespace Emitting

variable {α β σ : Type}

@[simp]
theorem value_pure (value : α) : (pure value : Emitting α).value = value := rfl

@[simp]
theorem outputs_pure (value : α) : (pure value : Emitting α).outputs = [] := rfl

@[simp]
theorem value_bind (first : Emitting α) (next : α → Emitting β) :
    (first >>= next).value = (next first.value).value := rfl

@[simp]
theorem outputs_bind (first : Emitting α) (next : α → Emitting β) :
    (first >>= next).outputs = first.outputs ++ (next first.value).outputs :=
  rfl

@[simp]
theorem value_map (change : α → β) (emitting : Emitting α) :
    (change <$> emitting).value = change emitting.value := rfl

@[simp]
theorem outputs_map (change : α → β) (emitting : Emitting α) :
    (change <$> emitting).outputs = emitting.outputs :=
  List.append_nil emitting.outputs

@[simp]
theorem outputs_emit (outputs : List Output) :
    (emit outputs).outputs = outputs := rfl

/--
Forgetting part of the state after every step is forgetting it at the end.
-/
theorem map_foldlM
    {τ : Type} {step : σ → α → Emitting σ} {other : τ → α → Emitting τ}
    {forget : σ → τ}
    (each : ∀ state item, forget <$> step state item =
      other (forget state) item)
    (items : List α) (start : σ) :
    forget <$> items.foldlM step start = items.foldlM other (forget start) := by
  induction items generalizing start with
  | nil => rfl
  | cons item rest ih =>
      rw [List.foldlM_cons, List.foldlM_cons, map_bind, ← each, bind_map_left]
      simp only [ih]

/--
Steps that leave the state alone say one after the other what each says of it.
-/
theorem foldlM_of_stays
    {step : σ → α → Emitting σ} {items : List α} {state : σ}
    (stays : ∀ item ∈ items, (step state item).value = state) :
    items.foldlM step state =
      ⟨state, items.flatMap fun item => (step state item).outputs⟩ := by
  induction items with
  | nil => rfl
  | cons item rest ih =>
      have others :=
        ih fun other listed => stays other (List.mem_cons_of_mem item listed)
      rw [List.foldlM_cons]
      apply Emitting.ext
      · rw [value_bind, stays item List.mem_cons_self, others]
      · rw [outputs_bind, stays item List.mem_cons_self, others,
          List.flatMap_cons]

/--
A relation between a state, what is said, and the state after, that composes.
-/
structure Composes (relation : σ → List Output → σ → Prop) : Prop where
  stay : ∀ state, relation state [] state
  append : ∀ {first second third : σ} {said more : List Output},
    relation first said second → relation second more third →
      relation first (said ++ more) third

theorem Composes.foldlM
    {relation : σ → List Output → σ → Prop} (composes : Composes relation)
    {step : σ → α → Emitting σ} {items : List α}
    (each : ∀ state, ∀ item ∈ items,
      relation state (step state item).outputs (step state item).value)
    (start : σ) :
    relation start (items.foldlM step start).outputs
      (items.foldlM step start).value := by
  induction items generalizing start with
  | nil => exact composes.stay start
  | cons item rest ih =>
      rw [List.foldlM_cons]
      apply composes.append
      · exact each start item List.mem_cons_self
      · exact ih
          (fun state other listed =>
            each state other (List.mem_cons_of_mem item listed)) _

/-- An invariant that keeps the outputs within bounds. -/
theorem composes_keeping (invariant : σ → Prop) (allowed : Output → Prop) :
    Composes fun before said after =>
      invariant before → invariant after ∧ ∀ output ∈ said, allowed output where
  stay := fun _ holds => ⟨holds, fun _ impossible => nomatch impossible⟩
  append := by
    intro first second third said more earlier later holds
    rcases earlier holds with ⟨holdsBetween, saidAllowed⟩
    rcases later holdsBetween with ⟨holdsAfter, moreAllowed⟩
    refine ⟨holdsAfter, ?_⟩
    intro output listed
    rcases List.mem_append.mp listed with here | there
    · exact saidAllowed output here
    · exact moreAllowed output there

end Emitting

end ChannelRouter
