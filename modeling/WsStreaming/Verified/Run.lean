import Mathlib.Algebra.Ring.Int.Defs
import Mathlib.Algebra.Ring.Nat
import Mathlib.Data.List.Basic

/-!
# Runs of a step function

A component is driven by a list of inputs.  Its step function is either total
(`σ → ι → σ`, run by `List.foldl`) or may have no result (`σ → ι → Option σ`,
run by `List.foldlM`); the missing result stands for a step whose behaviour
is undefined or that never ends.

An invariant is proved once per step and carried to every run here.  Since a
run of a prefix is again a run, "the invariant holds after every run" is
"the invariant holds in every state reached".

The environment sometimes has to keep a condition for the step to be well
behaved.  `Meets` and `MeetsOpt` say that every step of a run meets such a
condition in the state just before it.
-/

namespace WsStreaming.Verified.Run

variable {σ ι : Type _}

section Total

variable (step : σ → ι → σ) (ok : σ → ι → Prop)

/-- Every step of the run meets `ok` in the state before it. -/
def Meets : σ → List ι → Prop
  | _, [] => True
  | s, i :: is => ok s i ∧ Meets (step s i) is

/-- Whether a run meets a condition is decided step by step. -/
instance Meets.decidable [∀ s i, Decidable (ok s i)] :
    ∀ (s : σ) (is : List ι), Decidable (Meets step ok s is)
  | _, [] => isTrue trivial
  | s, i :: is =>
      have : Decidable (Meets step ok (step s i) is) := Meets.decidable (step s i) is
      inferInstanceAs (Decidable (ok s i ∧ Meets step ok (step s i) is))

variable {step ok}

/-- **Run induction under a step condition.** -/
theorem foldl_invariant_of_meets {Inv : σ → Prop}
    (hstep : ∀ s i, Inv s → ok s i → Inv (step s i)) (is : List ι) :
    ∀ s, Inv s → Meets step ok s is → Inv (is.foldl step s) := by
  induction is with
  | nil => intro s hs _; exact hs
  | cons i is ih =>
      intro s hs hmeets
      exact ih _ (hstep s i hs hmeets.1) hmeets.2

/-- The last step of a run meets the condition in the state the others lead to. -/
theorem Meets.last {i : ι} (is : List ι) :
    ∀ s, Meets step ok s (is ++ [i]) → ok (is.foldl step s) i := by
  induction is with
  | nil => exact fun s h => h.1
  | cons j is ih => exact fun s h => ih _ h.2

/-- **Laws of every step.**  If the condition and the invariant together keep
the invariant and give a law of the step, every step of a run that meets the
condition meets the law. -/
theorem Meets.law {law : σ → ι → Prop} {Inv : σ → Prop}
    (hstep : ∀ s i, Inv s → ok s i → Inv (step s i) ∧ law s i) (is : List ι) :
    ∀ s, Inv s → Meets step ok s is → Meets step law s is := by
  induction is with
  | nil => intro s _ _; trivial
  | cons i is ih =>
      intro s hs hmeets
      have hnext := hstep s i hs hmeets.1
      exact ⟨hnext.2, ih _ hnext.1 hmeets.2⟩

/-- **Two conditions on every step.**  If under the invariant a condition is
met by the steps that meet another one, and by no others, so it is for the
steps of a run. -/
theorem meets_iff {law : σ → ι → Prop} (Inv : σ → Prop)
    (hstep : ∀ s i, Inv s → ok s i → Inv (step s i))
    (hiff : ∀ s i, Inv s → (law s i ↔ ok s i)) (is : List ι) :
    ∀ s, Inv s → (Meets step law s is ↔ Meets step ok s is) := by
  induction is with
  | nil => intro s _; exact Iff.rfl
  | cons i is ih =>
      intro s hs
      constructor
      · intro hmeets
        have hok := (hiff s i hs).mp hmeets.1
        exact ⟨hok, (ih _ (hstep s i hs hok)).mp hmeets.2⟩
      · intro hmeets
        exact ⟨(hiff s i hs).mpr hmeets.1, (ih _ (hstep s i hs hmeets.1)).mpr hmeets.2⟩

/-- A condition on the inputs alone. -/
theorem meets_iff_forall {cond : ι → Prop} (is : List ι) :
    ∀ s, Meets step (fun _ i => cond i) s is ↔ ∀ i ∈ is, cond i := by
  induction is with
  | nil => exact fun _ => iff_of_true trivial (List.forall_mem_nil _)
  | cons i is ih =>
      intro s
      rw [Meets, ih, List.forall_mem_cons]

/-- **Run induction.** An invariant of every step holds after every run. -/
theorem foldl_invariant {Inv : σ → Prop}
    (hstep : ∀ s i, Inv s → Inv (step s i)) (is : List ι) (s : σ)
    (hs : Inv s) : Inv (is.foldl step s) := by
  induction is generalizing s with
  | nil => exact hs
  | cons i is ih => exact ih _ (hstep s i hs)

/-- **Registers.**  A value that some inputs overwrite and the others leave is
after a run what the last of them wrote, and what it was if there was none. -/
theorem foldl_lastWritten {Inv : σ → Prop} {α : Type _} (read : σ → α) (written : ι → Option α)
    (hinv : ∀ s i, Inv s → Inv (step s i))
    (hread : ∀ s i, Inv s → read (step s i) = (written i).getD (read s)) (is : List ι) :
    ∀ s, Inv s → read (is.foldl step s) = (is.filterMap written).getLast?.getD (read s) := by
  induction is with
  | nil => exact fun _ _ => rfl
  | cons i is ih =>
      intro s hs
      rw [List.foldl_cons, ih _ (hinv s i hs), hread s i hs]
      cases hwritten : written i with
      | none => rw [List.filterMap_cons_none hwritten, Option.getD_none]
      | some x =>
          rw [List.filterMap_cons_some hwritten, List.getLast?_cons, Option.getD_some,
            Option.getD_some]

end Total

section Partial

variable (step : σ → ι → Option σ) (ok : σ → ι → Prop)

/-- Every step of the run meets `ok` in the state before it. -/
def MeetsOpt : σ → List ι → Prop
  | _, [] => True
  | s, i :: is => ok s i ∧ ∀ s', step s i = some s' → MeetsOpt s' is

/-- Whether a run meets a condition is decided step by step, as far as it is
defined. -/
instance MeetsOpt.decidable [∀ s i, Decidable (ok s i)] :
    ∀ (s : σ) (is : List ι), Decidable (MeetsOpt step ok s is)
  | _, [] => isTrue trivial
  | s, i :: is =>
      have : Decidable (∀ s' ∈ step s i, MeetsOpt step ok s' is) :=
        match step s i with
        | none => isTrue fun _ h => nomatch h
        | some s' =>
            match MeetsOpt.decidable s' is with
            | isTrue h => isTrue fun _ hs => Option.some.inj hs ▸ h
            | isFalse h => isFalse fun hall => h (hall s' rfl)
      inferInstanceAs (Decidable (ok s i ∧ ∀ s' ∈ step s i, MeetsOpt step ok s' is))

variable {step ok}

/-- **Run induction for steps that may be undefined.**  If the condition and
the invariant together make a step defined and keep the invariant, a run all
of whose steps meet the condition is defined and ends in the invariant. -/
theorem foldlM_invariant_of_meets {Inv : σ → Prop}
    (hstep : ∀ s i, Inv s → ok s i → ∃ s', step s i = some s' ∧ Inv s')
    (is : List ι) :
    ∀ s, Inv s → MeetsOpt step ok s is →
      ∃ s', is.foldlM step s = some s' ∧ Inv s' := by
  induction is with
  | nil => intro s hs _; exact ⟨s, rfl, hs⟩
  | cons i is ih =>
      intro s hs hmeets
      obtain ⟨t, ht, hinv⟩ := hstep s i hs hmeets.1
      obtain ⟨s', hs', hinv'⟩ := ih t hinv (hmeets.2 t ht)
      exact ⟨s', by simp [List.foldlM_cons, ht, hs'], hinv'⟩

/-- Run induction with no condition on the environment. -/
theorem foldlM_invariant {Inv : σ → Prop}
    (hstep : ∀ s i, Inv s → ∃ s', step s i = some s' ∧ Inv s')
    (is : List ι) (s : σ) (hs : Inv s) :
    ∃ s', is.foldlM step s = some s' ∧ Inv s' := by
  induction is generalizing s with
  | nil => exact ⟨s, rfl, hs⟩
  | cons i is ih =>
      obtain ⟨t, ht, hinv⟩ := hstep s i hs
      obtain ⟨s', hs', hinv'⟩ := ih t hinv
      exact ⟨s', by simp [List.foldlM_cons, ht, hs'], hinv'⟩

/-- **Run induction under a step condition, for runs that have a result.** -/
theorem foldlM_preserves_of_meets {Inv : σ → Prop}
    (hstep : ∀ s i s', Inv s → ok s i → step s i = some s' → Inv s') (is : List ι) :
    ∀ s s', Inv s → MeetsOpt step ok s is → is.foldlM step s = some s' → Inv s' := by
  induction is with
  | nil =>
      intro s s' hs _ hrun
      rw [← Option.some.inj hrun]
      exact hs
  | cons i is ih =>
      intro s s' hs hmeets hrun
      rw [List.foldlM_cons] at hrun
      obtain ⟨t, ht, hrest⟩ := Option.bind_eq_some_iff.mp hrun
      exact ih t s' (hstep s i t hs hmeets.1 ht) (hmeets.2 t ht) hrest

/-- A condition that is no condition. -/
theorem meetsOpt_of_forall (h : ∀ s i, ok s i) (is : List ι) :
    ∀ s, MeetsOpt step ok s is := by
  induction is with
  | nil => exact fun _ => trivial
  | cons i is ih => exact fun s => ⟨h s i, fun s' _ => ih s'⟩

/-- A condition on the inputs alone. -/
theorem meetsOpt_of_inputs {cond : ι → Prop} (is : List ι) (h : ∀ i ∈ is, cond i) :
    ∀ s, MeetsOpt step (fun _ i => cond i) s is := by
  induction is with
  | nil => exact fun _ => trivial
  | cons i is ih =>
      obtain ⟨hi, his⟩ := List.forall_mem_cons.mp h
      exact fun s => ⟨hi, fun s' _ => ih his s'⟩

/-- **Run induction for runs that have a result.** -/
theorem foldlM_preserves {Inv : σ → Prop}
    (hstep : ∀ s i s', Inv s → step s i = some s' → Inv s') (is : List ι) :
    ∀ s s', Inv s → is.foldlM step s = some s' → Inv s' := by
  intro s s' hs hrun
  have hmeets : MeetsOpt step (fun _ _ => True) s is :=
    meetsOpt_of_forall (fun _ _ => trivial) is s
  exact foldlM_preserves_of_meets (fun s i s' hs _ => hstep s i s' hs) is s s' hs hmeets hrun

/-- The condition at the last step of a run that gets there. -/
theorem MeetsOpt.last {i : ι} (is : List ι) :
    ∀ {s s' : σ}, MeetsOpt step ok s (is ++ [i]) → is.foldlM step s = some s' → ok s' i := by
  induction is with
  | nil =>
      intro s s' h hrun
      rw [← Option.some.inj hrun]
      exact h.1
  | cons j is ih =>
      intro s s' h hrun
      rw [List.foldlM_cons] at hrun
      obtain ⟨t, ht, hrest⟩ := Option.bind_eq_some_iff.mp hrun
      exact ih (h.2 t ht) hrest

/-- Two conditions on every step are one. -/
theorem MeetsOpt.and {ok' : σ → ι → Prop} {is : List ι} :
    ∀ {s : σ}, MeetsOpt step ok s is → MeetsOpt step ok' s is →
      MeetsOpt step (fun s i => ok s i ∧ ok' s i) s is := by
  induction is with
  | nil => exact fun _ _ => trivial
  | cons i is ih => exact fun h h' => ⟨⟨h.1, h'.1⟩, fun t ht => ih (h.2 t ht) (h'.2 t ht)⟩

/-- A run in two parts. -/
theorem MeetsOpt.append {is js : List ι} :
    ∀ {s : σ}, MeetsOpt step ok s is →
      (∀ s', is.foldlM step s = some s' → MeetsOpt step ok s' js) →
      MeetsOpt step ok s (is ++ js) := by
  induction is with
  | nil => exact fun _ hjs => hjs _ rfl
  | cons i is ih =>
      intro s his hjs
      refine ⟨his.1, fun t ht => ih (his.2 t ht) fun s' hs' => hjs s' ?_⟩
      rw [List.foldlM_cons, ht]
      exact hs'

/-- **Runs within a budget.**  If no step adds more to a measure than its input
costs, a run whose inputs can be paid for never exceeds the budget. -/
theorem meetsOpt_of_budget {measure : σ → Nat} {cost : ι → Nat} {budget : Nat}
    (hstep : ∀ s i s', step s i = some s' → measure s' ≤ measure s + cost i) (is : List ι) :
    ∀ s, measure s + (is.map cost).sum ≤ budget →
      MeetsOpt step (fun s i => measure s + cost i ≤ budget) s is := by
  induction is with
  | nil => exact fun _ _ => trivial
  | cons i is ih =>
      intro s hbudget
      rw [List.map_cons, List.sum_cons] at hbudget
      refine ⟨by omega, ?_⟩
      intro s' hs'
      have hmeasure := hstep s i s' hs'
      exact ih s' (by omega)

/-- Two conditions on every step, for steps that may be undefined. -/
theorem meetsOpt_iff {law : σ → ι → Prop} (Inv : σ → Prop)
    (hstep : ∀ s i s', Inv s → ok s i → step s i = some s' → Inv s')
    (hiff : ∀ s i, Inv s → (law s i ↔ ok s i)) (is : List ι) :
    ∀ s, Inv s → (MeetsOpt step law s is ↔ MeetsOpt step ok s is) := by
  induction is with
  | nil => intro s _; exact Iff.rfl
  | cons i is ih =>
      intro s hs
      constructor
      · intro hmeets
        have hok := (hiff s i hs).mp hmeets.1
        exact ⟨hok, fun s' hs' => (ih s' (hstep s i s' hs hok hs')).mp (hmeets.2 s' hs')⟩
      · intro hmeets
        exact ⟨(hiff s i hs).mpr hmeets.1,
          fun s' hs' => (ih s' (hstep s i s' hs hmeets.1 hs')).mpr (hmeets.2 s' hs')⟩

section Map

variable {σ' ι' : Type _} {step' : σ' → ι' → Option σ'} {ok' : σ' → ι' → Prop} {f : σ → σ'}
  {g : ι → ι'}

/-- **A run seen through a map** of the states and of the inputs. -/
theorem foldlM_map (hstep : ∀ s i, step' (f s) (g i) = (step s i).map f) (is : List ι) :
    ∀ s, (is.map g).foldlM step' (f s) = (is.foldlM step s).map f := by
  induction is with
  | nil => exact fun _ => rfl
  | cons i is ih =>
      intro s
      rw [List.map_cons, List.foldlM_cons, List.foldlM_cons, hstep]
      cases step s i with
      | none => rfl
      | some t => exact ih t

/-- The condition on its steps. -/
theorem MeetsOpt.map (hstep : ∀ s i, step' (f s) (g i) = (step s i).map f)
    (hok : ∀ s i, ok s i → ok' (f s) (g i)) (is : List ι) :
    ∀ {s : σ}, MeetsOpt step ok s is → MeetsOpt step' ok' (f s) (is.map g) := by
  induction is with
  | nil => exact fun _ => trivial
  | cons i is ih =>
      intro s h
      refine ⟨hok s i h.1, fun t ht => ?_⟩
      rw [hstep] at ht
      obtain ⟨u, hu, rfl⟩ := Option.map_eq_some_iff.mp ht
      exact ih (h.2 u hu)

end Map

end Partial

end WsStreaming.Verified.Run
