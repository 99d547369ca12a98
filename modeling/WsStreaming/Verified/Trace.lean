import Mathlib.Data.List.Basic
import WsStreaming.Verified.Run

/-!
# Events and monitors

A component raises events while it takes its inputs.  A law about the order of
the events is a *monitor*: an automaton that reads the events one after another
and has no next state for one that is out of order.  A trace obeys the law if
the monitor reads all of it.

If the monitor's state can be read off the component's state before and after
each step, it can be for whole runs, and every trace obeys the law.
-/

namespace WsStreaming.Verified.Trace

open WsStreaming.Verified.Run (MeetsOpt meetsOpt_of_forall)

variable {α ι ε σ : Type _}

/-- A law about the order of events. -/
abbrev Monitor (σ ε : Type _) := σ → ε → Option σ

/-- The state of a monitor after a trace, if the trace obeys the law. -/
def Monitor.read (m : Monitor σ ε) (s : σ) (events : List ε) : Option σ := events.foldlM m s

@[simp] theorem Monitor.read_nil (m : Monitor σ ε) (s : σ) : m.read s [] = some s := rfl

theorem Monitor.read_cons (m : Monitor σ ε) (s : σ) (e : ε) (events : List ε) :
    m.read s (e :: events) = (m s e).bind fun s' => m.read s' events := rfl

theorem Monitor.read_append (m : Monitor σ ε) (s : σ) (events more : List ε) :
    m.read s (events ++ more) = (m.read s events).bind fun s' => m.read s' more := by
  unfold read
  rw [List.foldlM_append]
  rfl

/-- Reading one part after another. -/
theorem Monitor.read_append_of {m : Monitor σ ε} {s s' s'' : σ} {events more : List ε}
    (h : m.read s events = some s') (hmore : m.read s' more = some s'') :
    m.read s (events ++ more) = some s'' := by
  rw [read_append, h]
  exact hmore

/-- Events that do not concern a monitor. -/
theorem Monitor.read_ignored {m : Monitor σ ε} {s : σ} {events : List ε}
    (h : ∀ e ∈ events, m s e = some s) : m.read s events = some s := by
  induction events with
  | nil => rfl
  | cons e events ih =>
      rw [read_cons, h e List.mem_cons_self]
      exact ih fun e' he' => h e' (List.mem_cons_of_mem _ he')

theorem Monitor.read_flatMap_ignored {m : Monitor σ ε} {s : σ} {f : ι → List ε} {is : List ι}
    (h : ∀ i ∈ is, m.read s (f i) = some s) : m.read s (is.flatMap f) = some s := by
  induction is with
  | nil => rfl
  | cons i is ih =>
      rw [List.flatMap_cons]
      exact read_append_of (h i List.mem_cons_self) (ih fun j hj => h j (List.mem_cons_of_mem _ hj))

/-- The state and the events after a list of inputs. -/
def run (step : α → ι → Option (α × List ε)) (a : α) : List ι → Option (α × List ε)
  | [] => some (a, [])
  | i :: is =>
      (step a i).bind fun r => (run step r.1 is).map fun r' => (r'.1, r.2 ++ r'.2)

section Run

variable {step : α → ι → Option (α × List ε)}

theorem run_cons_eq_some {a : α} {i : ι} {is : List ι} {r : α × List ε} :
    run step a (i :: is) = some r ↔
      ∃ r₁ r₂, step a i = some r₁ ∧ run step r₁.1 is = some r₂ ∧ r = (r₂.1, r₁.2 ++ r₂.2) := by
  rw [run, Option.bind_eq_some_iff]
  constructor
  · rintro ⟨r₁, h₁, h⟩
    obtain ⟨r₂, h₂, rfl⟩ := Option.map_eq_some_iff.mp h
    exact ⟨r₁, r₂, h₁, h₂, rfl⟩
  · rintro ⟨r₁, r₂, h₁, h₂, rfl⟩
    exact ⟨r₁, h₁, by rw [h₂, Option.map_some]⟩

theorem run_append {a : α} {is js : List ι} {r : α × List ε} :
    run step a (is ++ js) = some r ↔
      ∃ r₁ r₂, run step a is = some r₁ ∧ run step r₁.1 js = some r₂ ∧
        r = (r₂.1, r₁.2 ++ r₂.2) := by
  induction is generalizing a r with
  | nil =>
      constructor
      · exact fun h => ⟨(a, []), r, rfl, h, rfl⟩
      · rintro ⟨r₁, r₂, h₁, h₂, rfl⟩
        obtain rfl := Option.some.inj h₁
        exact h₂
  | cons i is ih =>
      rw [List.cons_append, run_cons_eq_some]
      constructor
      · rintro ⟨r₁, r₂, h₁, h₂, rfl⟩
        obtain ⟨r₃, r₄, h₃, h₄, rfl⟩ := ih.mp h₂
        refine ⟨(r₃.1, r₁.2 ++ r₃.2), r₄, run_cons_eq_some.mpr ⟨r₁, r₃, h₁, h₃, rfl⟩, h₄, ?_⟩
        simp only [List.append_assoc]
      · rintro ⟨r₁, r₂, h₁, h₂, rfl⟩
        obtain ⟨r₃, r₄, h₃, h₄, rfl⟩ := run_cons_eq_some.mp h₁
        refine ⟨r₃, (r₂.1, r₄.2 ++ r₂.2), h₃, ih.mpr ⟨r₄, r₂, h₄, h₂, rfl⟩, ?_⟩
        simp only [List.append_assoc]

/-- Each event of a run is an event of one of its steps. -/
theorem mem_run {is : List ι} {e : ε} :
    ∀ {a : α} {r : α × List ε}, run step a is = some r → e ∈ r.2 →
      ∃ i ∈ is, ∃ a' r', step a' i = some r' ∧ e ∈ r'.2 := by
  induction is with
  | nil =>
      intro a r hr he
      rw [← Option.some.inj hr] at he
      cases he
  | cons i is ih =>
      intro a r hr he
      obtain ⟨r₁, r₂, h₁, h₂, rfl⟩ := run_cons_eq_some.mp hr
      rcases List.mem_append.mp he with he | he
      · exact ⟨i, List.mem_cons_self, a, r₁, h₁, he⟩
      · obtain ⟨j, hj, h⟩ := ih h₂ he
        exact ⟨j, List.mem_cons_of_mem _ hj, h⟩

/-- **Run induction with events.** -/
theorem run_invariant {Inv : α → Prop}
    (hstep : ∀ a i r, Inv a → step a i = some r → Inv r.1) (is : List ι) :
    ∀ a r, Inv a → run step a is = some r → Inv r.1 := by
  induction is with
  | nil =>
      intro a r ha hr
      rw [← Option.some.inj hr]
      exact ha
  | cons i is ih =>
      intro a r ha hr
      obtain ⟨r₁, r₂, h₁, h₂, rfl⟩ := run_cons_eq_some.mp hr
      exact ih r₁.1 r₂ (hstep a i r₁ ha h₁) h₂

/-- **Monitored runs.**  If each step's events take the monitor from what the
state before shows to what the state after shows, a run's events do. -/
theorem read_run {Inv : α → Prop} {m : Monitor σ ε} (view : α → σ)
    (hinv : ∀ a i r, Inv a → step a i = some r → Inv r.1)
    (hstep : ∀ a i r, Inv a → step a i = some r → m.read (view a) r.2 = some (view r.1))
    (is : List ι) :
    ∀ a r, Inv a → run step a is = some r → m.read (view a) r.2 = some (view r.1) := by
  induction is with
  | nil =>
      intro a r _ hr
      rw [← Option.some.inj hr]
      rfl
  | cons i is ih =>
      intro a r ha hr
      obtain ⟨r₁, r₂, h₁, h₂, rfl⟩ := run_cons_eq_some.mp hr
      exact Monitor.read_append_of (hstep a i r₁ ha h₁) (ih r₁.1 r₂ (hinv a i r₁ ha h₁) h₂)

/-- **Runs under a condition, for several monitors.**  If a step that meets the
condition has a result and takes every monitor from what the state before shows
to what the state after shows, a run of such steps does. -/
theorem read_run_of_meets {κ : Type _} {Inv : α → Prop} {ok : α → ι → Prop}
    {m : κ → Monitor σ ε} (view : α → κ → σ)
    (hstep : ∀ a i, Inv a → ok a i → ∃ r, step a i = some r ∧ Inv r.1 ∧
      ∀ k, (m k).read (view a k) r.2 = some (view r.1 k)) (is : List ι) :
    ∀ a, Inv a → MeetsOpt (fun a i => (step a i).map Prod.fst) ok a is →
      ∃ r, run step a is = some r ∧ Inv r.1 ∧
        ∀ k, (m k).read (view a k) r.2 = some (view r.1 k) := by
  induction is with
  | nil => exact fun a ha _ => ⟨(a, []), rfl, ha, fun _ => rfl⟩
  | cons i is ih =>
      intro a ha hmeets
      obtain ⟨r₁, h₁, hinv, hread⟩ := hstep a i ha hmeets.1
      have hnext : (step a i).map Prod.fst = some r₁.1 := by
        rw [h₁]
        rfl
      obtain ⟨r₂, h₂, hinv', hread'⟩ := ih r₁.1 hinv (hmeets.2 r₁.1 hnext)
      refine ⟨(r₂.1, r₁.2 ++ r₂.2), run_cons_eq_some.mpr ⟨r₁, r₂, h₁, h₂, rfl⟩, hinv', ?_⟩
      exact fun k => Monitor.read_append_of (hread k) (hread' k)

/-- **Monitored runs, exactly.**  If every admitted step has a result, and the
monitor reads its events exactly if the step meets a condition, it reads the
events of an admitted run exactly if every step of it meets the condition. -/
theorem read_run_iff_of_meets {Inv : α → Prop} {adm ok : α → ι → Prop} {m : Monitor σ ε}
    (view : α → σ)
    (hstep : ∀ a i, Inv a → adm a i → ∃ r, step a i = some r ∧ Inv r.1 ∧
      (ok a i → m.read (view a) r.2 = some (view r.1)) ∧
      (¬ ok a i → m.read (view a) r.2 = none)) (is : List ι) :
    ∀ a, Inv a → MeetsOpt (fun a i => (step a i).map Prod.fst) adm a is →
      ∃ r, run step a is = some r ∧
        ((m.read (view a) r.2).isSome = true ↔
          MeetsOpt (fun a i => (step a i).map Prod.fst) ok a is) := by
  induction is with
  | nil =>
      intro a _ _
      exact ⟨(a, []), rfl, fun _ => trivial, fun _ => rfl⟩
  | cons i is ih =>
      intro a ha hadm
      obtain ⟨r₁, h₁, hinv, hread, hstuck⟩ := hstep a i ha hadm.1
      have hnext : (step a i).map Prod.fst = some r₁.1 := by
        rw [h₁]
        rfl
      obtain ⟨r₂, h₂, hiff⟩ := ih r₁.1 hinv (hadm.2 r₁.1 hnext)
      refine ⟨(r₂.1, r₁.2 ++ r₂.2), run_cons_eq_some.mpr ⟨r₁, r₂, h₁, h₂, rfl⟩, ?_⟩
      rw [Monitor.read_append]
      constructor
      · intro hsome
        have hok : ok a i := by
          by_contra hnot
          rw [hstuck hnot] at hsome
          cases hsome
        rw [hread hok] at hsome
        refine ⟨hok, ?_⟩
        intro a' ha'
        change (step a i).map Prod.fst = some a' at ha'
        rw [hnext] at ha'
        rw [← Option.some.inj ha']
        exact hiff.mp hsome
      · intro hmeets
        rw [hread hmeets.1]
        exact hiff.mpr (hmeets.2 r₁.1 hnext)

/-- The same where every step is admitted. -/
theorem read_run_iff {Inv : α → Prop} {ok : α → ι → Prop} {m : Monitor σ ε} (view : α → σ)
    (hstep : ∀ a i, Inv a → ∃ r, step a i = some r ∧ Inv r.1 ∧
      (ok a i → m.read (view a) r.2 = some (view r.1)) ∧
      (¬ ok a i → m.read (view a) r.2 = none)) (is : List ι) (a : α) (ha : Inv a) :
    ∃ r, run step a is = some r ∧
      ((m.read (view a) r.2).isSome = true ↔
        MeetsOpt (fun a i => (step a i).map Prod.fst) ok a is) :=
  read_run_iff_of_meets view (fun a i ha (_ : True) => hstep a i ha) is a ha
    (meetsOpt_of_forall (fun _ _ => trivial) is a)

/-- Monitored runs that have a result, exactly: nothing is said about the runs
that have none. -/
theorem read_iff_of_run {Inv : α → Prop} {ok : α → ι → Prop} {m : Monitor σ ε} (view : α → σ)
    (hstep : ∀ a i r, Inv a → step a i = some r →
      (ok a i → Inv r.1 ∧ m.read (view a) r.2 = some (view r.1)) ∧
      (¬ ok a i → m.read (view a) r.2 = none)) (is : List ι) :
    ∀ a r, Inv a → run step a is = some r →
      ((m.read (view a) r.2).isSome = true ↔
        MeetsOpt (fun a i => (step a i).map Prod.fst) ok a is) := by
  induction is with
  | nil =>
      intro a r _ hr
      rw [← Option.some.inj hr]
      exact ⟨fun _ => trivial, fun _ => rfl⟩
  | cons i is ih =>
      intro a r ha hr
      obtain ⟨r₁, r₂, h₁, h₂, rfl⟩ := run_cons_eq_some.mp hr
      obtain ⟨hread, hstuck⟩ := hstep a i r₁ ha h₁
      have hnext : (step a i).map Prod.fst = some r₁.1 := by
        rw [h₁]
        rfl
      rw [Monitor.read_append]
      constructor
      · intro hsome
        have hok : ok a i := by
          by_contra hnot
          rw [hstuck hnot] at hsome
          cases hsome
        rw [(hread hok).2] at hsome
        refine ⟨hok, ?_⟩
        intro a' ha'
        change (step a i).map Prod.fst = some a' at ha'
        rw [hnext] at ha'
        rw [← Option.some.inj ha']
        exact (ih r₁.1 r₂ (hread hok).1 h₂).mp hsome
      · intro hmeets
        rw [(hread hmeets.1).2]
        exact (ih r₁.1 r₂ (hread hmeets.1).1 h₂).mpr (hmeets.2 r₁.1 hnext)

end Run

end WsStreaming.Verified.Trace
