import WsStreaming.Verified.Run

/-!
# Code under locks

A thread works through a list of instructions.  It takes and gives back mutexes
that are not recursive, it calls out, and it does work that changes a state and
says what is to be done before the rest.  During a call out the operations that
the callee is allowed may be entered anew, any number of them.

The type of a piece of code is the mutex that is held before it and after it,
and `check` computes it.  Code has a type only if it calls out with no mutex
held, and takes no mutex while it holds one.

`Checked.run` is type soundness: a program whose operations and work keep to
their types never calls out under a mutex and never waits for itself.  Work may
keep to its type under a condition on the state before it.
-/

namespace WsStreaming.Verified.Locks

open WsStreaming.Verified.Run (MeetsOpt)

/-- One instruction. -/
inductive Instr (μ κ ω : Type) where
  | acquire (mutex : μ)
  | release (mutex : μ)
  | call (callee : κ)
  | work (w : ω)
deriving DecidableEq, Repr

/-- A thread: the mutexes it holds, and what it still has to do. -/
structure Thread (μ κ ω σ : Type) where
  state : σ
  held : List μ := []
  code : List (Instr μ κ ω) := []
deriving Repr

/-- What work does, if that is defined; the code of an operation; and what may
be entered during a call out. -/
structure Program (μ κ ω ο σ : Type) where
  exec : ω → σ → Option (σ × List (Instr μ κ ω))
  body : ο → List (Instr μ κ ω)
  allowed : κ → ο → Bool

variable {μ κ ω ο σ : Type}

namespace Thread

/-- The work that comes next. -/
def work? (t : Thread μ κ ω σ) : Option ω :=
  match t.code with
  | .work w :: _ => some w
  | _ => none

/-- The next work meets a condition on the state before it. -/
def Meets (ok : ω → σ → Prop) (t : Thread μ κ ω σ) : Prop := ∀ w ∈ t.work?, ok w t.state

instance (ok : ω → σ → Prop) [∀ w s, Decidable (ok w s)] (t : Thread μ κ ω σ) :
    Decidable (t.Meets ok) :=
  inferInstanceAs (Decidable (∀ w ∈ t.work?, ok w t.state))

/-- No mutex is held at a call out, and none that is taken is held already. -/
def Free (t : Thread μ κ ω σ) : Prop :=
  match t.code with
  | .call _ :: _ => t.held = []
  | .acquire m :: _ => m ∉ t.held
  | _ => True

instance [DecidableEq μ] (t : Thread μ κ ω σ) : Decidable t.Free :=
  match t with
  | ⟨_, held, .call _ :: _⟩ => inferInstanceAs (Decidable (held = []))
  | ⟨_, held, .acquire m :: _⟩ => inferInstanceAs (Decidable (m ∉ held))
  | ⟨_, _, []⟩ | ⟨_, _, .release _ :: _⟩ | ⟨_, _, .work _ :: _⟩ => isTrue trivial

end Thread

namespace Program

variable [DecidableEq μ]

/-- One instruction, with the operations that are entered if it is a call out or
if there is nothing left to do.  It has no result if the mutex is held already,
and where the work is undefined. -/
def step (P : Program μ κ ω ο σ) (t : Thread μ κ ω σ) (entered : List ο) :
    Option (Thread μ κ ω σ) :=
  match t.code with
  | [] => some { t with code := entered.flatMap P.body }
  | .acquire m :: rest =>
      if m ∈ t.held then none else some { t with held := m :: t.held, code := rest }
  | .release m :: rest => some { t with held := t.held.erase m, code := rest }
  | .call k :: rest =>
      some { t with code := (entered.filter (P.allowed k)).flatMap P.body ++ rest }
  | .work w :: rest => (P.exec w t.state).map fun r => ⟨r.1, t.held, r.2 ++ rest⟩

end Program

/-! ## Types -/

section Check

variable [DecidableEq μ] (lockType : ω → Option μ × Option μ)

/-- The mutex that is held after some code, if the code has a type. -/
def check : Option μ → List (Instr μ κ ω) → Option (Option μ)
  | h, [] => some h
  | h, .acquire m :: rest => if h = none then check (some m) rest else none
  | h, .release m :: rest => if h = some m then check none rest else none
  | h, .call _ :: rest => if h = none then check none rest else none
  | h, .work w :: rest => if h = (lockType w).1 then check (lockType w).2 rest else none

variable {lockType} {h h' h'' : Option μ} {code : List (Instr μ κ ω)}

@[simp] theorem check_nil : check (κ := κ) lockType h [] = some h := rfl

@[simp] theorem check_acquire {m : μ} :
    check lockType h (.acquire m :: code) = some h' ↔
      h = none ∧ check lockType (some m) code = some h' := by
  simp [check]

@[simp] theorem check_release {m : μ} :
    check lockType h (.release m :: code) = some h' ↔
      h = some m ∧ check lockType none code = some h' := by
  simp [check]

@[simp] theorem check_call {k : κ} :
    check lockType h (.call k :: code) = some h' ↔
      h = none ∧ check lockType none code = some h' := by
  simp [check]

@[simp] theorem check_work {w : ω} :
    check lockType h (.work w :: code) = some h' ↔
      h = (lockType w).1 ∧ check lockType (lockType w).2 code = some h' := by
  simp [check]

/-- Code after code. -/
theorem check_append {more : List (Instr μ κ ω)} (hcode : check lockType h code = some h')
    (hmore : check lockType h' more = some h'') : check lockType h (code ++ more) = some h'' := by
  induction code generalizing h with
  | nil =>
      rw [← Option.some.inj hcode] at hmore
      exact hmore
  | cons i code ih => cases i <;> simp_all

/-- Pieces of code that all keep what is held. -/
theorem check_flatMap {α : Type} {f : α → List (Instr μ κ ω)} (l : List α)
    (hf : ∀ x ∈ l, check lockType h (f x) = some h) :
    check lockType h (l.flatMap f) = some h := by
  induction l with
  | nil => rfl
  | cons x l ih =>
      have hall := List.forall_mem_cons.mp hf
      exact check_append hall.1 (ih hall.2)

/-- Instructions that all keep what is held. -/
theorem check_map {α : Type} {f : α → Instr μ κ ω} (l : List α)
    (hf : ∀ x ∈ l, check lockType h [f x] = some h) : check lockType h (l.map f) = some h := by
  have hcode := check_flatMap (f := fun x => [f x]) l hf
  rwa [← List.map_eq_flatMap] at hcode

/-- Code that is there under a condition only. -/
theorem check_ite {c : Prop} [Decidable c] (hcode : check lockType h code = some h) :
    check lockType h (if c then code else []) = some h := by
  split
  · exact hcode
  · rfl

end Check

/-! ## Soundness -/

section Soundness

variable [DecidableEq μ] {P : Program μ κ ω ο σ} {lockType : ω → Option μ × Option μ}
  {ok : ω → σ → Prop} {t : Thread μ κ ω σ}

/-- Operations hold nothing before and after them, and work does what its type
says where the condition is met. -/
structure Checked (P : Program μ κ ω ο σ) (lockType : ω → Option μ × Option μ)
    (ok : ω → σ → Prop) : Prop where
  body : ∀ o, check lockType none (P.body o) = some none
  exec : ∀ w s r, ok w s → P.exec w s = some r →
    check lockType (lockType w).1 r.2 = some (lockType w).2

/-- The thread holds one mutex or none, and gives it back. -/
def Ready (lockType : ω → Option μ × Option μ) (t : Thread μ κ ω σ) : Prop :=
  ∃ h : Option μ, t.held = h.toList ∧ check lockType h t.code = some none

/-- **Progress.**  A thread whose code has a type does not call out under a
mutex, nor does it wait for itself. -/
theorem Ready.free (hready : Ready lockType t) : t.Free := by
  obtain ⟨h, hheld, hcode⟩ := hready
  unfold Thread.Free
  split
  · rename_i heq
    rw [heq, check_call] at hcode
    rw [hheld, hcode.1]
    rfl
  · rename_i heq
    rw [heq, check_acquire] at hcode
    rw [hheld, hcode.1]
    exact List.not_mem_nil
  · trivial

/-- **Preservation.**  A step leaves a thread whose code has a type. -/
theorem Checked.step (hP : Checked P lockType ok) (entered : List ο) {t' : Thread μ κ ω σ}
    (hready : Ready lockType t) (hok : t.Meets ok) (hstep : P.step t entered = some t') :
    Ready lockType t' := by
  obtain ⟨h, hheld, hcode⟩ := hready
  have hentered (os : List ο) : check lockType none (os.flatMap P.body) = some none :=
    check_flatMap os fun o _ => hP.body o
  unfold Program.step at hstep
  unfold Thread.Meets Thread.work? at hok
  split at hstep
  · rename_i hnil
    rw [hnil, check_nil] at hcode
    rw [← Option.some.inj hstep]
    exact ⟨none, by rw [hheld, Option.some.inj hcode], hentered entered⟩
  · rename_i m rest hacquire
    rw [hacquire, check_acquire] at hcode
    rw [hheld, hcode.1, if_neg (show m ∉ (none : Option μ).toList from List.not_mem_nil)] at hstep
    rw [← Option.some.inj hstep]
    exact ⟨some m, rfl, hcode.2⟩
  · rename_i m rest hrelease
    rw [hrelease, check_release] at hcode
    rw [← Option.some.inj hstep]
    refine ⟨none, ?_, hcode.2⟩
    simp [hheld, hcode.1]
  · rename_i k rest hcall
    rw [hcall, check_call] at hcode
    rw [← Option.some.inj hstep]
    exact ⟨none, by rw [hheld, hcode.1], check_append (hentered _) hcode.2⟩
  · rename_i w rest hwork
    rw [hwork] at hok
    rw [hwork, check_work] at hcode
    obtain ⟨r, hexec, hr⟩ := Option.map_eq_some_iff.mp hstep
    have htype := hP.exec w t.state r (hok w rfl) hexec
    rw [← hr]
    exact ⟨(lockType w).1, by rw [hheld, hcode.1], check_append htype hcode.2⟩

/-- **Type soundness.**  A run all of whose work meets the condition calls out
with no mutex held, and waits for none that it holds. -/
theorem Checked.run (hP : Checked P lockType ok) (s : σ) (inputs : List (List ο))
    {t' : Thread μ κ ω σ} (hmeets : MeetsOpt P.step (fun t _ => t.Meets ok) ⟨s, [], []⟩ inputs)
    (hrun : inputs.foldlM P.step ⟨s, [], []⟩ = some t') : t'.Free := by
  have hstart : Ready lockType (⟨s, [], []⟩ : Thread μ κ ω σ) := ⟨none, rfl, rfl⟩
  exact (Run.foldlM_preserves_of_meets (fun _ entered _ hready hok => hP.step entered hready hok)
    inputs _ _ hstart hmeets hrun).free

end Soundness

end WsStreaming.Verified.Locks
