import Mathlib.Data.List.Basic
import Mathlib.Order.Basic

/-!
# Calls that follow one another

A function that calls itself at most once is a partial step function on its
arguments: the arguments of the next call, if there is one.  Its calls are a
list that ends with a call that makes no other.

`exists_halts` is the variant rule: under an invariant, a measure that every
step lowers makes the list finite and bounds its length.
-/

namespace WsStreaming.Verified.Halting

variable {σ : Type _} {next : σ → Option σ}

/-- The calls that a call leads to, itself first, when there is a last one. -/
inductive Halts (next : σ → Option σ) : σ → List σ → Prop where
  | last {s : σ} (h : next s = none) : Halts next s [s]
  | step {s s' : σ} {calls : List σ} (h : next s = some s') (hrest : Halts next s' calls) :
      Halts next s (s :: calls)

/-- **Variant rule.** -/
theorem exists_halts (Inv : σ → Prop) (measure : σ → Nat)
    (hstep : ∀ s s', Inv s → next s = some s' → Inv s' ∧ measure s' < measure s) (s : σ)
    (hs : Inv s) : ∃ calls, Halts next s calls ∧ calls.length ≤ measure s + 1 := by
  induction hn : measure s using Nat.strongRecOn generalizing s with
  | _ n ih =>
      cases hnext : next s with
      | none => exact ⟨[s], .last hnext, by simp⟩
      | some s' =>
          have hlt := hstep s s' hs hnext
          obtain ⟨calls, hcalls, hlength⟩ := ih (measure s') (by omega) s' hlt.1 rfl
          refine ⟨s :: calls, .step hnext hcalls, ?_⟩
          rw [List.length_cons]
          omega

/-- **Calls under an invariant.**  Each call that is not the last one has a law
that the invariant gives to the calls that make another one. -/
theorem Halts.forall_dropLast (Inv : σ → Prop) {law : σ → Prop}
    (hstep : ∀ s s', Inv s → next s = some s' → Inv s' ∧ law s) {s : σ} {calls : List σ}
    (h : Halts next s calls) : Inv s → ∀ t ∈ calls.dropLast, law t := by
  induction h with
  | last h =>
      intro _ t ht
      cases ht
  | @step s s' calls h hrest ih =>
      intro hs t ht
      have hnext := hstep s s' hs h
      cases hrest with
      | last h' =>
          obtain rfl := List.mem_singleton.mp ht
          exact hnext.2
      | step h' hrest' =>
          rcases List.mem_cons.mp ht with rfl | ht
          · exact hnext.2
          · exact ih hnext.1 t ht

/-- What the next call of every call has, every call but the first has. -/
theorem Halts.forall_tail {law : σ → Prop} (hstep : ∀ s s', next s = some s' → law s') {s : σ}
    {calls : List σ} (h : Halts next s calls) : ∀ t ∈ calls.tail, law t := by
  induction h with
  | last h =>
      intro t ht
      cases ht
  | @step s s' calls h hrest ih =>
      intro t ht
      cases hrest with
      | last h' =>
          obtain rfl := List.mem_singleton.mp ht
          exact hstep s _ h
      | step h' hrest' =>
          rcases List.mem_cons.mp ht with rfl | ht
          · exact hstep s _ h
          · exact ih t ht

end WsStreaming.Verified.Halting
