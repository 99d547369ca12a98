import Mathlib.Algebra.Ring.Int.Defs
import Mathlib.Algebra.Ring.Nat
import Mathlib.Data.List.TakeDrop
import Mathlib.Data.List.TakeWhile

/-!
# Scanning a list

A scanner takes the longest prefix whose elements meet a condition.  Where the
next element is known not to meet it, the prefix is known.

## Main results

* `takeWhile_append_cons`, `dropWhile_append_cons` — the prefix up to a
  separator.
* `span_eq_cons` — what `span` says of it.
* `split_unique` — there is one first separator.
-/

namespace WsStreaming.Verified.Scan

/-- The number that a list of digits denotes. -/
def decimal (digits : List Char) : Nat :=
  digits.foldl (fun n c => 10 * n + (c.toNat - '0'.toNat)) 0

variable {α : Type _} {p : α → Bool}

theorem takeWhile_append_cons {xs : List α} {c : α} (ys : List α) (hxs : ∀ x ∈ xs, p x = true)
    (hc : p c = false) : (xs ++ c :: ys).takeWhile p = xs := by
  rw [List.takeWhile_append_of_pos hxs, List.takeWhile_cons_of_neg (Bool.eq_false_iff.mp hc),
    List.append_nil]

theorem dropWhile_append_cons {xs : List α} {c : α} (ys : List α) (hxs : ∀ x ∈ xs, p x = true)
    (hc : p c = false) : (xs ++ c :: ys).dropWhile p = c :: ys := by
  rw [List.dropWhile_append_of_pos hxs, List.dropWhile_cons_of_neg (Bool.eq_false_iff.mp hc)]

/-- **The prefix up to a separator**, as `span` finds it. -/
theorem span_eq_cons {l xs ys : List α} {c : α} (h : l.span p = (xs, c :: ys)) :
    l = xs ++ c :: ys ∧ (∀ x ∈ xs, p x = true) ∧ p c = false := by
  rw [List.span_eq_takeWhile_dropWhile] at h
  obtain ⟨htake, hdrop⟩ := Prod.mk.inj h
  have hhead := List.head?_dropWhile_not p l
  rw [hdrop] at hhead
  refine ⟨?_, ?_, hhead⟩
  · rw [← htake, ← hdrop, List.takeWhile_append_dropWhile]
  · rw [← htake]
    exact fun x hx => List.mem_takeWhile_imp hx

/-- **The first separator** of a list. -/
theorem split_unique {c : α} {xs xs' ys ys' : List α} (hxs : c ∉ xs) (hxs' : c ∉ xs')
    (h : xs ++ c :: ys = xs' ++ c :: ys') : xs = xs' ∧ ys = ys' := by
  classical
  have hother {l : List α} (hl : c ∉ l) : ∀ x ∈ l, (decide (x ≠ c)) = true := by
    intro x hx
    exact decide_eq_true fun heq => hl (heq ▸ hx)
  have hself : decide (c ≠ c) = false := decide_eq_false (not_not.mpr rfl)
  have htake := congrArg (List.takeWhile fun x => decide (x ≠ c)) h
  have hdrop := congrArg (List.dropWhile fun x => decide (x ≠ c)) h
  rw [takeWhile_append_cons ys (hother hxs) hself,
    takeWhile_append_cons ys' (hother hxs') hself] at htake
  rw [dropWhile_append_cons ys (hother hxs) hself,
    dropWhile_append_cons ys' (hother hxs') hself] at hdrop
  exact ⟨htake, (List.cons.inj hdrop).2⟩

end WsStreaming.Verified.Scan
