import Mathlib.Data.List.Nodup
import Mathlib.Data.List.TakeWhile

/-!
# Walking a linked list whose elements are removed

A loop walks a list with an iterator: it reads the element that the iterator
points to, runs its body, and advances.  The body may change the list.  An
iterator to an element that is no longer there can neither be read nor
advanced, so such a step has no result.

`walk_eq` is for bodies that may remove the element they are called with and
none but that: the walk has a result exactly if no element is removed, and then
it visits every element once.
-/

namespace WsStreaming.Verified.Walk

variable {σ α : Type _} [DecidableEq α]

/-- Advancing an iterator: the next element, or the end. -/
def next (xs : List α) (x : α) : Option (Option α) :=
  match xs.dropWhile (fun y => y ≠ x) with
  | [] => none
  | _ :: rest => some rest.head?

/-- A walk under way: the state, the iterator, and the elements that were
visited. -/
structure Cursor (σ α : Type _) where
  state : σ
  position : Option α
  visited : List α

variable (nodes : σ → List α) (body : σ → α → σ)

/-- One round of the loop, or nothing at the end. -/
def round (w : Cursor σ α) : Option (Cursor σ α) :=
  match w.position with
  | none => some w
  | some x =>
      if x ∈ nodes w.state then
        (next (nodes (body w.state x)) x).map fun position =>
          ⟨body w.state x, position, w.visited ++ [x]⟩
      else none

/-- A number of rounds. -/
def rounds : Nat → Cursor σ α → Option (Cursor σ α)
  | 0, w => some w
  | n + 1, w => (round nodes body w).bind (rounds n)

/-- The whole loop, with as many rounds as there are elements. -/
def walk (s : σ) : Option (Cursor σ α) :=
  rounds nodes body (nodes s).length ⟨s, (nodes s).head?, []⟩

theorem dropWhile_ne {before rest : List α} {x : α} (h : x ∉ before) :
    (before ++ x :: rest).dropWhile (fun y => y ≠ x) = x :: rest := by
  induction before with
  | nil => simp
  | cons y before ih =>
      have hy : y ≠ x := fun hyx => h (by rw [hyx]; exact List.mem_cons_self)
      have hrest : x ∉ before := fun hx => h (List.mem_cons_of_mem _ hx)
      rw [List.cons_append, List.dropWhile_cons, if_pos (decide_eq_true hy)]
      exact ih hrest

theorem next_of_mem {before rest : List α} {x : α} (h : x ∉ before) :
    next (before ++ x :: rest) x = some rest.head? := by
  rw [next, dropWhile_ne h]

theorem next_of_not_mem {xs : List α} {x : α} (h : x ∉ xs) : next xs x = none := by
  have hall : xs.dropWhile (fun y => y ≠ x) = [] := by
    rw [List.dropWhile_eq_nil_iff]
    intro y hy
    exact decide_eq_true fun hyx => h (by rw [← hyx]; exact hy)
  rw [next, hall]

section Removal

variable {nodes : σ → List α} {body : σ → α → σ} {removes : σ → α → Prop}
  [∀ s x, Decidable (removes s x)]

/-- The rounds that are left, from an element in the middle. -/
theorem rounds_eq
    (hbody : ∀ s x, nodes (body s x) =
      if removes s x then (nodes s).filter (fun y => y ≠ x) else nodes s)
    (hframe : ∀ s x y, y ≠ x → (removes (body s x) y ↔ removes s y)) (rest : List α) :
    ∀ (before : List α) (s : σ), nodes s = before ++ rest → (before ++ rest).Nodup →
      rounds nodes body rest.length ⟨s, rest.head?, before⟩ =
        if ∃ x ∈ rest, removes s x then none
        else some ⟨rest.foldl body s, none, before ++ rest⟩ := by
  induction rest with
  | nil =>
      intro before s _ _
      rw [if_neg (by simp), List.append_nil]
      rfl
  | cons x rest ih =>
      intro before s hnodes hnodup
      have hx : x ∉ before := fun hx =>
        (List.nodup_append.mp hnodup).2.2 x hx x List.mem_cons_self rfl
      have hround : round nodes body ⟨s, some x, before⟩ =
          (next (nodes (body s x)) x).map fun position =>
            ⟨body s x, position, before ++ [x]⟩ := by
        have hmem : x ∈ nodes s := by
          rw [hnodes]
          exact List.mem_append_right _ List.mem_cons_self
        simp only [round, if_pos hmem]
      rw [List.length_cons, rounds, List.head?_cons, hround]
      by_cases hremoves : removes s x
      · have hgone : x ∉ nodes (body s x) := by
          rw [hbody, if_pos hremoves]
          intro hmem
          exact of_decide_eq_true (List.mem_filter.mp hmem).2 rfl
        rw [next_of_not_mem hgone, if_pos ⟨x, List.mem_cons_self, hremoves⟩]
        rfl
      · have hkept : nodes (body s x) = before ++ x :: rest := by
          rw [hbody, if_neg hremoves, hnodes]
        rw [hkept, next_of_mem hx, Option.map_some, Option.bind_some,
          ih (before ++ [x]) (body s x) (by rw [hkept, List.append_cons])
            (by rw [← List.append_cons]; exact hnodup)]
        have hrest : (∃ y ∈ rest, removes (body s x) y) ↔ ∃ y ∈ x :: rest, removes s y := by
          have hne : ∀ y ∈ rest, y ≠ x := fun y hy hyx =>
            (List.nodup_cons.mp (List.nodup_append.mp hnodup).2.1).1 (by rw [← hyx]; exact hy)
          constructor
          · rintro ⟨y, hy, hyr⟩
            exact ⟨y, List.mem_cons_of_mem _ hy, (hframe s x y (hne y hy)).mp hyr⟩
          · rintro ⟨y, hy, hyr⟩
            rcases List.mem_cons.mp hy with rfl | hy
            · exact absurd hyr hremoves
            · exact ⟨y, hy, (hframe s x y (hne y hy)).mpr hyr⟩
        rw [if_congr hrest rfl rfl, List.foldl_cons, ← List.append_cons]

/-- **A walk is defined exactly if nothing is removed under its iterator.** -/
theorem walk_eq
    (hbody : ∀ s x, nodes (body s x) =
      if removes s x then (nodes s).filter (fun y => y ≠ x) else nodes s)
    (hframe : ∀ s x y, y ≠ x → (removes (body s x) y ↔ removes s y))
    (s : σ) (hnodup : (nodes s).Nodup) :
    walk nodes body s =
      if ∃ x ∈ nodes s, removes s x then none
      else some ⟨(nodes s).foldl body s, none, nodes s⟩ :=
  rounds_eq hbody hframe (nodes s) [] s rfl hnodup

end Removal

end WsStreaming.Verified.Walk
