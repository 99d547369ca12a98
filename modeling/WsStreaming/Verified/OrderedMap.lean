import Mathlib.Algebra.Ring.Int.Defs
import Mathlib.Algebra.Ring.Nat
import Mathlib.Data.List.Basic
import Mathlib.Data.List.Find
import Mathlib.Order.RelClasses

/-!
# Ordered maps

A map kept as a list of pairs in the order of the keys, as an ordered tree
map shows it to an iterator.  `set` is assignment through `operator[]`,
`emplace` keeps a value that is there already.

What a lookup finds does not depend on the order, so none of the lookup lemmas
asks anything of `<`.  A search for the first key with a property does: in the
order of the keys it finds the least one.

## Main results

* `find?_set`, `find?_emplace`, `find?_erase`, `find?_modify` — every
  operation as a pointwise update of `find?`.
* `find?_eq_some_iff` — with distinct keys, the pairs of the list are the
  pairs that `find?` finds.
* `find_modify` — a search for a value with a property, after a change that the
  property does not see.
* `countP_modify`, `countP_erase` — how a count over the pairs changes with one
  of them.
* `Distinct.set`, `Distinct.emplace`, `Distinct.erase`, `Distinct.modify` —
  keys stay distinct.
* `Sorted.emplace`, `Sorted.erase`, `Sorted.modify`, `Sorted.find?_key` — keys
  stay in order, and the first one is the least.
-/

namespace WsStreaming.Verified.OrderedMap

/-- The pairs of an ordered map, in the order of the keys. -/
abbrev OMap (κ α : Type _) := List (κ × α)

variable {κ α : Type _} [DecidableEq κ]

/-- The value at a key. -/
def find? (m : OMap κ α) (k : κ) : Option α :=
  match m with
  | [] => none
  | (k', v) :: m => if k' = k then some v else find? m k

/-- The map without a key. -/
def erase (m : OMap κ α) (k : κ) : OMap κ α := m.filter fun e => e.1 ≠ k

/-- Another value at a key that is there. -/
def modify (m : OMap κ α) (k : κ) (f : α → α) : OMap κ α :=
  m.map fun e => if e.1 = k then (e.1, f e.2) else e

/-- No two pairs have the same key. -/
def Distinct (m : OMap κ α) : Prop := (m.map Prod.fst).Nodup

instance (m : OMap κ α) : Decidable (Distinct m) :=
  inferInstanceAs (Decidable (m.map Prod.fst).Nodup)

@[simp] theorem find?_nil (k : κ) : find? ([] : OMap κ α) k = none := rfl

theorem find?_cons (k' : κ) (v : α) (m : OMap κ α) (k : κ) :
    find? ((k', v) :: m) k = if k' = k then some v else find? m k := rfl

theorem find?_eq_none_iff {m : OMap κ α} {k : κ} :
    find? m k = none ↔ k ∉ m.map Prod.fst := by
  induction m with
  | nil => simp
  | cons e m ih =>
      obtain ⟨k', v⟩ := e
      rw [find?_cons, List.map_cons, List.mem_cons, not_or]
      split
      · rename_i h
        simp [h]
      · rename_i h
        rw [ih]
        exact ⟨fun hm => ⟨fun hk => h hk.symm, hm⟩, fun hm => hm.2⟩

theorem mem_of_find?_eq_some {m : OMap κ α} {k : κ} {v : α} (h : find? m k = some v) :
    (k, v) ∈ m := by
  induction m with
  | nil => simp at h
  | cons e m ih =>
      obtain ⟨k', w⟩ := e
      rw [find?_cons] at h
      split at h
      · rename_i hk
        obtain rfl := Option.some.inj h
        rw [hk]
        exact List.mem_cons_self
      · exact List.mem_cons_of_mem _ (ih h)

omit [DecidableEq κ] in
theorem Distinct.of_cons {e : κ × α} {m : OMap κ α} (h : Distinct (e :: m)) : Distinct m :=
  (List.nodup_cons.mp h).2

/-- With distinct keys the pairs are what a lookup finds. -/
theorem find?_eq_some_iff {m : OMap κ α} (hm : Distinct m) {k : κ} {v : α} :
    find? m k = some v ↔ (k, v) ∈ m := by
  refine ⟨mem_of_find?_eq_some, fun h => ?_⟩
  induction m with
  | nil => cases h
  | cons e m ih =>
      obtain ⟨k', w⟩ := e
      rw [find?_cons]
      rcases List.mem_cons.mp h with heq | hmem
      · obtain ⟨rfl, rfl⟩ := Prod.mk.inj heq
        rw [if_pos rfl]
      · have hne : k' ≠ k := by
          rintro rfl
          exact (List.nodup_cons.mp hm).1 (List.mem_map.mpr ⟨_, hmem, rfl⟩)
        rw [if_neg hne]
        exact ih hm.of_cons hmem

/-- A lookup after a change of all values. -/
theorem find?_map {β : Type _} (g : α → β) (m : OMap κ α) (k : κ) :
    find? (m.map fun e => (e.1, g e.2)) k = (find? m k).map g := by
  induction m with
  | nil => rfl
  | cons e m ih =>
      rw [List.map_cons, find?_cons]
      change _ = (if e.1 = k then some e.2 else find? m k).map g
      split
      · rfl
      · exact ih

/-! ## Erasing -/

theorem find?_erase (m : OMap κ α) (k j : κ) :
    find? (erase m k) j = if k = j then none else find? m j := by
  induction m with
  | nil => simp [erase]
  | cons e m ih =>
      obtain ⟨k', v⟩ := e
      rw [erase] at ih ⊢
      by_cases hk : k' = k
      · rw [List.filter_cons_of_neg (by simpa using hk), ih, find?_cons, hk]
        split <;> rfl
      · rw [List.filter_cons_of_pos (by simpa using hk), find?_cons, ih, find?_cons]
        by_cases hj : k' = j
        · have hne : ¬ k = j := fun h => hk (hj.trans h.symm)
          rw [if_pos hj, if_neg hne, if_pos hj]
        · rw [if_neg hj, if_neg hj]

theorem Distinct.erase {m : OMap κ α} (h : Distinct m) (k : κ) :
    Distinct (OrderedMap.erase m k) :=
  h.sublist (List.filter_sublist.map Prod.fst)

theorem mem_erase {m : OMap κ α} {k : κ} {e : κ × α} :
    e ∈ erase m k ↔ e ∈ m ∧ e.1 ≠ k := by
  rw [erase, List.mem_filter]
  simp

/-- A search still finds what it found under another key. -/
theorem find_erase {m : OMap κ α} {k : κ} {p : α → Bool} {e : κ × α}
    (h : (m.find? fun e => p e.2) = some e) (hne : e.1 ≠ k) :
    ((OrderedMap.erase m k).find? fun e => p e.2) = some e := by
  induction m with
  | nil => cases h
  | cons e' m ih =>
      unfold OrderedMap.erase at ih ⊢
      rw [List.find?_cons] at h
      cases hp : p e'.2 with
      | true =>
          rw [hp] at h
          obtain rfl := Option.some.inj h
          rw [List.filter_cons_of_pos (by simpa using hne), List.find?_cons, hp]
      | false =>
          rw [hp] at h
          by_cases hk : e'.1 = k
          · rw [List.filter_cons_of_neg (by simpa using hk)]
            exact ih h
          · rw [List.filter_cons_of_pos (by simpa using hk), List.find?_cons, hp]
            exact ih h

/-! ## Modifying -/

@[simp] theorem map_fst_modify (m : OMap κ α) (k : κ) (f : α → α) :
    (modify m k f).map Prod.fst = m.map Prod.fst := by
  rw [modify, List.map_map]
  refine List.map_congr_left fun e _ => ?_
  simp only [Function.comp_apply]
  split <;> rfl

theorem Distinct.modify {m : OMap κ α} (h : Distinct m) (k : κ) (f : α → α) :
    Distinct (OrderedMap.modify m k f) := by
  rw [Distinct, map_fst_modify]
  exact h

theorem find?_modify (m : OMap κ α) (k : κ) (f : α → α) (j : κ) :
    find? (modify m k f) j = if k = j then (find? m j).map f else find? m j := by
  induction m with
  | nil => simp [modify]
  | cons e m ih =>
      obtain ⟨k', v⟩ := e
      have hcons : modify ((k', v) :: m) k f =
          (if k' = k then (k', f v) else (k', v)) :: modify m k f := rfl
      rw [hcons, find?_cons]
      by_cases hk : k' = k
      · rw [if_pos hk, find?_cons, ih, hk]
        by_cases hj : k = j
        · simp [hj]
        · simp [hj]
      · rw [if_neg hk, find?_cons, ih]
        by_cases hj : k' = j
        · have hne : ¬ k = j := fun h => hk (hj.trans h.symm)
          simp [hj, hne]
        · simp [hj]

/-- A search that does not see a change of one value finds what it found. -/
theorem find_modify {m : OMap κ α} (hm : Distinct m) {k : κ} {v : α} (hk : find? m k = some v)
    {f : α → α} {p : α → Bool} (hp : p (f v) = p v) :
    ((modify m k f).find? fun e => p e.2) =
      (m.find? fun e => p e.2).map fun e => if e.1 = k then (k, f v) else e := by
  have hvalue : ∀ e ∈ m, e.1 = k → e.2 = v := by
    intro e he hkey
    have hfind := (find?_eq_some_iff hm).mpr (show (e.1, e.2) ∈ m from he)
    rw [hkey, hk] at hfind
    exact (Option.some.inj hfind).symm
  rw [modify, List.find?_map]
  have hsame : m.find? ((fun e => p e.2) ∘ fun e => if e.1 = k then (e.1, f e.2) else e) =
      m.find? fun e => p e.2 := by
    apply List.find?_congr
    intro e he
    simp only [Function.comp_apply]
    split
    · rename_i hkey
      rw [hvalue e he hkey, hp]
    · rfl
  rw [hsame]
  apply Option.map_congr
  intro e he
  split
  · rename_i hkey
    rw [hkey, hvalue e (List.mem_of_find?_eq_some he) hkey]
  · rfl

/-- The pairs after a change at one key. -/
theorem mem_modify_const {m : OMap κ α} {k : κ} {w : α} {e : κ × α}
    (he : e ∈ modify m k fun _ => w) : e = (k, w) ∨ e.1 ≠ k ∧ e ∈ m := by
  obtain ⟨e', he', rfl⟩ := List.mem_map.mp he
  split
  · rename_i hkey
    rw [hkey]
    exact .inl rfl
  · rename_i hkey
    exact .inr ⟨hkey, he'⟩

/-- Counting after a change at one key: only that key's pair counts
differently. -/
theorem countP_modify {m : OMap κ α} (hm : Distinct m) {k : κ} {v : α}
    (hk : find? m k = some v) (f : α → α) {p q : κ × α → Bool}
    (hpq : ∀ e ∈ m, e.1 ≠ k → p e = q e) :
    (modify m k f).countP p + (if q (k, v) then 1 else 0) =
      m.countP q + (if p (k, f v) then 1 else 0) := by
  induction m with
  | nil => cases hk
  | cons e m ih =>
      obtain ⟨k', w⟩ := e
      have hcons : modify ((k', w) :: m) k f =
          (if k' = k then (k', f w) else (k', w)) :: modify m k f := rfl
      rw [find?_cons] at hk
      rw [hcons, List.countP_cons, List.countP_cons]
      by_cases hkey : k' = k
      · subst hkey
        rw [if_pos rfl] at hk
        obtain rfl := Option.some.inj hk
        have hnot : ∀ e ∈ m, e.1 ≠ k' := by
          intro e he heq
          exact (List.nodup_cons.mp hm).1 (List.mem_map.mpr ⟨e, he, heq⟩)
        have hsame : modify m k' f = m := by
          rw [modify]
          conv_rhs => rw [← List.map_id m]
          refine List.map_congr_left fun e he => ?_
          rw [if_neg (hnot e he)]
          rfl
        have hcount : m.countP p = m.countP q :=
          List.countP_congr fun e he => by
            rw [hpq e (List.mem_cons_of_mem _ he) (hnot e he)]
        rw [hsame, hcount, if_pos rfl]
        omega
      · rw [if_neg hkey] at hk
        have hrest := ih hm.of_cons hk fun e he => hpq e (List.mem_cons_of_mem _ he)
        have hhead : p (k', w) = q (k', w) := hpq (k', w) List.mem_cons_self hkey
        rw [if_neg hkey, hhead]
        omega

/-- Counting after a pair is gone. -/
theorem countP_erase {m : OMap κ α} (hm : Distinct m) {k : κ} {v : α} (hk : find? m k = some v)
    (p : κ × α → Bool) :
    (OrderedMap.erase m k).countP p + (if p (k, v) then 1 else 0) = m.countP p := by
  induction m with
  | nil => cases hk
  | cons e m ih =>
      obtain ⟨k', w⟩ := e
      rw [find?_cons] at hk
      rw [OrderedMap.erase] at ih ⊢
      rw [List.countP_cons]
      by_cases hkey : k' = k
      · subst hkey
        rw [if_pos rfl] at hk
        obtain rfl := Option.some.inj hk
        have hrest : m.filter (fun e => e.1 ≠ k') = m := by
          apply List.filter_eq_self.mpr
          intro e he
          rw [decide_eq_true_eq]
          rintro rfl
          exact (List.nodup_cons.mp hm).1 (List.mem_map.mpr ⟨e, he, rfl⟩)
        rw [List.filter_cons_of_neg (by simp), hrest]
      · rw [if_neg hkey] at hk
        have hcount := ih hm.of_cons hk
        rw [List.filter_cons_of_pos (by simpa using hkey), List.countP_cons]
        omega

/-! ## Inserting -/

variable [LT κ] [DecidableLT κ]

/-- A new pair, in front of the first larger key. -/
def insertBefore (m : OMap κ α) (k : κ) (v : α) : OMap κ α :=
  match m with
  | [] => [(k, v)]
  | (k', w) :: m => if k < k' then (k, v) :: (k', w) :: m else (k', w) :: insertBefore m k v

/-- `emplace`: a new pair unless the key is there. -/
def emplace (m : OMap κ α) (k : κ) (v : α) : OMap κ α :=
  if (find? m k).isSome then m else insertBefore m k v

/-- Assignment through `operator[]`. -/
def set (m : OMap κ α) (k : κ) (v : α) : OMap κ α :=
  if (find? m k).isSome then modify m k fun _ => v else insertBefore m k v

omit [DecidableEq κ] in
theorem insertBefore_perm (m : OMap κ α) (k : κ) (v : α) :
    (insertBefore m k v).Perm ((k, v) :: m) := by
  induction m with
  | nil => exact List.Perm.refl _
  | cons e m ih =>
      obtain ⟨k', w⟩ := e
      rw [insertBefore]
      split
      · exact List.Perm.refl _
      · exact (ih.cons _).trans (List.Perm.swap _ _ _)

omit [DecidableEq κ] in
/-- A key that is not below any other goes to the end. -/
theorem insertBefore_of_not_lt {m : OMap κ α} {k : κ} (h : ∀ e ∈ m, ¬ k < e.1) (v : α) :
    insertBefore m k v = m ++ [(k, v)] := by
  induction m with
  | nil => rfl
  | cons e m ih =>
      obtain ⟨k', w⟩ := e
      rw [insertBefore, if_neg (h (k', w) List.mem_cons_self),
        ih fun e he => h e (List.mem_cons_of_mem _ he)]
      rfl

omit [DecidableEq κ] in
theorem mem_insertBefore {m : OMap κ α} {k : κ} {v : α} {e : κ × α} :
    e ∈ insertBefore m k v ↔ e = (k, v) ∨ e ∈ m := by
  rw [(insertBefore_perm m k v).mem_iff, List.mem_cons]

theorem Distinct.insertBefore {m : OMap κ α} (h : Distinct m) {k : κ}
    (hk : OrderedMap.find? m k = none) (v : α) : Distinct (OrderedMap.insertBefore m k v) := by
  rw [Distinct, ((insertBefore_perm m k v).map Prod.fst).nodup_iff, List.map_cons]
  exact List.nodup_cons.mpr ⟨find?_eq_none_iff.mp hk, h⟩

theorem find?_insertBefore {m : OMap κ α} {k : κ} (hk : find? m k = none) (v : α) (j : κ) :
    find? (insertBefore m k v) j = if k = j then some v else find? m j := by
  induction m with
  | nil => rfl
  | cons e m ih =>
      obtain ⟨k', w⟩ := e
      rw [find?_cons] at hk
      split at hk
      · cases hk
      rename_i hne
      rw [insertBefore]
      split
      · rw [find?_cons]
      · rw [find?_cons, ih hk, find?_cons]
        by_cases hj : k' = j
        · have hne' : ¬ k = j := fun h => hne (hj.trans h.symm)
          rw [if_pos hj, if_neg hne', if_pos hj]
        · rw [if_neg hj, if_neg hj]

theorem find?_emplace (m : OMap κ α) (k : κ) (v : α) (j : κ) :
    find? (emplace m k v) j = if k = j then some ((find? m k).getD v) else find? m j := by
  unfold emplace
  cases hk : find? m k with
  | none => simpa using find?_insertBefore hk v j
  | some w =>
      by_cases hj : k = j
      · simp [← hj, hk]
      · simp [hj]

theorem emplace_map {β : Type _} (g : α → β) (m : OMap κ α) (k : κ) (v : α) :
    (emplace m k v).map (fun e => (e.1, g e.2)) =
      emplace (m.map fun e => (e.1, g e.2)) k (g v) := by
  unfold emplace
  rw [find?_map, Option.isSome_map]
  split
  · rfl
  · induction m with
    | nil => rfl
    | cons e m ih =>
        obtain ⟨k', w⟩ := e
        rename_i hnone
        have hrest : ¬ (find? m k).isSome = true := by
          rw [find?_cons] at hnone
          split at hnone
          · exact absurd rfl hnone
          · exact hnone
        rw [insertBefore, List.map_cons, insertBefore]
        split
        · rfl
        · rw [List.map_cons, ih hrest]

theorem find?_set (m : OMap κ α) (k : κ) (v : α) (j : κ) :
    find? (set m k v) j = if k = j then some v else find? m j := by
  unfold set
  cases hk : find? m k with
  | none => simpa using find?_insertBefore hk v j
  | some w =>
      rw [Option.isSome_some, if_pos rfl, find?_modify]
      by_cases hj : k = j
      · simp [← hj, hk]
      · simp [hj]

theorem Distinct.emplace {m : OMap κ α} (h : Distinct m) (k : κ) (v : α) :
    Distinct (OrderedMap.emplace m k v) := by
  unfold OrderedMap.emplace
  cases hk : OrderedMap.find? m k with
  | none => exact h.insertBefore hk v
  | some w => exact h

/-! ## Order -/

/-- The pairs are in the order of their keys. -/
def Sorted (m : OMap κ α) : Prop := (m.map Prod.fst).Pairwise (· < ·)

omit [DecidableLT κ] in
theorem Sorted.modify {m : OMap κ α} (h : Sorted m) (k : κ) (f : α → α) :
    Sorted (OrderedMap.modify m k f) := by
  rw [Sorted, map_fst_modify]
  exact h

omit [DecidableLT κ] in
theorem Sorted.erase {m : OMap κ α} (h : Sorted m) (k : κ) : Sorted (OrderedMap.erase m k) :=
  h.sublist (List.filter_sublist.map Prod.fst)

omit [DecidableEq κ] [DecidableLT κ] in
/-- **The first is the least.** -/
theorem Sorted.find?_key {m : OMap κ α} (h : Sorted m) {p : κ → Bool} {k : κ}
    (hk : k ∈ m.map Prod.fst) (hp : p k = true)
    (hleast : ∀ j ∈ m.map Prod.fst, p j = true → ¬ j < k) :
    (m.map Prod.fst).find? p = some k := by
  induction m with
  | nil => cases hk
  | cons e m ih =>
      obtain ⟨hbelow, hrest⟩ := List.pairwise_cons.mp h
      rw [List.map_cons] at hk hleast ⊢
      rcases List.mem_cons.mp hk with rfl | hk
      · exact List.find?_cons_of_pos hp
      · have hfirst : ¬ p e.1 = true := fun hfirst =>
          hleast e.1 List.mem_cons_self hfirst (hbelow k hk)
        rw [List.find?_cons_of_neg hfirst]
        exact ih hrest hk fun j hj => hleast j (List.mem_cons_of_mem _ hj)

section

variable [IsStrictTotalOrder κ (· < ·)]

theorem Sorted.insertBefore {m : OMap κ α} (h : Sorted m) {k : κ}
    (hk : OrderedMap.find? m k = none) (v : α) : Sorted (OrderedMap.insertBefore m k v) := by
  induction m with
  | nil => exact List.pairwise_singleton _ _
  | cons e m ih =>
      obtain ⟨k', w⟩ := e
      obtain ⟨hbelow, hrest⟩ := List.pairwise_cons.mp h
      have hne : k' ≠ k := by
        intro heq
        rw [find?_cons, if_pos heq] at hk
        cases hk
      rw [find?_cons, if_neg hne] at hk
      rw [OrderedMap.insertBefore]
      split
      · rename_i hlt
        refine List.pairwise_cons.mpr ⟨?_, h⟩
        intro j hj
        rcases List.mem_cons.mp hj with rfl | hj
        · exact hlt
        · exact trans_of (· < ·) hlt (hbelow j hj)
      · rename_i hlt
        have hgt : k' < k := by
          rcases trichotomous_of (· < ·) k' k with hgt | heq | hgt
          · exact hgt
          · exact absurd heq hne
          · exact absurd hgt hlt
        refine List.pairwise_cons.mpr ⟨?_, ih hrest hk⟩
        intro j hj
        obtain ⟨e, he, rfl⟩ := List.mem_map.mp hj
        rcases mem_insertBefore.mp he with rfl | he
        · exact hgt
        · exact hbelow e.1 (List.mem_map_of_mem he)

theorem Sorted.emplace {m : OMap κ α} (h : Sorted m) (k : κ) (v : α) :
    Sorted (OrderedMap.emplace m k v) := by
  unfold OrderedMap.emplace
  cases hk : OrderedMap.find? m k with
  | none => exact h.insertBefore hk v
  | some w => exact h

end

end WsStreaming.Verified.OrderedMap
