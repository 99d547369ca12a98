import WsStreaming.Verified.Scan

/-!
# Regular expressions with backtracking

A fragment of the regular expressions of ECMAScript: classes, sequences,
alternatives, greedy repetitions of a class, greedy options and groups that are
captured.  A pattern has all its outcomes in the order in which backtracking
tries them, and a match is the first one.

Two rules find the first outcome after a repetition: if what follows gets stuck
wherever the repetition could have gone on, only its longest run counts; and if
what follows cannot fail, the longest run is the first to succeed.

## Main results

* `flatMap_plus_stuck`, `head?_flatMap_plus` — the two rules.
* `mem_plus_iff` — any outcome of a repetition.
-/

namespace WsStreaming.Verified.Regex

variable {α : Type _} {β : Type _}

/-- What is left of a subject, and what has been captured. -/
structure State (α : Type _) where
  rest : List α
  groups : List (Nat × List α) := []
deriving DecidableEq, Repr

/-- A group that was captured, or nothing. -/
def State.group (s : State α) (n : Nat) : List α := (s.groups.lookup n).getD []

theorem State.group_cons (rest : List α) (groups : List (Nat × List α)) (n : Nat) (used : List α)
    (k : Nat) : (State.mk rest ((n, used) :: groups)).group k =
      if k = n then used else (State.mk rest groups).group k := by
  unfold State.group
  rw [List.lookup_cons]
  by_cases hk : k = n
  · rw [if_pos hk, beq_iff_eq.mpr hk]
    rfl
  · rw [if_neg hk, beq_eq_false_iff_ne.mpr hk]

/-- Patterns over an alphabet. -/
inductive Pattern (α : Type _) where
  | symbol (p : α → Bool)
  | seq (a b : Pattern α)
  | alt (a b : Pattern α)
  | many (p : α → Bool)
  | option (a : Pattern α)
  | group (n : Nat) (a : Pattern α)

/-- A repetition that is not empty. -/
def Pattern.plus (p : α → Bool) : Pattern α := .seq (.symbol p) (.many p)

/-- What is left after a repetition of a class, the longest run first. -/
def runs (p : α → Bool) : List α → List (List α)
  | [] => [[]]
  | x :: xs => if p x then runs p xs ++ [x :: xs] else [x :: xs]

/-- The state after what has been used up since `start` is captured. -/
def State.capture (n : Nat) (start : List α) (s : State α) : State α :=
  { s with groups := (n, start.take (start.length - s.rest.length)) :: s.groups }

/-- **The outcomes of a pattern**, in the order in which they are tried. -/
def outcomes : Pattern α → State α → List (State α)
  | .symbol p, s =>
      match s.rest with
      | [] => []
      | x :: xs => if p x then [{ s with rest := xs }] else []
  | .seq a b, s => (outcomes a s).flatMap (outcomes b)
  | .alt a b, s => outcomes a s ++ outcomes b s
  | .many p, s => (runs p s.rest).map fun rest => { s with rest := rest }
  | .option a, s => outcomes a s ++ [s]
  | .group n a, s => (outcomes a s).map (State.capture n s.rest)

/-- The match of a pattern at the beginning of a subject. -/
def first (a : Pattern α) (subject : List α) : Option (State α) := (outcomes a ⟨subject, []⟩).head?

section Symbols

variable {p : α → Bool} {x : α} {xs : List α} {groups : List (Nat × List α)}

theorem outcomes_symbol (h : p x = true) :
    outcomes (.symbol p) ⟨x :: xs, groups⟩ = [⟨xs, groups⟩] := if_pos h

theorem outcomes_symbol_of_not (h : p x = false) :
    outcomes (.symbol p) ⟨x :: xs, groups⟩ = [] := if_neg (Bool.eq_false_iff.mp h)

theorem mem_symbol_iff {s t : State α} : t ∈ outcomes (.symbol p) s ↔
    ∃ x, p x = true ∧ s.rest = x :: t.rest ∧ t.groups = s.groups := by
  obtain ⟨rest, groups⟩ := s
  cases rest with
  | nil =>
      refine iff_of_false List.not_mem_nil ?_
      rintro ⟨x, -, h, -⟩
      cases h
  | cons y ys =>
      by_cases hy : p y = true
      · rw [outcomes_symbol hy, List.mem_singleton]
        constructor
        · rintro rfl
          exact ⟨y, hy, rfl, rfl⟩
        · rintro ⟨x, -, hrest, hgroups⟩
          obtain ⟨rest, groups'⟩ := t
          obtain ⟨-, rfl⟩ := List.cons.inj hrest
          cases hgroups
          rfl
      · rw [outcomes_symbol_of_not (Bool.eq_false_iff.mpr hy)]
        refine iff_of_false List.not_mem_nil ?_
        rintro ⟨x, hx, hrest, -⟩
        rw [(List.cons.inj hrest).1] at hy
        exact hy hx

end Symbols

section Combinations

variable {a b : Pattern α} {s t : State α}

theorem mem_seq_iff : t ∈ outcomes (.seq a b) s ↔ ∃ m ∈ outcomes a s, t ∈ outcomes b m :=
  List.mem_flatMap

theorem mem_alt_iff : t ∈ outcomes (.alt a b) s ↔ t ∈ outcomes a s ∨ t ∈ outcomes b s :=
  List.mem_append

theorem mem_option_iff : t ∈ outcomes (.option a) s ↔ t ∈ outcomes a s ∨ t = s := by
  change t ∈ outcomes a s ++ [s] ↔ _
  rw [List.mem_append, List.mem_singleton]

theorem mem_group_iff {n : Nat} :
    t ∈ outcomes (.group n a) s ↔ ∃ m ∈ outcomes a s, m.capture n s.rest = t :=
  List.mem_map

/-- An option cannot fail. -/
theorem outcomes_option_ne_nil : outcomes (.option a) s ≠ [] :=
  List.append_ne_nil_of_right_ne_nil _ (List.cons_ne_nil s [])

theorem outcomes_seq_ne_nil (ha : outcomes a s ≠ []) (hb : ∀ m, outcomes b m ≠ []) :
    outcomes (.seq a b) s ≠ [] := by
  obtain ⟨m, ms, hcons⟩ := List.exists_cons_of_ne_nil ha
  change (outcomes a s).flatMap (outcomes b) ≠ []
  rw [hcons, List.flatMap_cons]
  exact List.append_ne_nil_of_left_ne_nil (hb m) _

theorem outcomes_seq : outcomes (.seq a b) s = (outcomes a s).flatMap (outcomes b) := rfl

theorem outcomes_alt : outcomes (.alt a b) s = outcomes a s ++ outcomes b s := rfl

theorem outcomes_option : outcomes (.option a) s = outcomes a s ++ [s] := rfl

theorem outcomes_group (n : Nat) :
    outcomes (.group n a) s = (outcomes a s).map (State.capture n s.rest) := rfl

end Combinations

section Repetitions

variable {p : α → Bool}

/-- The longest run comes first, and the others could have gone on. -/
theorem runs_eq_cons (p : α → Bool) (xs : List α) :
    ∃ others, runs p xs = xs.dropWhile p :: others ∧
      ∀ ys ∈ others, ∃ y zs, ys = y :: zs ∧ p y = true := by
  induction xs with
  | nil => exact ⟨[], rfl, List.forall_mem_nil _⟩
  | cons x xs ih =>
      obtain ⟨others, hruns, hothers⟩ := ih
      by_cases hx : p x = true
      · refine ⟨others ++ [x :: xs], ?_, ?_⟩
        · rw [runs, if_pos hx, hruns, List.dropWhile_cons_of_pos hx, List.cons_append]
        · intro ys hys
          rcases List.mem_append.mp hys with hmem | hmem
          · exact hothers ys hmem
          · rw [List.mem_singleton.mp hmem]
            exact ⟨x, xs, rfl, hx⟩
      · refine ⟨[], ?_, List.forall_mem_nil _⟩
        rw [runs, if_neg hx, List.dropWhile_cons_of_neg hx]

/-- Whatever a run uses up is in the class. -/
theorem append_of_mem_runs {xs : List α} : ∀ {ys}, ys ∈ runs p xs →
    ∃ used, xs = used ++ ys ∧ ∀ x ∈ used, p x = true := by
  induction xs with
  | nil =>
      intro ys h
      rw [List.mem_singleton.mp h]
      exact ⟨[], rfl, List.forall_mem_nil _⟩
  | cons x xs ih =>
      intro ys h
      rw [runs] at h
      split at h
      · next hx =>
          rcases List.mem_append.mp h with hmem | hmem
          · obtain ⟨used, hused, hall⟩ := ih hmem
            exact ⟨x :: used, by rw [hused]; rfl, List.forall_mem_cons.mpr ⟨hx, hall⟩⟩
          · rw [List.mem_singleton.mp hmem]
            exact ⟨[], rfl, List.forall_mem_nil _⟩
      · rw [List.mem_singleton.mp h]
        exact ⟨[], rfl, List.forall_mem_nil _⟩

/-- The whole class may be used up. -/
theorem mem_runs_of_append {used ys : List α} (h : ∀ x ∈ used, p x = true) :
    ys ∈ runs p (used ++ ys) := by
  induction used with
  | nil =>
      cases ys with
      | nil => exact List.mem_singleton.mpr rfl
      | cons y ys =>
          change y :: ys ∈ runs p (y :: ys)
          rw [runs]
          split
          · exact List.mem_append_right _ (List.mem_singleton.mpr rfl)
          · exact List.mem_singleton.mpr rfl
  | cons x used ih =>
      have hx := h x List.mem_cons_self
      change ys ∈ runs p (x :: (used ++ ys))
      rw [runs, if_pos hx]
      exact List.mem_append_left _ (ih fun y hy => h y (List.mem_cons_of_mem _ hy))

variable {groups : List (Nat × List α)} {used rest : List α}

/-- Where the class ends. -/
theorem dropWhile_append_of_end (hused : ∀ x ∈ used, p x = true)
    (hend : ∀ x ∈ rest.head?, p x = false) : (used ++ rest).dropWhile p = rest := by
  cases rest with
  | nil => rw [List.append_nil, List.dropWhile_eq_nil_iff.mpr hused]
  | cons x xs => exact Scan.dropWhile_append_cons xs hused (hend x rfl)

theorem outcomes_many : outcomes (.many p) ⟨rest, groups⟩ =
    (runs p rest).map fun left => ⟨left, groups⟩ := rfl

theorem outcomes_plus_cons {x : α} (hx : p x = true) (xs : List α) :
    outcomes (.plus p) ⟨x :: xs, groups⟩ = (runs p xs).map fun left => ⟨left, groups⟩ := by
  change (outcomes (.symbol p) ⟨x :: xs, groups⟩).flatMap (outcomes (.many p)) = _
  rw [outcomes_symbol hx, List.flatMap_singleton, outcomes_many]

theorem outcomes_plus_of_end (hend : ∀ x ∈ rest.head?, p x = false) :
    outcomes (.plus p) ⟨rest, groups⟩ = [] := by
  change (outcomes (.symbol p) ⟨rest, groups⟩).flatMap (outcomes (.many p)) = _
  cases rest with
  | nil => rfl
  | cons x xs =>
      rw [outcomes_symbol_of_not (hend x rfl)]
      rfl

/-- **Any outcome** of a repetition uses up some of the class. -/
theorem mem_plus_iff {s t : State α} : t ∈ outcomes (.plus p) s ↔
    ∃ used, used ≠ [] ∧ (∀ x ∈ used, p x = true) ∧ s.rest = used ++ t.rest ∧
      t.groups = s.groups := by
  obtain ⟨subject, groups⟩ := s
  obtain ⟨left, groups'⟩ := t
  constructor
  · intro h
    obtain ⟨m, hm, ht⟩ := List.mem_flatMap.mp h
    obtain ⟨x, hx, hrest, hgroups⟩ := mem_symbol_iff.mp hm
    obtain ⟨ys, hys, heq⟩ := List.mem_map.mp ht
    obtain ⟨used, hused, hall⟩ := append_of_mem_runs hys
    cases heq
    refine ⟨x :: used, List.cons_ne_nil _ _, List.forall_mem_cons.mpr ⟨hx, hall⟩, ?_, hgroups⟩
    rw [hrest, hused]
    rfl
  · rintro ⟨used, hne, hall, hrest, hgroups⟩
    cases used with
    | nil => exact absurd rfl hne
    | cons x used =>
        obtain ⟨hx, hused⟩ := List.forall_mem_cons.mp hall
        cases hgroups
        cases hrest
        change _ ∈ outcomes (.plus p) ⟨x :: (used ++ left), groups⟩
        rw [outcomes_plus_cons hx]
        exact List.mem_map.mpr ⟨left, mem_runs_of_append hused, rfl⟩

/-- The outcomes of a repetition: the longest one, and others that could have
gone on. -/
theorem outcomes_plus_eq_cons (groups : List (Nat × List α)) (hne : used ≠ [])
    (hused : ∀ x ∈ used, p x = true) (hend : ∀ x ∈ rest.head?, p x = false) :
    ∃ others, outcomes (.plus p) ⟨used ++ rest, groups⟩ = ⟨rest, groups⟩ :: others ∧
      ∀ t ∈ others, ∃ y ys, t = ⟨y :: ys, groups⟩ ∧ p y = true := by
  cases used with
  | nil => exact absurd rfl hne
  | cons x used =>
      obtain ⟨hx, hused⟩ := List.forall_mem_cons.mp hused
      obtain ⟨others, hruns, hothers⟩ := runs_eq_cons p (used ++ rest)
      rw [dropWhile_append_of_end hused hend] at hruns
      refine ⟨others.map fun left => ⟨left, groups⟩, ?_, ?_⟩
      · rw [List.cons_append, outcomes_plus_cons hx, hruns, List.map_cons]
      · intro t ht
        obtain ⟨ys, hys, rfl⟩ := List.mem_map.mp ht
        obtain ⟨y, zs, rfl, hy⟩ := hothers ys hys
        exact ⟨y, zs, rfl, hy⟩

/-- **What follows gets stuck** wherever the repetition could have gone on. -/
theorem flatMap_plus_stuck (f : State α → List β) (hne : used ≠ [])
    (hused : ∀ x ∈ used, p x = true) (hend : ∀ x ∈ rest.head?, p x = false)
    (hstuck : ∀ y ys, p y = true → f ⟨y :: ys, groups⟩ = []) :
    (outcomes (.plus p) ⟨used ++ rest, groups⟩).flatMap f = f ⟨rest, groups⟩ := by
  obtain ⟨others, houtcomes, hothers⟩ := outcomes_plus_eq_cons groups hne hused hend
  have hnone : others.flatMap f = [] := by
    rw [List.flatMap_eq_nil_iff]
    intro t ht
    obtain ⟨y, ys, rfl, hy⟩ := hothers t ht
    exact hstuck y ys hy
  rw [houtcomes, List.flatMap_cons, hnone, List.append_nil]

/-- **What follows cannot fail**, so the longest run is the first to succeed. -/
theorem head?_flatMap_plus (f : State α → List β) (hne : used ≠ [])
    (hused : ∀ x ∈ used, p x = true) (hend : ∀ x ∈ rest.head?, p x = false)
    (htotal : f ⟨rest, groups⟩ ≠ []) (others : List β) :
    ((outcomes (.plus p) ⟨used ++ rest, groups⟩).flatMap f ++ others).head? =
      (f ⟨rest, groups⟩).head? := by
  obtain ⟨others', houtcomes, -⟩ := outcomes_plus_eq_cons groups hne hused hend
  obtain ⟨t, ts, hcons⟩ := List.exists_cons_of_ne_nil htotal
  rw [houtcomes, List.flatMap_cons, hcons]
  rfl

/-- What is captured. -/
theorem capture_of_append (n : Nat) {start : List α} {s : State α} (h : start = used ++ s.rest) :
    s.capture n start = ⟨s.rest, (n, used) :: s.groups⟩ := by
  unfold State.capture
  rw [h, List.length_append, Nat.add_sub_cancel, List.take_left]

theorem capture_append (n : Nat) (used rest : List α) (groups : List (Nat × List α)) :
    State.capture n (used ++ rest) ⟨rest, groups⟩ = ⟨rest, (n, used) :: groups⟩ :=
  capture_of_append n rfl

end Repetitions

end WsStreaming.Verified.Regex
