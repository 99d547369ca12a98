import Mathlib.Data.List.Basic

/-!
# Cutting a stream into frames

A receiver that gets a stream in pieces keeps the bytes of the frame that is
still incomplete, and takes every frame as soon as it is complete.  It gives
up when the frame it waits for does not fit its buffer of `M` elements.  This
module shows that the pieces do not matter: feeding them one after another
takes the frames a single pass over the whole stream takes.

A `Framer` says what the frame in front of a stream is.  Its laws are what
makes cutting possible: a frame is not empty, it is not changed by what
follows it, and it needs no more than its own elements.

## Main results

* `Framer.parse_append` — parsing can stop anywhere and resume with the rest.
* `Framer.foldl_feed` — feeding pieces is parsing their concatenation.
* `Framer.parse_congr` — two framers that agree on the frames one of them
  takes parse alike.
* `Framer.parse_encode`, `Framer.parse_encode_prefix` — a stream written frame
  by frame is read frame by frame, also where it is cut off.
-/

namespace WsStreaming.Verified.Framing

variable {α ε : Type _}

/-- A complete frame: what it delivers, how many elements it occupies, and
whether the receiver stops after it. -/
structure Frame (ε : Type _) where
  items : List ε
  length : Nat
  stop : Bool

/-- What the frame in front of a stream is, `none` while it is incomplete. -/
structure Framer (α ε : Type _) where
  next : List α → Option (Frame ε)
  length_pos {s : List α} {f : Frame ε} : next s = some f → 0 < f.length
  length_le {s : List α} {f : Frame ε} : next s = some f → f.length ≤ s.length
  append {s : List α} {f : Frame ε} (t : List α) :
    next s = some f → next (s ++ t) = some f
  take {s : List α} {f : Frame ε} :
    next s = some f → next (s.take f.length) = some f

/-- A header in front of a payload: how it is read and how long it is. -/
structure Header (α η : Type _) where
  read : List α → Option η
  size : η → Nat
  size_pos {s : List α} {h : η} : read s = some h → 0 < size h
  size_le {s : List α} {h : η} : read s = some h → size h ≤ s.length
  append {s : List α} {h : η} (t : List α) : read s = some h → read (s ++ t) = some h
  take {s : List α} {h : η} (n : Nat) :
    read s = some h → read (s.take (size h + n)) = some h

/-- How a receiver stands: waiting with the elements of an incomplete frame,
stopped by a frame, or given up. -/
inductive Status (α : Type _) where
  | waiting (rest : List α)
  | stopped
  | overflow

namespace Framer

section OfHeader

variable {η : Type _} (H : Header α η) (payloadSize : η → Nat)
  (items : η → List α → List ε) (stop : η → Bool)

/-- The frame of a header `h` in front of the stream. -/
def frameOf (h : η) (s : List α) : Frame ε :=
  { items := items h ((s.drop (H.size h)).take (payloadSize h))
    length := H.size h + payloadSize h
    stop := stop h }

/-- The frame in front of a stream, once it is complete. -/
def nextOf (s : List α) : Option (Frame ε) :=
  (H.read s).bind fun h =>
    if H.size h + payloadSize h ≤ s.length then
      some (frameOf H payloadSize items stop h s)
    else none

theorem nextOf_eq_some {s : List α} {f : Frame ε} :
    nextOf H payloadSize items stop s = some f ↔
      ∃ h, H.read s = some h ∧ H.size h + payloadSize h ≤ s.length ∧
        f = frameOf H payloadSize items stop h s := by
  constructor
  · intro hf
    obtain ⟨h, hread, hf⟩ := Option.bind_eq_some_iff.mp hf
    split at hf
    · exact ⟨h, hread, ‹_›, (Option.some.inj hf).symm⟩
    · cases hf
  · rintro ⟨h, hread, hfit, rfl⟩
    rw [nextOf, hread, Option.bind_some, if_pos hfit]

/-- Frames that consist of a header and a payload whose size it tells. -/
def ofHeader : Framer α ε where
  next := nextOf H payloadSize items stop
  length_pos hf := by
    obtain ⟨h, hread, -, rfl⟩ := (nextOf_eq_some H payloadSize items stop).mp hf
    have hpos := H.size_pos hread
    simp only [frameOf]
    omega
  length_le hf := by
    obtain ⟨h, -, hfit, rfl⟩ := (nextOf_eq_some H payloadSize items stop).mp hf
    exact hfit
  append t hf := by
    obtain ⟨h, hread, hfit, rfl⟩ := (nextOf_eq_some H payloadSize items stop).mp hf
    refine (nextOf_eq_some H payloadSize items stop).mpr
      ⟨h, H.append t hread, by rw [List.length_append]; omega, ?_⟩
    rw [frameOf, frameOf, List.drop_append_of_le_length (by omega),
      List.take_append_of_le_length (by rw [List.length_drop]; omega)]
  take hf := by
    obtain ⟨h, hread, hfit, rfl⟩ := (nextOf_eq_some H payloadSize items stop).mp hf
    refine (nextOf_eq_some H payloadSize items stop).mpr
      ⟨h, H.take _ hread, by simp only [frameOf, List.length_take]; omega, ?_⟩
    simp only [frameOf]
    rw [List.drop_take, Nat.add_sub_cancel_left, List.take_take, Nat.min_self]

end OfHeader

variable (F : Framer α ε)

/-- What follows a frame is shorter than the stream. -/
theorem length_drop_lt {s : List α} {f : Frame ε} (h : F.next s = some f) :
    (s.drop f.length).length < s.length := by
  have hpos := F.length_pos h
  have hle := F.length_le h
  rw [List.length_drop]
  omega

/-- One pass over a whole stream, for a buffer of `M` elements: the frames
taken, and how it ends.  It gives up when the next frame is longer than `M`
and `M` elements of it are there. -/
def parse (M : Nat) (s : List α) : List (Frame ε) × Status α :=
  match _h : F.next s with
  | none => ([], if M ≤ s.length then .overflow else .waiting s)
  | some f =>
      if M < f.length then ([], .overflow)
      else if f.stop then ([f], .stopped)
      else
        let r := parse M (s.drop f.length)
        (f :: r.1, r.2)
termination_by s.length
decreasing_by exact F.length_drop_lt ‹_›

theorem parse_none {M : Nat} {s : List α} (h : F.next s = none) :
    F.parse M s = ([], if M ≤ s.length then .overflow else .waiting s) := by
  rw [parse]
  split
  · rfl
  · rename_i f hf
    rw [h] at hf
    cases hf

theorem parse_some {M : Nat} {s : List α} {f : Frame ε} (h : F.next s = some f) :
    F.parse M s =
      if M < f.length then ([], .overflow)
      else if f.stop then ([f], .stopped)
      else (f :: (F.parse M (s.drop f.length)).1, (F.parse M (s.drop f.length)).2) := by
  rw [parse]
  split
  · rename_i hn
    rw [h] at hn
    cases hn
  · rename_i g hg
    rw [h] at hg
    cases hg
    rfl

/-- Induction along the frames of a stream. -/
theorem stream_induction {motive : List α → Prop}
    (none : ∀ s, F.next s = none → motive s)
    (some : ∀ s f, F.next s = some f → motive (s.drop f.length) → motive s)
    (s : List α) : motive s := by
  generalize hn : s.length = n
  induction n using Nat.strongRecOn generalizing s with
  | ind n ih =>
      cases h : F.next s with
      | none => exact none s h
      | some f => exact some s f h (ih _ (hn ▸ F.length_drop_lt h) _ rfl)

/-- An incomplete frame needs more elements than are there. -/
theorem length_lt_of_next_append {s t : List α} {f : Frame ε} (hs : F.next s = none)
    (h : F.next (s ++ t) = some f) : s.length < f.length := by
  by_contra hle
  have htake := F.take h
  rw [List.take_append_of_le_length (by omega)] at htake
  have hfull := F.append (s.drop f.length) htake
  rw [List.take_append_drop, hs] at hfull
  cases hfull

/-! ## Feeding pieces -/

/-- A receiver that waits parses what it kept together with the new piece. -/
def feed (M : Nat) : List (Frame ε) × Status α → List α → List (Frame ε) × Status α
  | (fs, .waiting rest), piece =>
      (fs ++ (F.parse M (rest ++ piece)).1, (F.parse M (rest ++ piece)).2)
  | (fs, .stopped), _ => (fs, .stopped)
  | (fs, .overflow), _ => (fs, .overflow)

/-- **Parsing can stop anywhere and resume with the rest.** -/
theorem parse_append (M : Nat) (s t : List α) :
    F.parse M (s ++ t) = F.feed M (F.parse M s) t := by
  induction s using F.stream_induction with
  | none s h =>
      rw [F.parse_none h]
      split
      · rename_i hM
        cases ht : F.next (s ++ t) with
        | none =>
            rw [F.parse_none ht, if_pos (by rw [List.length_append]; omega)]
            rfl
        | some f =>
            have hlong := F.length_lt_of_next_append h ht
            rw [F.parse_some ht, if_pos (by omega)]
            rfl
      · simp [feed]
  | some s f h ih =>
      have hle := F.length_le h
      rw [F.parse_some h, F.parse_some (F.append t h)]
      split
      · rfl
      · split
        · rfl
        · rw [List.drop_append_of_le_length hle, ih]
          obtain ⟨gs, status⟩ := F.parse M (s.drop f.length)
          cases status <;> simp [feed]

/-- **Feeding pieces is parsing their concatenation.** -/
theorem foldl_feed (M : Nat) (pieces : List (List α)) :
    ∀ s, pieces.foldl (F.feed M) (F.parse M s) = F.parse M (s ++ pieces.flatten) := by
  induction pieces with
  | nil => intro s; simp
  | cons p ps ih =>
      intro s
      rw [List.foldl_cons, ← parse_append, ih, List.flatten_cons, List.append_assoc]

/-- A receiver that does not wait ignores what it is fed. -/
theorem foldl_feed_of_not_waiting {M : Nat} {fs : List (Frame ε)} (status : Status α)
    (h : ∀ rest, status ≠ .waiting rest) (pieces : List (List α)) :
    pieces.foldl (F.feed M) (fs, status) = (fs, status) := by
  induction pieces with
  | nil => rfl
  | cons p ps ih =>
      cases status with
      | waiting rest => exact absurd rfl (h rest)
      | stopped => exact ih
      | overflow => exact ih

/-- A frame taken fits the buffer, and is the next one somewhere in the
stream. -/
theorem of_mem_parse {M : Nat} {s : List α} {f : Frame ε} (h : f ∈ (F.parse M s).1) :
    f.length ≤ M ∧ ∃ n, F.next (s.drop n) = some f := by
  induction s using F.stream_induction with
  | none s hn => simp [F.parse_none hn] at h
  | some s g hg ih =>
      rw [F.parse_some hg] at h
      split at h
      · simp at h
      · split at h
        · obtain rfl := List.mem_singleton.mp h
          exact ⟨by omega, 0, by rw [List.drop_zero, hg]⟩
        · rcases List.mem_cons.mp h with rfl | h
          · exact ⟨by omega, 0, by rw [List.drop_zero, hg]⟩
          · obtain ⟨hM, n, hn⟩ := ih h
            exact ⟨hM, g.length + n, by rw [← List.drop_drop]; exact hn⟩

/-! ## Comparing two framers -/

/-- **Two framers that agree on the frames one of them takes parse alike.**
`good` is a condition on a frame under which they agree; a frame the first
does not take because it is incomplete or too long is not taken by the second
either. -/
theorem parse_congr {F G : Framer α ε} {M : Nat} (good : Frame ε → Prop)
    (hsome : ∀ s f, F.next s = some f → f.length ≤ M → good f → G.next s = some f)
    (hnone : ∀ s g, G.next s = some g → g.length ≤ M → ∃ f, F.next s = some f ∧ f.length ≤ M)
    {s : List α} (hgood : ∀ f ∈ (F.parse M s).1, good f) :
    G.parse M s = F.parse M s := by
  -- Too long for `F`, or incomplete with `M` elements there: both give up.
  have hstuck : ∀ s, (∀ f, F.next s = some f → M < f.length) → M ≤ s.length →
      G.parse M s = ([], .overflow) := by
    intro s hlong hM
    cases hg : G.next s with
    | none => rw [G.parse_none hg, if_pos hM]
    | some g =>
        have hgM : M < g.length := by
          by_contra hle
          obtain ⟨f, hf, hfM⟩ := hnone s g hg (by omega)
          have := hlong f hf
          omega
        rw [G.parse_some hg, if_pos hgM]
  induction s using F.stream_induction with
  | none s h =>
      rw [F.parse_none h]
      split
      · exact hstuck s (by simp [h]) ‹_›
      · have hg : G.next s = none := by
          cases hg : G.next s with
          | none => rfl
          | some g =>
              have hle := G.length_le hg
              obtain ⟨f, hf, -⟩ := hnone s g hg (by omega)
              rw [h] at hf
              cases hf
        rw [G.parse_none hg, if_neg ‹_›]
  | some s f h ih =>
      rw [F.parse_some h] at hgood ⊢
      split
      · have hle := F.length_le h
        refine hstuck s (fun f' hf' => ?_) (by omega)
        rw [h] at hf'
        cases hf'
        assumption
      · rename_i hM
        rw [if_neg hM] at hgood
        by_cases hstop : f.stop
        · rw [if_pos hstop] at hgood ⊢
          have hg := hsome s f h (by omega) (hgood f (by simp))
          rw [G.parse_some hg, if_neg hM, if_pos hstop]
        · rw [if_neg hstop] at hgood ⊢
          have hg := hsome s f h (by omega) (hgood f (by simp))
          rw [G.parse_some hg, if_neg hM, if_neg hstop,
            ih fun f' hf' => hgood f' (List.mem_cons_of_mem _ hf')]

/-! ## Reading what was written -/

theorem next_nil : F.next [] = none := by
  cases h : F.next [] with
  | none => rfl
  | some f =>
      have hpos := F.length_pos h
      have hle := F.length_le h
      simp at hle
      omega

/-- **A stream written frame by frame is read frame by frame**, with nothing
left over. -/
theorem parse_encode {β : Type _} {M : Nat} (hM : 0 < M) (encode : β → List α)
    (frame : β → Frame ε) (xs : List β)
    (hnext : ∀ x ∈ xs, ∀ rest, F.next (encode x ++ rest) = some (frame x))
    (hlength : ∀ x ∈ xs, (frame x).length = (encode x).length)
    (hfits : ∀ x ∈ xs, (encode x).length ≤ M) (hstop : ∀ x ∈ xs, (frame x).stop = false) :
    F.parse M (xs.map encode).flatten = (xs.map frame, .waiting []) := by
  induction xs with
  | nil =>
      rw [List.map_nil, List.flatten_nil, F.parse_none F.next_nil, List.length_nil,
        if_neg (by omega)]
      rfl
  | cons x xs ih =>
      have hrest := ih (fun y hy => hnext y (List.mem_cons_of_mem _ hy))
        (fun y hy => hlength y (List.mem_cons_of_mem _ hy))
        (fun y hy => hfits y (List.mem_cons_of_mem _ hy))
        (fun y hy => hstop y (List.mem_cons_of_mem _ hy))
      have hx : x ∈ x :: xs := List.mem_cons_self
      have hfit := hfits x hx
      rw [List.map_cons, List.flatten_cons, F.parse_some (hnext x hx _), hlength x hx,
        if_neg (by omega), hstop x hx, List.drop_left, hrest]
      rfl

/-- **A stream that is cut off.**  Of what was written frame by frame, the frames
that are there in full are read, and the receiver waits for the rest of the next
one. -/
theorem parse_encode_prefix {β : Type _} {M : Nat} (hM : 0 < M) (encode : β → List α)
    (frame : β → Frame ε) (xs : List β)
    (hnext : ∀ x ∈ xs, ∀ rest, F.next (encode x ++ rest) = some (frame x))
    (hlength : ∀ x ∈ xs, (frame x).length = (encode x).length)
    (hfits : ∀ x ∈ xs, (encode x).length ≤ M) (hstop : ∀ x ∈ xs, (frame x).stop = false) :
    ∀ s, s <+: (xs.map encode).flatten →
      ∃ n rest, F.parse M s = ((xs.take n).map frame, .waiting rest) := by
  induction xs with
  | nil =>
      intro s hs
      rw [List.prefix_nil.mp hs, F.parse_none F.next_nil, List.length_nil, if_neg (by omega)]
      exact ⟨0, [], rfl⟩
  | cons x xs ih =>
      intro s hs
      have hx : x ∈ x :: xs := List.mem_cons_self
      have hfit := hfits x hx
      rw [List.map_cons, List.flatten_cons] at hs
      have hwhole := hnext x hx []
      rw [List.append_nil] at hwhole
      by_cases hshort : s.length < (encode x).length
      · -- The first frame is not all there.
        obtain ⟨t, ht⟩ := List.prefix_of_prefix_length_le hs (List.prefix_append _ _)
          (Nat.le_of_lt hshort)
        have hnone : F.next s = none := by
          cases hs' : F.next s with
          | none => rfl
          | some f =>
              have hle := F.length_le hs'
              have happend := F.append t hs'
              rw [ht, hwhole, Option.some_inj] at happend
              rw [← happend, hlength x hx] at hle
              omega
        rw [F.parse_none hnone, if_neg (by omega)]
        exact ⟨0, s, rfl⟩
      · obtain ⟨t, rfl⟩ := List.prefix_of_prefix_length_le (List.prefix_append _ _) hs
          (Nat.le_of_not_lt hshort)
        obtain ⟨n, rest, hrest⟩ := ih (fun y hy => hnext y (List.mem_cons_of_mem _ hy))
          (fun y hy => hlength y (List.mem_cons_of_mem _ hy))
          (fun y hy => hfits y (List.mem_cons_of_mem _ hy))
          (fun y hy => hstop y (List.mem_cons_of_mem _ hy)) t
          ((List.prefix_append_right_inj _).mp hs)
        refine ⟨n + 1, rest, ?_⟩
        rw [F.parse_some (hnext x hx _), hlength x hx, if_neg (by omega), hstop x hx,
          List.drop_left, hrest]
        rfl

/-! ## All frames of a stream -/

/-- Every complete frame of a stream, whatever its length. -/
def drain (s : List α) : List (Frame ε) := (F.parse (s.length + 1) s).1

/-- A buffer larger than the stream never overflows, however large it is. -/
theorem parse_fst_eq_of_lt {M N : Nat} {s : List α} (hM : s.length < M)
    (hN : s.length < N) : (F.parse M s).1 = (F.parse N s).1 := by
  induction s using F.stream_induction with
  | none s hn => rw [F.parse_none hn, F.parse_none hn]
  | some s f hf ih =>
      have hle := F.length_le hf
      have hlt := F.length_drop_lt hf
      have hdrop := ih (by omega) (by omega)
      rw [F.parse_some hf, F.parse_some hf, if_neg (show ¬ M < f.length by omega),
        if_neg (show ¬ N < f.length by omega)]
      split
      · rfl
      · simp only [hdrop]

theorem drain_none {s : List α} (h : F.next s = none) : F.drain s = [] := by
  rw [drain, F.parse_none h]

theorem drain_some {s : List α} {f : Frame ε} (h : F.next s = some f) :
    F.drain s = if f.stop then [f] else f :: F.drain (s.drop f.length) := by
  have hle := F.length_le h
  have hlt := F.length_drop_lt h
  have hrest : (F.parse (s.length + 1) (s.drop f.length)).1 = F.drain (s.drop f.length) :=
    F.parse_fst_eq_of_lt (by omega) (by omega)
  rw [drain, F.parse_some h, if_neg (by omega)]
  split
  · rfl
  · simp only [hrest]

end Framer

end WsStreaming.Verified.Framing
