import Mathlib.Data.List.Basic

/-!
# Equal-sized blocks seen as one flat array

A deque of equally long vectors is a chopped-up array.  Reasoning about a
store that crosses a block boundary, or about a rotation of the deque, is
easy on the flat array and tedious on the blocks, so this module moves the
three operations a block store performs — writing inside one block, reading
a slice of one block, and rotating the deque — to the flat array.

## Main results

* `overwrite_append` — two adjacent stores are one store.
* `flatten_storeAt` — a store inside block `i` is a store at `i * B` in the
  flat array.
* `slice_flatten` — a slice of block `i` is a slice of the flat array.
* `flatten_rotate` — moving the first block to the back rotates the flat
  array by one block.
-/

namespace WsStreaming.Verified.Blocks

variable {α : Type _}

/-! ## Stores into a flat array -/

/-- Store `xs` at position `off`, leaving every other cell alone. -/
def overwrite (v : List α) (off : Nat) (xs : List α) : List α :=
  v.take off ++ xs ++ v.drop (off + xs.length)

@[simp] theorem overwrite_nil (v : List α) (off : Nat) :
    overwrite v off [] = v := by
  simp [overwrite]

theorem length_overwrite {v xs : List α} {off : Nat}
    (h : off + xs.length ≤ v.length) :
    (overwrite v off xs).length = v.length := by
  simp only [overwrite, List.length_append, List.length_take, List.length_drop]
  omega

/-- The array up to the end of a store: the old prefix, then the new cells. -/
theorem take_overwrite_end {v : List α} (xs : List α) {off : Nat} (h : off ≤ v.length) :
    (overwrite v off xs).take (off + xs.length) = v.take off ++ xs := by
  have hlen : (v.take off ++ xs).length = off + xs.length := by
    simp [Nat.min_eq_left h]
  rw [overwrite, ← hlen, List.take_left]

/-- A store does not reach behind its own position. -/
theorem take_overwrite_of_le {v xs : List α} {off n : Nat}
    (hn : n ≤ off) (h : off ≤ v.length) :
    (overwrite v off xs).take n = v.take n := by
  rw [overwrite, List.append_assoc, List.take_append_of_le_length (by simp; omega),
    List.take_take, Nat.min_eq_left hn]

/-- Nor does it change what lies behind it. -/
theorem drop_overwrite_end {v xs : List α} {off : Nat} (h : off ≤ v.length) :
    (overwrite v off xs).drop (off + xs.length) = v.drop (off + xs.length) := by
  have hlen : (v.take off ++ xs).length = off + xs.length := by
    simp [Nat.min_eq_left h]
  rw [overwrite, ← hlen, List.drop_left]

/-- A store is read back. -/
theorem slice_overwrite {v : List α} {off : Nat} (xs : List α) (h : off ≤ v.length) :
    ((overwrite v off xs).drop off).take xs.length = xs := by
  have hdrop := congrArg (List.drop off) (take_overwrite_end xs h)
  rw [List.drop_take, Nat.add_sub_cancel_left] at hdrop
  rw [hdrop]
  exact List.drop_left' (by rw [List.length_take]; omega)

/-- Two adjacent stores are one store. -/
theorem overwrite_append {v xs ys : List α} {off : Nat} (h : off ≤ v.length) :
    overwrite (overwrite v off xs) (off + xs.length) ys =
      overwrite v off (xs ++ ys) := by
  have htake : (overwrite v off xs).take (off + xs.length) = v.take off ++ xs :=
    take_overwrite_end _ h
  have hlen : (v.take off ++ xs).length = off + xs.length := by
    simp [Nat.min_eq_left h]
  have hdrop : (overwrite v off xs).drop (off + xs.length + ys.length) =
      v.drop (off + (xs ++ ys).length) := by
    rw [overwrite, ← hlen, List.drop_length_add_append, List.drop_drop,
      hlen, List.length_append, Nat.add_assoc]
  rw [overwrite, htake, hdrop, overwrite]
  simp only [List.append_assoc]

/-! ## Blocks of one length -/

/-- Every block has length `B`. -/
def Uniform (B : Nat) (blocks : List (List α)) : Prop :=
  ∀ b ∈ blocks, b.length = B

theorem Uniform.tail {B : Nat} {b : List α} {bs : List (List α)}
    (h : Uniform B (b :: bs)) : Uniform B bs :=
  fun c hc => h c (List.mem_cons_of_mem _ hc)

theorem Uniform.append {B : Nat} {bs cs : List (List α)}
    (hb : Uniform B bs) (hc : Uniform B cs) : Uniform B (bs ++ cs) := by
  intro d hd
  rcases List.mem_append.mp hd with hd | hd
  · exact hb d hd
  · exact hc d hd

theorem length_flatten {B : Nat} {blocks : List (List α)}
    (h : Uniform B blocks) : blocks.flatten.length = blocks.length * B := by
  induction blocks with
  | nil => simp
  | cons b bs ih =>
      have hb : b.length = B := h b (by simp)
      rw [List.flatten_cons, List.length_append, hb, ih h.tail, List.length_cons,
        Nat.succ_mul, Nat.add_comm]

/-- Store `xs` at `off` inside block `i`. -/
def storeAt (blocks : List (List α)) (i off : Nat) (xs : List α) :
    List (List α) :=
  blocks.modify i fun v => overwrite v off xs

@[simp] theorem length_storeAt (blocks : List (List α)) (i off : Nat)
    (xs : List α) : (storeAt blocks i off xs).length = blocks.length := by
  simp [storeAt]

theorem Uniform.storeAt {B : Nat} {blocks : List (List α)} {i off : Nat}
    {xs : List α} (h : Uniform B blocks) (hfit : off + xs.length ≤ B) :
    Uniform B (storeAt blocks i off xs) := by
  intro b hb
  rw [Blocks.storeAt, List.mem_iff_getElem] at hb
  obtain ⟨j, hj, rfl⟩ := hb
  rw [List.length_modify] at hj
  rw [List.getElem_modify]
  have hlen : (blocks[j]).length = B := h _ (List.getElem_mem hj)
  split
  · rw [length_overwrite (by omega), hlen]
  · exact hlen

/-- **A store inside one block is a store in the flat array.** -/
theorem flatten_storeAt {B : Nat} {blocks : List (List α)} {i off : Nat}
    {xs : List α} (h : Uniform B blocks) (hi : i < blocks.length)
    (hfit : off + xs.length ≤ B) :
    (storeAt blocks i off xs).flatten =
      overwrite blocks.flatten (i * B + off) xs := by
  induction blocks generalizing i with
  | nil => simp at hi
  | cons b bs ih =>
      have hb : b.length = B := h b (by simp)
      cases i with
      | zero =>
          simp only [storeAt, List.modify_zero_cons, List.flatten_cons, overwrite,
            Nat.zero_mul, Nat.zero_add]
          rw [List.take_append_of_le_length (by omega),
            List.drop_append_of_le_length (by omega)]
          simp only [List.append_assoc]
      | succ i =>
          have hih := ih h.tail (Nat.lt_of_succ_lt_succ hi)
          simp only [storeAt] at hih
          have hpos : (i + 1) * B + off = b.length + (i * B + off) := by
            rw [hb, Nat.succ_mul]; omega
          simp only [storeAt, List.modify_succ_cons, List.flatten_cons, hih]
          rw [overwrite, overwrite, hpos, List.take_length_add_append,
            Nat.add_assoc b.length, List.drop_length_add_append]
          simp only [List.append_assoc]

/-- **A slice of block `i` is a slice of the flat array.** -/
theorem slice_flatten {B : Nat} {blocks : List (List α)} {i off n : Nat}
    (h : Uniform B blocks) (hi : i < blocks.length) (hfit : off + n ≤ B) :
    (blocks[i].drop off).take n =
      (blocks.flatten.drop (i * B + off)).take n := by
  induction blocks generalizing i with
  | nil => simp at hi
  | cons b bs ih =>
      have hb : b.length = B := h b (by simp)
      cases i with
      | zero =>
          simp only [List.getElem_cons_zero, List.flatten_cons, Nat.zero_mul,
            Nat.zero_add]
          rw [List.drop_append_of_le_length (by omega),
            List.take_append_of_le_length (by simp; omega)]
      | succ i =>
          have hih := ih h.tail (Nat.lt_of_succ_lt_succ hi)
          have hpos : (i + 1) * B + off = b.length + (i * B + off) := by
            rw [hb, Nat.succ_mul]; omega
          simp only [List.getElem_cons_succ, List.flatten_cons, hih]
          rw [hpos, List.drop_length_add_append]

/-- Moving the first block to the back rotates the flat array. -/
theorem flatten_rotate (b : List α) (bs : List (List α)) :
    (bs ++ [b]).flatten = (b :: bs).flatten.drop b.length ++ b := by
  simp

end WsStreaming.Verified.Blocks
