import Mathlib.Algebra.BigOperators.Group.List.Basic
import Mathlib.Data.UInt

/-!
# Extents of memory

Pointers and sizes are machine words, and a pointer is made by adding offsets.
An `Extent` keeps the words that are added, the last of which is a length, and
the size of the memory that the extent should lie in.  It is inside if the words
add up to no more than that, in the natural numbers; then nothing wraps around
where the program adds them as words.
-/

namespace WsStreaming.Verified.Words

/-- The sum of words, as natural numbers. -/
def total (parts : List UInt64) : Nat := (parts.map UInt64.toNat).sum

@[simp] theorem total_nil : total [] = 0 := rfl

@[simp] theorem total_cons (w : UInt64) (parts : List UInt64) :
    total (w :: parts) = w.toNat + total parts := rfl

/-- **No wrap-around.**  Words whose sum fits in a word add up to it. -/
theorem toNat_sum {parts : List UInt64} (h : total parts < 2 ^ 64) :
    parts.sum.toNat = total parts := by
  induction parts with
  | nil => rfl
  | cons w parts ih =>
      rw [total_cons] at h ⊢
      have hrest := ih (by omega)
      rw [List.sum_cons, UInt64.toNat_add, hrest]
      exact Nat.mod_eq_of_lt h

theorem toNat_add_of_le {a b : UInt64} {n : Nat} (h : a.toNat + b.toNat ≤ n) (hn : n < 2 ^ 64) :
    (a + b).toNat = a.toNat + b.toNat := by
  rw [UInt64.toNat_add]
  exact Nat.mod_eq_of_lt (by omega)

theorem toNat_sub_of_toNat_le {a b : UInt64} (h : b.toNat ≤ a.toNat) :
    (a - b).toNat = a.toNat - b.toNat :=
  UInt64.toNat_sub_of_le a b (UInt64.le_iff_toNat_le.mpr h)

/-- Two natural numbers that fit in a word together: neither they nor their sum
is cut off. -/
theorem toNat_ofNat_of_add_le {a b n : Nat} (h : a + b ≤ n) (hn : n < 2 ^ 64) :
    (UInt64.ofNat a).toNat = a ∧ (UInt64.ofNat b).toNat = b ∧
      (UInt64.ofNat a + UInt64.ofNat b).toNat = a + b := by
  have ha := UInt64.toNat_ofNat_of_lt' (show a < 2 ^ 64 by omega)
  have hb := UInt64.toNat_ofNat_of_lt' (show b < 2 ^ 64 by omega)
  refine ⟨ha, hb, ?_⟩
  rw [toNat_add_of_le (n := n) (by omega) hn, ha, hb]

/-- Words that are added, and where the sum has to stay. -/
structure Extent where
  parts : List UInt64
  limit : UInt64
deriving DecidableEq, Repr

namespace Extent

/-- The extent lies in its memory. -/
def Inside (e : Extent) : Prop := total e.parts ≤ e.limit.toNat

instance (e : Extent) : Decidable e.Inside := inferInstanceAs (Decidable (_ ≤ _))

/-- The words of an extent that is inside do not wrap around. -/
theorem Inside.toNat_sum {e : Extent} (h : e.Inside) : e.parts.sum.toNat = total e.parts := by
  have hlimit := e.limit.toNat_lt
  unfold Inside at h
  exact Words.toNat_sum (by omega)

end Extent

end WsStreaming.Verified.Words
