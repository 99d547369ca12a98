import Mathlib.Algebra.Ring.Int.Defs
import Mathlib.Algebra.Ring.Nat
import Mathlib.Data.List.Basic

/-!
# Bytes on a wire

Byte strings and the two ways of reading a number from them.  A codec that
packs fields with shifts and ORs is compared with `ofLE` and `ofBE` here: an
OR of fields that do not overlap is a sum (`shiftLeft_or_eq`), so every bit
manipulation becomes linear arithmetic.

## Main results

* `shiftLeft_or_eq` — disjoint fields add up.
* `takeWord_le32` — the four little-endian bytes of a word read back.
* `xorKey_xorKey` — masking twice with the same key is the identity.
-/

namespace WsStreaming.Verified.Wire

/-- A byte string: the contents of a vector, a packet or a buffer sequence. -/
abbrev Bytes := List UInt8

/-! ## Numbers -/

/-- The number written little-endian. -/
def ofLE : Bytes → Nat
  | [] => 0
  | b :: bs => b.toNat + 256 * ofLE bs

/-- The number written big-endian, read from left to right. -/
def ofBE (bs : Bytes) : Nat :=
  bs.foldl (fun n b => 256 * n + b.toNat) 0

/-- The little-endian 32-bit word in front, and what follows it. -/
def takeWord : Bytes → Option (Nat × Bytes)
  | b0 :: b1 :: b2 :: b3 :: bs => some (ofLE [b0, b1, b2, b3], bs)
  | _ => none

theorem takeWord_lt {bs rest : Bytes} {w : Nat} (h : takeWord bs = some (w, rest)) :
    w < 2 ^ 32 := by
  match bs with
  | [] | [_] | [_, _] | [_, _, _] => simp [takeWord] at h
  | b0 :: b1 :: b2 :: b3 :: bs =>
      have h0 := b0.toNat_lt; have h1 := b1.toNat_lt
      have h2 := b2.toNat_lt; have h3 := b3.toNat_lt
      simp only [takeWord, ofLE, Option.some.injEq, Prod.mk.injEq] at h
      omega

theorem takeWord_append {bs rest : Bytes} {w : Nat} (h : takeWord bs = some (w, rest))
    (more : Bytes) : takeWord (bs ++ more) = some (w, rest ++ more) := by
  match bs with
  | [] | [_] | [_, _] | [_, _, _] => simp [takeWord] at h
  | b0 :: b1 :: b2 :: b3 :: bs =>
      simp only [takeWord, Option.some.injEq, Prod.mk.injEq] at h
      simp [takeWord, ← h.1, ← h.2]

theorem takeWord_take {bs rest : Bytes} {w n : Nat} (h : takeWord bs = some (w, rest)) :
    takeWord (bs.take (4 + n)) = some (w, rest.take n) := by
  match bs with
  | [] | [_] | [_, _] | [_, _, _] => simp [takeWord] at h
  | b0 :: b1 :: b2 :: b3 :: bs =>
      simp only [takeWord, Option.some.injEq, Prod.mk.injEq] at h
      simp [Nat.add_comm 4 n, takeWord, ← h.1, ← h.2]

theorem takeWord_length {bs rest : Bytes} {w : Nat} (h : takeWord bs = some (w, rest)) :
    bs.length = 4 + rest.length := by
  match bs with
  | [] | [_] | [_, _] | [_, _, _] => simp [takeWord] at h
  | b0 :: b1 :: b2 :: b3 :: bs =>
      simp only [takeWord, Option.some.injEq, Prod.mk.injEq] at h
      simp only [← h.2, List.length_cons]
      omega

/-- Fields that do not overlap: OR is addition. -/
theorem shiftLeft_or_eq {a b i : Nat} (h : b < 2 ^ i) :
    a <<< i ||| b = a * 2 ^ i + b := by
  rw [← Nat.shiftLeft_add_eq_or_of_lt h, Nat.shiftLeft_eq]

/-- The four little-endian bytes of a 32-bit word
(`boost::endian::native_to_little` followed by a store). -/
def le32 (w : UInt32) : Bytes :=
  [w.toUInt8, (w >>> 8).toUInt8, (w >>> 16).toUInt8, (w >>> 24).toUInt8]

@[simp] theorem length_le32 (w : UInt32) : (le32 w).length = 4 := rfl

theorem ofLE_le32 (w : UInt32) : ofLE (le32 w) = w.toNat := by
  have hw := w.toNat_lt
  simp only [le32, ofLE, UInt32.toNat_toUInt8, UInt32.toNat_shiftRight,
    UInt32.reduceToNat, Nat.reduceMod, Nat.shiftRight_eq_div_pow]
  omega

@[simp] theorem takeWord_le32 (w : UInt32) (bs : Bytes) :
    takeWord (le32 w ++ bs) = some (w.toNat, bs) := by
  rw [← ofLE_le32]
  rfl

/-- The first `n` bytes, and what follows them. -/
def takeBytes (n : Nat) (bs : Bytes) : Option (Bytes × Bytes) :=
  if n ≤ bs.length then some (bs.take n, bs.drop n) else none

theorem takeBytes_eq_some {n : Nat} {bs xs rest : Bytes} :
    takeBytes n bs = some (xs, rest) ↔ xs.length = n ∧ bs = xs ++ rest := by
  unfold takeBytes
  constructor
  · intro h
    split at h
    · simp only [Option.some.injEq, Prod.mk.injEq] at h
      rw [← h.1, ← h.2, List.length_take, List.take_append_drop]
      exact ⟨by omega, rfl⟩
    · simp at h
  · rintro ⟨rfl, rfl⟩
    simp

/-- The big-endian bytes of a 16-bit number. -/
def be16 (w : UInt16) : Bytes := [(w >>> 8).toUInt8, w.toUInt8]

/-- The big-endian bytes of a 64-bit number. -/
def be64 (w : UInt64) : Bytes :=
  [(w >>> 56).toUInt8, (w >>> 48).toUInt8, (w >>> 40).toUInt8, (w >>> 32).toUInt8,
    (w >>> 24).toUInt8, (w >>> 16).toUInt8, (w >>> 8).toUInt8, w.toUInt8]

@[simp] theorem length_be16 (w : UInt16) : (be16 w).length = 2 := rfl

@[simp] theorem length_be64 (w : UInt64) : (be64 w).length = 8 := rfl

theorem ofBE_be16 (w : UInt16) : ofBE (be16 w) = w.toNat := by
  have hw := w.toNat_lt
  simp only [be16, ofBE, List.foldl_cons, List.foldl_nil, UInt16.toNat_toUInt8,
    UInt16.toNat_shiftRight, UInt16.reduceToNat, Nat.reduceMod,
    Nat.shiftRight_eq_div_pow]
  omega

theorem ofBE_be64 (w : UInt64) : ofBE (be64 w) = w.toNat := by
  have hw := w.toNat_lt
  simp only [be64, ofBE, List.foldl_cons, List.foldl_nil, UInt64.toNat_toUInt8,
    UInt64.toNat_shiftRight, UInt64.reduceToNat, Nat.reduceMod,
    Nat.shiftRight_eq_div_pow]
  omega

/-- The little-endian bytes of a 64-bit number. -/
def le64 (w : UInt64) : Bytes :=
  [w.toUInt8, (w >>> 8).toUInt8, (w >>> 16).toUInt8, (w >>> 24).toUInt8,
    (w >>> 32).toUInt8, (w >>> 40).toUInt8, (w >>> 48).toUInt8, (w >>> 56).toUInt8]

@[simp] theorem length_le64 (w : UInt64) : (le64 w).length = 8 := rfl

theorem ofLE_le64 (w : UInt64) : ofLE (le64 w) = w.toNat := by
  have hw := w.toNat_lt
  simp only [le64, ofLE, UInt64.toNat_toUInt8, UInt64.toNat_shiftRight,
    UInt64.reduceToNat, Nat.reduceMod, Nat.shiftRight_eq_div_pow]
  omega

/-! ## Masking -/

/-- XOR with a repeated key, starting at position `i` of the key. -/
def xorKey (key : Nat → UInt8) : Nat → Bytes → Bytes
  | _, [] => []
  | i, b :: bs => (b ^^^ key (i % 4)) :: xorKey key (i + 1) bs

@[simp] theorem length_xorKey (key : Nat → UInt8) (i : Nat) (bs : Bytes) :
    (xorKey key i bs).length = bs.length := by
  induction bs generalizing i with
  | nil => rfl
  | cons b bs ih => simp [xorKey, ih]

/-- Masking is an involution: the receiver recovers what the sender masked. -/
theorem xorKey_xorKey (key : Nat → UInt8) (i : Nat) (bs : Bytes) :
    xorKey key i (xorKey key i bs) = bs := by
  induction bs generalizing i with
  | nil => rfl
  | cons b bs ih => rw [xorKey, xorKey, ih, UInt8.xor_assoc, UInt8.xor_self, UInt8.xor_zero]

end WsStreaming.Verified.Wire
