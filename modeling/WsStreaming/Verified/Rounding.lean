import Mathlib.Algebra.Order.Round
import Mathlib.Tactic.Linarith

/-!
# Rounding by truncation

A number is often rounded by adding a half and cutting off what is behind the
point.  Where less than a half is added, some of the numbers that should be
rounded up are not.

## Main results

* `floor_add` — cutting off after something less than one is added.
* `floor_add_eq_round_iff` — which numbers come out as the nearest integer.
-/

namespace WsStreaming.Verified.Rounding

variable {K : Type _} [Field K] [LinearOrder K] [IsStrictOrderedRing K] [FloorRing K]

/-- What is added carries over the next integer, or it does not. -/
theorem floor_add (q : K) {a : K} (hnonneg : 0 ≤ a) (hlt : a < 1) :
    ⌊q + a⌋ = if 1 ≤ Int.fract q + a then ⌊q⌋ + 1 else ⌊q⌋ := by
  have hsplit : (⌊q⌋ : K) + Int.fract q = q := Int.floor_add_fract q
  have hfract := Int.fract_lt_one q
  have hfloor := Int.fract_nonneg q
  by_cases hcarry : 1 ≤ Int.fract q + a
  · rw [if_pos hcarry, Int.floor_eq_iff]
    push_cast
    constructor <;> linarith
  · rw [if_neg hcarry, Int.floor_eq_iff]
    rw [not_le] at hcarry
    constructor <;> linarith

/-- **Adding less than a half.**  The nearest integer comes out where the number
is to be rounded down, and where what is added carries over anyway. -/
theorem floor_add_eq_round_iff (q : K) {a : K} (hnonneg : 0 ≤ a) (hle : a ≤ 1 / 2) :
    ⌊q + a⌋ = round q ↔ Int.fract q < 1 / 2 ∨ 1 ≤ Int.fract q + a := by
  have hhalf : (1 / 2 : K) < 1 := one_half_lt_one
  rw [round_eq, floor_add q hnonneg (hle.trans_lt hhalf), floor_add q (by linarith) hhalf]
  by_cases hdown : Int.fract q < 1 / 2
  · have hcarry : ¬ 1 ≤ Int.fract q + a := by linarith
    have hround : ¬ 1 ≤ Int.fract q + 1 / 2 := by linarith
    rw [if_neg hcarry, if_neg hround]
    exact iff_of_true rfl (.inl hdown)
  · rw [not_lt] at hdown
    have hround : 1 ≤ Int.fract q + 1 / 2 := by linarith
    rw [if_pos hround]
    by_cases hcarry : 1 ≤ Int.fract q + a
    · rw [if_pos hcarry]
      exact iff_of_true rfl (.inr hcarry)
    · rw [if_neg hcarry]
      apply iff_of_false
      · omega
      · rintro (h | h)
        · exact absurd h (not_lt.mpr hdown)
        · exact hcarry h

end WsStreaming.Verified.Rounding
