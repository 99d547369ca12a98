import WsStreaming.Ports.Metadata
import WsStreaming.Verified.Rounding
import Mathlib.Algebra.Order.Floor.Semifield
import Mathlib.Data.Rat.Floor
import Mathlib.Tactic.FieldSimp
import Mathlib.Tactic.Positivity
import Mathlib.Tactic.Ring

/-!
# Signal rates

A device gives the interval between packets in units of 2^-64 seconds, and
`metadata::tcp_signal_rate_ticks` converts it to ticks per sample.  To round it,
half a tick should be added before it is cut off.  What is added is a half
divided by the denominator of the tick, since the other term has been
multiplied by it already.

## Main results

* `ticks_eq_floor` — what the conversion computes.
* `tcpSignalRateTicks_eq_round_iff` — when that is the nearest tick.
* `ticks_rounded_down` — a signal with 600000 samples each second.
-/

namespace WsStreaming.Ports

open WsStreaming.Verified

/-- What a signal rate gives. -/
structure SignalRate where
  seconds : UInt32
  fraction : UInt32
  subFraction : UInt32
  samples : UInt32
deriving DecidableEq, Repr

namespace SignalRate

variable (r : SignalRate) (numerator denominator : UInt64)

/-- The interval between packets in units of 2^-64 seconds. -/
def ticks264 : Nat :=
  (r.seconds.toNat * 2 ^ 32 + r.fraction.toNat) * 2 ^ 32 + r.subFraction.toNat

/-- The exact interval between samples, in ticks of `numerator / denominator`
seconds. -/
def interval : ℚ :=
  ((r.seconds.toNat * 2 ^ 64 + r.fraction.toNat * 2 ^ 32 + r.subFraction.toNat) *
      denominator.toNat) / (2 ^ 64 * r.samples.toNat * numerator.toNat)

/-- A signal rate is what the metadata give. -/
structure IsRateOf (m : Metadata) (rate : Json) : Prop where
  signalRate : m.json.find? "signalRate" = some rate
  isObject : rate.isObject = true
  seconds : rate.jsonPtr Json.uint32? ["delta", "seconds"] 0 = some r.seconds
  fraction : rate.jsonPtr Json.uint32? ["delta", "fraction"] 0 = some r.fraction
  subFraction : rate.jsonPtr Json.uint32? ["delta", "subFraction"] 0 = some r.subFraction
  samples : rate.jsonPtr Json.uint32? ["samples"] 1 = some r.samples

/-- A signal rate as a device sends it. -/
def toJson : Json :=
  .object
    [("delta", .object
        [("fraction", .integer r.fraction.toNat), ("seconds", .integer r.seconds.toNat),
         ("subFraction", .integer r.subFraction.toNat)]),
     ("samples", .integer r.samples.toNat)]

/-- Metadata with a signal rate and nothing else. -/
def toMetadata : Metadata := .ofJson (.object [("signalRate", r.toJson)])

/-- Whatever a device sends is read back. -/
theorem isRateOf_toMetadata : r.IsRateOf r.toMetadata r.toJson := by
  have hvalue (n : UInt32) : UInt32.ofInt n.toNat = n := by
    have hmod : ((n.toNat : Int) % 2 ^ 32).toNat = n.toNat := by
      have hlt := n.toNat_lt
      omega
    unfold UInt32.ofInt
    rw [hmod, UInt32.ofNat_toNat]
  constructor
  · rfl
  · rfl
  · exact congrArg some (hvalue r.seconds)
  · exact congrArg some (hvalue r.fraction)
  · exact congrArg some (hvalue r.subFraction)
  · exact congrArg some (hvalue r.samples)

variable {r numerator denominator}

theorem ticks_of_isRateOf {m : Metadata} {rate : Json} (h : r.IsRateOf m rate) :
    m.tcpSignalRateTicks numerator denominator =
      Metadata.ticks r.seconds r.fraction r.subFraction r.samples numerator denominator := by
  unfold Metadata.tcpSignalRateTicks
  rw [h.signalRate, Option.filter_some_pos h.isObject]
  dsimp only
  rw [h.seconds, h.fraction, h.subFraction, h.samples]
  rfl

theorem interval_nonneg : 0 ≤ r.interval numerator denominator := by
  unfold interval
  positivity

/-- The quotient that is cut off. -/
theorem quotient_eq (hsamples : r.samples ≠ 0) (hnumerator : numerator ≠ 0)
    (hdenominator : denominator ≠ 0) :
    ((r.ticks264 * denominator.toNat * (2 * denominator.toNat) +
        2 ^ 64 * numerator.toNat * r.samples.toNat : Nat) : ℚ) /
      ((2 * denominator.toNat * (2 ^ 64 * r.samples.toNat * numerator.toNat) : Nat) : ℚ) =
      r.interval numerator denominator + 1 / (2 * denominator.toNat) := by
  have hs : (r.samples.toNat : ℚ) ≠ 0 := by
    exact_mod_cast fun h => hsamples (UInt32.toNat_inj.mp h)
  have hn : (numerator.toNat : ℚ) ≠ 0 := by
    exact_mod_cast fun h => hnumerator (UInt64.toNat_inj.mp h)
  have hd : (denominator.toNat : ℚ) ≠ 0 := by
    exact_mod_cast fun h => hdenominator (UInt64.toNat_inj.mp h)
  unfold interval ticks264
  push_cast
  field_simp
  ring

/-- **The conversion** adds a half divided by the denominator. -/
theorem ticks_eq_floor (hsamples : r.samples ≠ 0) (hnumerator : numerator ≠ 0)
    (hdenominator : denominator ≠ 0) :
    Metadata.ticks r.seconds r.fraction r.subFraction r.samples numerator denominator =
      some (UInt64.ofNat ⌊r.interval numerator denominator + 1 / (2 * denominator.toNat)⌋₊) := by
  have hnone : ¬ (r.samples = 0 ∨ numerator = 0 ∨ denominator = 0) := by
    rintro (h | h | h)
    · exact hsamples h
    · exact hnumerator h
    · exact hdenominator h
  unfold Metadata.ticks
  dsimp only
  rw [if_neg hnone, ← quotient_eq hsamples hnumerator hdenominator, Nat.floor_div_eq_div]
  rfl

/-- **The nearest tick.**  The conversion gives the integer nearest to the
exact interval if and only if the interval is to be rounded down, or is so
close below the next integer that half a tick divided by the denominator
reaches it. -/
theorem tcpSignalRateTicks_eq_round_iff (r : SignalRate) (numerator denominator : UInt64)
    (m : Metadata) (rate : Json) (h : r.IsRateOf m rate) (hsamples : r.samples ≠ 0)
    (hnumerator : numerator ≠ 0) (hdenominator : denominator ≠ 0)
    (hbound : r.interval numerator denominator < 2 ^ 64 - 1) :
    (m.tcpSignalRateTicks numerator denominator).map (fun t => (t.toNat : ℤ)) =
        some (round (r.interval numerator denominator)) ↔
      Int.fract (r.interval numerator denominator) < 1 / 2 ∨
        1 ≤ Int.fract (r.interval numerator denominator) + 1 / (2 * denominator.toNat) := by
  have hpositive : (1 : ℚ) ≤ denominator.toNat := by
    exact_mod_cast Nat.one_le_iff_ne_zero.mpr fun h => hdenominator (UInt64.toNat_inj.mp h)
  have hle : 1 / (2 * (denominator.toNat : ℚ)) ≤ 1 / 2 := by
    apply one_div_le_one_div_of_le two_pos
    linarith
  have hnonneg : 0 ≤ 1 / (2 * (denominator.toNat : ℚ)) := by positivity
  have hquotient : 0 ≤ r.interval numerator denominator + 1 / (2 * denominator.toNat) :=
    add_nonneg interval_nonneg hnonneg
  have hfits : ⌊r.interval numerator denominator + 1 / (2 * denominator.toNat)⌋₊ < 2 ^ 64 := by
    rw [Nat.floor_lt hquotient]
    push_cast
    linarith
  rw [ticks_of_isRateOf h, ticks_eq_floor hsamples hnumerator hdenominator, Option.map_some,
    UInt64.toNat_ofNat_of_lt' hfits, Int.natCast_floor_eq_floor hquotient, Option.some_inj]
  exact Rounding.floor_add_eq_round_iff _ hnonneg hle

theorem interval_perSecond (samples : UInt32) :
    (⟨1, 0, 0, samples⟩ : SignalRate).interval 1 1000000000 = 1000000000 / samples.toNat := by
  change (((1 : ℕ) : ℚ) * 2 ^ 64 + ((0 : ℕ) : ℚ) * 2 ^ 32 + ((0 : ℕ) : ℚ)) *
    ((1000000000 : ℕ) : ℚ) / (2 ^ 64 * samples.toNat * ((1 : ℕ) : ℚ)) = _
  push_cast
  rw [one_mul, zero_mul, add_zero, add_zero, mul_one, mul_div_mul_left _ _ (by positivity)]

/-- A thousand samples each second come a million nanoseconds apart. -/
theorem tcpSignalRateTicks_thousand :
    ((⟨1, 0, 0, 1000⟩ : SignalRate).toMetadata.tcpSignalRateTicks 1 1000000000).map
          (fun t => (t.toNat : ℤ)) =
        some (round ((⟨1, 0, 0, 1000⟩ : SignalRate).interval 1 1000000000)) ↔
      Int.fract ((⟨1, 0, 0, 1000⟩ : SignalRate).interval 1 1000000000) < 1 / 2 ∨
        1 ≤ Int.fract ((⟨1, 0, 0, 1000⟩ : SignalRate).interval 1 1000000000) +
          1 / (2 * (1000000000 : UInt64).toNat) :=
  tcpSignalRateTicks_eq_round_iff ⟨1, 0, 0, 1000⟩ 1 1000000000 _ _ (isRateOf_toMetadata _)
    (by decide) (by decide) (by decide) (by
      rw [interval_perSecond]
      change 1000000000 / ((1000 : ℕ) : ℚ) < _
      norm_num)

/-- 600000 samples each second come 1666 and two thirds nanoseconds apart, and
are said to come 1666 nanoseconds apart. -/
theorem ticks_rounded_down :
    ¬ ∀ (r : SignalRate) (numerator denominator : UInt64) (m : Metadata) (rate : Json),
      r.IsRateOf m rate → r.samples ≠ 0 → numerator ≠ 0 → denominator ≠ 0 →
      r.interval numerator denominator < 2 ^ 64 - 1 →
      (m.tcpSignalRateTicks numerator denominator).map (fun t => (t.toNat : ℤ)) =
        some (round (r.interval numerator denominator)) := by
  intro h
  have hround := h ⟨1, 0, 0, 600000⟩ 1 1000000000 _ _ (isRateOf_toMetadata _) (by decide)
    (by decide) (by decide) (by
      rw [interval_perSecond]
      change 1000000000 / ((600000 : ℕ) : ℚ) < _
      norm_num)
  have hnearest : round ((⟨1, 0, 0, 600000⟩ : SignalRate).interval 1 1000000000) = 1667 := by
    rw [interval_perSecond, round_eq, Int.floor_eq_iff]
    change _ ≤ 1000000000 / ((600000 : ℕ) : ℚ) + 1 / 2 ∧
      1000000000 / ((600000 : ℕ) : ℚ) + 1 / 2 < _
    norm_num
  rw [hnearest] at hround
  exact absurd hround (by decide)

end SignalRate

end WsStreaming.Ports
