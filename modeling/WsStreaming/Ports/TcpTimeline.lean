import WsStreaming.Ports.SignalTables
import Mathlib.Algebra.Order.Floor.Semifield
import Mathlib.Data.Rat.Floor
import Mathlib.Tactic.Linarith
import Mathlib.Tactic.NormNum
import Mathlib.Tactic.Positivity
import Mathlib.Tactic.Ring

/-!
# The timeline of a direct-TCP signal

A device stamps a packet with seconds since 2000 and a binary fraction, and
gives the interval between its samples.  From then on the signal counts: every
packet is reported at the time that the samples before it lead to.

The count itself is exact, for packets of any sizes.  Its starting point is not
the stamp: half a second is added to the fraction when it is converted.

## Main results

* `domainValues_receiveData` — the count over a run of packets.
* `toNat_nanoseconds` — the starting point, half a second late.
* `follows_iff` — a timeline that starts at the stamp has no packets.
-/

namespace WsStreaming.Ports

open WsStreaming.Verified.Wire (Bytes)

/-- The instant of a stamp, in nanoseconds since 1970. -/
def stampTime (seconds fraction : UInt32) : ℚ :=
  (946684800 + seconds.toNat + fraction.toNat / 2 ^ 32) * 1000000000

/-- The whole samples in some packets. -/
def wholeSamples (size : Nat) (packets : List Bytes) : Nat :=
  (packets.map fun data => data.length / size).sum

/-- The domain values of a run of packets: each is as far behind the start as
the whole samples before it take. -/
def timeline (start : ℤ) (delta : UInt64) (size : Nat) (packets : List Bytes) : List Int64 :=
  (List.range packets.length).map fun i =>
    Int64.ofInt (start + delta.toNat * wholeSamples size (packets.take i))

/-- Some domain values follow a stamp, to the nanosecond. -/
def Follows (seconds fraction : UInt32) (delta : UInt64) (size : Nat) (packets : List Bytes)
    (values : List Int64) : Prop :=
  ∃ start : ℤ, |start - stampTime seconds fraction| < 1 ∧
    values = timeline start delta size packets

/-- The domain value that an event reports. -/
def RemoteEvent.domainValue? : RemoteEvent → Option Int64
  | .signal _ (.dataReceived domainValue _ _) => some domainValue
  | _ => none

namespace RemoteSignals

/-- Data packets for one signal, one after the other. -/
def receiveData (c : RemoteSignals) (address : Nat) :
    List Bytes → RemoteSignals × List RemoteEvent
  | [] => (c, [])
  | data :: packets =>
      let handled := c.handleData address data
      let received := handled.1.receiveData address packets
      (received.1, handled.2 ++ received.2)

/-- A subscribed signal that counts from a time. -/
structure Counts (c : RemoteSignals) (address : Nat) (time delta : UInt64) (size : Nat)
    (s : RemoteSignal) : Prop where
  object : c.objects[address]? = some s
  isSubscribed : s.isSubscribed = true
  tcpTime : s.tcpTime = time
  tcpDelta : s.tcpDelta = delta
  sampleSize : s.sampleSize = size

end RemoteSignals

section Timeline

variable (start : ℤ) (delta : UInt64) (size : Nat)

theorem timeline_nil : timeline start delta size [] = [] := rfl

/-- The first packet is at the start, and the others count on from its end. -/
theorem timeline_cons (data : Bytes) (packets : List Bytes) :
    timeline start delta size (data :: packets) =
      Int64.ofInt start ::
        timeline (start + delta.toNat * (data.length / size : Nat)) delta size packets := by
  unfold timeline
  rw [List.length_cons, List.range_succ_eq_map, List.map_cons, List.map_map]
  have hfirst : start + delta.toNat * (wholeSamples size ((data :: packets).take 0) : Nat) =
      start := by
    change start + delta.toNat * ((0 : Nat) : ℤ) = start
    omega
  rw [hfirst]
  apply congrArg
  apply List.map_congr_left
  intro i _
  have hsplit : wholeSamples size ((data :: packets).take (i + 1)) =
      data.length / size + wholeSamples size (packets.take i) := rfl
  change Int64.ofInt (start + delta.toNat * (wholeSamples size ((data :: packets).take (i + 1)) :
    Nat)) = _
  rw [hsplit, Nat.cast_add, mul_add, add_assoc]

/-- The counter of a signal wraps as the timeline does. -/
theorem toInt64_advance {time : UInt64} (h : time.toInt64 = Int64.ofInt start) (count : Nat) :
    (time + delta * UInt64.ofNat count).toInt64 = Int64.ofInt (start + delta.toNat * count) := by
  have hdelta : delta.toInt64 = Int64.ofInt delta.toNat := by
    rw [Int64.ofInt_eq_ofNat, ← UInt64.toInt64_ofNat', UInt64.ofNat_toNat]
  have hcount : (UInt64.ofNat count).toInt64 = Int64.ofInt count := by
    rw [Int64.ofInt_eq_ofNat, UInt64.toInt64_ofNat']
  rw [Int64.ofInt_add, Int64.ofInt_mul, ← h, ← hdelta, ← hcount]
  rfl

end Timeline

namespace RemoteSignals

variable {c : RemoteSignals} {a : Nat} {s : RemoteSignal}

section Packets

variable {time delta : UInt64} {size : Nat}

/-- **One packet.**  It is reported at the time counted so far, and the count
goes on by its whole samples. -/
theorem Counts.handleData (h : c.Counts a time delta size s) (hdelta : delta ≠ 0)
    (hsize : size ≠ 0) (data : Bytes) :
    (c.handleData a data).2 =
        [.signal a (.dataReceived time.toInt64 (data.length / size) data)] ∧
      (c.handleData a data).1.Counts a (time + delta * UInt64.ofNat (data.length / size)) delta size
        { s with tcpTime := time + delta * UInt64.ofNat (data.length / size) } := by
  have htcp : s.tcpDelta ≠ 0 := by
    rw [h.tcpDelta]
    exact hdelta
  have hcount : (if s.sampleSize ≠ 0 then data.length / s.sampleSize else 0) =
      data.length / size := by
    rw [h.sampleSize, if_pos hsize]
  have hhandled : c.handleData a data = (c.modifyObject a fun s =>
      { s with tcpTime := s.tcpTime + s.tcpDelta * UInt64.ofNat (data.length / size) },
      [.signal a (.dataReceived time.toInt64 (data.length / size) data)]) := by
    unfold RemoteSignals.handleData
    rw [h.object, Option.filter_some_pos h.isSubscribed]
    dsimp only
    rw [if_pos htcp, hcount, h.tcpTime]
  rw [hhandled]
  refine ⟨rfl, ?_, h.isSubscribed, rfl, h.tcpDelta, h.sampleSize⟩
  rw [getElem?_modifyObject, if_pos rfl, h.object, Option.map_some, h.tcpTime, h.tcpDelta]

/-- **A run of packets**, by induction on it. -/
theorem Counts.domainValues_receiveData (hdelta : delta ≠ 0) (hsize : size ≠ 0)
    (packets : List Bytes) : ∀ {c s time} {start : ℤ}, Counts c a time delta size s →
      time.toInt64 = Int64.ofInt start →
      (c.receiveData a packets).2.filterMap RemoteEvent.domainValue? =
        timeline start delta size packets := by
  induction packets with
  | nil => exact fun _ _ => rfl
  | cons data packets ih =>
      intro c s time start h hstart
      have hpacket := h.handleData hdelta hsize data
      have hrest := ih hpacket.2 (toInt64_advance start delta hstart _)
      unfold receiveData
      dsimp only
      rw [hpacket.1, List.filterMap_append, hrest, timeline_cons, ← hstart]
      rfl

end Packets

/-! ## Where the count starts -/

theorem floor_stampTime (seconds fraction : UInt32) :
    ⌊stampTime seconds fraction⌋₊ =
      (fraction.toNat + (seconds.toNat + 946684800) * 2 ^ 32) * 1000000000 / 2 ^ 32 := by
  have hquotient : stampTime seconds fraction =
      (((fraction.toNat + (seconds.toNat + 946684800) * 2 ^ 32) * 1000000000 : Nat) : ℚ) /
        ((2 ^ 32 : Nat) : ℚ) := by
    unfold stampTime
    push_cast
    ring
  rw [hquotient, Nat.floor_div_eq_div]

/-- **The starting point** is half a second late. -/
theorem toNat_nanoseconds (seconds fraction : UInt32) :
    (RemoteSignal.nanoseconds seconds fraction).toNat =
      ⌊stampTime seconds fraction⌋₊ + 500000000 := by
  have hseconds := seconds.toNat_lt
  have hfraction := fraction.toNat_lt
  have hfits : (2 ^ 31 + fraction.toNat + (seconds.toNat + 946684800) * 2 ^ 32) * 1000000000 /
      2 ^ 32 < 2 ^ 64 := by omega
  unfold RemoteSignal.nanoseconds
  rw [floor_stampTime, UInt64.toNat_ofNat_of_lt' hfits]
  omega

theorem toInt64_nanoseconds (seconds fraction : UInt32) :
    (RemoteSignal.nanoseconds seconds fraction).toInt64 =
      Int64.ofInt (⌊stampTime seconds fraction⌋₊ + 500000000) := by
  have hcast : (⌊stampTime seconds fraction⌋₊ : ℤ) + 500000000 =
      ((RemoteSignal.nanoseconds seconds fraction).toNat : ℤ) := by
    rw [toNat_nanoseconds]
    rfl
  rw [hcast, Int64.ofInt_eq_ofNat, ← UInt64.toInt64_ofNat', UInt64.ofNat_toNat]

theorem stampTime_lt (seconds fraction : UInt32) :
    stampTime seconds fraction < 2 ^ 63 - 1000000000 := by
  have hseconds : (seconds.toNat : ℚ) < 2 ^ 32 := by exact_mod_cast seconds.toNat_lt
  have hfraction : (fraction.toNat : ℚ) / 2 ^ 32 < 1 := by
    rw [div_lt_one (by positivity)]
    exact_mod_cast fraction.toNat_lt
  unfold stampTime
  linarith

/-- A time that a count starts from is no such start for the stamp. -/
theorem nanoseconds_ne_start (seconds fraction : UInt32) {start : ℤ}
    (h : |start - stampTime seconds fraction| < 1) :
    (RemoteSignal.nanoseconds seconds fraction).toInt64 ≠ Int64.ofInt start := by
  have hnonneg : 0 ≤ stampTime seconds fraction := by
    unfold stampTime
    positivity
  have hlt := stampTime_lt seconds fraction
  have hfloor := Nat.floor_le hnonneg
  have hbelow := Nat.lt_floor_add_one (stampTime seconds fraction)
  obtain ⟨hlow, hhigh⟩ := abs_lt.mp h
  have hstart : (-1 : ℤ) ≤ start ∧ start < 2 ^ 63 := by
    constructor
    · have hcast : (-1 : ℚ) < start := by linarith
      exact_mod_cast hcast.le
    · have hcast : (start : ℚ) < 2 ^ 63 := by linarith
      exact_mod_cast hcast
  have hlate : start < ⌊stampTime seconds fraction⌋₊ + 2 := by
    have hcast : (start : ℚ) < ⌊stampTime seconds fraction⌋₊ + 2 := by linarith
    exact_mod_cast hcast
  have hfits : (⌊stampTime seconds fraction⌋₊ : ℤ) < 2 ^ 63 - 1000000000 := by
    have hcast : (⌊stampTime seconds fraction⌋₊ : ℚ) < 2 ^ 63 - 1000000000 := by linarith
    exact_mod_cast hcast
  intro heq
  rw [toInt64_nanoseconds] at heq
  have hvalue := congrArg Int64.toInt heq
  rw [Int64.toInt_ofInt_of_le (by omega) (by omega),
    Int64.toInt_ofInt_of_le (by omega) (by omega)] at hvalue
  omega

/-- The first packet of a late timeline does not follow the stamp. -/
theorem not_follows_late {seconds fraction : UInt32} {delta : UInt64} {size : Nat} (data : Bytes)
    (packets : List Bytes) : ¬ Follows seconds fraction delta size (data :: packets)
      (timeline (⌊stampTime seconds fraction⌋₊ + 500000000) delta size (data :: packets)) := by
  rintro ⟨start, hnear, heq⟩
  rw [timeline_cons, timeline_cons] at heq
  have hfirst := (List.cons.inj heq).1
  rw [← toInt64_nanoseconds] at hfirst
  exact nanoseconds_ne_start seconds fraction hnear hfirst

/-! ## Both messages -/

/-- The messages `time` and `signalRate`, in either order. -/
def startClock (c : RemoteSignals) (address : Nat) (timeParams rateParams : Json)
    (rateFirst : Bool) : RemoteSignals :=
  if rateFirst then
    ((c.handleMetadata address "signalRate" rateParams).1.handleMetadata address "time"
      timeParams).1
  else
    ((c.handleMetadata address "time" timeParams).1.handleMetadata address "signalRate"
      rateParams).1

theorem handleMetadata_time (hobject : c.objects[a]? = some s) (params : Json) :
    (c.handleMetadata a "time" params).1.objects[a]? = some (s.handleTime params) := by
  have hhandled : c.handleMetadata a "time" params =
      c.onObject a fun s => (s.handleTime params, []) := rfl
  rw [hhandled, onObject, hobject]
  dsimp only
  rw [getElem?_modifyObject, if_pos rfl, hobject]
  rfl

theorem handleMetadata_signalRate (hobject : c.objects[a]? = some s) (params : Json) :
    (c.handleMetadata a "signalRate" params).1.objects[a]? =
      some (s.handleSignalRate params).1 := by
  have hhandled : c.handleMetadata a "signalRate" params = c.onObject a fun s =>
      ((s.handleSignalRate params).1,
        if (s.handleSignalRate params).2 then [.metadataChanged] else []) := rfl
  rw [hhandled, onObject, hobject]
  dsimp only
  rw [getElem?_modifyObject, if_pos rfl, hobject]
  rfl

/-- The description that a signal rate leads to. -/
def ratedMetadata (s : RemoteSignal) (rateParams : Json) : Metadata :=
  MetadataBuilder.build (MetadataBuilder.fromJson s.metadata.json) [.tcpSignalRate rateParams]

theorem ratedMetadata_setTcpTime (s : RemoteSignal) (time : UInt64) (params : Json) :
    ratedMetadata { s with tcpTime := time } params = ratedMetadata s params := rfl

/-- A signal rate that gives an interval. -/
theorem handleSignalRate_eq {params : Json} {delta : UInt64}
    (h : (ratedMetadata s params).tcpSignalRateTicks 1 1000000000 = some delta) :
    s.handleSignalRate params =
      ({ s with metadata := ratedMetadata s params, tcpDelta := delta }, true) := by
  unfold RemoteSignal.handleSignalRate
  dsimp only
  unfold ratedMetadata at h
  rw [h]
  rfl

/-- A stamp that is read. -/
theorem handleTime_eq {params : Json} {seconds fraction : UInt32}
    (hseconds : params.jsonPtr Json.uint32? ["stamp", "seconds"] 0 = some seconds)
    (hfraction : params.jsonPtr Json.uint32? ["stamp", "fraction"] 0 = some fraction) :
    s.handleTime params = { s with tcpTime := RemoteSignal.nanoseconds seconds fraction } := by
  unfold RemoteSignal.handleTime
  rw [hseconds, hfraction]

section Clock

variable {timeParams rateParams : Json} {seconds fraction : UInt32} {delta : UInt64}

/-- **Both messages** start the count, half a second late. -/
theorem counts_startClock (hobject : c.objects[a]? = some s) (hsub : s.isSubscribed = true)
    (hseconds : timeParams.jsonPtr Json.uint32? ["stamp", "seconds"] 0 = some seconds)
    (hfraction : timeParams.jsonPtr Json.uint32? ["stamp", "fraction"] 0 = some fraction)
    (hrate : (ratedMetadata s rateParams).tcpSignalRateTicks 1 1000000000 = some delta)
    (rateFirst : Bool) :
    ∃ s', (c.startClock a timeParams rateParams rateFirst).Counts a
      (RemoteSignal.nanoseconds seconds fraction) delta s.sampleSize s' := by
  unfold startClock
  cases rateFirst with
  | true =>
      have hrated := handleMetadata_signalRate hobject rateParams
      rw [handleSignalRate_eq hrate] at hrated
      have htimed := handleMetadata_time hrated timeParams
      rw [handleTime_eq hseconds hfraction] at htimed
      exact ⟨_, htimed, hsub, rfl, rfl, rfl⟩
  | false =>
      have htimed := handleMetadata_time hobject timeParams
      rw [handleTime_eq hseconds hfraction] at htimed
      have hrated := handleMetadata_signalRate htimed rateParams
      rw [← ratedMetadata_setTcpTime s (RemoteSignal.nanoseconds seconds fraction)] at hrate
      rw [handleSignalRate_eq hrate] at hrated
      exact ⟨_, hrated, hsub, rfl, rfl, rfl⟩

/-- **Every packet** is reported half a second late, and that exactly. -/
theorem domainValues_startClock (hobject : c.objects[a]? = some s) (hsub : s.isSubscribed = true)
    (hseconds : timeParams.jsonPtr Json.uint32? ["stamp", "seconds"] 0 = some seconds)
    (hfraction : timeParams.jsonPtr Json.uint32? ["stamp", "fraction"] 0 = some fraction)
    (hrate : (ratedMetadata s rateParams).tcpSignalRateTicks 1 1000000000 = some delta)
    (hdelta : delta ≠ 0) (hsize : s.sampleSize ≠ 0) (rateFirst : Bool) (packets : List Bytes) :
    ((c.startClock a timeParams rateParams rateFirst).receiveData a packets).2.filterMap
        RemoteEvent.domainValue? =
      timeline (⌊stampTime seconds fraction⌋₊ + 500000000) delta s.sampleSize packets := by
  obtain ⟨s', hcounts⟩ := counts_startClock hobject hsub hseconds hfraction hrate rateFirst
  exact Counts.domainValues_receiveData hdelta hsize packets hcounts
    (toInt64_nanoseconds seconds fraction)

/-- **The timeline.**  The packets follow the stamp if and only if there are
none: the first one is half a second late already. -/
theorem follows_iff (c : RemoteSignals) (a : Nat) (s : RemoteSignal)
    (hobject : c.objects[a]? = some s) (hsub : s.isSubscribed = true) (timeParams rateParams : Json)
    (seconds fraction : UInt32) (delta : UInt64)
    (hseconds : timeParams.jsonPtr Json.uint32? ["stamp", "seconds"] 0 = some seconds)
    (hfraction : timeParams.jsonPtr Json.uint32? ["stamp", "fraction"] 0 = some fraction)
    (hrate : (ratedMetadata s rateParams).tcpSignalRateTicks 1 1000000000 = some delta)
    (hdelta : delta ≠ 0) (hsize : s.sampleSize ≠ 0) (rateFirst : Bool) (packets : List Bytes) :
    Follows seconds fraction delta s.sampleSize packets
        (((c.startClock a timeParams rateParams rateFirst).receiveData a packets).2.filterMap
          RemoteEvent.domainValue?) ↔
      packets = [] := by
  rw [domainValues_startClock hobject hsub hseconds hfraction hrate hdelta hsize rateFirst]
  have hnonneg : 0 ≤ stampTime seconds fraction := by
    unfold stampTime
    positivity
  cases packets with
  | nil =>
      rw [timeline_nil]
      refine iff_of_true ⟨⌊stampTime seconds fraction⌋₊, ?_, (timeline_nil _ _ _).symm⟩ rfl
      have hfloor := Nat.floor_le hnonneg
      have hbelow := Nat.lt_floor_add_one (stampTime seconds fraction)
      rw [abs_lt]
      push_cast
      constructor <;> linarith
  | cons data packets =>
      exact iff_of_false (not_follows_late data packets) (List.cons_ne_nil _ _)

/-- A subscribed signal with samples of four bytes. -/
def subscribedSignal : RemoteSignal := { id := "a", isSubscribed := true, sampleSize := 4 }

/-- The stamp of the first instant of the year 2000. -/
def firstStamp : Json :=
  .object [("stamp", .object [("fraction", .integer 0), ("seconds", .integer 0)])]

/-- A thousand samples each second. -/
def thousandRate : Json :=
  .object [("delta", .object [("seconds", .integer 1)]), ("samples", .integer 1000)]

/-- Two samples, one, and one with a half that is not counted. -/
def fourSamples : List Bytes :=
  [[0x01, 0x00, 0x00, 0x00, 0x02, 0x00, 0x00, 0x00], [0x03, 0x00, 0x00, 0x00],
    [0x04, 0x00, 0x00, 0x00, 0x05, 0x00]]

/-- A signal that starts to count in the year 2000. -/
theorem follows_firstStamp :
    Follows 0 0 1000000 4 fourSamples
        (((RemoteSignals.startClock { objects := [subscribedSignal] } 0 firstStamp thousandRate
          false).receiveData 0 fourSamples).2.filterMap RemoteEvent.domainValue?) ↔
      fourSamples = [] :=
  follows_iff { objects := [subscribedSignal] } 0 subscribedSignal rfl rfl firstStamp thousandRate
    0 0 1000000 rfl rfl (by decide +kernel) (by decide) (by decide) false fourSamples

/-- A packet that comes with the first instant of the year 2000 is said to come
half a second after it. -/
theorem half_second_late :
    ¬ ∀ (c : RemoteSignals) (a : Nat) (s : RemoteSignal), c.objects[a]? = some s →
      s.isSubscribed = true → ∀ (timeParams rateParams : Json) (seconds fraction : UInt32)
        (delta : UInt64),
      timeParams.jsonPtr Json.uint32? ["stamp", "seconds"] 0 = some seconds →
      timeParams.jsonPtr Json.uint32? ["stamp", "fraction"] 0 = some fraction →
      (ratedMetadata s rateParams).tcpSignalRateTicks 1 1000000000 = some delta →
      delta ≠ 0 → s.sampleSize ≠ 0 → ∀ (rateFirst : Bool) (packets : List Bytes),
      Follows seconds fraction delta s.sampleSize packets
        (((c.startClock a timeParams rateParams rateFirst).receiveData a packets).2.filterMap
          RemoteEvent.domainValue?) := by
  intro h
  have hrate : (ratedMetadata subscribedSignal thousandRate).tcpSignalRateTicks 1 1000000000 =
      some 1000000 := by decide +kernel
  have hfollows := h { objects := [subscribedSignal] } 0 subscribedSignal rfl rfl firstStamp
    thousandRate 0 0 1000000 rfl rfl hrate (by decide) (by decide) false
    [[0x01, 0x00, 0x00, 0x00]]
  rw [domainValues_startClock rfl rfl rfl rfl hrate (by decide) (by decide)] at hfollows
  exact not_follows_late [0x01, 0x00, 0x00, 0x00] [] hfollows

end Clock

end RemoteSignals

end WsStreaming.Ports
