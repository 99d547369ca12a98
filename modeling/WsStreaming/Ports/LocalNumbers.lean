import WsStreaming.Verified.Run
import WsStreaming.Ports.LocalSignals
import WsStreaming.Ports.StreamingProtocol

/-!
# Numbers of local signals

`local_signal_container` hands out numbers from a 32-bit counter and never
uses one again, while the header of a packet has twenty bits for a number.
The numbers of the registered signals fit the header as long as each one that
is handed out does.

## Main results

* `headerFits_iff` — a number survives the header iff it is below 2^20.
* `numbersFit_iff_inRange` — over all runs of registrations and removals.
* `numbers_outgrow_header` — the 2^20th registration.
-/

namespace WsStreaming.Ports

open WsStreaming.Verified
open WsStreaming.Verified.OrderedMap (OMap Distinct)
open WsStreaming.Verified.Run
open WsStreaming.Verified.Wire (Bytes)

/-- Every packet type and every payload of one to 255 bytes: the header that
is written reads back. -/
def HeaderFits (signo : UInt32) : Prop :=
  ∀ (type : UInt32) (payload : Bytes), type.toNat < 16 → 1 ≤ payload.length →
    payload.length ≤ 255 →
    ∃ header, StreamingProtocol.generateHeader signo type payload.length = .ok header ∧
      StreamingProtocol.decodeHeader (header ++ payload) =
        { headerSize := 4, signo := signo, type := type, payloadSize := payload.length }

/-- A number that is read from a header has twenty bits. -/
theorem signo_decodeHeader_lt (bs : Bytes)
    (h : (StreamingProtocol.decodeHeader bs).headerSize ≠ 0) :
    (StreamingProtocol.decodeHeader bs).signo.toNat < 2 ^ 20 := by
  cases hr : StreamingProtocol.readHeader bs with
  | none => exact absurd (StreamingProtocol.decodeHeader_of_none hr) h
  | some d =>
      obtain ⟨word, data, -, hsigno, -⟩ := StreamingProtocol.readHeader_cases hr
      rw [StreamingProtocol.decodeHeader_of_some hr]
      dsimp only
      rw [hsigno, UInt32.toNat_ofNat']
      omega

theorem headerFits_iff (signo : UInt32) : HeaderFits signo ↔ signo.toNat < 2 ^ 20 := by
  constructor
  · intro hfits
    obtain ⟨header, -, hdecode⟩ := hfits 1 [0] (by decide) (by decide) (by decide)
    have hsize : (StreamingProtocol.decodeHeader (header ++ [0])).headerSize ≠ 0 := by
      rw [hdecode]
      exact Nat.succ_ne_zero 3
    have hlt := signo_decodeHeader_lt (header ++ [0]) hsize
    rw [hdecode] at hlt
    exact hlt
  · intro hs type payload ht hpos hle
    have hgen : StreamingProtocol.generateHeader signo type payload.length =
        .ok (Wire.le32 (signo ||| (UInt32.ofNat payload.length <<< 20) ||| (type <<< 28))) :=
      if_pos (by omega)
    refine ⟨_, hgen, ?_⟩
    rw [StreamingProtocol.decodeHeader_of_some
      (StreamingProtocol.readHeader_generateHeader hs ht (by omega) hgen payload)]
    have hwidened : StreamingProtocol.widened payload.length = payload.length := if_pos (by omega)
    simp [hwidened, Wire.length_le32]

namespace LocalSignals

/-- Registrations and removals. -/
inductive Registration where
  | add (signal : LocalSignal)
  | remove (signal : LocalSignal)
deriving DecidableEq, Repr

/-- What one of them does. -/
def register (c : LocalSignals) : Registration → LocalSignals
  | .add signal => (c.addLocalSignal signal).1
  | .remove signal => (c.removeLocalSignal signal).1

/-- The numbers of the registered signals are not zero, differ, and fit the
header. -/
structure NumbersFit (c : LocalSignals) : Prop where
  fit : ∀ e ∈ c.signals, e.2.signo ≠ 0 ∧ HeaderFits e.2.signo
  distinct : (c.signals.map fun e => e.2.signo).Nodup

/-- A registration that takes a number takes one that fits the header. -/
def InRange (c : LocalSignals) : Registration → Prop
  | .add signal =>
      c.findByAddress signal.address = none → c.nextSigno ≠ 0 ∧ c.nextSigno.toNat < 2 ^ 20
  | .remove _ => True

/-- The keys with the numbers of their entries. -/
def numbers (c : LocalSignals) : List (UInt32 × UInt32) :=
  c.signals.map fun e => (e.1, e.2.signo)

/-- Each entry is kept under its own number. -/
structure Keyed (c : LocalSignals) : Prop where
  distinct : Distinct c.signals
  signo : ∀ e ∈ c.signals, e.2.signo = e.1

section Numbers

variable {c : LocalSignals}

theorem numbers_update (k : UInt32) {f : RegisteredLocalSignal → RegisteredLocalSignal}
    (hf : ∀ e, (f e).signo = e.signo) : (c.update k f).numbers = c.numbers := by
  simp only [numbers, update, OrderedMap.modify, List.map_map]
  apply List.map_congr_left
  intro e _
  simp only [Function.comp_apply]
  split
  · rw [hf]
  · rfl

/-- A signal that is registered gets the next number, unless the number is
taken. -/
theorem numbers_addLocalSignal {signal : LocalSignal}
    (h : c.findByAddress signal.address = none) :
    (c.addLocalSignal signal).1.numbers =
        LocalSignals.numbers ⟨OrderedMap.emplace c.signals c.nextSigno
          { signal := signal, signo := c.nextSigno }, c.nextSigno + 1, c.nextTable⟩ ∧
      (c.addLocalSignal signal).1.nextSigno = c.nextSigno + 1 := by
  have hrule (c : LocalSignals) (k : UInt32) (metadata : Metadata) (fresh : Nat) :
      (c.update k fun e => e.setRule metadata fresh).numbers = c.numbers :=
    numbers_update k fun _ => rfl
  have hbind (c : LocalSignals) (k : UInt32) (domain : RegisteredLocalSignal) :
      (c.update k fun e => e.bindTo domain).numbers = c.numbers :=
    numbers_update k fun _ => rfl
  rw [addLocalSignal, emplaceSignal, h]
  dsimp only
  split
  · constructor
    · exact (hbind _ _ _).trans (hrule _ _ _ _)
    · rfl
  · constructor
    · exact hrule _ _ _ _
    · rfl

theorem addLocalSignal_of_some {signal : LocalSignal} {e : UInt32 × RegisteredLocalSignal}
    (h : c.findByAddress signal.address = some e) : c.addLocalSignal signal = (c, false) := by
  rw [addLocalSignal, emplaceSignal, h]

theorem keyed_iff :
    c.Keyed ↔ (c.numbers.map Prod.fst).Nodup ∧ ∀ p ∈ c.numbers, p.2 = p.1 := by
  have hkeys : c.numbers.map Prod.fst = c.signals.map Prod.fst := by
    rw [numbers, List.map_map]
    rfl
  constructor
  · intro h
    rw [hkeys]
    refine ⟨h.distinct, ?_⟩
    intro p hp
    obtain ⟨e, he, rfl⟩ := List.mem_map.mp hp
    exact h.signo e he
  · rintro ⟨hnodup, hsigno⟩
    rw [hkeys] at hnodup
    exact ⟨hnodup, fun e he => hsigno _ (List.mem_map.mpr ⟨e, he, rfl⟩)⟩

/-- Numbers that are keys differ. -/
theorem Keyed.numbersFit_iff (h : c.Keyed) :
    c.NumbersFit ↔ ∀ p ∈ c.numbers, p.2 ≠ 0 ∧ HeaderFits p.2 := by
  constructor
  · intro hfit p hp
    obtain ⟨e, he, rfl⟩ := List.mem_map.mp hp
    exact hfit.fit e he
  · intro hfit
    refine ⟨fun e he => hfit _ (List.mem_map.mpr ⟨e, he, rfl⟩), ?_⟩
    have hsignos : (c.signals.map fun e => e.2.signo) = c.signals.map Prod.fst :=
      List.map_congr_left fun e he => h.signo e he
    rw [hsignos]
    exact h.distinct

/-- A registration keeps the keys. -/
theorem Keyed.addLocalSignal (h : c.Keyed) (signal : LocalSignal) :
    (c.addLocalSignal signal).1.Keyed := by
  cases hfind : c.findByAddress signal.address with
  | some e =>
      rw [addLocalSignal_of_some hfind]
      exact h
  | none =>
      rw [keyed_iff, (numbers_addLocalSignal hfind).1, ← keyed_iff]
      constructor
      · exact h.distinct.emplace _ _
      · intro e he
        dsimp only at he
        rw [OrderedMap.emplace] at he
        split at he
        · exact h.signo e he
        · rcases OrderedMap.mem_insertBefore.mp he with rfl | he
          · rfl
          · exact h.signo e he

theorem Keyed.removeLocalSignal (h : c.Keyed) (signal : LocalSignal) :
    (c.removeLocalSignal signal).1.Keyed ∧
      ∀ e ∈ (c.removeLocalSignal signal).1.signals, e ∈ c.signals := by
  rw [LocalSignals.removeLocalSignal]
  split
  · refine ⟨⟨h.distinct.erase _, ?_⟩, ?_⟩
    · intro e he
      exact h.signo e (OrderedMap.mem_erase.mp he).1
    · intro e he
      exact (OrderedMap.mem_erase.mp he).1
  · exact ⟨h, fun e he => he⟩

theorem Keyed.register (h : c.Keyed) (r : Registration) : (c.register r).Keyed := by
  cases r with
  | add signal => exact h.addLocalSignal signal
  | remove signal => exact (h.removeLocalSignal signal).1

/-- **One registration or removal.** -/
theorem numbersFit_register_iff (h : c.Keyed) (hfit : c.NumbersFit) (r : Registration) :
    (c.register r).NumbersFit ↔ c.InRange r := by
  cases r with
  | remove signal =>
      have hremoved := h.removeLocalSignal signal
      refine iff_of_true (hremoved.1.numbersFit_iff.mpr ?_) trivial
      intro p hp
      obtain ⟨e, he, rfl⟩ := List.mem_map.mp hp
      exact hfit.fit e (hremoved.2 e he)
  | add signal =>
      cases hfind : c.findByAddress signal.address with
      | some e =>
          have hsame : c.register (.add signal) = c := by
            rw [LocalSignals.register, addLocalSignal_of_some hfind]
          refine iff_of_true (by rw [hsame]; exact hfit) ?_
          intro hnone
          rw [hfind] at hnone
          cases hnone
      | none =>
          have hrange : c.InRange (.add signal) ↔
              c.nextSigno ≠ 0 ∧ HeaderFits c.nextSigno := by
            rw [headerFits_iff]
            exact ⟨fun hr => hr hfind, fun hr _ => hr⟩
          rw [hrange, (h.register (.add signal)).numbersFit_iff, LocalSignals.register,
            (numbers_addLocalSignal hfind).1]
          cases htaken : OrderedMap.find? c.signals c.nextSigno with
          | some e =>
              -- The number is one of those in use, and nothing is added.
              have hmem := OrderedMap.mem_of_find?_eq_some htaken
              have hnext := hfit.fit _ hmem
              rw [h.signo _ hmem] at hnext
              refine iff_of_true ?_ hnext
              intro p hp
              rw [OrderedMap.emplace, htaken, Option.isSome_some, if_pos rfl] at hp
              obtain ⟨e', he', rfl⟩ := List.mem_map.mp hp
              exact hfit.fit e' he'
          | none =>
              have hsignals : ∀ e, e ∈ OrderedMap.emplace c.signals c.nextSigno
                  { signal := signal, signo := c.nextSigno } ↔
                    e = (c.nextSigno, { signal := signal, signo := c.nextSigno }) ∨
                      e ∈ c.signals := by
                intro e
                rw [OrderedMap.emplace, htaken, Option.isSome_none,
                  if_neg Bool.false_ne_true, OrderedMap.mem_insertBefore]
              constructor
              · intro hall
                exact hall (c.nextSigno, c.nextSigno)
                  (List.mem_map.mpr ⟨_, (hsignals _).mpr (.inl rfl), rfl⟩)
              · intro hnext p hp
                obtain ⟨e, he, rfl⟩ := List.mem_map.mp hp
                rcases (hsignals e).mp he with rfl | he
                · exact hnext
                · exact hfit.fit e he

end Numbers

/-- **Numbers that fit the header.**  Over any run of registrations and
removals on a new connection: after each one the numbers of the registered
signals are not zero, differ and survive the header, iff each registration
that takes a number takes a non-zero one below 2^20. -/
theorem numbersFit_iff_inRange (registrations : List Registration) :
    Meets register (fun c r => (c.register r).NumbersFit) {} registrations ↔
      Meets register InRange {} registrations := by
  apply meets_iff fun c => c.Keyed ∧ c.NumbersFit
  · intro c r hinv hr
    exact ⟨hinv.1.register r, (numbersFit_register_iff hinv.1 hinv.2 r).mpr hr⟩
  · exact fun c r hinv => numbersFit_register_iff hinv.1 hinv.2 r
  · refine ⟨⟨List.nodup_nil, fun e he => ?_⟩, ⟨fun e he => ?_, List.nodup_nil⟩⟩
    · cases he
    · cases he

/-! ## The 2^20th registration -/

/-- A signal without metadata. -/
def bareSignal : LocalSignal := ⟨0, "signal", .ofJson (.object [])⟩

/-- The signal is registered and removed again, a number of times. -/
def churn : Nat → List Registration
  | 0 => []
  | n + 1 => churn n ++ [.add bareSignal, .remove bareSignal]

theorem register_add_bareSignal (n : UInt32) (t : Nat) :
    (LocalSignals.mk [] n t).register (.add bareSignal) =
      ⟨[(n, { signal := bareSignal, signo := n, isExplicit := true })], n + 1, t + 1⟩ := by
  have hrule : bareSignal.metadata.rule = explicitRule := rfl
  have hdomain : bareSignal.domainId? = none := by decide
  have hlinear : ¬ explicitRule = linearRule := by decide
  simp [register, addLocalSignal, emplaceSignal, findByAddress, OrderedMap.emplace,
    OrderedMap.insertBefore, update, OrderedMap.modify, RegisteredLocalSignal.setRule, hrule,
    hdomain, hlinear]

theorem register_remove_bareSignal (n m : UInt32) (t : Nat) :
    (LocalSignals.mk [(n, { signal := bareSignal, signo := n, isExplicit := true })] m t).register
      (.remove bareSignal) = ⟨[], m, t⟩ := by
  simp [register, removeLocalSignal, findByAddress, OrderedMap.erase]

/-- Each time takes a number. -/
theorem register_churn (n : Nat) :
    (churn n).foldl register {} = ⟨[], UInt32.ofNat (n + 1), n⟩ := by
  induction n with
  | zero => rfl
  | succ n ih =>
      rw [churn, List.foldl_append, ih, List.foldl_cons, List.foldl_cons, List.foldl_nil,
        register_add_bareSignal, register_remove_bareSignal]
      congr 1
      rw [UInt32.ofNat_add (n + 1) 1]
      rfl

/-- After many registrations another one does not fit. -/
theorem not_numbersFit_churn (n : Nat) (hn : 2 ^ 20 ≤ n + 1) (hlt : n + 1 < 2 ^ 32) :
    ¬ Meets register (fun c r => (c.register r).NumbersFit) {} (churn n ++ [.add bareSignal]) := by
  intro hmeets
  have hfit := hmeets.last
  rw [register_churn, register_add_bareSignal] at hfit
  have hsigno := (headerFits_iff _).mp (hfit.fit _ List.mem_cons_self).2
  dsimp only at hsigno
  rw [UInt32.toNat_ofNat', Nat.mod_eq_of_lt hlt] at hsigno
  omega

/-- The numbers do not fit in every run: the 2^20th registration on a
connection gets the number 2^20, which the header turns into zero. -/
theorem numbers_outgrow_header :
    ¬ Meets register (fun c r => (c.register r).NumbersFit) {}
      (churn (2 ^ 20 - 1) ++ [.add bareSignal]) :=
  not_numbersFit_churn _ (by decide) (by decide)

end LocalSignals

end WsStreaming.Ports
