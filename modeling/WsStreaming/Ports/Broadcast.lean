import WsStreaming.Ports.LocalNumbers
import WsStreaming.Ports.ServerRuns

/-!
# Clients that fail during a broadcast

`server::add_local_signal` and `server::remove_local_signal` call every client
in a loop over `_clients`.  A client whose transport fails while something is
sent to it is removed from that list inside its own call, so that the loop
advances an iterator to an element that is gone.

## Main results

* `broadcast_survives_iff` — the loop serves every client and survives exactly
  if none of them fails, and, where a signal is added, if each connection still
  has a number for it.
-/

namespace WsStreaming.Ports

open WsStreaming.Verified WsStreaming.Verified.Walk WsStreaming.Verified.OrderedMap
open Faces (Registry)

/-! ## Registered signals -/

namespace LocalSignals

/-- The object is registered. -/
def IsRegistered (c : LocalSignals) (signal : LocalSignal) : Prop :=
  (c.findByAddress signal.address).isSome = true

instance (c : LocalSignals) (signal : LocalSignal) : Decidable (c.IsRegistered signal) :=
  inferInstanceAs (Decidable (_ = true))

/-- The object is registered, or the number it would get is free. -/
def HasRoom (c : LocalSignals) (signal : LocalSignal) : Prop :=
  c.IsRegistered signal ∨ OrderedMap.find? c.signals c.nextSigno = none

theorem isRegistered_iff (c : LocalSignals) (signal : LocalSignal) :
    c.IsRegistered signal ↔ ∃ e ∈ c.faces, e.2.address = signal.address := by
  rw [IsRegistered, findByAddress, List.find?_isSome]
  unfold faces
  constructor
  · rintro ⟨e, he, haddress⟩
    exact ⟨_, List.mem_map_of_mem he, of_decide_eq_true haddress⟩
  · rintro ⟨f, hf, haddress⟩
    obtain ⟨e, he, rfl⟩ := List.mem_map.mp hf
    exact ⟨e, he, decide_eq_true haddress⟩

/-- **What a registration achieves.** -/
theorem isRegistered_addLocalSignal {c : LocalSignals} (h : Registry c.faces)
    (signal : LocalSignal) :
    (c.addLocalSignal signal).1.IsRegistered signal ↔ c.HasRoom signal := by
  cases hfind : c.findByAddress signal.address with
  | some e =>
      have hregistered : c.IsRegistered signal := by
        rw [IsRegistered, hfind]
        rfl
      rw [addLocalSignal_of_some hfind]
      exact iff_of_true hregistered (.inl hregistered)
  | none =>
      have hnot : ¬ c.IsRegistered signal := by
        rw [IsRegistered, hfind]
        exact Bool.false_ne_true
      have hface := find?_faces c c.nextSigno
      rw [isRegistered_iff, faces_addLocalSignal (distinct_of_registry h) hfind]
      unfold OrderedMap.emplace
      cases hnext : OrderedMap.find? c.signals c.nextSigno with
      | some e =>
          rw [hface, hnext, Option.map_some, Option.isSome_some, if_pos rfl, ← isRegistered_iff]
          refine iff_of_false hnot ?_
          rintro (hregistered | hfree)
          · exact hnot hregistered
          · rw [hnext] at hfree
            cases hfree
      | none =>
          rw [hface, hnext, Option.map_none, Option.isSome_none, if_neg Bool.false_ne_true]
          refine iff_of_true ⟨(c.nextSigno, ⟨c.nextSigno, signal.address, false, false⟩), ?_, rfl⟩
            (.inr hnext)
          exact OrderedMap.mem_insertBefore.mpr (.inl rfl)

/-- **What a removal achieves.** -/
theorem not_isRegistered_removeLocalSignal {c : LocalSignals} (h : Registry c.faces)
    (signal : LocalSignal) : ¬ (c.removeLocalSignal signal).1.IsRegistered signal := by
  cases hfind : c.findByAddress signal.address with
  | none =>
      rw [removeLocalSignal, hfind, IsRegistered]
      dsimp only
      rw [hfind]
      exact Bool.false_ne_true
  | some found =>
      obtain ⟨k, entry⟩ := found
      have hk := mem_of_find?_eq_some (find?_of_findByAddress (distinct_of_registry h) hfind)
      have haddress := address_of_findByAddress hfind
      rw [removeLocalSignal, hfind, IsRegistered, findByAddress, List.find?_isSome]
      rintro ⟨e, he, hsame⟩
      obtain ⟨hmem, hne⟩ := OrderedMap.mem_erase.mp he
      have hnodup : (c.signals.map fun e => e.2.signal.address).Nodup := by
        have haddresses := h.addresses
        unfold faces at haddresses
        rw [List.map_map] at haddresses
        exact haddresses
      have heq : e = (k, entry) := List.inj_on_of_nodup_map hnodup hmem hk
        ((of_decide_eq_true hsame).trans haddress.symm)
      exact hne (by rw [heq])

end LocalSignals

namespace Server

/-- Whether the signal is registered on a connection. -/
def Offers (s : Server) (p : Nat) (signal : LocalSignal) : Prop :=
  (s.connections p).connection.locals.IsRegistered signal

/-- `server::add_local_signal` survives: of the clients there were, those that
are left have the signal, and no others. -/
def AddSurvives (s : Server) (signal : LocalSignal) (fails : Nat → Bool) : Prop :=
  ∃ w, s.broadcastAdd signal fails = some w ∧ Completed w ∧
    ∀ p ∈ s.clients, w.state.Offers p signal ↔ p ∈ w.state.clients

/-- `server::remove_local_signal` survives: the clients that are left do not
have the signal any more. -/
def RemoveSurvives (s : Server) (signal : LocalSignal) (fails : Nat → Bool) : Prop :=
  ∃ w, s.broadcastRemove signal fails = some w ∧ Completed w ∧
    ∀ p ∈ w.state.clients, ¬ w.state.Offers p signal

variable {s : Server}

/-- **Broadcasts survive exactly without failures.** -/
theorem broadcast_survives_iff (hs : s.WellFormed) (signal : LocalSignal)
    (fails : Nat → Bool) :
    (s.AddSurvives signal fails ↔ ∀ p ∈ s.clients,
      ¬ Fails (fun c => c.addLocalSignal signal) fails s p ∧
      (s.connections p).connection.locals.HasRoom signal) ∧
    (s.RemoveSurvives signal fails ↔ ∀ p ∈ s.clients,
      ¬ Fails (fun c => c.removeLocalSignal signal) fails s p) := by
  have hroom : ∀ p ∈ s.clients,
      ((s.connections p).connection.addLocalSignal signal).1.locals.IsRegistered signal ↔
        (s.connections p).connection.locals.HasRoom signal :=
    fun p hp => LocalSignals.isRegistered_addLocalSignal (hs.registry p hp) signal
  constructor
  · constructor
    · rintro ⟨w, hw, -, hoffers⟩ p hp
      obtain ⟨-, hclients, hcalled⟩ := broadcast_spec (hs.offering _).nodup hw
      refine ⟨(broadcast_defined_iff (hs.offering _).nodup).mp ⟨w, hw⟩ p hp, ?_⟩
      have hoffer := (hoffers p hp).mpr (by rw [hclients]; exact hp)
      rw [Offers, (hcalled p hp).1] at hoffer
      exact (hroom p hp).mp hoffer
    · intro h
      obtain ⟨w, hw⟩ : ∃ w, s.broadcastAdd signal fails = some w :=
        (broadcast_defined_iff (hs.offering _).nodup).mpr fun p hp => (h p hp).1
      obtain ⟨hcompleted, hclients, hcalled⟩ := broadcast_spec (hs.offering _).nodup hw
      refine ⟨w, hw, hcompleted, fun p hp => ?_⟩
      have hoffer : w.state.Offers p signal := by
        rw [Offers, (hcalled p hp).1]
        exact (hroom p hp).mpr (h p hp).2
      exact iff_of_true hoffer (by rw [hclients]; exact hp)
  · constructor
    · rintro ⟨w, hw, -, -⟩ p hp
      exact (broadcast_defined_iff (hs.offering _).nodup).mp ⟨w, hw⟩ p hp
    · intro h
      obtain ⟨w, hw⟩ : ∃ w, s.broadcastRemove signal fails = some w :=
        (broadcast_defined_iff (hs.offering _).nodup).mpr h
      obtain ⟨hcompleted, hclients, hcalled⟩ := broadcast_spec (hs.offering _).nodup hw
      refine ⟨w, hw, hcompleted, fun p hp hoffer => ?_⟩
      rw [hclients] at hp
      rw [Offers, (hcalled p hp).1] at hoffer
      exact LocalSignals.not_isRegistered_removeLocalSignal (hs.registry p hp) signal hoffer

/-! ## A client that fails -/

/-- Two clients are accepted. -/
def twoUpgrades : List Hosting.Input :=
  [.upgrade "first" .null (fun _ => []) [], .upgrade "second" .null (fun _ => []) []]

/-- The server with the two of them. -/
def twoClients : Server :=
  ((Trace.run Hosting.step {} twoUpgrades).map fun r => r.1.server).getD {}

theorem wellFormed_twoClients : twoClients.WellFormed := by
  obtain ⟨r, hr, hserver⟩ :
      ∃ r, Trace.run Hosting.step {} twoUpgrades = some r ∧ r.1.server = twoClients :=
    ⟨_, rfl, rfl⟩
  rw [← hserver]
  exact Hosting.wellFormed_of_run twoUpgrades hr

/-- Two clients that do not fail get a signal, and lose it. -/
theorem broadcast_survives_two :
    twoClients.WellFormed ∧
    twoClients.AddSurvives LocalSignals.bareSignal (fun _ => false) ∧
    twoClients.RemoveSurvives LocalSignals.bareSignal (fun _ => false) := by
  have hiff := broadcast_survives_iff wellFormed_twoClients LocalSignals.bareSignal
    fun _ => false
  have hfree : ∀ p ∈ twoClients.clients,
      OrderedMap.find? (twoClients.connections p).connection.locals.signals
        (twoClients.connections p).connection.locals.nextSigno = none := by
    decide +kernel
  refine ⟨wellFormed_twoClients, hiff.1.mpr fun p hp => ⟨?_, .inr (hfree p hp)⟩,
    hiff.2.mpr fun p _ => ?_⟩
  · exact fun hfails => Bool.false_ne_true hfails.1
  · exact fun hfails => Bool.false_ne_true hfails.1

/-- If the transport of the first client fails, the loop advances an iterator
to a client that has been removed. -/
theorem failing_client_breaks_broadcast :
    ¬ ∀ (s : Server) (signal : LocalSignal) (fails : Nat → Bool), s.WellFormed →
      s.AddSurvives signal fails := by
  intro hclaim
  obtain ⟨w, hw, -⟩ := hclaim twoClients LocalSignals.bareSignal (fun p => p = 0)
    wellFormed_twoClients
  have hfails : Fails (fun c => c.addLocalSignal LocalSignals.bareSignal) (fun p => p = 0)
      twoClients 0 := by decide +kernel
  exact (broadcast_defined_iff (wellFormed_twoClients.offering _).nodup).mp ⟨w, hw⟩ 0 (by decide)
    hfails

end Server

end WsStreaming.Ports
