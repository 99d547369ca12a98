import WsStreaming.Verified.Run
import WsStreaming.Ports.RemoteSignals

/-!
# Tables of remote signals

What each operation does to the entries, the numbers and the objects, as
pointwise updates of the lookups.  Messages for one signal change its object
only (`Same`), and most of them leave it subscribed or not (`Quiet`); the
others are the cases of `step_cases`.

## Main results

* `find?_announce`, `find?_withdraw`, `forEach_withdraw` — announcing and
  removing.
* `step_cases` — what a step can be.
* `WellFormed.step` — every step keeps the tables well formed.
-/

namespace WsStreaming.Ports

open WsStreaming.Verified
open WsStreaming.Verified.OrderedMap (OMap Distinct)
open WsStreaming.Verified.Run
open WsStreaming.Verified.Wire (Bytes)

/-- The id of a signal and the number it remembers. -/
def RemoteSignal.tag (s : RemoteSignal) : String × UInt32 := (s.id, s.signo)

/-- The same, and whether the signal is subscribed. -/
def RemoteSignal.status (s : RemoteSignal) : String × UInt32 × Bool :=
  (s.id, s.signo, s.isSubscribed)

theorem RemoteSignal.status_eq {s s' : RemoteSignal} (hid : s'.id = s.id)
    (hsigno : s'.signo = s.signo) (hsub : s'.isSubscribed = s.isSubscribed) :
    s'.status = s.status := by
  rw [status, status, hid, hsigno, hsub]

namespace RemoteSignals

/-- Each id leads to an object with this id. -/
structure WellFormed (c : RemoteSignals) : Prop where
  distinct : Distinct c.byId
  object : ∀ id e, OrderedMap.find? c.byId id = some e →
    ∃ s, c.objects[e.address]? = some s ∧ s.id = id

/-- Every pointer in the number map leads to an entry of the id map. -/
def NoDangling (c : RemoteSignals) : Prop :=
  ∀ signo address, OrderedMap.find? c.bySigno signo = some address → c.live address = true

/-- The same entries and numbers, and objects with the same ids and
remembered numbers. -/
structure Same (c c' : RemoteSignals) : Prop where
  byId : c'.byId = c.byId
  bySigno : c'.bySigno = c.bySigno
  object : ∀ a : Nat, (c'.objects[a]?).map RemoteSignal.tag = (c.objects[a]?).map RemoteSignal.tag

/-- The same, and no signal is subscribed or unsubscribed. -/
structure Quiet (c c' : RemoteSignals) : Prop where
  byId : c'.byId = c.byId
  bySigno : c'.bySigno = c.bySigno
  object : ∀ a : Nat,
    (c'.objects[a]?).map RemoteSignal.status = (c.objects[a]?).map RemoteSignal.status

section Lookup

variable {c c' : RemoteSignals}

theorem WellFormed.id_eq (h : c.WellFormed) {id id' : String} {e e' : RemoteSignalEntry}
    (hid : OrderedMap.find? c.byId id = some e) (hid' : OrderedMap.find? c.byId id' = some e')
    (haddress : e.address = e'.address) : id = id' := by
  obtain ⟨s, hs, rfl⟩ := h.object id e hid
  obtain ⟨s', hs', rfl⟩ := h.object id' e' hid'
  rw [haddress, hs'] at hs
  rw [Option.some.inj hs]

theorem WellFormed.live_iff (h : c.WellFormed) {a : Nat} :
    c.live a = true ↔ ∃ id e, OrderedMap.find? c.byId id = some e ∧ e.address = a := by
  rw [live, List.any_eq_true]
  constructor
  · rintro ⟨⟨id, e⟩, hmem, ha⟩
    exact ⟨id, e, (OrderedMap.find?_eq_some_iff h.distinct).mpr hmem, of_decide_eq_true ha⟩
  · rintro ⟨id, e, hfind, ha⟩
    exact ⟨(id, e), OrderedMap.mem_of_find?_eq_some hfind, decide_eq_true ha⟩

theorem WellFormed.address_lt (h : c.WellFormed) {id : String} {e : RemoteSignalEntry}
    (hid : OrderedMap.find? c.byId id = some e) : e.address < c.objects.length := by
  obtain ⟨s, hs, -⟩ := h.object id e hid
  exact (List.getElem?_eq_some_iff.mp hs).1

theorem Quiet.refl (c : RemoteSignals) : Quiet c c := ⟨rfl, rfl, fun _ => rfl⟩

theorem Quiet.trans {c'' : RemoteSignals} (h : Quiet c c') (h' : Quiet c' c'') : Quiet c c'' :=
  ⟨h'.byId.trans h.byId, h'.bySigno.trans h.bySigno, fun a => (h'.object a).trans (h.object a)⟩

theorem Quiet.same (h : Quiet c c') : Same c c' := by
  refine ⟨h.byId, h.bySigno, fun a => ?_⟩
  have hobject := congrArg (Option.map fun t : String × UInt32 × Bool => (t.1, t.2.1)) (h.object a)
  rw [Option.map_map, Option.map_map] at hobject
  exact hobject

theorem Same.refl (c : RemoteSignals) : Same c c := ⟨rfl, rfl, fun _ => rfl⟩

theorem Same.wellFormed (h : Same c c') (hc : c.WellFormed) : c'.WellFormed := by
  constructor
  · rw [h.byId]
    exact hc.distinct
  · intro id e hid
    rw [h.byId] at hid
    obtain ⟨s, hs, rfl⟩ := hc.object id e hid
    have hobject := h.object e.address
    rw [hs] at hobject
    obtain ⟨s', hs', heq⟩ := Option.map_eq_some_iff.mp hobject
    exact ⟨s', hs', (Prod.mk.inj heq).1⟩

theorem Same.noDangling (h : Same c c') (hc : c.NoDangling) : c'.NoDangling := by
  intro signo address hfind
  rw [h.bySigno] at hfind
  rw [live, h.byId]
  exact hc signo address hfind

end Lookup

/-! ## Messages for one signal -/

section Same

variable (c : RemoteSignals) (a : Nat)

theorem getElem?_modifyObject (f : RemoteSignal → RemoteSignal) (b : Nat) :
    (c.modifyObject a f).objects[b]? =
      if a = b then (c.objects[b]?).map f else c.objects[b]? := by
  rw [modifyObject, List.getElem?_modify]
  by_cases hab : a = b
  · simp only [if_pos hab]
    rfl
  · simp only [if_neg hab]
    exact Option.map_id'

theorem quiet_modifyObject {f : RemoteSignal → RemoteSignal}
    (hf : ∀ s, (f s).status = s.status) : Quiet c (c.modifyObject a f) := by
  refine ⟨rfl, rfl, fun b => ?_⟩
  rw [getElem?_modifyObject]
  split
  · rw [Option.map_map]
    exact Option.map_congr fun s _ => hf s
  · rfl

theorem quiet_modifyTable (f : LinearTable → LinearTable) : Quiet c (c.modifyTable a f) := by
  refine ⟨rfl, rfl, fun b => ?_⟩
  rw [modifyTable, List.getElem?_map, Option.map_map]
  rfl

theorem quiet_onObject {f : RemoteSignal → RemoteSignal × List SignalEvent}
    (hf : ∀ s, (f s).1.status = s.status) : Quiet c (c.onObject a f).1 := by
  rw [onObject]
  cases c.objects[a]? with
  | none => exact .refl c
  | some s => exact quiet_modifyObject c a hf

theorem same_onObject {f : RemoteSignal → RemoteSignal × List SignalEvent}
    (hf : ∀ s, (f s).1.tag = s.tag) : Same c (c.onObject a f).1 := by
  rw [onObject]
  cases c.objects[a]? with
  | none => exact .refl c
  | some s =>
      refine ⟨rfl, rfl, fun b => ?_⟩
      rw [getElem?_modifyObject]
      split
      · rw [Option.map_map]
        exact Option.map_congr fun s _ => hf s
      · rfl

theorem quiet_handleSignal (params : Json) : Quiet c (c.handleSignal a params).1 := by
  have hdescribe := quiet_modifyObject { c with nextTable := c.nextTable + 1 } a
    (f := fun s => s.describe (.ofJson params) c.nextTable) fun _ => rfl
  have hbind (c : RemoteSignals) (domain table : Option Nat) :=
    quiet_modifyObject c a (f := fun s => s.bindDomain domain table) fun _ => rfl
  have hnext : Quiet c { c with nextTable := c.nextTable + 1 } := ⟨rfl, rfl, fun _ => rfl⟩
  exact (hnext.trans hdescribe).trans (hbind _ _ _)

theorem status_setTcpDelta (s : RemoteSignal) (delta : Option UInt64) :
    (s.setTcpDelta delta).1.status = s.status := by
  cases delta <;> rfl

theorem status_handleSignalRate (s : RemoteSignal) (params : Json) :
    (s.handleSignalRate params).1.status = s.status := by
  rw [RemoteSignal.handleSignalRate, status_setTcpDelta]
  exact RemoteSignal.status_eq rfl rfl rfl

theorem status_handleDataFormat (s : RemoteSignal) (params : Json) :
    (s.handleDataFormat params).status = s.status :=
  RemoteSignal.status_eq rfl rfl rfl

theorem status_handleTime (s : RemoteSignal) (params : Json) :
    (s.handleTime params).status = s.status := by
  apply RemoteSignal.status_eq
  · unfold RemoteSignal.handleTime
    split <;> rfl
  · unfold RemoteSignal.handleTime
    split <;> rfl
  · unfold RemoteSignal.handleTime
    split <;> rfl

/-- A message that neither subscribes nor unsubscribes. -/
theorem quiet_handleMetadata {method : String} (hsub : method ≠ "subscribe")
    (hunsub : method ≠ "unsubscribe") (params : Json) :
    Quiet c (c.handleMetadata a method params).1 := by
  rw [handleMetadata, if_neg hsub, if_neg hunsub]
  split
  · exact quiet_handleSignal c a params
  split
  · exact quiet_onObject c a fun s => status_handleSignalRate s params
  split
  · exact quiet_onObject c a fun s => status_handleDataFormat s params
  split
  · exact quiet_onObject c a fun s => status_handleTime s params
  · exact .refl c

theorem same_handleMetadata (method : String) (params : Json) :
    Same c (c.handleMetadata a method params).1 := by
  by_cases hsub : method = "subscribe"
  · rw [handleMetadata, if_pos hsub]
    apply same_onObject
    intro s
    unfold RemoteSignal.handleSubscribe
    split <;> rfl
  by_cases hunsub : method = "unsubscribe"
  · rw [handleMetadata, if_neg hsub, if_pos hunsub]
    apply same_onObject
    intro s
    unfold RemoteSignal.handleUnsubscribe
    split <;> rfl
  · exact (quiet_handleMetadata c a hsub hunsub params).same

theorem quiet_handleData (data : Bytes) : Quiet c (c.handleData a data).1 := by
  unfold handleData
  split
  · exact .refl c
  dsimp only
  split
  · exact quiet_modifyObject c a fun _ => RemoteSignal.status_eq rfl rfl rfl
  split
  · split
    · exact quiet_modifyTable c _ _
    · exact .refl c
  split
  · have hindex (valueIndex : Int64) := quiet_modifyObject c a
      (f := fun s => { s with valueIndex := valueIndex }) fun _ => rfl
    split
    · exact (hindex _).trans (quiet_modifyTable _ _ _)
    · exact hindex _
  · exact .refl c

end Same

/-! ## Adding, announcing and subscribing -/

section Add

variable {c : RemoteSignals} (id : String) (hidden : Bool)

/-- What `addRemoteSignal` does, by whether the id is known. -/
theorem addRemoteSignal_of_some {e : RemoteSignalEntry}
    (h : OrderedMap.find? c.byId id = some e) : c.addRemoteSignal id hidden = (c, false, e) := by
  rw [addRemoteSignal, h]

theorem addRemoteSignal_of_none (h : OrderedMap.find? c.byId id = none) :
    c.addRemoteSignal id hidden =
      ({ c with
          objects := c.objects ++ [{ id := id }]
          byId := OrderedMap.emplace c.byId id ⟨hidden, c.objects.length⟩ }, true,
        ⟨hidden, c.objects.length⟩) := by
  rw [addRemoteSignal, h]

@[simp] theorem bySigno_addRemoteSignal :
    (c.addRemoteSignal id hidden).1.bySigno = c.bySigno := by
  rw [addRemoteSignal]
  split <;> rfl

theorem find?_addRemoteSignal (j : String) :
    OrderedMap.find? (c.addRemoteSignal id hidden).1.byId j =
      if id = j then some (c.addRemoteSignal id hidden).2.2 else OrderedMap.find? c.byId j := by
  cases hfind : OrderedMap.find? c.byId id with
  | some e =>
      rw [addRemoteSignal_of_some id hidden hfind]
      by_cases hid : id = j
      · rw [if_pos hid, ← hid, hfind]
      · rw [if_neg hid]
  | none =>
      rw [addRemoteSignal_of_none id hidden hfind]
      dsimp only
      rw [OrderedMap.find?_emplace, hfind]
      rfl

/-- The objects that were there are there. -/
theorem getElem?_addRemoteSignal {a : Nat} {s : RemoteSignal} (ha : c.objects[a]? = some s) :
    (c.addRemoteSignal id hidden).1.objects[a]? = some s := by
  cases hfind : OrderedMap.find? c.byId id with
  | some e =>
      rw [addRemoteSignal_of_some id hidden hfind]
      exact ha
  | none =>
      rw [addRemoteSignal_of_none id hidden hfind]
      dsimp only
      rw [List.getElem?_append_left (List.getElem?_eq_some_iff.mp ha).1]
      exact ha

theorem WellFormed.addRemoteSignal (h : c.WellFormed) :
    (c.addRemoteSignal id hidden).1.WellFormed := by
  cases hfind : OrderedMap.find? c.byId id with
  | some e =>
      rw [addRemoteSignal_of_some id hidden hfind]
      exact h
  | none =>
      rw [addRemoteSignal_of_none id hidden hfind]
      constructor
      · exact h.distinct.emplace id _
      · intro j e he
        dsimp only at he ⊢
        rw [OrderedMap.find?_emplace, hfind] at he
        by_cases hid : id = j
        · rw [if_pos hid] at he
          rw [← Option.some.inj he]
          exact ⟨{ id := id }, by simp, hid⟩
        · rw [if_neg hid] at he
          obtain ⟨s, hs, hsid⟩ := h.object j e he
          exact ⟨s, by rw [List.getElem?_append_left (h.address_lt he), hs], hsid⟩

/-- Nothing that was live ends. -/
theorem live_addRemoteSignal (h : c.WellFormed) {a : Nat} (ha : c.live a = true) :
    (c.addRemoteSignal id hidden).1.live a = true := by
  obtain ⟨j, e, hj, he⟩ := h.live_iff.mp ha
  refine (h.addRemoteSignal id hidden).live_iff.mpr ⟨j, e, ?_, he⟩
  rw [find?_addRemoteSignal]
  by_cases hid : id = j
  · rw [if_pos hid, addRemoteSignal_of_some id hidden (hid ▸ hj)]
  · rw [if_neg hid, hj]

theorem live_added (h : c.WellFormed) :
    (c.addRemoteSignal id hidden).1.live (c.addRemoteSignal id hidden).2.2.address = true := by
  refine (h.addRemoteSignal id hidden).live_iff.mpr ⟨id, _, ?_, rfl⟩
  rw [find?_addRemoteSignal, if_pos rfl]

end Add

section Announce

variable {c : RemoteSignals} (id : String)

theorem announce_eq : c.announce id =
    if !(c.addRemoteSignal id false).2.1 && !(c.addRemoteSignal id false).2.2.hidden then
      ((c.addRemoteSignal id false).1, [])
    else
      ((c.addRemoteSignal id false).1.unhide id,
        [.available id (c.addRemoteSignal id false).2.2.address]) := rfl

/-- Showing an entry changes no address. -/
theorem announce_fst : (c.announce id).1 = (c.addRemoteSignal id false).1.unhide id ∨
    (c.announce id).1 = (c.addRemoteSignal id false).1 := by
  rw [announce_eq]
  split
  · right
    rfl
  · left
    rfl

@[simp] theorem bySigno_announce : (c.announce id).1.bySigno = c.bySigno := by
  rcases announce_fst (c := c) id with h | h
  · rw [h]
    exact bySigno_addRemoteSignal id false
  · rw [h]
    exact bySigno_addRemoteSignal id false

@[simp] theorem objects_announce :
    (c.announce id).1.objects = (c.addRemoteSignal id false).1.objects := by
  rcases announce_fst (c := c) id with h | h
  · rw [h]
    rfl
  · rw [h]

/-- An announced signal is not hidden. -/
theorem find?_announce (j : String) :
    OrderedMap.find? (c.announce id).1.byId j =
      if id = j then some ⟨false, (c.addRemoteSignal id false).2.2.address⟩
      else OrderedMap.find? c.byId j := by
  have hadd := find?_addRemoteSignal (c := c) id false j
  rw [announce_eq]
  split
  · rename_i hshown
    rw [hadd]
    generalize c.addRemoteSignal id false = added at hshown ⊢
    obtain ⟨c', isNew, e⟩ := added
    rw [Bool.and_eq_true, Bool.not_eq_true', Bool.not_eq_true'] at hshown
    obtain ⟨hidden, address⟩ := e
    obtain ⟨-, rfl⟩ := hshown
    rfl
  · rw [unhide, OrderedMap.find?_modify, hadd]
    split <;> rfl

theorem WellFormed.announce (h : c.WellFormed) : (c.announce id).1.WellFormed := by
  have hadd := h.addRemoteSignal id false
  constructor
  · rcases announce_fst (c := c) id with heq | heq
    · rw [heq, unhide]
      dsimp only
      exact hadd.distinct.modify id _
    · rw [heq]
      exact hadd.distinct
  · intro j e hj
    rw [objects_announce]
    rw [find?_announce] at hj
    by_cases hid : id = j
    · rw [if_pos hid] at hj
      rw [← Option.some.inj hj]
      apply hadd.object j (c.addRemoteSignal id false).2.2
      rw [find?_addRemoteSignal, if_pos hid]
    · rw [if_neg hid] at hj
      apply hadd.object j e
      rw [find?_addRemoteSignal, if_neg hid, hj]

theorem live_announce (h : c.WellFormed) {a : Nat} (ha : c.live a = true) :
    (c.announce id).1.live a = true := by
  obtain ⟨j, e, hj, he⟩ := (h.addRemoteSignal id false).live_iff.mp
    (live_addRemoteSignal id false h ha)
  refine (h.announce id).live_iff.mpr ?_
  rw [find?_addRemoteSignal] at hj
  by_cases hid : id = j
  · rw [if_pos hid] at hj
    refine ⟨j, _, by rw [find?_announce, if_pos hid], ?_⟩
    rw [← he, ← Option.some.inj hj]
  · rw [if_neg hid] at hj
    exact ⟨j, e, by rw [find?_announce, if_neg hid, hj], he⟩

end Announce

/-- What each id of a loop keeps, the loop keeps. -/
theorem forEach_invariant {f : RemoteSignals → String → RemoteSignals × List RemoteEvent}
    {p : RemoteSignals → Prop} (ids : List String) (hf : ∀ c, ∀ id ∈ ids, p c → p (f c id).1) :
    ∀ c, p c → p (forEach f c ids).1 := by
  induction ids with
  | nil => exact fun c hc => hc
  | cons id ids ih =>
      intro c hc
      apply ih fun c j hj => hf c j (List.mem_cons_of_mem _ hj)
      exact hf c id List.mem_cons_self hc

theorem wellFormed_handleAvailable {c : RemoteSignals} (h : c.WellFormed) (params : Json) :
    (c.handleAvailable params).1.WellFormed :=
  forEach_invariant _ (fun _ id _ hc => hc.announce id) c h

theorem bySigno_handleAvailable (c : RemoteSignals) (params : Json) :
    (c.handleAvailable params).1.bySigno = c.bySigno := by
  apply forEach_invariant (p := fun c' => c'.bySigno = c.bySigno) _ _ c rfl
  intro c' id _ hc'
  rw [bySigno_announce, hc']

theorem live_handleAvailable {c : RemoteSignals} (h : c.WellFormed) (params : Json) {a : Nat}
    (ha : c.live a = true) : (c.handleAvailable params).1.live a = true :=
  (forEach_invariant (f := announce) (p := fun c' => c'.WellFormed ∧ c'.live a = true) _
    (fun _ id _ hc => ⟨hc.1.announce id, live_announce id hc.1 hc.2⟩) c ⟨h, ha⟩).2

section Subscribe

variable {c : RemoteSignals}

theorem WellFormed.setRemoteSignalSigno (h : c.WellFormed) (a : Nat) (signo : UInt32) :
    (c.setRemoteSignalSigno a signo).WellFormed := by
  constructor
  · exact h.distinct
  · intro id e he
    obtain ⟨s, hs, hid⟩ := h.object id e he
    rw [RemoteSignals.setRemoteSignalSigno, getElem?_modifyObject]
    change ∃ s', (if a = e.address then (c.objects[e.address]?).map _ else c.objects[e.address]?) =
      some s' ∧ s'.id = id
    rw [hs]
    split
    · exact ⟨s.setSigno signo, rfl, hid⟩
    · exact ⟨s, rfl, hid⟩

/-- A subscribe message that names a signal. -/
theorem handleSubscribe_of_ne {params : Json} (h : subscribedId params ≠ "") (signo : UInt32) :
    c.handleSubscribe signo params =
      ((c.addRemoteSignal (subscribedId params) true).1.setRemoteSignalSigno
        (c.addRemoteSignal (subscribedId params) true).2.2.address signo).handleMetadata
          (c.addRemoteSignal (subscribedId params) true).2.2.address "subscribe" params := by
  rw [handleSubscribe, if_neg h]

theorem wellFormed_handleSubscribe (h : c.WellFormed) (signo : UInt32) (params : Json) :
    (c.handleSubscribe signo params).1.WellFormed := by
  by_cases hid : subscribedId params = ""
  · rw [handleSubscribe, if_pos hid]
    exact h
  · rw [handleSubscribe_of_ne hid]
    exact (same_handleMetadata _ _ _ _).wellFormed
      ((h.addRemoteSignal _ true).setRemoteSignalSigno _ signo)

theorem noDangling_handleSubscribe (h : c.WellFormed) (hc : c.NoDangling) (signo : UInt32)
    (params : Json) : (c.handleSubscribe signo params).1.NoDangling := by
  by_cases hid : subscribedId params = ""
  · rw [handleSubscribe, if_pos hid]
    exact hc
  · rw [handleSubscribe_of_ne hid]
    apply (same_handleMetadata _ _ _ _).noDangling
    intro n a hn
    change OrderedMap.find? (OrderedMap.set _ signo _) n = some a at hn
    rw [OrderedMap.find?_set] at hn
    change (c.addRemoteSignal (subscribedId params) true).1.live a = true
    by_cases hsigno : signo = n
    · rw [if_pos hsigno] at hn
      rw [← Option.some.inj hn]
      exact live_added _ true h
    · rw [if_neg hsigno, bySigno_addRemoteSignal] at hn
      exact live_addRemoteSignal _ true h (hc n a hn)

end Subscribe

/-! ## Removing -/

section Withdraw

variable {c : RemoteSignals}

/-- The number that a removal of this id erases. -/
def Erases (c : RemoteSignals) (id : String) (signo : UInt32) : Prop :=
  ∃ e, OrderedMap.find? c.byId id = some e ∧ c.signoOf e.address = signo

theorem withdraw_of_none {id : String} (h : OrderedMap.find? c.byId id = none) :
    c.withdraw id = (c, []) := by
  rw [withdraw, removeRemoteSignal, h]

theorem withdraw_of_some {id : String} {e : RemoteSignalEntry}
    (h : OrderedMap.find? c.byId id = some e) :
    c.withdraw id =
      let removed : RemoteSignals := { c with
        byId := OrderedMap.erase c.byId id
        bySigno := OrderedMap.erase c.bySigno (c.signoOf e.address) }
      ((removed.onObject e.address RemoteSignal.detach).1,
        (removed.onObject e.address RemoteSignal.detach).2 ++
          if e.hidden then [] else [.unavailable id e.address]) := by
  rw [withdraw, removeRemoteSignal, h]

/-- An object handler touches no entry and no number. -/
theorem byId_onObject (c : RemoteSignals) (a : Nat)
    (f : RemoteSignal → RemoteSignal × List SignalEvent) :
    (c.onObject a f).1.byId = c.byId ∧ (c.onObject a f).1.bySigno = c.bySigno := by
  rw [onObject]
  split <;> exact ⟨rfl, rfl⟩

theorem getElem?_onObject (c : RemoteSignals) (a : Nat)
    (f : RemoteSignal → RemoteSignal × List SignalEvent) (b : Nat) :
    (c.onObject a f).1.objects[b]? =
      if a = b then (c.objects[b]?).map fun s => (f s).1 else c.objects[b]? := by
  rw [onObject]
  cases ha : c.objects[a]? with
  | none =>
      dsimp only
      by_cases hab : a = b
      · rw [if_pos hab, ← hab, ha, Option.map_none]
      · rw [if_neg hab]
  | some s => exact getElem?_modifyObject c a _ b

theorem find?_withdraw (id j : String) :
    OrderedMap.find? (c.withdraw id).1.byId j =
      if id = j then none else OrderedMap.find? c.byId j := by
  cases h : OrderedMap.find? c.byId id with
  | none =>
      rw [withdraw_of_none h]
      split
      · rename_i hid
        rw [← hid, h]
      · rfl
  | some e =>
      rw [withdraw_of_some h]
      dsimp only
      rw [(byId_onObject _ _ _).1, OrderedMap.find?_erase]

theorem find?_bySigno_withdraw (id : String) (n : UInt32) :
    (c.Erases id n → OrderedMap.find? (c.withdraw id).1.bySigno n = none) ∧
      (¬ c.Erases id n →
        OrderedMap.find? (c.withdraw id).1.bySigno n = OrderedMap.find? c.bySigno n) := by
  cases h : OrderedMap.find? c.byId id with
  | none =>
      rw [withdraw_of_none h]
      constructor
      · rintro ⟨e, he, -⟩
        rw [h] at he
        cases he
      · exact fun _ => rfl
  | some e =>
      rw [withdraw_of_some h]
      dsimp only
      rw [(byId_onObject _ _ _).2, OrderedMap.find?_erase]
      constructor
      · rintro ⟨e', he', hn⟩
        rw [h] at he'
        rw [if_pos (by rw [Option.some.inj he', hn])]
      · intro hn
        rw [if_neg fun heq => hn ⟨e, h, heq⟩]

/-- The objects of the other signals stay. -/
theorem getElem?_withdraw (h : c.WellFormed) {id j : String} {e : RemoteSignalEntry}
    (hid : id ≠ j) (hj : OrderedMap.find? c.byId j = some e) :
    (c.withdraw id).1.objects[e.address]? = c.objects[e.address]? := by
  cases hfind : OrderedMap.find? c.byId id with
  | none => rw [withdraw_of_none hfind]
  | some e' =>
      rw [withdraw_of_some hfind]
      dsimp only
      rw [getElem?_onObject, if_neg fun haddress => hid (h.id_eq hfind hj haddress)]

theorem WellFormed.withdraw (h : c.WellFormed) (id : String) : (c.withdraw id).1.WellFormed := by
  constructor
  · cases hfind : OrderedMap.find? c.byId id with
    | none =>
        rw [withdraw_of_none hfind]
        exact h.distinct
    | some e =>
        rw [withdraw_of_some hfind]
        dsimp only
        rw [(byId_onObject _ _ _).1]
        exact h.distinct.erase id
  · intro j e hj
    rw [find?_withdraw] at hj
    by_cases hid : id = j
    · rw [if_pos hid] at hj
      cases hj
    · rw [if_neg hid] at hj
      rw [getElem?_withdraw h hid hj]
      exact h.object j e hj

/-- A removal leaves the numbers that the other signals remember. -/
theorem erases_withdraw (h : c.WellFormed) {id j : String} {n : UInt32} :
    (c.withdraw id).1.Erases j n ↔ id ≠ j ∧ c.Erases j n := by
  unfold Erases
  rw [find?_withdraw]
  by_cases hid : id = j
  · rw [if_pos hid]
    constructor
    · rintro ⟨e, he, -⟩
      cases he
    · rintro ⟨hne, -⟩
      exact absurd hid hne
  · rw [if_neg hid]
    constructor
    · rintro ⟨e, he, hn⟩
      rw [signoOf, getElem?_withdraw h hid he] at hn
      exact ⟨hid, e, he, hn⟩
    · rintro ⟨-, e, he, hn⟩
      refine ⟨e, he, ?_⟩
      rw [signoOf, getElem?_withdraw h hid he]
      exact hn

/-- **Removal of several signals.** -/
theorem forEach_withdraw (ids : List String) :
    ∀ c : RemoteSignals, c.WellFormed →
      (forEach RemoteSignals.withdraw c ids).1.WellFormed ∧
        (∀ j, OrderedMap.find? (forEach RemoteSignals.withdraw c ids).1.byId j =
          if j ∈ ids then none else OrderedMap.find? c.byId j) ∧
        ∀ n, ((∃ id ∈ ids, c.Erases id n) →
            OrderedMap.find? (forEach RemoteSignals.withdraw c ids).1.bySigno n = none) ∧
          ((∀ id ∈ ids, ¬ c.Erases id n) →
            OrderedMap.find? (forEach RemoteSignals.withdraw c ids).1.bySigno n =
              OrderedMap.find? c.bySigno n) := by
  induction ids with
  | nil =>
      intro c h
      refine ⟨h, fun j => by rw [if_neg List.not_mem_nil]; rfl, fun n => ⟨?_, fun _ => rfl⟩⟩
      rintro ⟨id, hid, -⟩
      cases hid
  | cons id ids ih =>
      intro c h
      have hrest := ih (c.withdraw id).1 (h.withdraw id)
      refine ⟨hrest.1, ?_, ?_⟩
      · intro j
        change OrderedMap.find? (forEach RemoteSignals.withdraw (c.withdraw id).1 ids).1.byId j = _
        rw [hrest.2.1, find?_withdraw]
        by_cases hmem : j ∈ ids
        · rw [if_pos hmem, if_pos (List.mem_cons_of_mem _ hmem)]
        · rw [if_neg hmem]
          by_cases hid : id = j
          · rw [if_pos hid, if_pos (by rw [hid]; exact List.mem_cons_self)]
          · rw [if_neg hid, if_neg fun hj => (List.mem_cons.mp hj).elim (fun e => hid e.symm) hmem]
      · intro n
        change (_ → OrderedMap.find?
            (forEach RemoteSignals.withdraw (c.withdraw id).1 ids).1.bySigno n = none) ∧
          (_ → OrderedMap.find?
            (forEach RemoteSignals.withdraw (c.withdraw id).1 ids).1.bySigno n = _)
        have hfirst := find?_bySigno_withdraw (c := c) id n
        by_cases herases : ∃ j ∈ ids, (c.withdraw id).1.Erases j n
        · refine ⟨fun _ => (hrest.2.2 n).1 herases, fun hnone => ?_⟩
          obtain ⟨j, hj, hjn⟩ := herases
          exact absurd ((erases_withdraw h).mp hjn).2 (hnone j (List.mem_cons_of_mem _ hj))
        · have hkeep := (hrest.2.2 n).2 fun j hj hjn => herases ⟨j, hj, hjn⟩
          rw [hkeep]
          constructor
          · rintro ⟨j, hj, hjn⟩
            apply hfirst.1
            by_cases hid : id = j
            · rw [hid]
              exact hjn
            · rcases List.mem_cons.mp hj with heq | hmem
              · exact absurd heq.symm hid
              · exact absurd ⟨j, hmem, (erases_withdraw h).mpr ⟨hid, hjn⟩⟩ herases
          · intro hnone
            exact hfirst.2 (hnone id List.mem_cons_self)

end Withdraw

/-! ## Following a number -/

section Follow

variable {c : RemoteSignals}

/-- Without dangling numbers every dispatch has a result. -/
theorem dispatch_of_noDangling (hc : c.NoDangling) (signo : UInt32)
    (handler : Nat → RemoteSignals × List RemoteEvent) :
    c.dispatch signo handler =
      some (match OrderedMap.find? c.bySigno signo with
        | none => (c, [])
        | some a => handler a) := by
  rw [dispatch, follow]
  cases h : OrderedMap.find? c.bySigno signo with
  | none => rfl
  | some a =>
      dsimp only
      rw [if_pos (hc signo a h)]
      rfl

/-- A dispatch leaves what every handler leaves. -/
theorem dispatch_spec {signo : UInt32} {handler : Nat → RemoteSignals × List RemoteEvent}
    {p : RemoteSignals → Prop} (hc : p c) (hhandler : ∀ a, p (handler a).1)
    {r : RemoteSignals × List RemoteEvent} (h : c.dispatch signo handler = some r) : p r.1 := by
  rw [dispatch] at h
  obtain ⟨address, -, rfl⟩ := Option.map_eq_some_iff.mp h
  cases address with
  | none => exact hc
  | some a => exact hhandler a

theorem same_dispatchMetadata {signo : UInt32} {method : String} {params : Json}
    {r : RemoteSignals × List RemoteEvent}
    (h : c.dispatchMetadata signo method params = some r) : Same c r.1 :=
  dispatch_spec (p := Same c) (.refl c) (fun a => same_handleMetadata c a method params) h

theorem same_onPeerDataReceived {signo : UInt32} {data : Bytes}
    {r : RemoteSignals × List RemoteEvent}
    (h : c.onPeerDataReceived signo data = some r) : Same c r.1 :=
  dispatch_spec (p := Same c) (.refl c) (fun a => (quiet_handleData c a data).same) h

/-- An unsubscribe message erases the number it comes under. -/
theorem handleUnsubscribe_cases {signo : UInt32} {params : Json}
    {r : RemoteSignals × List RemoteEvent} (h : c.handleUnsubscribe signo params = some r) :
    ∃ c', Same c c' ∧ r.1 = c'.forgetRemoteSigno signo := by
  rw [handleUnsubscribe] at h
  obtain ⟨r', hr', rfl⟩ := Option.map_eq_some_iff.mp h
  exact ⟨r'.1, same_dispatchMetadata hr', rfl⟩

theorem wellFormed_forgetRemoteSigno (h : c.WellFormed) (signo : UInt32) :
    (c.forgetRemoteSigno signo).WellFormed := ⟨h.distinct, h.object⟩

theorem noDangling_forgetRemoteSigno (h : c.NoDangling) (signo : UInt32) :
    (c.forgetRemoteSigno signo).NoDangling := by
  intro n a hn
  rw [forgetRemoteSigno, OrderedMap.find?_erase] at hn
  split at hn
  · cases hn
  · exact h n a hn

end Follow

/-! ## Steps -/

/-- Detaching empties nothing and fills nothing. -/
theorem byId_detachAll (entries : List (String × RemoteSignalEntry)) :
    ∀ c : RemoteSignals,
      (c.detachAll entries).1.byId = c.byId ∧ (c.detachAll entries).1.bySigno = c.bySigno := by
  induction entries with
  | nil => exact fun c => ⟨rfl, rfl⟩
  | cons e entries ih =>
      intro c
      have hrest := ih (c.onObject e.2.address RemoteSignal.detach).1
      have hfirst := byId_onObject c e.2.address RemoteSignal.detach
      exact ⟨hrest.1.trans hfirst.1, hrest.2.trans hfirst.2⟩

theorem clearRemoteSignals_empty (c : RemoteSignals) :
    c.clearRemoteSignals.1.byId = [] ∧ c.clearRemoteSignals.1.bySigno = [] :=
  byId_detachAll c.byId { c with byId := [], bySigno := [] }

/-- The ids that an input takes away; none if it is no `unavailable` message
to the connection. -/
def removedIds : Input → List String
  | .message (.metadata m) =>
      if m.signo = 0 ∧ m.method = "unavailable" then signalIds m.params else []
  | _ => []

/-- What a step can be. -/
theorem step_cases {c : RemoteSignals} {i : Input} {r : RemoteSignals × List RemoteEvent}
    (h : c.step i = some r) :
    (∃ signo params, r = c.handleSubscribe signo params ∧ removedIds i = []) ∨
    (∃ signo params, c.handleUnsubscribe signo params = some r ∧ removedIds i = []) ∨
    (Same c r.1 ∧ removedIds i = []) ∨
    (∃ params, r = c.handleAvailable params ∧ removedIds i = []) ∨
    (∃ params, r = c.handleUnavailable params ∧ removedIds i = signalIds params) ∨
    (r = c.clearRemoteSignals ∧ removedIds i = []) := by
  cases i with
  | close =>
      right; right; right; right; right
      exact ⟨(Option.some.inj h).symm, rfl⟩
  | message m =>
      cases m with
      | data signo data =>
          right; right; left
          exact ⟨same_onPeerDataReceived h, rfl⟩
      | metadata m =>
          obtain ⟨signo, method, params⟩ := m
          change c.onPeerMetadataReceived ⟨signo, method, params⟩ = some r at h
          rw [onPeerMetadataReceived] at h
          dsimp only at h
          unfold removedIds
          dsimp only
          by_cases hsub : method = "subscribe"
          · subst hsub
            left
            rw [if_pos rfl] at h
            exact ⟨signo, params, (Option.some.inj h).symm,
              if_neg fun hm => absurd hm.2 (by decide)⟩
          rw [if_neg hsub] at h
          by_cases hunsub : method = "unsubscribe"
          · subst hunsub
            right; left
            rw [if_pos rfl] at h
            exact ⟨signo, params, h, if_neg fun hm => absurd hm.2 (by decide)⟩
          rw [if_neg hunsub] at h
          by_cases hsigno : signo = 0
          · rw [if_neg (not_not.mpr hsigno)] at h
            by_cases havailable : method = "available"
            · subst havailable
              right; right; right; left
              rw [if_pos rfl] at h
              exact ⟨params, (Option.some.inj h).symm, if_neg fun hm => absurd hm.2 (by decide)⟩
            rw [if_neg havailable] at h
            by_cases hunavailable : method = "unavailable"
            · right; right; right; right; left
              rw [if_pos hunavailable] at h
              exact ⟨params, (Option.some.inj h).symm, if_pos ⟨hsigno, hunavailable⟩⟩
            · right; right; left
              rw [if_neg hunavailable] at h
              rw [← Option.some.inj h]
              exact ⟨.refl c, if_neg fun hm => hunavailable hm.2⟩
          · right; right; left
            rw [if_pos hsigno] at h
            exact ⟨same_dispatchMetadata h, if_neg fun hm => hsigno hm.1⟩

/-- **Every step keeps the tables well formed.** -/
theorem WellFormed.step {c : RemoteSignals} (hc : c.WellFormed) {i : Input}
    {r : RemoteSignals × List RemoteEvent} (h : c.step i = some r) : r.1.WellFormed := by
  rcases step_cases h with ⟨signo, params, rfl, -⟩ | ⟨signo, params, hr, -⟩ | ⟨hsame, -⟩ |
    ⟨params, rfl, -⟩ | ⟨params, rfl, -⟩ | ⟨rfl, -⟩
  · exact wellFormed_handleSubscribe hc signo params
  · obtain ⟨c', hsame, hr⟩ := handleUnsubscribe_cases hr
    rw [hr]
    exact wellFormed_forgetRemoteSigno (hsame.wellFormed hc) signo
  · exact hsame.wellFormed hc
  · exact wellFormed_handleAvailable hc params
  · exact (forEach_withdraw _ c hc).1
  · have hempty := clearRemoteSignals_empty c
    constructor
    · rw [hempty.1]
      exact List.nodup_nil
    · intro id e he
      rw [hempty.1] at he
      cases he

theorem wellFormed_empty : ({} : RemoteSignals).WellFormed := by
  constructor
  · exact List.nodup_nil
  · intro id e he
    cases he

/-- The state after an input. -/
def advance (c : RemoteSignals) (i : Input) : Option RemoteSignals := (c.step i).map Prod.fst

theorem reached_wellFormed {c : RemoteSignals} {inputs : List Input}
    (h : inputs.foldlM advance {} = some c) : c.WellFormed := by
  apply foldlM_preserves _ inputs {} c wellFormed_empty h
  intro c i c' hc hstep
  obtain ⟨r, hr, rfl⟩ := Option.map_eq_some_iff.mp hstep
  exact hc.step hr

end RemoteSignals

end WsStreaming.Ports
