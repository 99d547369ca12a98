import WsStreaming.Ports.SignalTables

/-!
# Remote signals by id

What a connection knows of the peer's signals, without the addresses: the
signal with an id, and the id of the signal under a number.  Each message of a
publishing peer changes what is seen of one signal.

## Main results

* `take_available`, `take_subscribe`, `take_signal`, `take_unsubscribe`,
  `take_data` — the messages of a peer that publishes.
-/

namespace WsStreaming.Ports

open WsStreaming.Verified
open WsStreaming.Verified.OrderedMap (OMap Distinct)
open WsStreaming.Verified.Wire (Bytes)

namespace RemoteSignals

/-- The signal with an id. -/
def seen (c : RemoteSignals) (id : String) : Option RemoteSignal :=
  (OrderedMap.find? c.byId id).bind fun e => c.objects[e.address]?

/-- The id of the signal under a number. -/
def numbered (c : RemoteSignals) (signo : UInt32) : Option String :=
  (OrderedMap.find? c.bySigno signo).bind fun a => (c.objects[a]?).map RemoteSignal.id

/-- The own table of the signal with an id. -/
def tableOf (c : RemoteSignals) (id : String) : Option TablePtr :=
  (c.seen id).bind RemoteSignal.table

/-- The address of the signal with an id. -/
def addressOf (c : RemoteSignals) (id : String) : Option Nat :=
  (OrderedMap.find? c.byId id).map RemoteSignalEntry.address

/-- Whether the signal with an id has a table of this name. -/
def hasTable (c : RemoteSignals) (tableId id : String) : Bool :=
  match c.tableOf id with
  | some t => t.table.id ≠ "" ∧ t.table.id = tableId
  | none => false

/-- The id of the first signal with a table of this name. -/
def tableSought (c : RemoteSignals) (tableId : String) : Option String :=
  (c.byId.map Prod.fst).find? (c.hasTable tableId)

/-- The id of the signal that a signal resolves to, unless it is itself. -/
def domainSought (c : RemoteSignals) (s : RemoteSignal) : Option String :=
  (s.soughtId?.bind c.tableSought).filter fun d => d ≠ s.id

/-- Each table has one owner, and the next table is new. -/
def OwnTables (c : RemoteSignals) : Prop :=
  ∀ a s t, c.objects[a]? = some s → s.table = some t → t.address < c.nextTable ∧
    ∀ (b : Nat) s' t', c.objects[b]? = some s' → s'.table = some t' → t'.address = t.address →
      b = a

/-- The tables are well formed, no number dangles, and no table is shared. -/
structure Reliable (c : RemoteSignals) : Prop where
  wellFormed : c.WellFormed
  noDangling : c.NoDangling
  ownTables : c.OwnTables

theorem reliable_empty : ({} : RemoteSignals).Reliable := by
  constructor
  · exact wellFormed_empty
  · exact fun _ _ h => nomatch h
  · exact fun _ _ _ h => nomatch h

section Lookup

variable {c : RemoteSignals} {id : String} {s : RemoteSignal}

theorem entry_of_seen (h : c.WellFormed) (hs : c.seen id = some s) :
    ∃ e, OrderedMap.find? c.byId id = some e ∧ c.objects[e.address]? = some s ∧ s.id = id := by
  obtain ⟨e, he, hobject⟩ := Option.bind_eq_some_iff.mp hs
  obtain ⟨s', hs', hid⟩ := h.object id e he
  rw [hobject] at hs'
  rw [← Option.some.inj hs'] at hid
  exact ⟨e, he, hobject, hid⟩

theorem id_of_seen (h : c.WellFormed) (hs : c.seen id = some s) : s.id = id := by
  obtain ⟨-, -, -, hid⟩ := entry_of_seen h hs
  exact hid

theorem seen_of_entry {e : RemoteSignalEntry} (he : OrderedMap.find? c.byId id = some e) :
    c.seen id = c.objects[e.address]? := by
  unfold seen
  rw [he]
  rfl

theorem seen_eq_addressOf (c : RemoteSignals) (id : String) :
    c.seen id = (c.addressOf id).bind fun a => c.objects[a]? := by
  unfold seen addressOf
  cases OrderedMap.find? c.byId id <;> rfl

/-- A number leads to the signal with an id. -/
theorem entry_of_numbered (h : c.Reliable) {signo : UInt32} (hn : c.numbered signo = some id) :
    ∃ e s, OrderedMap.find? c.byId id = some e ∧
      OrderedMap.find? c.bySigno signo = some e.address ∧ c.objects[e.address]? = some s ∧
        c.seen id = some s := by
  obtain ⟨a, ha, hobject⟩ := Option.bind_eq_some_iff.mp hn
  obtain ⟨s, hs, rfl⟩ := Option.map_eq_some_iff.mp hobject
  obtain ⟨id, e, he, rfl⟩ := h.wellFormed.live_iff.mp (h.noDangling signo a ha)
  obtain ⟨s', hs', hid⟩ := h.wellFormed.object id e he
  rw [hs] at hs'
  obtain rfl := Option.some.inj hs'
  rw [hid]
  exact ⟨e, s, he, ha, hs, (seen_of_entry he).trans hs⟩

/-- Signals with two ids are two objects. -/
theorem address_ne_of_ne (h : c.WellFormed) {j : String} {e e' : RemoteSignalEntry}
    (he : OrderedMap.find? c.byId id = some e) (he' : OrderedMap.find? c.byId j = some e')
    (hne : id ≠ j) : e.address ≠ e'.address :=
  fun heq => hne (h.id_eq he he' heq)

end Lookup

/-! ## Changes of objects -/

section Objects

variable {c : RemoteSignals} {id : String} {e : RemoteSignalEntry}

/-- A change of the object with an id. -/
theorem seen_modifyObject (h : c.WellFormed) (he : OrderedMap.find? c.byId id = some e)
    (f : RemoteSignal → RemoteSignal) (j : String) :
    (c.modifyObject e.address f).seen j = if id = j then (c.seen j).map f else c.seen j := by
  change (OrderedMap.find? c.byId j).bind
    (fun e' => (c.modifyObject e.address f).objects[e'.address]?) = _
  unfold seen
  by_cases hid : id = j
  · rw [if_pos hid, ← hid, he]
    change (c.modifyObject e.address f).objects[e.address]? = (c.objects[e.address]?).map f
    rw [getElem?_modifyObject, if_pos rfl]
  · rw [if_neg hid]
    cases hj : OrderedMap.find? c.byId j with
    | none => rfl
    | some e' =>
        change (c.modifyObject e.address f).objects[e'.address]? = c.objects[e'.address]?
        rw [getElem?_modifyObject, if_neg (address_ne_of_ne h he hj hid)]

theorem numbered_modifyObject (a : Nat) {f : RemoteSignal → RemoteSignal}
    (hf : ∀ s, (f s).id = s.id) (signo : UInt32) :
    (c.modifyObject a f).numbered signo = c.numbered signo := by
  unfold numbered
  congr 1
  funext b
  rw [getElem?_modifyObject]
  by_cases hab : a = b
  · rw [if_pos hab, Option.map_map]
    congr 1
    funext s
    exact hf s
  · rw [if_neg hab]

/-- A change of the table with an address. -/
theorem seen_modifyTable (address : Nat) (f : LinearTable → LinearTable) (j : String) :
    (c.modifyTable address f).seen j = (c.seen j).map fun s => s.modifyTable address f := by
  change (OrderedMap.find? c.byId j).bind
    (fun e' => (c.objects.map fun s => s.modifyTable address f)[e'.address]?) = _
  unfold seen
  cases OrderedMap.find? c.byId j with
  | none => rfl
  | some e' => exact List.getElem?_map

theorem numbered_modifyTable (address : Nat) (f : LinearTable → LinearTable) (signo : UInt32) :
    (c.modifyTable address f).numbered signo = c.numbered signo := by
  change (OrderedMap.find? c.bySigno signo).bind
    (fun a => ((c.objects.map fun s => s.modifyTable address f)[a]?).map RemoteSignal.id) = _
  unfold numbered
  congr 1
  funext a
  rw [List.getElem?_map, Option.map_map]
  rfl

/-- Signals whose own tables have the same addresses. -/
theorem OwnTables.of_addresses (h : c.OwnTables) {c' : RemoteSignals}
    (hnext : c.nextTable ≤ c'.nextTable)
    (haddress : ∀ (a : Nat) (s' : RemoteSignal) (t' : TablePtr), c'.objects[a]? = some s' →
      s'.table = some t' →
      ∃ s t, c.objects[a]? = some s ∧ s.table = some t ∧ t.address = t'.address) :
    c'.OwnTables := by
  intro a s' t' hs' ht'
  obtain ⟨s, t, hs, ht, hat⟩ := haddress a s' t' hs' ht'
  obtain ⟨hlt, hunique⟩ := h a s t hs ht
  refine ⟨by omega, ?_⟩
  intro b s'' t'' hs'' ht'' heq
  obtain ⟨u, v, hu, hv, hbv⟩ := haddress b s'' t'' hs'' ht''
  exact hunique b u v hu hv (by rw [hbv, heq, hat])

theorem ownTables_modifyTable (h : c.OwnTables) (address : Nat) (f : LinearTable → LinearTable) :
    (c.modifyTable address f).OwnTables := by
  refine h.of_addresses ?_ ?_
  · exact Nat.le_refl c.nextTable
  intro a s' t' hs' ht'
  change (c.objects.map fun s => s.modifyTable address f)[a]? = some s' at hs'
  rw [List.getElem?_map] at hs'
  obtain ⟨s, hs, rfl⟩ := Option.map_eq_some_iff.mp hs'
  obtain ⟨t, ht, rfl⟩ := Option.map_eq_some_iff.mp ht'
  refine ⟨s, t, hs, ht, ?_⟩
  split <;> rfl

/-- An object whose own table is not replaced. -/
theorem ownTables_modifyObject (h : c.OwnTables) (a : Nat) {f : RemoteSignal → RemoteSignal}
    (hf : ∀ s, (f s).table = s.table) : (c.modifyObject a f).OwnTables := by
  refine h.of_addresses ?_ ?_
  · exact Nat.le_refl c.nextTable
  intro b s' t' hs' ht'
  rw [getElem?_modifyObject] at hs'
  by_cases hab : a = b
  · rw [if_pos hab] at hs'
    obtain ⟨s, hs, rfl⟩ := Option.map_eq_some_iff.mp hs'
    rw [hf] at ht'
    exact ⟨s, t', hs, ht', rfl⟩
  · rw [if_neg hab] at hs'
    exact ⟨s', t', hs', ht', rfl⟩

end Objects

/-! ## Adding -/

section Add

variable {c : RemoteSignals}

theorem seen_addRemoteSignal (h : c.WellFormed) (id : String) (hidden : Bool) (j : String) :
    (c.addRemoteSignal id hidden).1.seen j =
      if id = j then some ((c.seen id).getD { id := id }) else c.seen j := by
  unfold seen
  rw [find?_addRemoteSignal]
  cases hfind : OrderedMap.find? c.byId id with
  | some e =>
      obtain ⟨s, hs, -⟩ := h.object id e hfind
      rw [addRemoteSignal_of_some id hidden hfind]
      by_cases hid : id = j
      · rw [if_pos hid, if_pos hid]
        change c.objects[e.address]? = some ((c.objects[e.address]?).getD { id := id })
        rw [hs]
        rfl
      · rw [if_neg hid, if_neg hid]
  | none =>
      rw [addRemoteSignal_of_none id hidden hfind]
      by_cases hid : id = j
      · rw [if_pos hid, if_pos hid]
        simp
      · rw [if_neg hid, if_neg hid]
        cases hj : OrderedMap.find? c.byId j with
        | none => rfl
        | some e => exact List.getElem?_append_left (h.address_lt hj)

theorem numbered_addRemoteSignal (h : c.Reliable) (id : String) (hidden : Bool)
    (signo : UInt32) : (c.addRemoteSignal id hidden).1.numbered signo = c.numbered signo := by
  unfold numbered
  rw [bySigno_addRemoteSignal]
  cases hn : OrderedMap.find? c.bySigno signo with
  | none => rfl
  | some a =>
      obtain ⟨j, e, he, rfl⟩ := h.wellFormed.live_iff.mp (h.noDangling signo a hn)
      obtain ⟨s, hs, -⟩ := h.wellFormed.object j e he
      change ((c.addRemoteSignal id hidden).1.objects[e.address]?).map RemoteSignal.id =
        (c.objects[e.address]?).map RemoteSignal.id
      rw [getElem?_addRemoteSignal id hidden hs, hs]

theorem ownTables_addRemoteSignal (h : c.OwnTables) (id : String) (hidden : Bool) :
    (c.addRemoteSignal id hidden).1.OwnTables := by
  cases hfind : OrderedMap.find? c.byId id with
  | some e =>
      rw [addRemoteSignal_of_some id hidden hfind]
      exact h
  | none =>
      rw [addRemoteSignal_of_none id hidden hfind]
      refine h.of_addresses ?_ ?_
      · exact Nat.le_refl c.nextTable
      intro a s t hs ht
      change (c.objects ++ [({ id := id } : RemoteSignal)])[a]? = some s at hs
      rcases Nat.lt_or_ge a c.objects.length with hlt | hge
      · rw [List.getElem?_append_left hlt] at hs
        exact ⟨s, t, hs, ht, rfl⟩
      · rw [List.getElem?_append_right hge] at hs
        have hmem := List.mem_singleton.mp (List.mem_of_getElem? hs)
        rw [hmem] at ht
        cases ht

theorem Reliable.addRemoteSignal (h : c.Reliable) (id : String) (hidden : Bool) :
    (c.addRemoteSignal id hidden).1.Reliable := by
  constructor
  · exact h.wellFormed.addRemoteSignal id hidden
  · intro signo a ha
    rw [bySigno_addRemoteSignal] at ha
    exact live_addRemoteSignal id hidden h.wellFormed (h.noDangling signo a ha)
  · exact ownTables_addRemoteSignal h.ownTables id hidden

/-- What is added is as good as what was there. -/
structure Extends (c c' : RemoteSignals) : Prop where
  reliable : c'.Reliable
  numbered : ∀ n, c'.numbered n = c.numbered n
  seen : ∀ j, c'.seen j = c.seen j ∨ c.seen j = none ∧ c'.seen j = some { id := j }

theorem Extends.refl (h : c.Reliable) : Extends c c := ⟨h, fun _ => rfl, fun _ => .inl rfl⟩

theorem Extends.trans {c' c'' : RemoteSignals} (h : Extends c c') (h' : Extends c' c'') :
    Extends c c'' := by
  refine ⟨h'.reliable, fun n => (h'.numbered n).trans (h.numbered n), fun j => ?_⟩
  rcases h'.seen j with hsame | ⟨hnone, hnew⟩
  · rw [hsame]
    exact h.seen j
  · rcases h.seen j with hsame' | ⟨-, hnew'⟩
    · rw [hsame'] at hnone
      exact .inr ⟨hnone, hnew⟩
    · rw [hnone] at hnew'
      cases hnew'

/-- An announcement adds an entry or shows one. -/
theorem extends_announce (h : c.Reliable) (id : String) : Extends c (c.announce id).1 := by
  have hadd := h.addRemoteSignal id false
  have hbySigno := bySigno_announce (c := c) id
  have hobjects := objects_announce (c := c) id
  constructor
  · refine ⟨h.wellFormed.announce id, ?_, ?_⟩
    · intro signo a ha
      rw [hbySigno] at ha
      exact live_announce id h.wellFormed (h.noDangling signo a ha)
    · apply hadd.ownTables.of_addresses
      · rcases announce_fst (c := c) id with heq | heq
        · rw [heq]
          exact Nat.le_refl _
        · rw [heq]
      · intro a s t hs ht
        rw [hobjects] at hs
        exact ⟨s, t, hs, ht, rfl⟩
  · intro n
    rw [← numbered_addRemoteSignal h id false]
    unfold numbered
    rw [hbySigno, bySigno_addRemoteSignal, hobjects]
  · intro j
    have hseen : (c.announce id).1.seen j = (c.addRemoteSignal id false).1.seen j := by
      unfold seen
      rw [find?_announce, find?_addRemoteSignal, hobjects]
      by_cases hid : id = j
      · rw [if_pos hid, if_pos hid]
        rfl
      · rw [if_neg hid, if_neg hid]
    rw [hseen, seen_addRemoteSignal h.wellFormed]
    by_cases hid : id = j
    · subst hid
      rw [if_pos rfl]
      cases hs : c.seen id with
      | none => exact .inr ⟨rfl, rfl⟩
      | some s => exact .inl rfl
    · rw [if_neg hid]
      exact .inl rfl

end Add

/-! ## Messages -/

/-- Only the signal with one id is seen differently. -/
structure Changes (c c' : RemoteSignals) (id : String) (s' : RemoteSignal) : Prop where
  reliable : c'.Reliable
  seen : ∀ j, c'.seen j = if id = j then some s' else c.seen j

section Messages

variable {c : RemoteSignals} {id : String} {s : RemoteSignal} {signo : UInt32}

theorem Changes.self {c' : RemoteSignals} {s' : RemoteSignal} (h : Changes c c' id s') :
    c'.seen id = some s' := by
  rw [h.seen, if_pos rfl]

theorem Changes.other {c' : RemoteSignals} {s' : RemoteSignal} (h : Changes c c' id s')
    {j : String} (hj : id ≠ j) : c'.seen j = c.seen j := by
  rw [h.seen, if_neg hj]

/-- Changed objects with the same ids and their own tables. -/
theorem reliable_modifyObject (h : c.Reliable) (a : Nat) {f : RemoteSignal → RemoteSignal}
    (hf : ∀ s, (f s).id = s.id) (htable : ∀ s, (f s).table = s.table) :
    (c.modifyObject a f).Reliable := by
  refine ⟨⟨h.wellFormed.distinct, ?_⟩, h.noDangling, ownTables_modifyObject h.ownTables a htable⟩
  intro id e he
  obtain ⟨s, hs, hid⟩ := h.wellFormed.object id e he
  rw [getElem?_modifyObject]
  by_cases ha : a = e.address
  · rw [if_pos ha, hs]
    exact ⟨f s, rfl, (hf s).trans hid⟩
  · rw [if_neg ha]
    exact ⟨s, hs, hid⟩

/-- A change of one object that leaves its table alone. -/
theorem changes_modifyObject (h : c.Reliable) {e : RemoteSignalEntry}
    (he : OrderedMap.find? c.byId id = some e) (hs : c.seen id = some s)
    {f : RemoteSignal → RemoteSignal} (hf : ∀ s, (f s).id = s.id)
    (htable : ∀ s, (f s).table = s.table) : Changes c (c.modifyObject e.address f) id (f s) := by
  refine ⟨reliable_modifyObject h _ hf htable, fun j => ?_⟩
  rw [seen_modifyObject h.wellFormed he]
  by_cases hid : id = j
  · rw [if_pos hid, if_pos hid, ← hid, hs]
    rfl
  · rw [if_neg hid, if_neg hid]

theorem Changes.trans {c' c'' : RemoteSignals} {s' s'' : RemoteSignal}
    (h : Changes c c' id s') (h' : Changes c' c'' id s'') : Changes c c'' id s'' := by
  refine ⟨h'.reliable, fun j => ?_⟩
  rw [h'.seen]
  by_cases hid : id = j
  · rw [if_pos hid, if_pos hid]
  · rw [if_neg hid, if_neg hid, h.other hid]

/-- A message under a number. -/
theorem step_metadata (h : c.Reliable) (hsigno : signo ≠ 0) (method : String)
    (hsub : method ≠ "subscribe") (hunsub : method ≠ "unsubscribe") (params : Json) :
    c.step (.message (.ofMetadata signo method params)) =
      some (match OrderedMap.find? c.bySigno signo with
        | none => (c, [])
        | some a => c.handleMetadata a method params) := by
  change c.onPeerMetadataReceived ⟨signo, method, params⟩ = _
  rw [onPeerMetadataReceived, if_neg hsub, if_neg hunsub, if_pos hsigno, dispatchMetadata]
  exact dispatch_of_noDangling h.noDangling signo _

/-- **An available message.**  What was seen is seen as before; a signal that is
new is untouched. -/
theorem take_available (h : c.Reliable) (params : Json) :
    ∃ c' events, c.step (.message (.ofMetadata 0 "available" params)) = some (c', events) ∧
      Extends c c' := by
  refine ⟨_, _, rfl, ?_⟩
  apply forEach_invariant (p := Extends c) _ _ c (.refl h)
  exact fun c' id _ hc' => hc'.trans (extends_announce hc'.reliable id)

theorem id_handleSubscribe (s : RemoteSignal) : s.handleSubscribe.1.id = s.id := by
  unfold RemoteSignal.handleSubscribe
  split <;> rfl

theorem table_handleSubscribe (s : RemoteSignal) : s.handleSubscribe.1.table = s.table := by
  unfold RemoteSignal.handleSubscribe
  split <;> rfl

theorem id_handleUnsubscribe (s : RemoteSignal) : s.handleUnsubscribe.1.id = s.id := by
  unfold RemoteSignal.handleUnsubscribe
  split <;> rfl

theorem table_handleUnsubscribe (s : RemoteSignal) : s.handleUnsubscribe.1.table = s.table := by
  unfold RemoteSignal.handleUnsubscribe
  split <;> rfl

/-- **A subscribe message**, which makes the signal known if it is not. -/
theorem take_subscribe (h : c.Reliable) (hid : id ≠ "") (signo : UInt32) :
    ∃ c' events, c.step (.message (.ofMetadata signo "subscribe"
        (.object [("signalId", .string id)]))) = some (c', events) ∧
      Changes c c' id ((((c.seen id).getD { id := id }).setSigno signo).handleSubscribe.1) ∧
      ∀ n, c'.numbered n = if signo = n then some id else c.numbered n := by
  have hparams : subscribedId (.object [("signalId", .string id)]) = id := rfl
  have hne : subscribedId (.object [("signalId", .string id)]) ≠ "" := by
    rw [hparams]
    exact hid
  have hhandle := handleSubscribe_of_ne (c := c) hne signo
  rw [hparams] at hhandle
  -- The entry that is there or added.
  obtain ⟨added, hadded⟩ : ∃ added, added = c.addRemoteSignal id true := ⟨_, rfl⟩
  have hreliable : added.1.Reliable := by
    rw [hadded]
    exact h.addRemoteSignal id true
  have he : OrderedMap.find? added.1.byId id = some added.2.2 := by
    rw [hadded, find?_addRemoteSignal, if_pos rfl]
  have hseen : added.1.seen id = some ((c.seen id).getD { id := id }) := by
    rw [hadded, seen_addRemoteSignal h.wellFormed, if_pos rfl]
  rw [← hadded] at hhandle
  -- Its number, and then the subscription.
  obtain ⟨c₀, hc₀⟩ : ∃ c₀ : RemoteSignals, c₀ =
      { added.1 with bySigno := OrderedMap.set added.1.bySigno signo added.2.2.address } := ⟨_, rfl⟩
  have hreliable₀ : c₀.Reliable := by
    rw [hc₀]
    refine ⟨⟨hreliable.wellFormed.distinct, hreliable.wellFormed.object⟩, ?_, hreliable.ownTables⟩
    intro n a ha
    change OrderedMap.find? (OrderedMap.set _ signo _) n = some a at ha
    change added.1.live a = true
    rw [OrderedMap.find?_set] at ha
    by_cases hsigno : signo = n
    · rw [if_pos hsigno] at ha
      rw [← Option.some.inj ha]
      exact hreliable.wellFormed.live_iff.mpr ⟨id, _, he, rfl⟩
    · rw [if_neg hsigno] at ha
      exact hreliable.noDangling n a ha
  have he₀ : OrderedMap.find? c₀.byId id = some added.2.2 := by
    rw [hc₀]
    exact he
  have hseen₀ : c₀.seen id = some ((c.seen id).getD { id := id }) := by
    rw [hc₀]
    exact hseen
  have hsigned := changes_modifyObject hreliable₀ he₀ hseen₀ (f := fun s => s.setSigno signo)
    (fun _ => rfl) (fun _ => rfl)
  have hobject : (c₀.modifyObject added.2.2.address fun s => s.setSigno signo).objects[
      added.2.2.address]? = some (((c.seen id).getD { id := id }).setSigno signo) := by
    have hself := hsigned.self
    rw [seen_of_entry
      (show OrderedMap.find? (c₀.modifyObject _ _).byId id = some added.2.2 from he₀)]
      at hself
    exact hself
  have hsubscribed := changes_modifyObject hsigned.reliable
    (show OrderedMap.find? (c₀.modifyObject _ _).byId id = some added.2.2 from he₀) hsigned.self
    (f := fun s => s.handleSubscribe.1) id_handleSubscribe table_handleSubscribe
  have hresult : (c.handleSubscribe signo (.object [("signalId", .string id)])).1 =
      (c₀.modifyObject added.2.2.address fun s => s.setSigno signo).modifyObject
        added.2.2.address fun s => s.handleSubscribe.1 := by
    rw [hhandle, setRemoteSignalSigno, ← hc₀, handleMetadata, if_pos rfl, onObject, hobject]
  refine ⟨(c.handleSubscribe signo (.object [("signalId", .string id)])).1,
    (c.handleSubscribe signo (.object [("signalId", .string id)])).2, rfl, ?_, ?_⟩
  · rw [hresult]
    refine ⟨hsubscribed.reliable, fun j => ?_⟩
    rw [hsubscribed.seen]
    by_cases hj : id = j
    · rw [if_pos hj, if_pos hj]
    · rw [if_neg hj, if_neg hj, hsigned.other hj]
      have hsame : c₀.seen j = added.1.seen j := by
        rw [hc₀]
        rfl
      rw [hsame, hadded, seen_addRemoteSignal h.wellFormed, if_neg hj]
  · intro n
    have hsame := numbered_modifyObject (c := c₀) added.2.2.address
      (f := fun s => s.setSigno signo) (fun _ => rfl) n
    rw [hresult, numbered_modifyObject _ id_handleSubscribe, hsame]
    by_cases hsigno : signo = n
    · rw [if_pos hsigno]
      unfold numbered
      have hfind : OrderedMap.find? c₀.bySigno n = some added.2.2.address := by
        rw [hc₀]
        change OrderedMap.find? (OrderedMap.set _ signo _) n = _
        rw [OrderedMap.find?_set, if_pos hsigno]
      rw [hfind]
      change (c₀.objects[added.2.2.address]?).map RemoteSignal.id = some id
      rw [← seen_of_entry he₀, hseen₀]
      exact congrArg some (id_of_seen hreliable₀.wellFormed hseen₀)
    · rw [if_neg hsigno, ← numbered_addRemoteSignal h id true, ← hadded]
      unfold numbered
      have hfind : OrderedMap.find? c₀.bySigno n = OrderedMap.find? added.1.bySigno n := by
        rw [hc₀]
        change OrderedMap.find? (OrderedMap.set _ signo _) n = _
        rw [OrderedMap.find?_set, if_neg hsigno]
      rw [hfind, hc₀]

/-- The id of an unnamed signal is ignored. -/
theorem take_subscribe_empty (c : RemoteSignals) (signo : UInt32) :
    c.step (.message (.ofMetadata signo "subscribe" (.object [("signalId", .string "")]))) =
      some (c, []) := rfl

theorem Reliable.forgetRemoteSigno (h : c.Reliable) (signo : UInt32) :
    (c.forgetRemoteSigno signo).Reliable :=
  ⟨wellFormed_forgetRemoteSigno h.wellFormed signo, noDangling_forgetRemoteSigno h.noDangling signo,
    h.ownTables⟩

theorem numbered_forgetRemoteSigno (c : RemoteSignals) (signo n : UInt32) :
    (c.forgetRemoteSigno signo).numbered n = if signo = n then none else c.numbered n := by
  change (OrderedMap.find? (OrderedMap.erase c.bySigno signo) n).bind
    (fun a => (c.objects[a]?).map RemoteSignal.id) = _
  rw [OrderedMap.find?_erase]
  by_cases hsigno : signo = n
  · rw [if_pos hsigno, if_pos hsigno]
    rfl
  · rw [if_neg hsigno, if_neg hsigno]
    rfl

/-- A number without a signal is not there. -/
theorem find?_of_numbered_none (h : c.Reliable) (hn : c.numbered signo = none) :
    OrderedMap.find? c.bySigno signo = none := by
  cases hfind : OrderedMap.find? c.bySigno signo with
  | none => rfl
  | some a =>
      obtain ⟨id, e, he, rfl⟩ := h.wellFormed.live_iff.mp (h.noDangling signo a hfind)
      obtain ⟨s, hs, -⟩ := h.wellFormed.object id e he
      unfold numbered at hn
      rw [hfind] at hn
      change (c.objects[e.address]?).map RemoteSignal.id = none at hn
      rw [hs] at hn
      cases hn

/-- An unsubscribe message, whether the number is known or not. -/
theorem step_unsubscribe (h : c.Reliable) (signo : UInt32) (params : Json) :
    c.step (.message (.ofMetadata signo "unsubscribe" params)) =
      some (match OrderedMap.find? c.bySigno signo with
        | none => (c.forgetRemoteSigno signo, [])
        | some a => ((c.onObject a RemoteSignal.handleUnsubscribe).1.forgetRemoteSigno signo,
            (c.onObject a RemoteSignal.handleUnsubscribe).2)) := by
  change c.handleUnsubscribe signo params = _
  rw [handleUnsubscribe, dispatchMetadata, dispatch_of_noDangling h.noDangling]
  cases OrderedMap.find? c.bySigno signo with
  | none => rfl
  | some a =>
      have hhandle : c.handleMetadata a "unsubscribe" params =
          c.onObject a RemoteSignal.handleUnsubscribe := by
        rw [handleMetadata, if_neg (by decide), if_pos rfl]
      exact congrArg (fun r => some (r.1.forgetRemoteSigno signo, r.2)) hhandle

/-- **An unsubscribe message.** -/
theorem take_unsubscribe (h : c.Reliable) (hn : c.numbered signo = some id)
    (hs : c.seen id = some s) (params : Json) :
    ∃ c' events, c.step (.message (.ofMetadata signo "unsubscribe" params)) = some (c', events) ∧
      Changes c c' id s.handleUnsubscribe.1 ∧
      ∀ n, c'.numbered n = if signo = n then none else c.numbered n := by
  obtain ⟨e, s', he, hsigno, hobject, hs'⟩ := entry_of_numbered h hn
  have hchanges := changes_modifyObject h he hs (f := fun s => s.handleUnsubscribe.1)
    id_handleUnsubscribe table_handleUnsubscribe
  have hfirst : (c.onObject e.address RemoteSignal.handleUnsubscribe).1 =
      c.modifyObject e.address fun s => s.handleUnsubscribe.1 := by
    rw [onObject, hobject]
  have hstep := step_unsubscribe h signo params
  rw [hsigno] at hstep
  refine ⟨_, _, hstep, ?_, fun n => ?_⟩
  · rw [hfirst]
    exact ⟨hchanges.reliable.forgetRemoteSigno signo, hchanges.seen⟩
  · rw [hfirst, numbered_forgetRemoteSigno, numbered_modifyObject _ id_handleUnsubscribe]

theorem take_unsubscribe_unknown (h : c.Reliable) (hn : c.numbered signo = none) (params : Json) :
    ∃ c' events, c.step (.message (.ofMetadata signo "unsubscribe" params)) = some (c', events) ∧
      c'.Reliable ∧ (∀ j, c'.seen j = c.seen j) ∧ ∀ n, c'.numbered n = c.numbered n := by
  have hsigno := find?_of_numbered_none h hn
  have hstep := step_unsubscribe h signo params
  rw [hsigno] at hstep
  refine ⟨_, _, hstep, h.forgetRemoteSigno signo, fun _ => rfl, fun n => ?_⟩
  rw [numbered_forgetRemoteSigno]
  by_cases hsame : signo = n
  · rw [if_pos hsame, ← hsame, hn]
  · rw [if_neg hsame]

/-- `find_table`, by id. -/
theorem findTable_eq (h : c.WellFormed) (tableId : String) :
    c.findTable tableId = (c.tableSought tableId).bind c.addressOf := by
  have hfind : c.findTable tableId =
      (c.byId.find? fun e => c.hasTable tableId e.1).map fun e => e.2.address := by
    refine congrArg (Option.map _) (List.find?_congr ?_)
    rintro ⟨j, e⟩ he
    have hentry := (OrderedMap.find?_eq_some_iff h.distinct).mpr he
    have hseen : c.tableOf j = (c.objects[e.address]?).bind RemoteSignal.table :=
      congrArg (Option.bind · RemoteSignal.table) (seen_of_entry hentry)
    unfold hasTable
    exact hseen ▸ rfl
  rw [hfind, tableSought, List.find?_map]
  change _ = ((c.byId.find? fun e => c.hasTable tableId e.1).map Prod.fst).bind c.addressOf
  cases hfound : c.byId.find? fun e => c.hasTable tableId e.1 with
  | none => rfl
  | some e =>
      have hentry := (OrderedMap.find?_eq_some_iff h.distinct).mpr
        (show (e.1, e.2) ∈ c.byId from List.mem_of_find?_eq_some hfound)
      change some e.2.address = c.addressOf e.1
      rw [addressOf, hentry]
      rfl

/-- What is bound when a signal is described. -/
structure Bound (c : RemoteSignals) (s : RemoteSignal) : Prop where
  domainSignal : s.domainSignal = (c.domainSought s).bind c.addressOf
  domainTable : s.domainTable = ((c.domainSought s).bind c.tableOf).map TablePtr.address

/-- The own table of a described signal keeps its address or gets a new one. -/
theorem ownTables_describe (h : c.OwnTables) (a : Nat) (metadata : Metadata) :
    ({ c with nextTable := c.nextTable + 1 }.modifyObject a fun s =>
      s.describe metadata c.nextTable).OwnTables := by
  -- The owner of an address was its owner, or is the object with the new table.
  have howner (b : Nat) (s' : RemoteSignal) (t' : TablePtr)
      (hs' : ({ c with nextTable := c.nextTable + 1 }.modifyObject a fun s =>
        s.describe metadata c.nextTable).objects[b]? = some s') (ht' : s'.table = some t') :
      (∃ s t, c.objects[b]? = some s ∧ s.table = some t ∧ t.address = t'.address) ∨
        b = a ∧ t'.address = c.nextTable := by
    rw [getElem?_modifyObject] at hs'
    by_cases hab : a = b
    · rw [if_pos hab] at hs'
      obtain ⟨s, hs, rfl⟩ := Option.map_eq_some_iff.mp hs'
      unfold RemoteSignal.describe at ht'
      dsimp only at ht'
      split at ht'
      · cases ht : s.table with
        | some t =>
            rw [ht] at ht'
            rw [← Option.some.inj ht']
            exact .inl ⟨s, t, hs, ht, rfl⟩
        | none =>
            rw [ht] at ht'
            rw [← Option.some.inj ht']
            exact .inr ⟨hab.symm, rfl⟩
      · cases ht'
    · rw [if_neg hab] at hs'
      exact .inl ⟨s', t', hs', ht', rfl⟩
  intro b s' t' hs' ht'
  rcases howner b s' t' hs' ht' with ⟨s, t, hs, ht, haddress⟩ | ⟨hb, haddress⟩
  · obtain ⟨hlt, hunique⟩ := h b s t hs ht
    refine ⟨?_, ?_⟩
    · change t'.address < c.nextTable + 1
      omega
    · intro b' s'' t'' hs'' ht'' heq
      rcases howner b' s'' t'' hs'' ht'' with ⟨u, v, hu, hv, haddress'⟩ | ⟨-, haddress'⟩
      · exact hunique b' u v hu hv (by rw [haddress', heq, haddress])
      · omega
  · refine ⟨?_, ?_⟩
    · change t'.address < c.nextTable + 1
      omega
    · intro b' s'' t'' hs'' ht'' heq
      rcases howner b' s'' t'' hs'' ht'' with ⟨u, v, hu, hv, haddress'⟩ | ⟨hb', -⟩
      · have hlt := (h b' u v hu hv).1
        omega
      · rw [hb', hb]

/-- A signal resolves to itself by id as it does by address. -/
theorem bound_of_found (h : c.WellFormed) {e : RemoteSignalEntry}
    (he : OrderedMap.find? c.byId id = some e) (hid : s.id = id) :
    ((s.soughtId?.bind c.findTable).filter fun d => d ≠ e.address) =
      (c.domainSought s).bind c.addressOf := by
  unfold domainSought
  cases s.soughtId? with
  | none => rfl
  | some tableId =>
      change (c.findTable tableId).filter _ = ((c.tableSought tableId).filter _).bind c.addressOf
      rw [findTable_eq h]
      cases hfound : c.tableSought tableId with
      | none => rfl
      | some d =>
          have hmem : d ∈ c.byId.map Prod.fst := List.mem_of_find?_eq_some hfound
          obtain ⟨⟨j, e'⟩, hentry, rfl⟩ := List.mem_map.mp hmem
          have he' := (OrderedMap.find?_eq_some_iff h.distinct).mpr hentry
          have haddress : c.addressOf j = some e'.address := by
            rw [addressOf, he']
            rfl
          change (c.addressOf j).filter _ = _
          rw [haddress]
          by_cases hj : j = id
          · obtain rfl := hj
            rw [he] at he'
            obtain rfl := Option.some.inj he'
            rw [Option.filter_some_neg (by simp), Option.filter_some_neg (by simp [hid])]
            rfl
          · have hne : e'.address ≠ e.address := fun heq => hj (h.id_eq he' he heq)
            rw [Option.filter_some_pos (by simpa using hne),
              Option.filter_some_pos (by simpa [hid] using hj)]
            exact haddress.symm

/-- **A signal message.** -/
theorem take_signal (h : c.Reliable) (hsigno : signo ≠ 0) (hn : c.numbered signo = some id)
    (hs : c.seen id = some s) (params : Json) :
    ∃ c' s' events, c.step (.message (.ofMetadata signo "signal" params)) = some (c', events) ∧
      Changes c c' id s' ∧ (∀ n, c'.numbered n = c.numbered n) ∧ c'.Bound s' ∧
      s' = (s.describe (.ofJson params) c.nextTable).bindDomain s'.domainSignal
        s'.domainTable := by
  obtain ⟨e, s₀, he, hentry, hobject, hs₀⟩ := entry_of_numbered h hn
  obtain rfl : s₀ = s := by
    rw [hs] at hs₀
    exact (Option.some.inj hs₀).symm
  have hstep := step_metadata h hsigno "signal" (by decide) (by decide) params
  rw [hentry] at hstep
  -- The signal is described first.
  obtain ⟨s₁, hs₁⟩ : ∃ s₁, s₁ = s₀.describe (.ofJson params) c.nextTable := ⟨_, rfl⟩
  obtain ⟨c₁, hc₁⟩ : ∃ c₁, c₁ = ({ c with nextTable := c.nextTable + 1 }.modifyObject e.address
      fun s => s.describe (.ofJson params) c.nextTable) := ⟨_, rfl⟩
  have hentry₁ : OrderedMap.find? c₁.byId id = some e := by
    rw [hc₁]
    exact he
  have hseen₁ (j : String) : c₁.seen j = if id = j then some s₁ else c.seen j := by
    have hsame : ({ c with nextTable := c.nextTable + 1 } : RemoteSignals).WellFormed :=
      ⟨h.wellFormed.distinct, h.wellFormed.object⟩
    rw [hc₁, seen_modifyObject hsame he]
    change (if id = j then (c.seen j).map _ else c.seen j) = _
    by_cases hid : id = j
    · rw [if_pos hid, if_pos hid, ← hid, hs, hs₁]
      rfl
    · rw [if_neg hid, if_neg hid]
  have hnumbered₁ (n : UInt32) : c₁.numbered n = c.numbered n := by
    rw [hc₁]
    exact numbered_modifyObject (f := fun s => s.describe (.ofJson params) c.nextTable) e.address
      (fun _ => rfl) n
  have hreliable₁ : c₁.Reliable := by
    rw [hc₁]
    refine ⟨⟨h.wellFormed.distinct, ?_⟩, h.noDangling, ownTables_describe h.ownTables _ _⟩
    intro j e' he'
    obtain ⟨s, hs, hid⟩ := h.wellFormed.object j e' he'
    rw [getElem?_modifyObject]
    change ∃ s', (if e.address = e'.address then (c.objects[e'.address]?).map _ else
      c.objects[e'.address]?) = some s' ∧ s'.id = j
    rw [hs]
    split
    · exact ⟨_, rfl, hid⟩
    · exact ⟨s, rfl, hid⟩
  have hself₁ : c₁.seen id = some s₁ := by
    rw [hseen₁, if_pos rfl]
  have hobject₁ : c₁.objects[e.address]? = some s₁ := (seen_of_entry hentry₁).symm.trans hself₁
  have hid₁ : s₁.id = id := id_of_seen hreliable₁.wellFormed hself₁
  -- Then its domain is looked up.
  obtain ⟨domain, hdomain⟩ : ∃ domain, domain =
      ((s₁.soughtId?.bind c₁.findTable).filter fun d => d ≠ e.address) := ⟨_, rfl⟩
  obtain ⟨table, htable⟩ : ∃ table, table =
      ((domain.bind fun d => c₁.objects[d]?).bind fun d => d.table.map TablePtr.address) := ⟨_, rfl⟩
  have hchanges := changes_modifyObject hreliable₁ hentry₁ hself₁
    (f := fun s => s.bindDomain domain table) (fun _ => rfl) (fun _ => rfl)
  have hhandle : c.handleMetadata e.address "signal" params =
      (c₁.modifyObject e.address fun s => s.bindDomain domain table,
        [.signal e.address .metadataChanged]) := by
    rw [handleMetadata, if_neg (by decide), if_neg (by decide), if_pos rfl, handleSignal]
    rw [← hc₁, hobject₁, htable, hdomain]
    rfl
  refine ⟨_, s₁.bindDomain domain table, _, hstep.trans (congrArg some hhandle), ?_, ?_, ?_, ?_⟩
  · refine ⟨hchanges.reliable, fun j => ?_⟩
    rw [hchanges.seen, hseen₁]
    by_cases hid : id = j
    · rw [if_pos hid, if_pos hid]
    · rw [if_neg hid, if_neg hid, if_neg hid]
  · intro n
    rw [← hnumbered₁ n]
    exact numbered_modifyObject (f := fun s => s.bindDomain domain table) e.address
      (fun _ => rfl) n
  · have hbound := bound_of_found hreliable₁.wellFormed hentry₁ hid₁
    have htables (j : String) : (c₁.modifyObject e.address fun s =>
        s.bindDomain domain table).tableOf j = c₁.tableOf j := by
      unfold tableOf
      rw [hchanges.seen]
      by_cases hj : id = j
      · rw [if_pos hj, ← hj, hself₁]
        rfl
      · rw [if_neg hj]
    have hsought : (c₁.modifyObject e.address fun s => s.bindDomain domain table).domainSought
        (s₁.bindDomain domain table) = c₁.domainSought s₁ := by
      unfold domainSought tableSought hasTable
      simp only [htables]
      rfl
    constructor
    · rw [hsought]
      exact hdomain.trans hbound
    · have htable' : table = ((c₁.domainSought s₁).bind c₁.tableOf).map TablePtr.address := by
        rw [htable, hdomain, hbound]
        cases c₁.domainSought s₁ with
        | none => rfl
        | some d =>
            change ((c₁.addressOf d).bind fun a => c₁.objects[a]?).bind _ =
              ((c₁.seen d).bind RemoteSignal.table).map _
            rw [← seen_eq_addressOf]
            cases c₁.seen d with
            | none => rfl
            | some s => rfl
      rw [hsought, show (c₁.modifyObject e.address fun s => s.bindDomain domain table).tableOf =
        c₁.tableOf from funext htables]
      exact htable'
  · rw [hs₁]
    rfl

/-- Data under a number. -/
theorem step_data (h : c.Reliable) (hn : c.numbered signo = some id) (hs : c.seen id = some s)
    (data : Bytes) : ∃ e, OrderedMap.find? c.byId id = some e ∧
      c.objects[e.address]? = some s ∧
      c.step (.message (.data signo data)) = some (c.handleData e.address data) := by
  obtain ⟨e, s', he, hsigno, hobject, hs'⟩ := entry_of_numbered h hn
  rw [hs] at hs'
  rw [← Option.some.inj hs'] at hobject
  refine ⟨e, he, hobject, ?_⟩
  change c.onPeerDataReceived signo data = _
  rw [onPeerDataReceived, dispatch_of_noDangling h.noDangling, hsigno]

theorem take_data_unknown (h : c.Reliable) (hn : c.numbered signo = none) (data : Bytes) :
    c.step (.message (.data signo data)) = some (c, []) := by
  change c.onPeerDataReceived signo data = _
  rw [onPeerDataReceived, dispatch_of_noDangling h.noDangling, find?_of_numbered_none h hn]

/-- The table of a signal is the only one with its address. -/
theorem seen_modifyTable_own (h : c.Reliable) (hs : c.seen id = some s) {t : TablePtr}
    (ht : s.table = some t) (f : LinearTable → LinearTable) (j : String) :
    (c.modifyTable t.address f).seen j =
      if id = j then some { s with table := some { t with table := f t.table } }
      else c.seen j := by
  rw [seen_modifyTable]
  by_cases hid : id = j
  · rw [if_pos hid, ← hid, hs]
    unfold RemoteSignal.modifyTable
    rw [Option.map_some, ht, Option.map_some, if_pos rfl]
  · rw [if_neg hid]
    cases hj : c.seen j with
    | none => rfl
    | some s' =>
        obtain ⟨e, he, hobject, -⟩ := entry_of_seen h.wellFormed hs
        obtain ⟨e', he', hobject', -⟩ := entry_of_seen h.wellFormed hj
        have hother : ∀ t', s'.table = some t' → t'.address ≠ t.address := fun t' ht' heq =>
          address_ne_of_ne h.wellFormed he he' hid
            ((h.ownTables _ _ _ hobject ht).2 _ _ _ hobject' ht' heq).symm
        rw [Option.map_some]
        congr 1
        unfold RemoteSignal.modifyTable
        cases ht' : s'.table with
        | none =>
            rw [Option.map_none, ← ht']
        | some t' =>
            rw [Option.map_some, if_neg (hother t' ht'), ← ht']

theorem Reliable.modifyTable (h : c.Reliable) (address : Nat) (f : LinearTable → LinearTable) :
    (c.modifyTable address f).Reliable :=
  ⟨(quiet_modifyTable c address f).same.wellFormed h.wellFormed,
    (quiet_modifyTable c address f).same.noDangling h.noDangling,
    ownTables_modifyTable h.ownTables address f⟩

/-- Data of a linear-rule signal. -/
theorem handleData_of_table {a : Nat} (hobject : c.objects[a]? = some s)
    (hsub : s.isSubscribed = true) (htcp : s.tcpDelta = 0) {t : TablePtr}
    (ht : s.table = some t) (data : Bytes) :
    c.handleData a data =
      (match LinearPayload.ofBytes? data with
        | some payload => c.modifyTable t.address fun t => t.updatePayload payload
        | none => c,
        [.signal a (.dataReceived 0 0 data)]) := by
  rw [handleData, hobject, Option.filter_some_pos hsub]
  dsimp only
  rw [if_neg (not_not.mpr htcp)]
  exact ht ▸ rfl

/-- **A payload** moves the table of a signal. -/
theorem take_payload (h : c.Reliable) (hn : c.numbered signo = some id) (hs : c.seen id = some s)
    (hsub : s.isSubscribed = true) (htcp : s.tcpDelta = 0) {t : TablePtr}
    (ht : s.table = some t) (p : LinearPayload) :
    ∃ c' events, c.step (.message (.data signo p.bytes)) = some (c', events) ∧
      Changes c c' id { s with table := some { t with table := t.table.updatePayload p } } ∧
      ∀ n, c'.numbered n = c.numbered n := by
  obtain ⟨e, -, hobject, hstep⟩ := step_data h hn hs p.bytes
  have hhandle := handleData_of_table hobject hsub htcp ht p.bytes
  rw [LinearPayload.ofBytes?_bytes] at hhandle
  refine ⟨_, _, hstep.trans (congrArg some hhandle), ?_, ?_⟩
  · exact ⟨h.modifyTable _ _, seen_modifyTable_own h hs ht _⟩
  · exact fun n => numbered_modifyTable _ _ n

/-- Data of a linear-rule signal that is too short for a payload. -/
theorem take_data_short (h : c.Reliable) (hn : c.numbered signo = some id)
    (hs : c.seen id = some s) (hsub : s.isSubscribed = true) (htcp : s.tcpDelta = 0)
    {t : TablePtr} (ht : s.table = some t) {data : Bytes} (hdata : data.length < 16) :
    ∃ events, c.step (.message (.data signo data)) = some (c, events) := by
  obtain ⟨e, -, hobject, hstep⟩ := step_data h hn hs data
  have hhandle := handleData_of_table hobject hsub htcp ht data
  rw [LinearPayload.ofBytes?, if_neg (by omega)] at hhandle
  exact ⟨_, hstep.trans (congrArg some hhandle)⟩

/-- The domain table of a signal, with its address, if it is still there. -/
def lockedTable (c : RemoteSignals) (s : RemoteSignal) : Option (Nat × LinearTable) :=
  s.domainTable.bind fun a => (c.lock a).map fun t => (a, t)

/-- The same signal with another counter. -/
def counted (s : RemoteSignal) (index : Int64) : RemoteSignal := { s with valueIndex := index }

/-- A table that is driven, if one is locked. -/
def driveTable (c : RemoteSignals) (domain : Option (Nat × LinearTable)) (index : Int64) :
    RemoteSignals :=
  match domain with
  | some (a, _) => c.modifyTable a fun t => t.driveTo index
  | none => c

/-- Data of an explicit-rule signal. -/
theorem handleData_explicit {a : Nat} (hobject : c.objects[a]? = some s)
    (hsub : s.isSubscribed = true) (htcp : s.tcpDelta = 0) (ht : s.table = none)
    (hexplicit : s.isExplicit = true) (data : Bytes) {index : Int64}
    (hindex : index = s.valueIndex + Int64.ofNat (s.explicitCount data.length)) :
    c.handleData a data =
      ((c.modifyObject a fun s => counted s index).driveTable (c.lockedTable s) index,
        [.signal a (.dataReceived
          (((c.lockedTable s).map fun t => t.2.valueAt s.valueIndex).getD 0)
          (s.explicitCount data.length) data)]) := by
  rw [handleData, hobject, Option.filter_some_pos hsub]
  dsimp only
  rw [if_neg (not_not.mpr htcp), ht, hindex]
  dsimp only
  rw [if_pos hexplicit]
  rfl

/-- Data of a signal that is neither. -/
theorem handleData_implicit {a : Nat} (hobject : c.objects[a]? = some s)
    (hsub : s.isSubscribed = true) (htcp : s.tcpDelta = 0) (ht : s.table = none)
    (hexplicit : s.isExplicit = false) (data : Bytes) :
    c.handleData a data =
      (c, [.signal a (.dataReceived (((c.lockedTable s).map fun t => t.2.drivenValue).getD 0)
        (if s.sampleSize ≤ data.length then 1 else 0)
        (if s.sampleSize ≤ data.length then data.take s.sampleSize else data))]) := by
  rw [handleData, hobject, Option.filter_some_pos hsub]
  dsimp only
  rw [if_neg (not_not.mpr htcp), ht]
  dsimp only
  rw [if_neg (by rw [hexplicit]; exact Bool.false_ne_true)]
  rfl

theorem addressOf_of_entry {e : RemoteSignalEntry} (he : OrderedMap.find? c.byId id = some e) :
    c.addressOf id = some e.address := by
  rw [addressOf, he]
  rfl

/-- **Data of an explicit-rule signal** moves its counter and drives its domain
table. -/
theorem take_explicit (h : c.Reliable) (hn : c.numbered signo = some id) (hs : c.seen id = some s)
    (hsub : s.isSubscribed = true) (htcp : s.tcpDelta = 0) (ht : s.table = none)
    (hexplicit : s.isExplicit = true) (data : Bytes) {index : Int64}
    (hindex : index = s.valueIndex + Int64.ofNat (s.explicitCount data.length)) :
    ∃ c₁ a, c.step (.message (.data signo data)) =
        some (c₁.driveTable (c.lockedTable s) index, [.signal a (.dataReceived
          (((c.lockedTable s).map fun t => t.2.valueAt s.valueIndex).getD 0)
          (s.explicitCount data.length) data)]) ∧
      c.addressOf id = some a ∧ Changes c c₁ id (counted s index) ∧
      ∀ n, c₁.numbered n = c.numbered n := by
  obtain ⟨e, he, hobject, hstep⟩ := step_data h hn hs data
  have hhandle := handleData_explicit hobject hsub htcp ht hexplicit data hindex
  refine ⟨_, _, hstep.trans (congrArg some hhandle), addressOf_of_entry he, ?_, ?_⟩
  · exact changes_modifyObject h he hs (fun _ => rfl) fun _ => rfl
  · exact fun n => numbered_modifyObject (f := fun s => counted s index) e.address
      (fun _ => rfl) n

/-- **Data of a signal that is neither** changes nothing. -/
theorem take_implicit (h : c.Reliable) (hn : c.numbered signo = some id) (hs : c.seen id = some s)
    (hsub : s.isSubscribed = true) (htcp : s.tcpDelta = 0) (ht : s.table = none)
    (hexplicit : s.isExplicit = false) (data : Bytes) :
    ∃ a, c.step (.message (.data signo data)) =
        some (c, [.signal a (.dataReceived
          (((c.lockedTable s).map fun t => t.2.drivenValue).getD 0)
          (if s.sampleSize ≤ data.length then 1 else 0)
          (if s.sampleSize ≤ data.length then data.take s.sampleSize else data))]) ∧
      c.addressOf id = some a := by
  obtain ⟨e, he, hobject, hstep⟩ := step_data h hn hs data
  have hhandle := handleData_implicit hobject hsub htcp ht hexplicit data
  exact ⟨_, hstep.trans (congrArg some hhandle), addressOf_of_entry he⟩

end Messages

end RemoteSignals

end WsStreaming.Ports
