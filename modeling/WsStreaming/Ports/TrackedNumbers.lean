import WsStreaming.Ports.SignalNumbers
import WsStreaming.Ports.SignalEvents

/-!
# Numbers that the peer uses

The peer of a connection hands out the numbers, and binds each of them to one
signal.  A connection that *tracks* the numbers of its peer follows each number
only to the signal that the peer uses it for, and that signal remembers the
number, so that a withdrawal takes it along and none is left dangling.

## Main results

* `Tracks.handleAvailable`, `Tracks.handleSubscribe`, `Tracks.handleUnsubscribe`,
  `Tracks.withdraw` — what each message of the peer does to it.
* `announced_handleAvailable`, `announced_handleSubscribe`,
  `announced_handleUnsubscribe` — which signals are announced afterwards.
-/

namespace WsStreaming.Ports

open WsStreaming.Verified
open WsStreaming.Verified.OrderedMap (OMap Distinct)

namespace RemoteSignals

/-- Each number that leads to a signal is the one that the signal remembers,
and the peer uses it for the signal. -/
structure Tracks (c : RemoteSignals) (names : UInt32 → Option String) : Prop where
  wellFormed : c.WellFormed
  noDangling : c.NoDangling
  named : ∀ n id, c.Routes n id → c.Erases id n ∧ names n = some id

/-- Entries were added or shown, and nothing else happened. -/
structure Grows (c c' : RemoteSignals) : Prop where
  wellFormed : c'.WellFormed
  bySigno : c'.bySigno = c.bySigno
  object : ∀ (a : Nat) s, c.objects[a]? = some s → c'.objects[a]? = some s
  kept : ∀ id e, OrderedMap.find? c.byId id = some e →
    ∃ e', OrderedMap.find? c'.byId id = some e' ∧ e'.address = e.address
  fresh : ∀ id e', OrderedMap.find? c.byId id = none → OrderedMap.find? c'.byId id = some e' →
    c.objects.length ≤ e'.address

section Tracks

variable {c c' : RemoteSignals} {names : UInt32 → Option String}

theorem tracks_empty (names : UInt32 → Option String) : ({} : RemoteSignals).Tracks names := by
  refine ⟨wellFormed_empty, ?_, ?_⟩
  · intro n a hn
    cases hn
  · rintro n id ⟨e, he, -⟩
    cases he

/-- The peer may use more numbers. -/
theorem Tracks.mono (h : c.Tracks names) {names' : UInt32 → Option String}
    (hnames : ∀ n id, names n = some id → names' n = some id) : c.Tracks names' := by
  refine ⟨h.wellFormed, h.noDangling, fun n id hn => ?_⟩
  obtain ⟨herases, hname⟩ := h.named n id hn
  exact ⟨herases, hnames n id hname⟩

/-! ### Messages for one signal -/

theorem Same.signoOf (h : Same c c') (a : Nat) : c'.signoOf a = c.signoOf a := by
  have hsigno := congrArg (Option.map Prod.snd) (h.object a)
  rw [Option.map_map, Option.map_map] at hsigno
  exact congrArg (fun n => n.getD 0) hsigno

theorem Tracks.same (h : c.Tracks names) (hsame : Same c c') : c'.Tracks names := by
  refine ⟨hsame.wellFormed h.wellFormed, hsame.noDangling h.noDangling, ?_⟩
  rintro n id ⟨e, he, hn⟩
  rw [hsame.byId] at he
  rw [hsame.bySigno] at hn
  obtain ⟨⟨e', he', hsigno⟩, hname⟩ := h.named n id ⟨e, he, hn⟩
  refine ⟨⟨e', ?_, ?_⟩, hname⟩
  · rw [hsame.byId, he']
  · rw [hsame.signoOf, hsigno]

/-! ### Announcing -/

theorem grows_addRemoteSignal (h : c.WellFormed) (id : String) (hidden : Bool) :
    Grows c (c.addRemoteSignal id hidden).1 := by
  refine ⟨h.addRemoteSignal id hidden, bySigno_addRemoteSignal id hidden,
    fun a s => getElem?_addRemoteSignal id hidden, ?_, ?_⟩
  · intro j e hj
    by_cases hid : id = j
    · refine ⟨e, ?_, rfl⟩
      rw [addRemoteSignal_of_some id hidden (hid ▸ hj), hj]
    · refine ⟨e, ?_, rfl⟩
      rw [find?_addRemoteSignal, if_neg hid, hj]
  · intro j e' hnone hj
    rw [find?_addRemoteSignal] at hj
    by_cases hid : id = j
    · rw [if_pos hid, addRemoteSignal_of_none id hidden (hid ▸ hnone)] at hj
      rw [← Option.some.inj hj]
    · rw [if_neg hid, hnone] at hj
      cases hj

theorem grows_announce (h : c.WellFormed) (id : String) : Grows c (c.announce id).1 := by
  have hadd := grows_addRemoteSignal h id false
  -- An entry is shown where it is.
  have hplace : ∀ j e, OrderedMap.find? (c.addRemoteSignal id false).1.byId j = some e →
      ∃ e', OrderedMap.find? (c.announce id).1.byId j = some e' ∧ e'.address = e.address := by
    intro j e hj
    rw [find?_addRemoteSignal] at hj
    rw [find?_announce]
    by_cases hid : id = j
    · rw [if_pos hid] at hj ⊢
      exact ⟨_, rfl, by rw [← Option.some.inj hj]⟩
    · rw [if_neg hid] at hj ⊢
      exact ⟨e, hj, rfl⟩
  refine ⟨h.announce id, bySigno_announce id, ?_, ?_, ?_⟩
  · intro a s hs
    rw [objects_announce]
    exact hadd.object a s hs
  · intro j e hj
    obtain ⟨e', hj', haddress⟩ := hadd.kept j e hj
    obtain ⟨e'', hj'', haddress'⟩ := hplace j e' hj'
    exact ⟨e'', hj'', haddress'.trans haddress⟩
  · intro j e' hnone hj
    rw [find?_announce] at hj
    by_cases hid : id = j
    · rw [if_pos hid] at hj
      rw [← Option.some.inj hj]
      exact hadd.fresh j (c.addRemoteSignal id false).2.2 hnone
        (by rw [find?_addRemoteSignal, if_pos hid])
    · rw [if_neg hid, hnone] at hj
      cases hj

/-- No number leads to what was added. -/
theorem Tracks.grows (h : c.Tracks names) (hgrows : Grows c c') : c'.Tracks names := by
  refine ⟨hgrows.wellFormed, ?_, ?_⟩
  · intro n a hn
    rw [hgrows.bySigno] at hn
    obtain ⟨id, e, hid, rfl⟩ := h.wellFormed.live_iff.mp (h.noDangling n a hn)
    obtain ⟨e', hid', haddress⟩ := hgrows.kept id e hid
    exact hgrows.wellFormed.live_iff.mpr ⟨id, e', hid', haddress⟩
  · rintro n id ⟨e', he', hn⟩
    rw [hgrows.bySigno] at hn
    cases hfind : OrderedMap.find? c.byId id with
    | none =>
        have hfresh := hgrows.fresh id e' hfind he'
        obtain ⟨j, e, hj, haddress⟩ := h.wellFormed.live_iff.mp (h.noDangling n _ hn)
        have hlt := h.wellFormed.address_lt hj
        omega
    | some e =>
        obtain ⟨e'', he'', haddress⟩ := hgrows.kept id e hfind
        obtain rfl : e' = e'' := Option.some.inj (he'.symm.trans he'')
        rw [haddress] at hn
        obtain ⟨⟨e₀, he₀, hsigno⟩, hname⟩ := h.named n id ⟨e, hfind, hn⟩
        obtain rfl : e₀ = e := Option.some.inj (he₀.symm.trans hfind)
        obtain ⟨s, hs, -⟩ := h.wellFormed.object id e₀ hfind
        refine ⟨⟨e', he', ?_⟩, hname⟩
        rw [signoOf, haddress, hgrows.object _ s hs, ← hs]
        exact hsigno

/-- **An available message.** -/
theorem Tracks.handleAvailable (h : c.Tracks names) (params : Json) :
    (c.handleAvailable params).1.Tracks names := by
  apply forEach_invariant (p := fun c => c.Tracks names) _ _ c h
  exact fun c id _ hc => hc.grows (grows_announce hc.wellFormed id)

/-! ### Subscribing -/

theorem signoOf_setRemoteSignalSigno (c : RemoteSignals) (a : Nat) (n : UInt32) (b : Nat) :
    (c.setRemoteSignalSigno a n).signoOf b =
      if a = b then ((c.objects[b]?).map fun _ => n).getD 0 else c.signoOf b := by
  rw [signoOf, setRemoteSignalSigno, getElem?_modifyObject]
  by_cases hab : a = b
  · rw [if_pos hab, if_pos hab, Option.map_map]
    rfl
  · rw [if_neg hab, if_neg hab]
    rfl

/-- A number that the peer uses for a signal is bound to it. -/
theorem Tracks.setRemoteSignalSigno (h : c.Tracks names)
    (hnames : ∀ n n' id, names n = some id → names n' = some id → n = n') {id : String}
    {e : RemoteSignalEntry} (he : OrderedMap.find? c.byId id = some e) {n : UInt32}
    (hn : names n = some id) : (c.setRemoteSignalSigno e.address n).Tracks names := by
  refine ⟨h.wellFormed.setRemoteSignalSigno e.address n, ?_, ?_⟩
  · intro n' a ha
    change OrderedMap.find? (OrderedMap.set c.bySigno n e.address) n' = some a at ha
    change c.live a = true
    rw [OrderedMap.find?_set] at ha
    by_cases hsigno : n = n'
    · rw [if_pos hsigno] at ha
      rw [← Option.some.inj ha]
      exact h.wellFormed.live_iff.mpr ⟨id, e, he, rfl⟩
    · rw [if_neg hsigno] at ha
      exact h.noDangling n' a ha
  · rintro n' id' ⟨e', he', ha⟩
    change OrderedMap.find? c.byId id' = some e' at he'
    change OrderedMap.find? (OrderedMap.set c.bySigno n e.address) n' = some e'.address at ha
    rw [OrderedMap.find?_set] at ha
    by_cases hsigno : n = n'
    · rw [if_pos hsigno] at ha
      obtain rfl := h.wellFormed.id_eq he he' (Option.some.inj ha)
      obtain ⟨s, hs, -⟩ := h.wellFormed.object id e he
      refine ⟨⟨e, he, ?_⟩, hsigno ▸ hn⟩
      rw [signoOf_setRemoteSignalSigno, if_pos rfl, hs, ← hsigno]
      rfl
    · rw [if_neg hsigno] at ha
      obtain ⟨⟨e₀, he₀, hold⟩, hname⟩ := h.named n' id' ⟨e', he', ha⟩
      refine ⟨⟨e₀, he₀, ?_⟩, hname⟩
      have hother : e.address ≠ e₀.address := by
        intro haddress
        obtain rfl := h.wellFormed.id_eq he he₀ haddress
        exact hsigno (hnames n n' id hn hname)
      rw [signoOf_setRemoteSignalSigno, if_neg hother, hold]

/-- **A subscribe message**, under the number that the peer uses. -/
theorem Tracks.handleSubscribe (h : c.Tracks names)
    (hnames : ∀ n n' id, names n = some id → names n' = some id → n = n') {n : UInt32}
    {params : Json} (hn : names n = some (subscribedId params)) :
    (c.handleSubscribe n params).1.Tracks names := by
  by_cases hid : subscribedId params = ""
  · rw [RemoteSignals.handleSubscribe, if_pos hid]
    exact h
  · rw [handleSubscribe_of_ne hid]
    refine Tracks.same ?_ (same_handleMetadata _ _ _ _)
    apply (h.grows (grows_addRemoteSignal h.wellFormed _ true)).setRemoteSignalSigno hnames _ hn
    rw [find?_addRemoteSignal, if_pos rfl]

/-- **An unsubscribe message.** -/
theorem Tracks.handleUnsubscribe (h : c.Tracks names) {n : UInt32} {params : Json}
    {r : RemoteSignals × List RemoteEvent} (hr : c.handleUnsubscribe n params = some r) :
    r.1.Tracks names := by
  obtain ⟨c', hsame, hforget⟩ := handleUnsubscribe_cases hr
  have hc' := h.same hsame
  rw [hforget]
  refine ⟨wellFormed_forgetRemoteSigno hc'.wellFormed n,
    noDangling_forgetRemoteSigno hc'.noDangling n, ?_⟩
  rintro n' id ⟨e, he, hn'⟩
  rw [forgetRemoteSigno, OrderedMap.find?_erase] at hn'
  split at hn'
  · cases hn'
  · exact hc'.named n' id ⟨e, he, hn'⟩

/-! ### Removing -/

/-- **One id of an unavailable message**, whose signal the peer no longer has. -/
theorem Tracks.withdraw (h : c.Tracks names) {names' : UInt32 → Option String} {id : String}
    (hnames : ∀ n j, j ≠ id → names n = some j → names' n = some j) :
    (c.withdraw id).1.Tracks names' := by
  have hbefore : ∀ n a, OrderedMap.find? (c.withdraw id).1.bySigno n = some a →
      ¬ c.Erases id n ∧ OrderedMap.find? c.bySigno n = some a := by
    intro n a hn
    have hbySigno := find?_bySigno_withdraw (c := c) id n
    by_cases herases : c.Erases id n
    · rw [hbySigno.1 herases] at hn
      cases hn
    · rw [hbySigno.2 herases] at hn
      exact ⟨herases, hn⟩
  refine ⟨h.wellFormed.withdraw id, ?_, ?_⟩
  · intro n a ha
    obtain ⟨herases, hn⟩ := hbefore n a ha
    obtain ⟨j, e, hj, rfl⟩ := h.wellFormed.live_iff.mp (h.noDangling n a hn)
    refine (h.wellFormed.withdraw id).live_iff.mpr ⟨j, e, ?_, rfl⟩
    have hid : id ≠ j := by
      rintro rfl
      exact herases (h.named n id ⟨e, hj, hn⟩).1
    rw [find?_withdraw, if_neg hid, hj]
  · rintro n j ⟨e, he, ha⟩
    obtain ⟨-, hn⟩ := hbefore n e.address ha
    rw [find?_withdraw] at he
    by_cases hid : id = j
    · rw [if_pos hid] at he
      cases he
    · rw [if_neg hid] at he
      obtain ⟨herases, hname⟩ := h.named n j ⟨e, he, hn⟩
      exact ⟨(erases_withdraw h.wellFormed).mpr ⟨hid, herases⟩,
        hnames n j (fun heq => hid heq.symm) hname⟩

end Tracks

/-! ## Announced signals -/

section Announced

variable {c : RemoteSignals}

theorem announced_handleAvailable (params : Json) (j : String) :
    (c.handleAvailable params).1.announced j = true ↔
      j ∈ signalIds params ∨ c.announced j = true := by
  rw [RemoteSignals.handleAvailable]
  induction signalIds params generalizing c with
  | nil => exact ⟨.inr, fun h => h.elim (fun hmem => absurd hmem List.not_mem_nil) id⟩
  | cons id ids ih =>
      change (forEach announce (c.announce id).1 ids).1.announced j = true ↔ _
      rw [ih, announced_announce, List.mem_cons]
      by_cases hid : id = j
      · rw [if_pos hid]
        exact iff_of_true (.inr rfl) (.inl (.inl hid.symm))
      · rw [if_neg hid]
        constructor
        · rintro (hmem | hbefore)
          · exact .inl (.inr hmem)
          · exact .inr hbefore
        · rintro ((heq | hmem) | hbefore)
          · exact absurd heq.symm hid
          · exact .inl hmem
          · exact .inr hbefore

theorem announced_handleSubscribe (n : UInt32) (params : Json) (j : String) :
    (c.handleSubscribe n params).1.announced j = c.announced j := by
  by_cases hid : subscribedId params = ""
  · rw [RemoteSignals.handleSubscribe, if_pos hid]
  · rw [handleSubscribe_of_ne hid, announced_eq (same_handleMetadata _ _ _ _).byId]
    exact announced_addRemoteSignal _ j

theorem announced_handleUnsubscribe {n : UInt32} {params : Json}
    {r : RemoteSignals × List RemoteEvent} (hr : c.handleUnsubscribe n params = some r)
    (j : String) : r.1.announced j = c.announced j := by
  obtain ⟨c', hsame, hforget⟩ := handleUnsubscribe_cases hr
  rw [hforget]
  exact announced_eq hsame.byId j

end Announced

end RemoteSignals

end WsStreaming.Ports
