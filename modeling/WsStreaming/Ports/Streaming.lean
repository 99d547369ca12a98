import WsStreaming.Ports.Mirroring

/-!
# Streaming sessions

Two connections whose applications register and remove signals, change their
metadata, request each other's signals and publish, while messages are under
way in both directions.  What each operation sends restores the relation
between the two sides, and so every run keeps it: once the messages of a side
have arrived, its peer mirrors it, and the peer's application has been handed
what was published, in order and once.

## Main results

* `relates_addLocalSignal`, `relates_removeLocalSignal`, `relates_doHello`,
  `relates_receive` — the operations of a connection.
* `dialogue_replicates` — the peer mirrors the signals.
* `dialogue_delivers` — its application is handed what is published.
-/

namespace WsStreaming.Ports

open WsStreaming.Verified
open WsStreaming.Verified.OrderedMap (OMap Distinct)
open WsStreaming.Verified.Run
open WsStreaming.Verified.Fifo (Carries Channel Settles)
open WsStreaming.Verified.Wire (Bytes)

namespace Mirroring

open LocalSignals (Act Request)
open Publishing (known known_of_find)
open Advertisement (Advertises UniqueId SameId Side)

/-! ## Registrations -/

section Registrations

variable {helloSent helloSent' : Bool} {c c' : LocalSignals} {r r' : RemoteSignals} {k : UInt32}
  {e : RegisteredLocalSignal}

/-- The entry of a signal whose number is free. -/
theorem find?_addLocalSignal {signal : LocalSignal}
    (hfind : c.findByAddress signal.address = none)
    (hfree : OrderedMap.find? c.signals c.nextSigno = none) :
    ∃ new : RegisteredLocalSignal, new.signal = signal ∧ new.onDataPublished = false ∧
      new.onMetadataChanged = false ∧
      ∀ n, OrderedMap.find? (c.addLocalSignal signal).1.signals n =
        if c.nextSigno = n then some new else OrderedMap.find? c.signals n := by
  have hplaced (n : UInt32) : OrderedMap.find? (OrderedMap.emplace c.signals c.nextSigno
      ({ signal := signal, signo := c.nextSigno } : RegisteredLocalSignal)) n =
        if c.nextSigno = n then some { signal := signal, signo := c.nextSigno }
        else OrderedMap.find? c.signals n := by
    rw [OrderedMap.find?_emplace, hfree]
    rfl
  have hmodified {f : RegisteredLocalSignal → RegisteredLocalSignal} {c' : LocalSignals}
      {new : RegisteredLocalSignal}
      (h : ∀ n, OrderedMap.find? c'.signals n =
        if c.nextSigno = n then some new else OrderedMap.find? c.signals n) (n : UInt32) :
      OrderedMap.find? (c'.update c.nextSigno f).signals n =
        if c.nextSigno = n then some (f new) else OrderedMap.find? c.signals n := by
    rw [LocalSignals.find?_update, h]
    by_cases hn : c.nextSigno = n
    · rw [if_pos hn, if_pos hn, if_pos hn, Option.map_some]
    · rw [if_neg hn, if_neg hn, if_neg hn]
  rw [LocalSignals.addLocalSignal, LocalSignals.emplaceSignal, hfind]
  dsimp only
  split
  · exact ⟨_, rfl, rfl, rfl, hmodified (hmodified hplaced)⟩
  · exact ⟨_, rfl, rfl, rfl, hmodified hplaced⟩

/-- **A signal is registered**, which the peer may hear of. -/
theorem Mirrors.added (h : Mirrors helloSent c r) {signal : LocalSignal}
    (hfind : c.findByAddress signal.address = none)
    (hfree : OrderedMap.find? c.signals c.nextSigno = none) (hzero : c.nextSigno ≠ 0)
    (hextends : RemoteSignals.Extends r r')
    (hadvertises : Advertises helloSent (c.addLocalSignal signal).1 r') :
    Mirrors helloSent (c.addLocalSignal signal).1 r' := by
  obtain ⟨new, -, hquiet, hquiet', hentry⟩ := find?_addLocalSignal hfind hfree
  have hcases (n : UInt32) (e : RegisteredLocalSignal)
      (hn : OrderedMap.find? (c.addLocalSignal signal).1.signals n = some e) :
      c.nextSigno = n ∧ e = new ∨ OrderedMap.find? c.signals n = some e := by
    rw [hentry] at hn
    by_cases hkn : c.nextSigno = n
    · rw [if_pos hkn] at hn
      exact .inl ⟨hkn, (Option.some.inj hn).symm⟩
    · rw [if_neg hkn] at hn
      exact .inr hn
  have hknown (n : UInt32) : known (c.addLocalSignal signal).1 n = known c n := by
    unfold known
    rw [hentry]
    by_cases hkn : c.nextSigno = n
    · rw [if_pos hkn, ← hkn, hfree, Option.filter_some, hquiet]
      rfl
    · rw [if_neg hkn]
  refine ⟨hadvertises, hextends.reliable.ownTables, ?_, ?_, ?_, ?_, ?_, ?_, ?_⟩
  · intro n e hn
    rcases hcases n e hn with ⟨rfl, -⟩ | hn
    · exact hzero
    · exact h.nonzero n e hn
  · intro n e hn
    rcases hcases n e hn with ⟨-, rfl⟩ | hn
    · rw [hquiet, hquiet']
    · exact h.slots n e hn
  · intro n
    rw [hextends.numbered, hknown, h.numbered]
  · intro j s hs hne
    rcases hextends.seen j with hsame | ⟨-, hnew⟩
    · rw [hsame] at hs
      have hname := h.signed j s hs hne
      have hother : c.nextSigno ≠ s.signo := by
        intro heq
        rw [LocalSignals.names, ← heq, hfree] at hname
        cases hname
      rw [LocalSignals.names_addLocalSignal hfind hfree, if_neg hother, hname]
    · rw [hs] at hnew
      rw [Option.some.inj hnew] at hne
      exact absurd rfl hne
  · intro j s hs
    rcases hextends.seen j with hsame | ⟨-, hnew⟩
    · rw [hsame] at hs
      exact h.clean j s hs
    · rw [hs] at hnew
      rw [Option.some.inj hnew]
  · intro n e hn hslot hid
    rcases hcases n e hn with ⟨-, rfl⟩ | hn
    · rw [hquiet] at hslot
      cases hslot
    · obtain ⟨s, hs, hmirrored⟩ := h.shown n e hn hslot hid
      rcases hextends.seen e.signal.id with hsame | ⟨hnone, -⟩
      · exact ⟨s, hsame.trans hs, hmirrored⟩
      · rw [hs] at hnone
        cases hnone
  · intro j s hs hsub
    rcases hextends.seen j with hsame | ⟨-, hnew⟩
    · rw [hsame] at hs
      obtain ⟨n, hn⟩ := h.quiet j s hs hsub
      exact ⟨n, (hknown n).trans hn⟩
    · rw [hs] at hnew
      rw [Option.some.inj hnew] at hsub
      cases hsub

/-- What the peer sees after a withdrawal. -/
theorem seen_withdraw (h : r.WellFormed) (id j : String) :
    (r.withdraw id).1.seen j = if id = j then none else r.seen j := by
  unfold RemoteSignals.seen
  rw [RemoteSignals.find?_withdraw]
  by_cases hid : id = j
  · rw [if_pos hid, if_pos hid]
    rfl
  · rw [if_neg hid, if_neg hid]
    cases hj : OrderedMap.find? r.byId j with
    | none => rfl
    | some e => exact RemoteSignals.getElem?_withdraw h hid hj

theorem ownTables_withdraw (h : r.OwnTables) (id : String) : (r.withdraw id).1.OwnTables := by
  cases hfind : OrderedMap.find? r.byId id with
  | none =>
      rw [RemoteSignals.withdraw_of_none hfind]
      exact h
  | some e =>
      rw [RemoteSignals.withdraw_of_some hfind]
      refine h.of_addresses ?_ ?_
      · dsimp only
        rw [RemoteSignals.onObject]
        split <;> exact Nat.le_refl _
      · intro a s' t' hs' ht'
        dsimp only at hs'
        rw [RemoteSignals.getElem?_onObject] at hs'
        by_cases ha : e.address = a
        · rw [if_pos ha] at hs'
          obtain ⟨s, hs, rfl⟩ := Option.map_eq_some_iff.mp hs'
          refine ⟨s, t', hs, ?_, rfl⟩
          rw [← ht']
          unfold RemoteSignal.detach
          split <;> rfl
        · rw [if_neg ha] at hs'
          exact ⟨s', t', hs', ht', rfl⟩

/-- The numbers that a withdrawal takes along are those of the signal. -/
theorem numbered_withdraw (h : r.Reliable) {id : String}
    (hown : ∀ n, r.numbered n = some id → r.Erases id n)
    (hother : ∀ n j, id ≠ j → r.numbered n = some j → ¬ r.Erases id n) (n : UInt32) :
    (r.withdraw id).1.numbered n = if r.numbered n = some id then none else r.numbered n := by
  obtain ⟨herased, hkept⟩ := RemoteSignals.find?_bySigno_withdraw (c := r) id n
  cases hn : r.numbered n with
  | none =>
      have hnone : OrderedMap.find? r.bySigno n = none := by
        cases ha : OrderedMap.find? r.bySigno n with
        | none => rfl
        | some a =>
            obtain ⟨j, e, hj, rfl⟩ := h.wellFormed.live_iff.mp (h.noDangling n a ha)
            obtain ⟨s, hs, -⟩ := h.wellFormed.object j e hj
            unfold RemoteSignals.numbered at hn
            rw [ha, Option.bind_some, hs] at hn
            cases hn
      have hgone : OrderedMap.find? (r.withdraw id).1.bySigno n = none := by
        by_cases herases : r.Erases id n
        · exact herased herases
        · exact (hkept herases).trans hnone
      unfold RemoteSignals.numbered
      rw [hgone]
      rfl
  | some j =>
      by_cases hid : id = j
      · rw [← hid, if_pos rfl]
        unfold RemoteSignals.numbered
        rw [herased (hown n (hid ▸ hn))]
        rfl
      · rw [if_neg fun heq => hid (Option.some.inj heq).symm]
        obtain ⟨e, s, he, hroute, hs, -⟩ := RemoteSignals.entry_of_numbered h hn
        unfold RemoteSignals.numbered at hn ⊢
        rw [hkept (hother n j hid (by
          unfold RemoteSignals.numbered
          exact hn)), ← hn, hroute, Option.bind_some, Option.bind_some,
          RemoteSignals.getElem?_withdraw h.wellFormed hid he]

/-- **A signal is removed**, and the peer hears of it. -/
theorem Mirrors.removed (h : Mirrors helloSent c r) (hk : OrderedMap.find? c.signals k = some e)
    (hadvertises : Advertises helloSent { c with signals := OrderedMap.erase c.signals k }
      (r.withdraw e.signal.id).1) :
    Mirrors helloSent { c with signals := OrderedMap.erase c.signals k }
      (r.withdraw e.signal.id).1 := by
  have hname : c.names k = some e.signal.id := LocalSignals.names_of_find hk
  have hentry (n : UInt32) (d : RegisteredLocalSignal)
      (hn : OrderedMap.find? (OrderedMap.erase c.signals k) n = some d) :
      k ≠ n ∧ OrderedMap.find? c.signals n = some d := by
    rw [OrderedMap.find?_erase] at hn
    by_cases hkn : k = n
    · rw [if_pos hkn] at hn
      cases hn
    · rw [if_neg hkn] at hn
      exact ⟨hkn, hn⟩
  have hdifferent (n : UInt32) (j : String) (hkn : k ≠ n) (hn : c.names n = some j) :
      e.signal.id ≠ j := by
    rintro rfl
    exact hkn (h.advertises.unique k n _ hname hn)
  have hseen (j : String) := seen_withdraw h.reliable.wellFormed e.signal.id j
  have hgone (j : String) (s : RemoteSignal)
      (hs : (r.withdraw e.signal.id).1.seen j = some s) :
      e.signal.id ≠ j ∧ r.seen j = some s := by
    rw [hseen] at hs
    by_cases hid : e.signal.id = j
    · rw [if_pos hid] at hs
      cases hs
    · rw [if_neg hid] at hs
      exact ⟨hid, hs⟩
  have hown (n : UInt32) (hn : r.numbered n = some e.signal.id) : r.Erases e.signal.id n := by
    obtain ⟨d, s, hd, hroute, -⟩ := RemoteSignals.entry_of_numbered h.reliable hn
    exact (h.advertises.tracks.named n _ ⟨d, hd, hroute⟩).1
  have hother (n : UInt32) (j : String) (hid : e.signal.id ≠ j)
      (hn : r.numbered n = some j) : ¬ r.Erases e.signal.id n := by
    -- The signal would remember the number of another one.
    rintro ⟨d, hd, hsigno⟩
    rw [h.numbered] at hn
    obtain ⟨d', hd', -, rfl, -⟩ := find_of_known hn
    obtain ⟨s, hs, -⟩ := h.reliable.wellFormed.object _ d hd
    have hnumber : s.signo = n := by
      rw [← hsigno, RemoteSignals.signoOf, hs]
      rfl
    have hremembered := h.signed _ s ((RemoteSignals.seen_of_entry hd).trans hs)
      (by rw [hnumber]; exact h.nonzero n d' hd')
    rw [hnumber, LocalSignals.names_of_find hd'] at hremembered
    exact hid (Option.some.inj hremembered).symm
  have hnumbered := numbered_withdraw h.reliable hown hother
  refine ⟨hadvertises, ownTables_withdraw h.ownTables _, ?_, ?_, ?_, ?_, ?_, ?_, ?_⟩
  · exact fun n d hn => h.nonzero n d (hentry n d hn).2
  · exact fun n d hn => h.slots n d (hentry n d hn).2
  · intro n
    rw [hnumbered, h.numbered]
    show _ = ((OrderedMap.find? (OrderedMap.erase c.signals k) n).filter _).map _
    rw [OrderedMap.find?_erase]
    by_cases hkn : k = n
    · rw [if_pos hkn, ← hkn]
      split
      · rfl
      · rename_i hne
        rw [known_of_find hk] at hne ⊢
        rw [if_neg fun hnamed => hne (if_pos hnamed)]
        rfl
    · rw [if_neg hkn, if_neg]
      · rfl
      · intro hn
        obtain ⟨d, hd, -, hid, -⟩ := find_of_known hn
        exact hdifferent n _ hkn (LocalSignals.names_of_find hd) hid.symm
  · intro j s hs hne
    obtain ⟨hid, hs⟩ := hgone j s hs
    have hremembered := h.signed j s hs hne
    rw [LocalSignals.names_erase, if_neg, hremembered]
    intro heq
    rw [← heq, hname] at hremembered
    exact hid (Option.some.inj hremembered)
  · exact fun j s hs => h.clean j s (hgone j s hs).2
  · intro n d hn hslot hne
    obtain ⟨hkn, hn⟩ := hentry n d hn
    obtain ⟨s, hs, hmirrored⟩ := h.shown n d hn hslot hne
    refine ⟨s, ?_, hmirrored⟩
    rw [hseen, if_neg (hdifferent n _ hkn (LocalSignals.names_of_find hn)), hs]
  · intro j s hs hsub
    obtain ⟨hid, hs⟩ := hgone j s hs
    obtain ⟨n, hn⟩ := h.quiet j s hs hsub
    refine ⟨n, ?_⟩
    have hkn : k ≠ n := by
      rintro rfl
      obtain ⟨d, hd, -, hdid, -⟩ := find_of_known hn
      rw [hk] at hd
      rw [← Option.some.inj hd] at hdid
      exact hid hdid
    show ((OrderedMap.find? (OrderedMap.erase c.signals k) n).filter _).map _ = _
    rw [OrderedMap.find?_erase, if_neg hkn]
    exact hn

end Registrations

/-! ## Operations of a connection -/

/-- What a connection sends with a change of it restores the relation, and hands
nothing on. -/
def Relates (c c' : Connection) (outputs : List Output) : Prop :=
  Relays (c.helloSent, c.locals) (c'.helloSent, c'.locals) (messagesOf outputs) []

/-- A registration finds its number free, which is not zero. -/
def Numbered (c : LocalSignals) (signal : LocalSignal) : Prop :=
  c.IsRegistered signal ∨ OrderedMap.find? c.signals c.nextSigno = none ∧ c.nextSigno ≠ 0

instance (c : LocalSignals) (signal : LocalSignal) : Decidable (Numbered c signal) :=
  inferInstanceAs (Decidable (_ ∨ _))

section Connection

variable {helloSent helloSent' : Bool} {c c' : Connection} {locals : LocalSignals}
  {r r' : RemoteSignals} {l : Listener}

/-- The same signals, which the peer sees more of. -/
theorem Mirrors.extended (h : Mirrors helloSent locals r)
    (hextends : RemoteSignals.Extends r r') (hadvertises : Advertises helloSent' locals r') :
    Mirrors helloSent' locals r' := by
  apply h.alike hadvertises hextends.reliable hextends.numbered
  · intro j s' hs'
    rcases hextends.seen j with hsame | ⟨-, hnew⟩
    · exact .inl ⟨s', hsame.symm.trans hs', .refl s'⟩
    · rw [hs'] at hnew
      exact .inr (Option.some.inj hnew)
  · intro j s hs
    rcases hextends.seen j with hsame | ⟨hnone, -⟩
    · exact ⟨s, hsame.trans hs, .refl s⟩
    · rw [hs] at hnone
      cases hnone

/-- A message of the connection that is not about signals. -/
theorem step_other (r : RemoteSignals) {method : String} (hsub : method ≠ "subscribe")
    (hunsub : method ≠ "unsubscribe") (havailable : method ≠ "available")
    (hunavailable : method ≠ "unavailable") (params : Json) :
    r.step (.message (.ofMetadata 0 method params)) = some (r, []) := by
  change r.onPeerMetadataReceived ⟨0, method, params⟩ = _
  unfold RemoteSignals.onPeerMetadataReceived
  dsimp only
  rw [if_neg hsub, if_neg hunsub, if_neg (Decidable.not_not.mpr rfl), if_neg havailable,
    if_neg hunavailable]

theorem relays_other (x : Bool × LocalSignals) {method : String} (hsub : method ≠ "subscribe")
    (hunsub : method ≠ "unsubscribe") (havailable : method ≠ "available")
    (hunavailable : method ≠ "unavailable") {params : Json}
    (htaken : Session.throws (.ofMetadata 0 method params) = false) :
    Relays x x [.ofMetadata 0 method params] [] := by
  intro l h
  have hstep := step_other l.remotes hsub hunsub havailable hunavailable params
  rw [List.append_nil]
  exact ⟨l.remotes, Carries.single (show Taken l _ from htaken) (take_metadata hstep), h⟩

/-- **`connection::add_local_signal`.** -/
theorem relates_addLocalSignal {signal : LocalSignal} (hunique : UniqueId c.locals signal)
    (hnumbered : Numbered c.locals signal) :
    Relates c (c.addLocalSignal signal).1 (c.addLocalSignal signal).2 := by
  intro l h
  have hutters := Advertisement.utters_addLocalSignal hunique (hnumbered.imp_right And.left)
    l.remotes h.advertises
  rw [List.append_nil]
  cases hfind : c.locals.findByAddress signal.address with
  | some found =>
      have hsame : c.addLocalSignal signal = (c, []) := by
        unfold Connection.addLocalSignal
        rw [LocalSignals.addLocalSignal_of_some hfind]
        rfl
      rw [hsame]
      exact ⟨l.remotes, rfl, h⟩
  | none =>
      obtain ⟨hfree, hzero⟩ : OrderedMap.find? c.locals.signals c.locals.nextSigno = none ∧
          c.locals.nextSigno ≠ 0 := by
        rcases hnumbered with hregistered | hfresh
        · rw [LocalSignals.IsRegistered, hfind] at hregistered
          cases hregistered
        · exact hfresh
      -- The peer hears of it, or nothing is sent.
      obtain ⟨r', hcarries, hextends⟩ : ∃ r', Carries Listener.take Taken l
          (messagesOf (c.addLocalSignal signal).2) ⟨r', l.log⟩ ∧
            RemoteSignals.Extends l.remotes r' := by
        unfold Connection.addLocalSignal
        dsimp only
        split
        · obtain ⟨r', events, hstep, hextends⟩ := RemoteSignals.take_available h.reliable
            (.object [("signalIds", .array ([signal.id].map .string))])
          exact ⟨r', Carries.single (taken_of_ne (by decide) l _ _) (take_metadata hstep), hextends⟩
        · exact ⟨l.remotes, rfl, .refl h.reliable⟩
      exact ⟨r', hcarries, h.added hfind hfree hzero hextends
        (advertises_of_carries hcarries hutters)⟩

/-- **`connection::remove_local_signal`.** -/
theorem relates_removeLocalSignal {signal : LocalSignal} (hid : SameId c.locals signal) :
    Relates c (c.removeLocalSignal signal).1 (c.removeLocalSignal signal).2 := by
  intro l h
  have hdistinct : Distinct c.locals.signals := h.advertises.keyed.distinct
  have hnumber : ∀ e ∈ c.locals.findByAddress signal.address, e.1 ≠ 0 := fun e he =>
    h.nonzero _ _ (LocalSignals.find?_of_findByAddress hdistinct he)
  have hutters := Advertisement.utters_removeLocalSignal hid hnumber l.remotes h.advertises
  rw [List.append_nil]
  unfold Connection.removeLocalSignal LocalSignals.removeLocalSignal at hutters ⊢
  cases hfind : c.locals.findByAddress signal.address with
  | none => exact ⟨l.remotes, rfl, h⟩
  | some found =>
      obtain ⟨k, e⟩ := found
      have hk := LocalSignals.find?_of_findByAddress hdistinct hfind
      have hsame : e.signal.id = signal.id := hid _ (OrderedMap.mem_of_find?_eq_some hk)
        (LocalSignals.address_of_findByAddress hfind)
      rw [hfind] at hutters
      dsimp only at hutters ⊢
      rw [if_pos (hnumber _ hfind), messagesOf_append,
        RegisteredLocalSignal.messagesOf_release] at hutters ⊢
      have hcarries : Carries Listener.take Taken l
          [Connection.idsMessage "unavailable" [signal.id]]
            ⟨(l.remotes.withdraw signal.id).1, l.log⟩ :=
        Carries.single (taken_of_ne (by decide) l _ _) (take_metadata (by rfl))
      have hadvertises := advertises_of_carries hcarries hutters
      rw [← hsame] at hcarries hadvertises
      rw [← hsame]
      exact ⟨_, hcarries, h.removed hk hadvertises⟩

/-- **`connection::do_hello`.** -/
theorem relates_doHello (c : Connection) : Relates c c.doHello.1 c.doHello.2 := by
  intro l h
  have hutters := Advertisement.utters_doHello c l.remotes h.advertises
  have hbegin : Relays (c.helloSent, c.locals) (c.helloSent, c.locals)
      [Connection.apiVersionMessage, c.initMessage] [] :=
    Relays.append (relays_other _ (by decide) (by decide) (by decide) (by decide) rfl)
      (relays_other _ (by decide) (by decide) (by decide) (by decide) rfl)
  obtain ⟨r, hcarries, hr⟩ := hbegin l h
  unfold Connection.doHello at hutters ⊢
  rw [messagesOf_append] at hutters ⊢
  by_cases hempty : c.localIds = []
  · rw [if_pos hempty] at hutters ⊢
    refine ⟨r, hcarries, hr.extended (.refl hr.reliable) ?_⟩
    exact advertises_of_carries hcarries hutters
  · rw [if_neg hempty] at hutters ⊢
    obtain ⟨r', events, hstep, hextends⟩ := RemoteSignals.take_available hr.reliable
      (.object [("signalIds", .array (c.localIds.map .string))])
    have hall : Carries Listener.take Taken l
        ([Connection.apiVersionMessage, c.initMessage] ++
          [Connection.idsMessage "available" c.localIds]) ⟨r', l.log ++ []⟩ :=
      hcarries.append (Carries.single (taken_of_ne (by decide) _ _ _) (take_metadata hstep))
    exact ⟨r', hall, hr.extended hextends (advertises_of_carries hall hutters)⟩

section Operation

variable {operation : LocalSignals → String → LocalSignals × List Output × Bool}

/-- An operation that restores the relation, for each id of a list. -/
theorem relays_forEachId
    (hop : ∀ c id, Relays (helloSent, c) (helloSent, (operation c id).1)
      (messagesOf (operation c id).2.1) []) (ids : List Json) :
    ∀ c, Relays (helloSent, c) (helloSent, (LocalSignals.forEachId operation c ids).1)
      (messagesOf (LocalSignals.forEachId operation c ids).2.1) [] := by
  induction ids with
  | nil => exact fun c => .refl _
  | cons j ids ih =>
      intro c
      cases j with
      | string id =>
          have hall := (hop c id).append (ih (operation c id).1)
          rw [← messagesOf_append] at hall
          exact hall
      | null => exact ih c
      | bool b => exact ih c
      | integer n => exact ih c
      | float bits => exact ih c
      | array elements => exact ih c
      | object members => exact ih c

theorem relays_doCommandInterfaceWith
    (hop : ∀ c id, Relays (helloSent, c) (helloSent, (operation c id).1)
      (messagesOf (operation c id).2.1) []) (failure : String) (c : LocalSignals)
    (params : Json) :
    Relays (helloSent, c)
      (helloSent, (LocalSignals.doCommandInterfaceWith operation failure c params).1)
      (messagesOf (LocalSignals.doCommandInterfaceWith operation failure c params).2.1) [] := by
  cases params with
  | string id => exact hop c id
  | array ids => exact relays_forEachId hop ids c
  | null => exact .refl _
  | bool b => exact .refl _
  | integer n => exact .refl _
  | float bits => exact .refl _
  | object members => exact .refl _

end Operation

/-- **A request of the peer.** -/
theorem relays_request (locals : LocalSignals) (request : Request) :
    Relays (helloSent, locals) (helloSent, (locals.request request).1)
      (messagesOf (locals.request request).2.1) [] :=
  relays_act locals (.request request) fun _ h => nomatch h

/-- **`connection::do_command_interface`.** -/
theorem relates_doCommandInterface (c : Connection) (method : String) (params : Json) :
    Relates c (c.doCommandInterface method params).1
      (c.doCommandInterface method params).2.1 := by
  unfold Connection.doCommandInterface
  split
  · exact relays_doCommandInterfaceWith (fun locals id => relays_request locals (.subscribe id)) _
      c.locals params
  split
  · exact relays_doCommandInterfaceWith
      (fun locals id => relays_request locals (.unsubscribe id)) _ c.locals params
  · exact .refl _

/-- **`connection::handle_command_interface_request`.** -/
theorem relates_handleCommandInterfaceRequest {params : Json} {q : Connection × List Output}
    (hq : c.handleCommandInterfaceRequest params = some q) : Relates c q.1 q.2 := by
  unfold Connection.handleCommandInterfaceRequest at hq
  split at hq
  · rw [← Option.some.inj hq]
    have hreply {c' : Connection} {outputs : List Output} (h : Relates c c' outputs)
        (reply : Json) : Relates c c' (outputs ++ [.send (.ofMetadata 0 "response" reply)]) := by
      have hreplies : Relays (c'.helloSent, c'.locals) (c'.helloSent, c'.locals)
          [.ofMetadata 0 "response" reply] [] :=
        relays_other _ (by decide) (by decide) (by decide) (by decide) rfl
      have hall := Relays.append h hreplies
      unfold Relates
      rw [messagesOf_append]
      exact hall
    cases params.stringAt? "method" with
    | none => exact hreply (show Relates c c [] from Relays.refl _) _
    | some method => exact hreply (relates_doCommandInterface c method _) _
  · cases hq

/-- **A message that arrives.** -/
theorem relates_receive {m : Message} {q : Connection × List Output × List RemoteEvent}
    (hq : c.receive m = some q) : Relates c q.1 q.2.1 := by
  rcases Connection.receive_cases hq with ⟨-, rfl⟩ | ⟨-, rfl⟩ | ⟨-, q', hq', rfl⟩ |
    ⟨-, remotes, events, rfl⟩
  · obtain ⟨version, hframe⟩ := c.handleApiVersion_frame (Session.paramsOf m)
    rw [hframe]
    exact Relays.refl _
  · unfold Connection.handleInit
    split
    · dsimp only
      split
      · exact relates_doHello { c with
          remoteStreamId := ((Session.paramsOf m).stringAt? "streamId").getD c.remoteStreamId }
      · exact Relays.refl _
    · exact Relays.refl _
  · exact relates_handleCommandInterfaceRequest hq'
  · exact Relays.refl _

end Connection

/-! ## Two sides -/

/-- **Replicated signals.**  The numbers of the connected signals lead to these
signals and no other number leads anywhere, these signals are the subscribed
ones, and they are as they are described. -/
structure Replicated (c : LocalSignals) (r : RemoteSignals) : Prop where
  numbered : ∀ n, r.numbered n = known c n
  subscribed : ∀ id,
    (∃ s, r.seen id = some s ∧ s.isSubscribed = true) ↔ ∃ n, known c n = some id
  described : ∀ k e, OrderedMap.find? c.signals k = some e → e.onDataPublished = true →
    e.signal.id ≠ "" → ∃ s, r.seen e.signal.id = some s ∧ Mirrored e s

theorem Mirrors.replicated {helloSent : Bool} {c : LocalSignals} {r : RemoteSignals}
    (h : Mirrors helloSent c r) : Replicated c r := by
  refine ⟨h.numbered, fun id => ⟨?_, ?_⟩, h.shown⟩
  · rintro ⟨s, hs, hsub⟩
    exact h.quiet id s hs hsub
  · rintro ⟨n, hn⟩
    obtain ⟨e, he, hslot, rfl, hid⟩ := find_of_known hn
    obtain ⟨s, hs, hmirrored⟩ := h.shown n e he hslot hid
    exact ⟨s, hs, hmirrored.isSubscribed⟩

/-- Two connections, what was published on the connected signals of each, and
what the application of each was handed. -/
structure Dialogue where
  link : Advertisement.Link
  published : Side → List Publication := fun _ => []
  heard : Side → List Publication := fun _ => []

/-- What can happen. -/
inductive Action where
  /-- What can happen to two connections, whatever is published. -/
  | link (action : Advertisement.Action)
  /-- `local_signal::set_metadata`. -/
  | setMetadata (side : Side) (address : Nat) (metadata : Metadata)
  /-- `local_signal::publish_data`. -/
  | publish (side : Side) (address : Nat) (domainValue : Int64) (sampleCount : Nat) (data : Bytes)

namespace Dialogue

/-- What a delivery hands to the application of a side. -/
def hands (w : Advertisement.Link) (action : Advertisement.Action) (side : Side) :
    List Publication :=
  match action with
  | .deliver sender =>
      if sender = side.other then
        match (w.endpoint sender).outgoing with
        | [] => []
        | m :: _ =>
            match (w.endpoint side).connection.receive m with
            | some r => handed r.1.remotes r.2.2
            | none => []
      else []
  | _ => []

/-- What happens to a local signal of a side. -/
def acts (w : Dialogue) (side : Side) (i : Act) : Dialogue :=
  let c := (w.link.endpoint side).connection
  { w with
    link := w.link.put
      { connection := { c with locals := (c.locals.act i).1 }
        outgoing := (w.link.endpoint side).outgoing ++ (c.locals.act i).2 } side
    published := fun s =>
      if s = side then w.published s ++ publications c.locals i else w.published s }

/-- One action. -/
def step (w : Dialogue) : Action → Option Dialogue
  | .link action =>
      (w.link.step action).map fun link =>
        { w with link := link, heard := fun side => w.heard side ++ hands w.link action side }
  | .setMetadata side address metadata => some (w.acts side (.setMetadata address metadata))
  | .publish side address domainValue sampleCount data =>
      some (w.acts side (.publish address domainValue sampleCount data))

/-- A new client connection and a new server connection. -/
def new (clientId serverId : String) (clientInterfaces serverInterfaces : Json) : Dialogue :=
  { link := .new clientId serverId clientInterfaces serverInterfaces }

/-- The ids are unique on each side, and a registration finds its number free,
which is not zero. -/
def Admits (w : Dialogue) : Action → Prop
  | .link (.add side signal) =>
      UniqueId (w.link.endpoint side).connection.locals signal ∧
        Numbered (w.link.endpoint side).connection.locals signal
  | .link (.remove side signal) => SameId (w.link.endpoint side).connection.locals signal
  | _ => True

instance (w : Dialogue) : (action : Action) → Decidable (w.Admits action)
  | .link (.add _ _) => inferInstanceAs (Decidable (_ ∧ _))
  | .link (.remove _ _) => inferInstanceAs (Decidable (SameId _ _))
  | .link (.run _) => isTrue trivial
  | .link (.request _ _ _ _) => isTrue trivial
  | .link (.command _ _ _) => isTrue trivial
  | .link (.deliver _) => isTrue trivial
  | .setMetadata _ _ _ => isTrue trivial
  | .publish _ _ _ _ _ => isTrue trivial

/-- **Replication.**  Once the messages of a side have arrived, its signals are
replicated on the other side. -/
def Replicates (w : Dialogue) : Prop :=
  ∀ side, (w.link.endpoint side).outgoing = [] →
    Replicated (w.link.endpoint side).connection.locals
      (w.link.endpoint side.other).connection.remotes

/-- **Delivery.**  What an application was handed begins what was published on
the other side, and is all of it once the messages have arrived. -/
def Delivers (w : Dialogue) : Prop :=
  ∀ side, w.heard side.other <+: w.published side ∧
    ((w.link.endpoint side).outgoing = [] → w.heard side.other = w.published side)

/-- One direction. -/
def channel (w : Dialogue) (side : Side) :
    Channel (Connection × List Publication) Message Listener :=
  ⟨((w.link.endpoint side).connection, w.published side), (w.link.endpoint side).outgoing,
    ⟨(w.link.endpoint side.other).connection.remotes, w.heard side.other⟩⟩

/-- Once its messages have arrived, the peer of a side mirrors it and has been
handed what was published. -/
def Follows (w : Dialogue) (side : Side) : Prop :=
  ∃ l, Settles Listener.take Taken
    (fun (x : Connection × List Publication) (l : Listener) =>
      Mirrors x.1.helloSent x.1.locals l.remotes ∧ l.log = x.2) (w.channel side) l

section Follows

variable {w : Dialogue} {side : Side}

theorem Follows.replicated (h : w.Follows side) (hdrained : (w.link.endpoint side).outgoing = []) :
    Replicated (w.link.endpoint side).connection.locals
      (w.link.endpoint side.other).connection.remotes := by
  obtain ⟨settled, hsettles⟩ := h
  exact (hsettles.of_drained hdrained).1.replicated

theorem Follows.handed (h : w.Follows side) : w.heard side.other <+: w.published side := by
  obtain ⟨settled, hsettles⟩ := h
  have hahead : w.heard side.other <+: settled.log := log_carries hsettles.1
  rw [hsettles.2.2] at hahead
  exact hahead

theorem Follows.delivered (h : w.Follows side) (hdrained : (w.link.endpoint side).outgoing = []) :
    w.heard side.other = w.published side := by
  obtain ⟨settled, hsettles⟩ := h
  exact (hsettles.of_drained hdrained).2

end Follows

end Dialogue

section Steps

variable {w : Dialogue}

/-- Another state of a side, and of what was published on it. -/
theorem follows_speaks (h : ∀ side, w.Follows side) {side : Side} {c : Connection}
    {messages : List Message} {publications : List Publication} {w' : Dialogue}
    (hrelays : Relays ((w.link.endpoint side).connection.helloSent,
      (w.link.endpoint side).connection.locals) (c.helloSent, c.locals) messages publications)
    (hremotes : c.remotes = (w.link.endpoint side).connection.remotes)
    (hself : w'.channel side = { w.channel side with
      sender := (c, w.published side ++ publications)
      queue := (w.channel side).queue ++ messages })
    (hother : w'.channel side.other = { w.channel side.other with
      receiver := ⟨c.remotes, (w.channel side.other).receiver.log⟩ }) (side' : Side) :
    w'.Follows side' := by
  rcases Advertisement.Side.eq_or_other side side' with rfl | rfl
  · obtain ⟨settled, hsettles⟩ := h side'
    obtain ⟨hmirrors, hlog⟩ := hsettles.2
    obtain ⟨r, hcarries, hmirrors'⟩ := hrelays settled hmirrors
    refine ⟨⟨r, settled.log ++ publications⟩, ?_⟩
    rw [hself]
    refine hsettles.sends hcarries ⟨hmirrors', ?_⟩
    rw [hlog]
    rfl
  · obtain ⟨settled, hsettles⟩ := h side.other
    refine ⟨settled, ?_⟩
    have hreceiver : (w.channel side.other).receiver.remotes =
        (w.link.endpoint side).connection.remotes := by
      cases side <;> rfl
    rw [hother, hremotes, ← hreceiver]
    exact hsettles

/-- What an operation of a side leaves and sends. -/
theorem follows_tells (h : ∀ side, w.Follows side) {side : Side} {q : Connection × List Output}
    {heard : Side → List Publication}
    (hrelates : Relates (w.link.endpoint side).connection q.1 q.2)
    (hremotes : q.1.remotes = (w.link.endpoint side).connection.remotes)
    (hheard : heard = w.heard) (side' : Side) :
    Dialogue.Follows { w with link := w.link.tells side q, heard := heard } side' := by
  rw [hheard]
  apply follows_speaks h hrelates hremotes
  · rw [List.append_nil]
    cases side <;> rfl
  · cases side <;> rfl

/-- **What happens to a local signal.** -/
theorem follows_acts (h : ∀ side, w.Follows side) (side : Side) (i : Act)
    (hi : ∀ ids, i ≠ .announce ids) (side' : Side) : (w.acts side i).Follows side' := by
  let connection := (w.link.endpoint side).connection
  have hrelays : Relays (connection.helloSent, connection.locals)
      (connection.helloSent, (connection.locals.act i).1) (connection.locals.act i).2
      (publications connection.locals i) :=
    relays_act connection.locals i hi
  refine follows_speaks (c := { connection with locals := (connection.locals.act i).1 })
    h hrelays rfl ?_ ?_ side'
  · cases side <;> rfl
  · cases side <;> rfl

/-- **One message arrives.** -/
theorem follows_deliver (h : ∀ side, w.Follows side) (side : Side) :
    ∃ w', w.step (.link (.deliver side)) = some w' ∧ ∀ side', w'.Follows side' := by
  unfold Dialogue.step Advertisement.Link.step
  dsimp only
  cases hqueue : (w.link.endpoint side).outgoing with
  | nil =>
      refine ⟨_, rfl, fun side' => ?_⟩
      have hnothing (s : Side) : Dialogue.hands w.link (.deliver side) s = [] := by
        unfold Dialogue.hands
        dsimp only
        rw [hqueue]
        split <;> rfl
      have hheard : (fun s => w.heard s ++ Dialogue.hands w.link (.deliver side) s) = w.heard := by
        funext s
        rw [hnothing, List.append_nil]
      rw [hheard]
      exact h side'
  | cons m rest =>
      obtain ⟨settled, hsettles⟩ := h side
      obtain ⟨htaken, l, hl, hrest⟩ := hsettles.delivers hqueue
      obtain ⟨q, hq, rfl⟩ := Option.map_eq_some_iff.mp hl
      obtain ⟨p, hp⟩ := Session.receive_isSome htaken
        ((RemoteSignals.step_isSome_iff (.message m)).mp ⟨q, hq⟩)
      have hsame : q = (p.1.remotes, p.2.2) := by
        have hstep := Session.remotes_receive hp
        rw [show (w.link.endpoint side.other).connection.remotes.step (.message m) = some q from hq]
          at hstep
        exact Option.some.inj hstep
      dsimp only
      rw [hp, Option.map_some]
      refine ⟨_, rfl, fun side' => ?_⟩
      -- What is handed on, is handed to the application of the other side.
      have hother : Dialogue.hands w.link (.deliver side) side.other =
          handed p.1.remotes p.2.2 := by
        have hsender : side = side.other.other := by
          cases side <;> rfl
        unfold Dialogue.hands
        dsimp only
        rw [if_pos hsender, hqueue]
        dsimp only
        rw [hp]
      have hself : Dialogue.hands w.link (.deliver side) side = [] := by
        have hsender : side ≠ side.other := by
          cases side <;> decide
        unfold Dialogue.hands
        dsimp only
        rw [if_neg hsender]
      rcases Advertisement.Side.eq_or_other side side' with rfl | rfl
      · refine ⟨settled, ?_⟩
        rw [hsame, ← hother] at hrest
        cases side' <;> exact hrest
      · obtain ⟨settled', hsettles'⟩ := h side.other
        obtain ⟨hmirrors, hlog⟩ := hsettles'.2
        obtain ⟨r, hcarries, hmirrors'⟩ := relates_receive hp settled' hmirrors
        refine ⟨⟨r, settled'.log ++ []⟩, ?_⟩
        have hsends := hsettles'.sends hcarries (s := (p.1, w.published side.other))
          ⟨hmirrors', by rw [List.append_nil, hlog]; rfl⟩
        have hlogs : w.heard side ++ Dialogue.hands w.link (.deliver side) side = w.heard side := by
          rw [hself, List.append_nil]
        cases side with
        | client =>
            unfold Dialogue.channel
            dsimp only [Side.other]
            rw [hlogs]
            exact hsends
        | server =>
            unfold Dialogue.channel
            dsimp only [Side.other]
            rw [hlogs]
            exact hsends

/-- **One action.** -/
theorem follows_step (h : ∀ side, w.Follows side) {action : Action} (hadmits : w.Admits action) :
    ∃ w', w.step action = some w' ∧ ∀ side, w'.Follows side := by
  have hquiet : (fun s => w.heard s ++ []) = w.heard := by
    funext s
    rw [List.append_nil]
  cases action with
  | link action =>
      cases action with
      | run side =>
          unfold Dialogue.step Advertisement.Link.step
          dsimp only
          split
          · refine ⟨_, rfl, fun side' => ?_⟩
            rw [show (fun s => w.heard s ++ Dialogue.hands w.link (.run side) s) = w.heard
              from hquiet]
            exact h side'
          · exact ⟨_, rfl, follows_tells h (relates_doHello _) rfl hquiet⟩
      | add side signal =>
          exact ⟨_, rfl, follows_tells h (relates_addLocalSignal hadmits.1 hadmits.2) rfl hquiet⟩
      | remove side signal =>
          exact ⟨_, rfl, follows_tells h (relates_removeLocalSignal hadmits) rfl hquiet⟩
      | request side client method params =>
          have hrelays : Relays
              ((w.link.endpoint side).connection.helloSent,
                (w.link.endpoint side).connection.locals)
              ((w.link.endpoint side).connection.helloSent,
                (w.link.endpoint side).connection.locals)
              [.ofMetadata 0 "request" (client.asyncRequest method params ()).2.params] [] :=
            relays_other _ (by decide) (by decide) (by decide) (by decide) rfl
          exact ⟨_, rfl, follows_tells h hrelays rfl hquiet⟩
      | command side method params =>
          obtain ⟨locals, hframe⟩ :=
            (w.link.endpoint side).connection.doCommandInterface_frame params method
          have hremotes :
              ((w.link.endpoint side).connection.doCommandInterface method params).1.remotes =
                (w.link.endpoint side).connection.remotes := by
            rw [hframe]
          exact ⟨_, rfl, follows_tells h (relates_doCommandInterface _ method params) hremotes
            hquiet⟩
      | deliver side => exact follows_deliver h side
  | setMetadata side address metadata =>
      exact ⟨_, rfl, follows_acts h side (.setMetadata address metadata) fun _ hi => nomatch hi⟩
  | publish side address domainValue sampleCount data =>
      exact ⟨_, rfl, follows_acts h side (.publish address domainValue sampleCount data)
        fun _ hi => nomatch hi⟩

theorem follows_new (clientId serverId : String) (clientInterfaces serverInterfaces : Json)
    (side : Side) :
    (Dialogue.new clientId serverId clientInterfaces serverInterfaces).Follows side := by
  obtain ⟨r, hcarries, hadvertises⟩ :=
    Advertisement.upToDate_new clientId serverId clientInterfaces serverInterfaces side
  have hr : r = {} := by
    cases side <;> exact hcarries
  rw [hr] at hadvertises
  refine ⟨{}, ?_, ?_⟩
  · cases side <;> rfl
  · have hempty {helloSent : Bool} {c : LocalSignals} (hc : c = {})
        (h : Advertises helloSent c {}) : Mirrors helloSent c {} := by
      subst hc
      refine ⟨h, RemoteSignals.reliable_empty.ownTables, ?_, ?_, fun _ => rfl, ?_, ?_, ?_, ?_⟩
      · exact fun _ _ hk => nomatch hk
      · exact fun _ _ hk => nomatch hk
      · exact fun _ _ hs => nomatch hs
      · exact fun _ _ hs => nomatch hs
      · exact fun _ _ hk => nomatch hk
      · exact fun _ _ hs => nomatch hs
    cases side <;> exact ⟨hempty rfl hadvertises, rfl⟩

end Steps

/-- A signal is registered while the sides greet each other, published on before
and after it is subscribed, and given metadata. -/
def broadcast : List Action :=
  [.link (.run .server), .link (.deliver .server), .link (.add .server LocalSignals.bareSignal),
    .link (.deliver .server), .link (.deliver .server),
    .publish .server 0 0 1 [1],
    .link (.request .client {} ".subscribe" (.array [.string "signal"])), .link (.deliver .client),
    .link (.deliver .client), .link (.deliver .client),
    .publish .server 0 0 1 [2, 3], .link (.deliver .server), .link (.deliver .server),
    .setMetadata .server 0 (.ofJson (.object
      [("definition", .object [("rule", .string explicitRule)])])),
    .publish .server 0 1 2 [4, 5, 6], .link (.deliver .server), .link (.deliver .server),
    .link (.deliver .server), .link (.deliver .server)]

/-- The signal is removed. -/
def farewell : List Action :=
  [.link (.remove .server LocalSignals.bareSignal), .publish .server 0 3 1 [7],
    .link (.deliver .server)]

section Runs

/-- Every run is defined, and at its end each side is followed. -/
theorem follows_run (clientId serverId : String) (clientInterfaces serverInterfaces : Json)
    (actions : List Action)
    (hadmits : MeetsOpt Dialogue.step Dialogue.Admits
      (.new clientId serverId clientInterfaces serverInterfaces) actions) :
    ∃ w, actions.foldlM Dialogue.step
      (.new clientId serverId clientInterfaces serverInterfaces) = some w ∧
        ∀ side, w.Follows side :=
  foldlM_invariant_of_meets (fun _ _ h hok => follows_step h hok) actions _
    (follows_new clientId serverId clientInterfaces serverInterfaces) hadmits

/-- **The peer mirrors the signals.**  In every run of two connections, in which
signals come and go under unique ids and free numbers, metadata change, the
sides request each other's signals and data are published, in any order and
with messages under way: each step is defined, and at its end each side whose
messages have arrived is replicated on the other side. -/
theorem dialogue_replicates (clientId serverId : String)
    (clientInterfaces serverInterfaces : Json) (actions : List Action)
    (hadmits : MeetsOpt Dialogue.step Dialogue.Admits
      (.new clientId serverId clientInterfaces serverInterfaces) actions) :
    ∃ w, actions.foldlM Dialogue.step
      (.new clientId serverId clientInterfaces serverInterfaces) = some w ∧ w.Replicates := by
  obtain ⟨w, hw, hfollows⟩ :=
    follows_run clientId serverId clientInterfaces serverInterfaces actions hadmits
  exact ⟨w, hw, fun side => (hfollows side).replicated⟩

theorem dialogue_replicates_broadcast :
    ∃ w, broadcast.foldlM Dialogue.step (.new "" "" .null .null) = some w ∧ w.Replicates :=
  dialogue_replicates "" "" .null .null broadcast (by decide +kernel)

-- Nothing is under way, and the number of the signal leads to it.
example : (broadcast.foldlM Dialogue.step (.new "" "" .null .null)).map
    (fun w => ((w.link.endpoint .server).outgoing.length,
      (w.link.endpoint .client).connection.remotes.numbered 1)) = some (0, some "signal") := by
  decide +kernel

/-- **Data are delivered** in order and once: in every such run, what the
application of a side was handed begins what was published on the connected
signals of the other side, each time under the id of the signal, and is all of
it once the messages have arrived. -/
theorem dialogue_delivers (clientId serverId : String)
    (clientInterfaces serverInterfaces : Json) (actions : List Action)
    (hadmits : MeetsOpt Dialogue.step Dialogue.Admits
      (.new clientId serverId clientInterfaces serverInterfaces) actions) :
    ∃ w, actions.foldlM Dialogue.step
      (.new clientId serverId clientInterfaces serverInterfaces) = some w ∧ w.Delivers := by
  obtain ⟨w, hw, hfollows⟩ :=
    follows_run clientId serverId clientInterfaces serverInterfaces actions hadmits
  exact ⟨w, hw, fun side => ⟨(hfollows side).handed, (hfollows side).delivered⟩⟩

theorem dialogue_delivers_farewell :
    ∃ w, (broadcast ++ farewell).foldlM Dialogue.step (.new "" "" .null .null) = some w ∧
      w.Delivers :=
  dialogue_delivers "" "" .null .null (broadcast ++ farewell) (by decide +kernel)

example : ((broadcast ++ farewell).foldlM Dialogue.step (.new "" "" .null .null)).map
    (fun w => w.heard .client) = some [⟨"signal", [2, 3]⟩, ⟨"signal", [4, 5, 6]⟩] := by
  decide +kernel

end Runs

end Mirroring

end WsStreaming.Ports
