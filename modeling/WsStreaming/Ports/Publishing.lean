import WsStreaming.Verified.Fifo
import WsStreaming.Ports.RegisteredSignals
import WsStreaming.Ports.SeenSignals

/-!
# A publishing and a receiving connection

The publishing side of a connection with a fixed set of signals, the remote
signals of the peer's connection, and the channel between them.  Between any
two deeds of the publishing side, when everything that was sent is taken, the
receiving side knows the connected signals by their numbers and has them as
they were described.

## Main results

* `Joined.opens`, `Joined.closes`, `Joined.changes`, `Joined.sets`,
  `Joined.seen_of_connected`, `Joined.announce` — what the messages of each deed do on the
  other side.
-/

namespace WsStreaming.Ports

open WsStreaming.Verified
open WsStreaming.Verified.OrderedMap (OMap Distinct)
open WsStreaming.Verified.Run (Meets)
open WsStreaming.Verified.Fifo (Carries)
open WsStreaming.Verified.Wire (Bytes)

namespace Publishing

open LocalSignals (Act Deed FitsDeed)
open RemoteSignals (Changes Extends)

/-- A message, what it was sent for, and the publishing side when that was
done. -/
structure Sent where
  message : Message
  act : Act
  sender : LocalSignals

/-- What the publishing side sends. -/
def send (c : LocalSignals) (i : Act) : LocalSignals × List Sent :=
  ((c.act i).1, (c.act i).2.map fun m => ⟨m, i, (c.act i).1⟩)

/-- A message is taken. -/
def take (r : RemoteSignals) (m : Sent) : Option RemoteSignals :=
  (r.step (.message m.message)).map Prod.fst

theorem take_of_step {r r' : RemoteSignals} {m : Sent} {events : List RemoteEvent}
    (h : r.step (.message m.message) = some (r', events)) : take r m = some r' := by
  rw [take, h]
  rfl

/-- The id under a number of which the peer is told: the signal is connected
and has an id. -/
def known (c : LocalSignals) (n : UInt32) : Option String :=
  ((OrderedMap.find? c.signals n).filter fun e =>
    e.onDataPublished && decide (e.signal.id ≠ "")).map fun e => e.signal.id

/-- A remote signal that is connected on the other side. -/
structure Shown (e : RegisteredLocalSignal) (s : RemoteSignal) : Prop where
  isSubscribed : s.isSubscribed = true
  table : s.table.isSome = e.table.isSome
  isExplicit : s.isExplicit = e.isExplicit
  sampleSize : s.sampleSize = e.signal.metadata.sampleSize
  dataType : s.metadata.dataType = e.signal.metadata.dataType

/-- What a description makes of a remote signal. -/
structure Described (s : RemoteSignal) (m : Metadata) (s' : RemoteSignal) : Prop where
  id : s'.id = s.id
  isSubscribed : s'.isSubscribed = s.isSubscribed
  metadata : s'.metadata = m
  table : s'.table.map TablePtr.table =
    if m.rule = linearRule then some (((s.table.map TablePtr.table).getD {}).update m) else none
  address : ∀ t t', s.table = some t → s'.table = some t' → t'.address = t.address
  isExplicit : s'.isExplicit = decide (m.rule = explicitRule)
  sampleSize : s'.sampleSize = m.sampleSize
  valueIndex : s'.valueIndex = m.valueIndex.getD s.valueIndex
  tcpDelta : s'.tcpDelta = s.tcpDelta

/-- Both sides, when everything that was sent is taken. -/
structure Joined (c : LocalSignals) (r : RemoteSignals) : Prop where
  registered : c.Registered
  reliable : r.Reliable
  numbered : ∀ n, r.numbered n = known c n
  clean : ∀ j s, r.seen j = some s → s.tcpDelta = 0
  shown : ∀ k e, OrderedMap.find? c.signals k = some e → e.onDataPublished = true →
    e.signal.id ≠ "" → ∃ s, r.seen e.signal.id = some s ∧ Shown e s

section Described

theorem described_describe (s : RemoteSignal) (m : Metadata) (fresh : Nat)
    (domain table : Option Nat) :
    Described s m ((s.describe m fresh).bindDomain domain table) := by
  refine ⟨rfl, rfl, rfl, ?_, ?_, rfl, rfl, rfl, rfl⟩
  · unfold RemoteSignal.describe RemoteSignal.bindDomain
    dsimp only
    by_cases hrule : m.rule = linearRule
    · rw [if_pos hrule, if_pos hrule]
      cases s.table <;> rfl
    · rw [if_neg hrule, if_neg hrule]
      rfl
  · intro t t' ht ht'
    unfold RemoteSignal.describe RemoteSignal.bindDomain at ht'
    dsimp only at ht'
    rw [ht] at ht'
    split at ht'
    · rw [← Option.some.inj ht']
    · cases ht'

theorem handleSubscribe_fst (s : RemoteSignal) :
    s.handleSubscribe.1 = { s with isSubscribed := true } := by
  unfold RemoteSignal.handleSubscribe
  split
  · rename_i hsub
    rw [← hsub]
  · rfl

theorem handleUnsubscribe_fst (s : RemoteSignal) :
    s.handleUnsubscribe.1 = { s with isSubscribed := false } := by
  unfold RemoteSignal.handleUnsubscribe
  split
  · rfl
  · rename_i hsub
    rw [← Bool.eq_false_iff.mpr hsub]

end Described

/-- The two sides before anything happens. -/
theorem joined_registered {signals : List LocalSignal}
    (hregistered : (LocalSignals.registered signals).Registered)
    (huntouched : ∀ k e, OrderedMap.find? (LocalSignals.registered signals).signals k = some e →
      e.onDataPublished = false) : Joined (LocalSignals.registered signals) {} := by
  refine ⟨hregistered, RemoteSignals.reliable_empty, ?_, ?_, ?_⟩
  · intro n
    change none = _
    unfold known
    cases hn : OrderedMap.find? (LocalSignals.registered signals).signals n with
    | none => rfl
    | some e =>
        rw [Option.filter_some_neg (by rw [huntouched n e hn, Bool.false_and])]
        rfl
  · exact fun _ _ hs => nomatch hs
  · intro k e hk hslot
    rw [huntouched k e hk] at hslot
    cases hslot

/-! ## Known numbers -/

section Known

variable {c : LocalSignals} {k : UInt32} {e : RegisteredLocalSignal}

theorem known_of_find (hk : OrderedMap.find? c.signals k = some e) :
    known c k = if e.onDataPublished = true ∧ e.signal.id ≠ "" then some e.signal.id else none := by
  unfold known
  rw [hk]
  by_cases h : e.onDataPublished = true ∧ e.signal.id ≠ ""
  · rw [if_pos h, Option.filter_some_pos (by simpa using h)]
    rfl
  · rw [if_neg h, Option.filter_some_neg (by simpa using h)]
    rfl

theorem known_of_connected (hk : OrderedMap.find? c.signals k = some e)
    (hslot : e.onDataPublished = true) (hid : e.signal.id ≠ "") : known c k = some e.signal.id := by
  rw [known_of_find hk, if_pos ⟨hslot, hid⟩]

theorem known_of_unknown (hk : OrderedMap.find? c.signals k = some e)
    (h : ¬ (e.onDataPublished = true ∧ e.signal.id ≠ "")) : known c k = none := by
  rw [known_of_find hk, if_neg h]

theorem known_put {n : Nat} {new : RegisteredLocalSignal}
    (hk : OrderedMap.find? c.signals k = some e) (j : UInt32) :
    known ((c.withNextTable n).update k fun _ => new) j =
      if k = j then
        if new.onDataPublished = true ∧ new.signal.id ≠ "" then some new.signal.id else none
      else known c j := by
  by_cases hj : k = j
  · rw [if_pos hj]
    apply known_of_find
    rw [LocalSignals.find?_put hk, if_pos hj]
  · rw [if_neg hj]
    unfold known
    rw [LocalSignals.find?_put hk, if_neg hj]

theorem known_modifyTable (c : LocalSignals) (a : Nat) (f : LinearTable → LinearTable)
    (j : UInt32) : known (c.modifyTable a f) j = known c j := by
  have hfind := LocalSignals.find?_modifyTable c a f j
  cases hj : OrderedMap.find? c.signals j with
  | none =>
      rw [hj] at hfind
      unfold known
      rw [hfind, hj]
      rfl
  | some e =>
      rw [hj, Option.map_some] at hfind
      rw [known_of_find hfind, known_of_find hj]
      rfl

end Known

/-! ## Changes of one side -/

section Sides

variable {c : LocalSignals} {r r' : RemoteSignals} {k : UInt32} {e : RegisteredLocalSignal}

theorem Shown.of_eq {new : RegisteredLocalSignal} {s : RemoteSignal} (h : Shown e s)
    (htable : new.table.isSome = e.table.isSome) (hexplicit : new.isExplicit = e.isExplicit)
    (hmetadata : new.signal.metadata = e.signal.metadata) : Shown new s := by
  constructor
  · exact h.isSubscribed
  · rw [htable]
    exact h.table
  · rw [hexplicit]
    exact h.isExplicit
  · rw [hmetadata]
    exact h.sampleSize
  · rw [hmetadata]
    exact h.dataType

/-- Another entry, and what the peer sees of the signal. -/
theorem Joined.put (h : Joined c r) (hk : OrderedMap.find? c.signals k = some e) {n : Nat}
    {new : RegisteredLocalSignal}
    (hregistered : ((c.withNextTable n).update k fun _ => new).Registered)
    (hid : new.signal.id = e.signal.id) (hreliable : r'.Reliable)
    (hother : ∀ j, e.signal.id ≠ j → r'.seen j = r.seen j)
    (hnumbered : ∀ j, r'.numbered j =
      if k = j then
        if new.onDataPublished = true ∧ new.signal.id ≠ "" then some new.signal.id else none
      else r.numbered j)
    (hclean : ∀ s, r'.seen e.signal.id = some s → s.tcpDelta = 0)
    (hshown : new.onDataPublished = true → e.signal.id ≠ "" →
      ∃ s, r'.seen e.signal.id = some s ∧ Shown new s) :
    Joined ((c.withNextTable n).update k fun _ => new) r' := by
  refine ⟨hregistered, hreliable, ?_, ?_, ?_⟩
  · intro j
    rw [hnumbered, known_put hk, h.numbered]
  · intro j s hs
    by_cases hj : e.signal.id = j
    · rw [← hj] at hs
      exact hclean s hs
    · rw [hother j hj] at hs
      exact h.clean j s hs
  · intro j d hj hslot hne
    rw [LocalSignals.find?_put hk] at hj
    by_cases hkj : k = j
    · rw [if_pos hkj] at hj
      rw [← Option.some.inj hj] at hslot hne ⊢
      rw [hid] at hne ⊢
      exact hshown hslot hne
    · rw [if_neg hkj] at hj
      have hdifferent : e.signal.id ≠ d.signal.id := by
        intro heq
        exact hkj (h.registered.ids k e j d hk hj heq)
      rw [hother _ hdifferent]
      exact h.shown j d hj hslot hne

/-- Another entry of which the peer is not told. -/
theorem Joined.silent (h : Joined c r) (hk : OrderedMap.find? c.signals k = some e)
    {new : RegisteredLocalSignal} (hregistered : (c.update k fun _ => new).Registered)
    (hsignal : new.signal = e.signal) (hslot : new.onDataPublished = e.onDataPublished)
    (htable : new.table.isSome = e.table.isSome) (hexplicit : new.isExplicit = e.isExplicit) :
    Joined (c.update k fun _ => new) r := by
  apply h.put (n := c.nextTable) hk hregistered (congrArg LocalSignal.id hsignal) h.reliable
  · exact fun _ _ => rfl
  · intro j
    by_cases hj : k = j
    · rw [if_pos hj, ← hj, h.numbered, known_of_find hk, hslot, hsignal]
    · rw [if_neg hj]
  · exact h.clean e.signal.id
  · intro hnew hid
    rw [hslot] at hnew
    obtain ⟨s, hs, hshown⟩ := h.shown k e hk hnew hid
    exact ⟨s, hs, hshown.of_eq htable hexplicit (congrArg LocalSignal.metadata hsignal)⟩

/-- Another value of a table of the publishing side. -/
theorem Joined.modifyLocal (h : Joined c r) (a : Nat) (f : LinearTable → LinearTable) :
    Joined (c.modifyTable a f) r := by
  refine ⟨h.registered.modifyTable a f, h.reliable, ?_, h.clean, ?_⟩
  · intro j
    rw [known_modifyTable, h.numbered]
  · intro j d hj hslot hid
    rw [LocalSignals.find?_modifyTable] at hj
    obtain ⟨d', hd', rfl⟩ := Option.map_eq_some_iff.mp hj
    obtain ⟨s, hs, hshown⟩ := h.shown j d' hd' hslot hid
    exact ⟨s, hs, hshown.of_eq Option.isSome_map rfl rfl⟩

/-- A remote signal that is as it was but for the value of its table, its
counter and its bindings. -/
structure Alike (s s' : RemoteSignal) : Prop where
  isSubscribed : s'.isSubscribed = s.isSubscribed
  table : s'.table.isSome = s.table.isSome
  isExplicit : s'.isExplicit = s.isExplicit
  sampleSize : s'.sampleSize = s.sampleSize
  metadata : s'.metadata = s.metadata
  tcpDelta : s'.tcpDelta = s.tcpDelta

theorem Alike.refl (s : RemoteSignal) : Alike s s := ⟨rfl, rfl, rfl, rfl, rfl, rfl⟩

theorem Shown.alike {s s' : RemoteSignal} (h : Shown e s) (halike : Alike s s') : Shown e s' := by
  constructor
  · rw [halike.isSubscribed]
    exact h.isSubscribed
  · rw [halike.table]
    exact h.table
  · rw [halike.isExplicit]
    exact h.isExplicit
  · rw [halike.sampleSize]
    exact h.sampleSize
  · rw [halike.metadata]
    exact h.dataType

/-- What the peer has is as it was, so to speak. -/
theorem Joined.alike (h : Joined c r) (hreliable : r'.Reliable)
    (hnumbered : ∀ n, r'.numbered n = r.numbered n)
    (hseen : ∀ j s', r'.seen j = some s' → (∃ s, r.seen j = some s ∧ Alike s s') ∨
      s'.tcpDelta = 0 ∧ r.seen j = none)
    (hsame : ∀ j s, r.seen j = some s → ∃ s', r'.seen j = some s') : Joined c r' := by
  refine ⟨h.registered, hreliable, ?_, ?_, ?_⟩
  · intro n
    rw [hnumbered, h.numbered]
  · intro j s' hs'
    rcases hseen j s' hs' with ⟨s, hs, halike⟩ | ⟨hclean, -⟩
    · rw [halike.tcpDelta]
      exact h.clean j s hs
    · exact hclean
  · intro k e hk hslot hid
    obtain ⟨s, hs, hshown⟩ := h.shown k e hk hslot hid
    obtain ⟨s', hs'⟩ := hsame _ s hs
    rcases hseen _ s' hs' with ⟨s₀, hs₀, halike⟩ | ⟨-, hnone⟩
    · rw [hs] at hs₀
      rw [← Option.some.inj hs₀] at halike
      exact ⟨s', hs', hshown.alike halike⟩
    · rw [hs] at hnone
      cases hnone

theorem alike_modifyTable (s : RemoteSignal) (a : Nat) (f : LinearTable → LinearTable) :
    Alike s (s.modifyTable a f) :=
  ⟨rfl, Option.isSome_map, rfl, rfl, rfl, rfl⟩

/-- Another value of a table of the receiving side. -/
theorem Joined.modifyRemote (h : Joined c r) (a : Nat) (f : LinearTable → LinearTable) :
    Joined c (r.modifyTable a f) := by
  apply h.alike (h.reliable.modifyTable a f)
  · exact fun n => RemoteSignals.numbered_modifyTable a f n
  · intro j s' hs'
    rw [RemoteSignals.seen_modifyTable] at hs'
    obtain ⟨s, hs, rfl⟩ := Option.map_eq_some_iff.mp hs'
    exact .inl ⟨s, hs, alike_modifyTable s a f⟩
  · intro j s hs
    rw [RemoteSignals.seen_modifyTable, hs]
    exact ⟨_, rfl⟩

end Sides

/-! ## Deeds -/

section Deeds

variable {c : LocalSignals} {r : RemoteSignals} {k : UInt32} {e : RegisteredLocalSignal}

/-- **Ids are announced.** -/
theorem Joined.announce (h : Joined c r) (ids : List String) :
    ∃ r' events, r.step (.message (Connection.idsMessage "available" ids)) = some (r', events) ∧
      Extends r r' ∧ Joined c r' := by
  obtain ⟨r', events, hstep, hextends⟩ := RemoteSignals.take_available h.reliable
    (.object [("signalIds", .array (ids.map .string))])
  refine ⟨r', events, hstep, hextends, ?_⟩
  apply h.alike hextends.reliable hextends.numbered
  · intro j s' hs'
    rcases hextends.seen j with hsame | ⟨hnone, hnew⟩
    · rw [hsame] at hs'
      exact .inl ⟨s', hs', .refl s'⟩
    · rw [hnew] at hs'
      refine .inr ⟨?_, hnone⟩
      rw [← Option.some.inj hs']
  · intro j s hs
    rcases hextends.seen j with hsame | ⟨hnone, -⟩
    · rw [hsame]
      exact ⟨s, hs⟩
    · rw [hs] at hnone
      cases hnone

/-- **Bookkeeping** sends nothing. -/
theorem Joined.book (h : Joined c r) (hk : OrderedMap.find? c.signals k = some e)
    (isExplicit : Bool) (count : UInt32) :
    Joined (c.doDeed (.book k e isExplicit count)) r :=
  h.silent hk (h.registered.doDeed (.book k e isExplicit count) hk rfl) rfl rfl rfl rfl

/-- A remote signal under a number, once its subscription has begun. -/
def admitted (r : RemoteSignals) (id : String) (signo : UInt32) : RemoteSignal :=
  (((r.seen id).getD { id := id }).setSigno signo).handleSubscribe.1

theorem admitted_eq (r : RemoteSignals) (id : String) (signo : UInt32) :
    admitted r id signo =
      { (r.seen id).getD { id := id } with signo := signo, isSubscribed := true } := by
  unfold admitted
  rw [handleSubscribe_fst]
  rfl

theorem tcpDelta_admitted (h : Joined c r) (id : String) (signo : UInt32) :
    (admitted r id signo).tcpDelta = 0 := by
  rw [admitted_eq]
  change ((r.seen id).getD { id := id }).tcpDelta = 0
  cases hs : r.seen id with
  | none => rfl
  | some s => exact h.clean id s hs

theorem table_admitted (r : RemoteSignals) (id : String) (signo : UInt32) :
    (admitted r id signo).table = r.tableOf id := by
  rw [admitted_eq]
  unfold RemoteSignals.tableOf
  cases r.seen id <;> rfl

/-- A signal that has been described is shown. -/
theorem Described.shown {s s' : RemoteSignal} {m : Metadata} (h : Described s m s')
    (hsub : s.isSubscribed = true) (htable : e.table.isSome = e.signal.metadata.isLinear)
    (hexplicit : e.isExplicit = decide (e.signal.metadata.rule = explicitRule))
    (hrule : m.rule = e.signal.metadata.rule) (hsize : m.sampleSize = e.signal.metadata.sampleSize)
    (htype : m.dataType = e.signal.metadata.dataType) : Shown e s' := by
  constructor
  · rw [h.isSubscribed, hsub]
  · have hsome := congrArg Option.isSome h.table
    rw [Option.isSome_map] at hsome
    rw [hsome, htable]
    unfold Metadata.isLinear
    rw [hrule]
    by_cases hlinear : e.signal.metadata.rule = linearRule
    · rw [if_pos hlinear, decide_eq_true hlinear]
      rfl
    · rw [if_neg hlinear, decide_eq_false hlinear]
      rfl
  · rw [h.isExplicit, hrule, hexplicit]
  · rw [h.sampleSize, hsize]
  · rw [h.metadata, htype]

/-- **A subscription begins**, of a signal with an id. -/
theorem Joined.opens (h : Joined c r) (hk : OrderedMap.find? c.signals k = some e)
    (isExplicit : Bool) (hid : e.signal.id ≠ "") :
    ∃ r₁ r' s' events₁ events, r.step (.message e.subscribeMessage) = some (r₁, events₁) ∧
      r₁.step (.message e.signalMessage) = some (r', events) ∧
      r₁.numbered k = some e.signal.id ∧ Changes r r' e.signal.id s' ∧ r'.Bound s' ∧
      Described (admitted r e.signal.id k)
        (.ofJson (e.signal.metadata.withValueIndex e.valueIndex)) s' ∧
      Joined (c.doDeed (.opens k e isExplicit)) r' := by
  obtain ⟨hsigno, hzero⟩ := h.registered.signo k e hk
  obtain ⟨r₁, events₁, hstep₁, hchanges₁, hnumbered₁⟩ :=
    RemoteSignals.take_subscribe h.reliable hid e.signo
  have hknown : r₁.numbered e.signo = some e.signal.id := by
    rw [hnumbered₁, if_pos rfl]
  obtain ⟨r', s', events, hstep, hchanges, hnumbered, hbound, hs'⟩ :=
    RemoteSignals.take_signal hchanges₁.reliable (by rw [hsigno]; exact hzero) hknown hchanges₁.self
      (e.signal.metadata.withValueIndex e.valueIndex)
  have hboth := hchanges₁.trans hchanges
  have hdescribed : Described (admitted r e.signal.id k)
      (.ofJson (e.signal.metadata.withValueIndex e.valueIndex)) s' := by
    rw [hs', ← hsigno]
    exact described_describe _ _ _ _ _
  have hopened : (c.opened e isExplicit).signal = e.signal ∧
      (c.opened e isExplicit).isExplicit = decide (e.signal.metadata.rule = explicitRule) ∧
        (c.opened e isExplicit).table = e.refreshedTable c.nextTable := by
    cases isExplicit <;> exact ⟨rfl, rfl, rfl⟩
  obtain ⟨hsignal, hexplicit, htable⟩ := hopened
  refine ⟨r₁, r', s', events₁, events, hstep₁, hstep, ?_, hboth, hbound, hdescribed, ?_⟩
  · rw [← hsigno]
    exact hknown
  · apply h.put hk (h.registered.doDeed (.opens k e isExplicit) hk rfl)
      (congrArg LocalSignal.id hsignal) hboth.reliable
    · exact fun j hj => hboth.other hj
    · intro j
      rw [hnumbered, hnumbered₁, hsigno]
      by_cases hj : k = j
      · rw [if_pos hj, if_pos hj, hsignal, if_pos ⟨rfl, hid⟩]
      · rw [if_neg hj, if_neg hj]
    · intro s hs
      rw [hboth.self] at hs
      rw [← Option.some.inj hs, hdescribed.tcpDelta]
      exact tcpDelta_admitted h _ _
    · intro _ _
      refine ⟨s', hboth.self, hdescribed.shown ?_ ?_ ?_ ?_ ?_ ?_⟩
      · rw [admitted_eq]
      · rw [htable, LocalSignals.isSome_refreshedTable, hsignal]
      · rw [hexplicit, hsignal]
      · rw [Metadata.rule_withValueIndex, hsignal]
      · rw [Metadata.sampleSize_withValueIndex, hsignal]
      · rw [Metadata.dataType_withValueIndex, hsignal]

/-- A message under a number that nobody knows. -/
theorem step_unknown {signo : UInt32} (h : r.Reliable) (hn : r.numbered signo = none)
    (hsigno : signo ≠ 0) (params : Json) :
    r.step (.message (.ofMetadata signo "signal" params)) = some (r, []) := by
  rw [RemoteSignals.step_metadata h hsigno "signal" (by decide) (by decide),
    RemoteSignals.find?_of_numbered_none h hn]

/-- A subscription of a signal without an id begins on one side only. -/
theorem Joined.opens_unnamed (h : Joined c r) (hk : OrderedMap.find? c.signals k = some e)
    (isExplicit : Bool) (hid : e.signal.id = "") :
    r.step (.message e.subscribeMessage) = some (r, []) ∧
      r.step (.message e.signalMessage) = some (r, []) ∧
      Joined (c.doDeed (.opens k e isExplicit)) r := by
  obtain ⟨hsigno, hzero⟩ := h.registered.signo k e hk
  have hunknown : r.numbered k = none := by
    rw [h.numbered]
    exact known_of_unknown hk fun hnamed => hnamed.2 hid
  have hsignal : (c.opened e isExplicit).signal = e.signal := by
    cases isExplicit <;> rfl
  refine ⟨?_, ?_, ?_⟩
  · unfold RegisteredLocalSignal.subscribeMessage
    rw [hid]
    exact RemoteSignals.take_subscribe_empty r e.signo
  · apply step_unknown h.reliable
    · rw [hsigno, hunknown]
    · rw [hsigno]
      exact hzero
  · apply h.put hk (h.registered.doDeed (.opens k e isExplicit) hk rfl)
      (congrArg LocalSignal.id hsignal) h.reliable
    · exact fun _ _ => rfl
    · intro j
      by_cases hj : k = j
      · rw [if_pos hj, ← hj, hunknown, hsignal, if_neg fun hnamed => hnamed.2 hid]
      · rw [if_neg hj]
    · exact h.clean e.signal.id
    · exact fun _ hne => absurd hid hne

/-- **A subscription ends.** -/
theorem Joined.closes (h : Joined c r) (hk : OrderedMap.find? c.signals k = some e)
    (isExplicit : Bool) (count : UInt32) :
    ∃ r' events, r.step (.message e.unsubscribeMessage) = some (r', events) ∧
      (∀ j, r'.seen j = r.seen j ∨ j = e.signal.id ∧
        ∃ s, r.seen j = some s ∧ r'.seen j = some { s with isSubscribed := false }) ∧
      Joined (c.doDeed (.closes k e isExplicit count)) r' := by
  obtain ⟨hsigno, -⟩ := h.registered.signo k e hk
  have hregistered := h.registered.doDeed (.closes k e isExplicit count) hk rfl
  by_cases hnamed : e.onDataPublished = true ∧ e.signal.id ≠ ""
  · obtain ⟨s, hs, -⟩ := h.shown k e hk hnamed.1 hnamed.2
    have hknown : r.numbered e.signo = some e.signal.id := by
      rw [hsigno, h.numbered, known_of_connected hk hnamed.1 hnamed.2]
    obtain ⟨r', events, hstep, hchanges, hnumbered⟩ :=
      RemoteSignals.take_unsubscribe h.reliable hknown hs
        (.object [("signalId", .string e.signal.id)])
    rw [handleUnsubscribe_fst] at hchanges
    refine ⟨r', events, hstep, ?_, ?_⟩
    · intro j
      by_cases hj : e.signal.id = j
      · rw [← hj]
        exact .inr ⟨rfl, s, hs, hchanges.self⟩
      · exact .inl (hchanges.other hj)
    · apply h.put (n := c.nextTable) hk hregistered rfl hchanges.reliable
      · exact fun j hj => hchanges.other hj
      · intro j
        rw [hnumbered, hsigno]
        rfl
      · intro s' hs'
        rw [hchanges.self] at hs'
        rw [← Option.some.inj hs']
        exact h.clean _ s hs
      · exact fun hslot _ => nomatch hslot
  · have hunknown : r.numbered e.signo = none := by
      rw [hsigno, h.numbered, known_of_unknown hk hnamed]
    obtain ⟨r', events, hstep, hreliable, hseen, hnumbered⟩ :=
      RemoteSignals.take_unsubscribe_unknown h.reliable hunknown
        (.object [("signalId", .string e.signal.id)])
    refine ⟨r', events, hstep, fun j => .inl (hseen j), ?_⟩
    apply h.put (n := c.nextTable) hk hregistered rfl hreliable
    · exact fun j _ => hseen j
    · intro j
      rw [hnumbered]
      by_cases hj : k = j
      · rw [if_pos hj, ← hj, ← hsigno, hunknown]
        rfl
      · rw [if_neg hj]
    · intro s hs
      rw [hseen] at hs
      exact h.clean _ s hs
    · exact fun hslot _ => nomatch hslot

/-- **Metadata changes**, of a connected signal with an id. -/
theorem Joined.changes (h : Joined c r) {m : Metadata} (hfits : c.FitsDeed (.changes k e m))
    (hid : e.signal.id ≠ "") :
    ∃ r' s s' events,
      r.step (.message (.ofMetadata e.signo "signal" m.json)) = some (r', events) ∧
      r.numbered k = some e.signal.id ∧ r.seen e.signal.id = some s ∧ Shown e s ∧
      Changes r r' e.signal.id s' ∧ Described s m s' ∧
      Joined (c.doDeed (.changes k e m)) r' := by
  obtain ⟨hk, hslot⟩ := hfits
  obtain ⟨hsigno, hzero⟩ := h.registered.signo k e hk
  have hconnected : e.onDataPublished = true := (h.registered.slots k e hk).symm.trans hslot
  obtain ⟨s, hs, hshown⟩ := h.shown k e hk hconnected hid
  have hknown : r.numbered k = some e.signal.id := by
    rw [h.numbered, known_of_connected hk hconnected hid]
  have hnonzero : e.signo ≠ 0 := by
    rw [hsigno]
    exact hzero
  have hnumber : r.numbered e.signo = some e.signal.id := by
    rw [hsigno, hknown]
  obtain ⟨r', s', events, hstep, hchanges, hnumbered, -, hs'⟩ :=
    RemoteSignals.take_signal h.reliable hnonzero hnumber hs m.json
  rw [Metadata.ofJson_json] at hs'
  have hdescribed : Described s m s' := by
    rw [hs']
    exact described_describe _ _ _ _ _
  refine ⟨r', s, s', events, hstep, hknown, hs, hshown, hchanges, hdescribed, ?_⟩
  apply h.put hk (h.registered.doDeed (.changes k e m) ⟨hk, hslot⟩ rfl) rfl
    hchanges.reliable
  · exact fun j hj => hchanges.other hj
  · intro j
    rw [hnumbered]
    by_cases hj : k = j
    · rw [if_pos hj, ← hj, hknown]
      exact (if_pos ⟨hconnected, hid⟩).symm
    · rw [if_neg hj]
  · intro s'' hs''
    rw [hchanges.self] at hs''
    rw [← Option.some.inj hs'', hdescribed.tcpDelta]
    exact h.clean _ s hs
  · intro _ _
    refine ⟨s', hchanges.self, hdescribed.shown hshown.isSubscribed ?_ rfl rfl rfl rfl⟩
    exact LocalSignals.isSome_refreshedTable (e := e.described m) c.nextTable

/-- Metadata of a signal without an id change on one side only. -/
theorem Joined.changes_unnamed (h : Joined c r) {m : Metadata}
    (hfits : c.FitsDeed (.changes k e m)) (hid : e.signal.id = "") :
    r.step (.message (.ofMetadata e.signo "signal" m.json)) = some (r, []) ∧
      Joined (c.doDeed (.changes k e m)) r := by
  obtain ⟨hk, hslot⟩ := hfits
  obtain ⟨hsigno, hzero⟩ := h.registered.signo k e hk
  have hunknown : r.numbered k = none := by
    rw [h.numbered]
    exact known_of_unknown hk fun hnamed => hnamed.2 hid
  refine ⟨?_, ?_⟩
  · apply step_unknown h.reliable
    · rw [hsigno, hunknown]
    · rw [hsigno]
      exact hzero
  · apply h.put hk (h.registered.doDeed (.changes k e m) ⟨hk, hslot⟩ rfl) rfl h.reliable
    · exact fun _ _ => rfl
    · intro j
      by_cases hj : k = j
      · rw [if_pos hj, ← hj, hunknown]
        exact (if_neg fun hnamed => hnamed.2 hid).symm
      · rw [if_neg hj]
    · exact h.clean e.signal.id
    · exact fun _ hne => absurd hid hne

/-- The owner of a table that is there. -/
theorem owner_of_lock (h : c.Registered) {a : Nat} (hlock : (c.lock a).isSome = true) :
    ∃ j f t, OrderedMap.find? c.signals j = some f ∧ f.table = some t ∧ t.address = a ∧
      c.lock a = some t.table := by
  obtain ⟨table, htable⟩ := Option.isSome_iff_exists.mp hlock
  obtain ⟨f, hf, hsome⟩ := List.exists_of_findSome?_eq_some htable
  obtain ⟨t, ht, rfl⟩ := Option.map_eq_some_iff.mp hsome
  obtain ⟨ht, haddress⟩ := Option.filter_eq_some_iff.mp ht
  have hfind := (OrderedMap.find?_eq_some_iff h.distinct).mpr (show (f.1, f.2) ∈ c.signals from hf)
  exact ⟨f.1, f.2, t, hfind, ht, of_decide_eq_true haddress, htable⟩

/-- **A table is set**: the peer's table of the same signal follows if the
signal is connected. -/
theorem Joined.sets (h : Joined c r) {a : Nat} {p : LinearPayload}
    (hfits : c.FitsDeed (.sets e a p)) :
    ∃ f t r' events, OrderedMap.find? c.signals e.domainSigno = some f ∧ f.table = some t ∧
      t.address = a ∧
      r.step (.message (.data e.domainSigno p.bytes)) = some (r', events) ∧
      Joined (c.doDeed (.sets e a p)) r' ∧
      (f.onDataPublished = true ∧ f.signal.id ≠ "" → ∃ s t', r.seen f.signal.id = some s ∧
        s.table = some t' ∧ Changes r r' f.signal.id
          { s with table := some { t' with table := t'.table.updatePayload p } }) ∧
      (¬ (f.onDataPublished = true ∧ f.signal.id ≠ "") → r' = r) := by
  obtain ⟨⟨k, hk⟩, htable, hlock⟩ := hfits
  obtain ⟨j, f, t, hj, ht, haddress, -⟩ := owner_of_lock h.registered hlock
  obtain rfl := (h.registered.aims k e a hk htable).2 j f t hj ht haddress
  have hlocal := h.modifyLocal a fun t => t.updatePayload p
  by_cases hnamed : f.onDataPublished = true ∧ f.signal.id ≠ ""
  · obtain ⟨s, hs, hshown⟩ := h.shown _ f hj hnamed.1 hnamed.2
    have hknown : r.numbered e.domainSigno = some f.signal.id := by
      rw [h.numbered, known_of_connected hj hnamed.1 hnamed.2]
    have hsome : s.table.isSome = true := by
      rw [hshown.table, ht]
      rfl
    obtain ⟨t', ht'⟩ := Option.isSome_iff_exists.mp hsome
    obtain ⟨r', events, hstep, hchanges, hnumbered⟩ := RemoteSignals.take_payload h.reliable hknown
      hs hshown.isSubscribed (h.clean _ s hs) ht' p
    refine ⟨f, t, r', events, hj, ht, haddress, hstep, ?_, ?_, fun hnot => absurd hnamed hnot⟩
    · apply hlocal.alike hchanges.reliable hnumbered
      · intro i s' hs'
        rw [hchanges.seen] at hs'
        split at hs'
        · rename_i hi
          rw [← Option.some.inj hs', ← hi]
          exact .inl ⟨s, hs, rfl, by rw [ht']; rfl, rfl, rfl, rfl, rfl⟩
        · exact .inl ⟨s', hs', .refl s'⟩
      · intro i s' hs'
        rw [hchanges.seen]
        split
        · exact ⟨_, rfl⟩
        · exact ⟨s', hs'⟩
    · exact fun _ => ⟨s, t', hs, ht', hchanges⟩
  · have hunknown : r.numbered e.domainSigno = none := by
      rw [h.numbered, known_of_unknown hj hnamed]
    refine ⟨f, t, r, [], hj, ht, haddress, ?_, hlocal, fun h => absurd h hnamed, fun _ => rfl⟩
    exact RemoteSignals.take_data_unknown h.reliable hunknown p.bytes

/-- Another value index. -/
theorem Joined.indexed (h : Joined c r) (hk : OrderedMap.find? c.signals k = some e)
    (index : Int64) : Joined (c.update k fun _ => e.withValueIndex index) r := by
  have hregistered : (c.update k fun _ => e.withValueIndex index).Registered := by
    apply h.registered.put (n := c.nextTable) hk (Nat.le_refl _)
    · rfl
    · rfl
    · exact h.registered.slots k e hk
    · exact h.registered.inSync k e hk
    · exact fun t ht => .inl ⟨t, ht, rfl⟩
    · exact fun _ ha => .inl ⟨ha, rfl⟩
  exact h.silent hk hregistered rfl rfl rfl rfl

/-- Data of a signal without an id is dropped. -/
theorem Joined.emits_unnamed (h : Joined c r) (hk : OrderedMap.find? c.signals k = some e)
    (hid : e.signal.id = "") (data : Bytes) :
    r.step (.message (.data e.signo data)) = some (r, []) := by
  apply RemoteSignals.take_data_unknown h.reliable
  rw [(h.registered.signo k e hk).1, h.numbered]
  exact known_of_unknown hk fun hnamed => hnamed.2 hid

/-- The peer has a signal that publishes. -/
theorem Joined.seen_of_connected (h : Joined c r) (hk : OrderedMap.find? c.signals k = some e)
    (hslot : e.onDataPublished = true) (hid : e.signal.id ≠ "") :
    r.numbered e.signo = some e.signal.id ∧
      ∃ s, r.seen e.signal.id = some s ∧ Shown e s ∧ s.tcpDelta = 0 := by
  obtain ⟨s, hs, hshown⟩ := h.shown k e hk hslot hid
  refine ⟨?_, s, hs, hshown, h.clean _ s hs⟩
  rw [(h.registered.signo k e hk).1, h.numbered, known_of_connected hk hslot hid]

/-- **Data of an explicit-rule signal** that is taken. -/
theorem Joined.drives (h : Joined c r) {id : String} {s : RemoteSignal} {r₁ : RemoteSignals}
    {index : Int64} (hs : r.seen id = some s)
    (hchanges : Changes r r₁ id (RemoteSignals.counted s index))
    (hnumbered : ∀ n, r₁.numbered n = r.numbered n) (domain : Option (Nat × LinearTable)) :
    Joined c (r₁.driveTable domain index) := by
  have hfirst : Joined c r₁ := by
    apply h.alike hchanges.reliable hnumbered
    · intro i s' hs'
      rw [hchanges.seen] at hs'
      split at hs'
      · rename_i hi
        rw [← Option.some.inj hs', ← hi]
        exact .inl ⟨s, hs, rfl, rfl, rfl, rfl, rfl, rfl⟩
      · exact .inl ⟨s', hs', .refl s'⟩
    · intro i s' hs'
      rw [hchanges.seen]
      split
      · exact ⟨_, rfl⟩
      · exact ⟨s', hs'⟩
  cases domain with
  | none => exact hfirst
  | some found => exact hfirst.modifyRemote found.1 _

end Deeds

/-! ## Messages -/

theorem ofMetadata_ne_signal {method : String} (h : method ≠ "signal") (signo k : UInt32)
    (params params' : Json) :
    Message.ofMetadata signo method params ≠ .ofMetadata k "signal" params' := by
  intro heq
  injection heq with heq
  injection heq with _ hmethod
  exact h hmethod

theorem data_ne_signal (signo k : UInt32) (data : Bytes) (params : Json) :
    Message.data signo data ≠ .ofMetadata k "signal" params :=
  fun heq => nomatch heq

theorem signo_of_signal {signo k : UInt32} {params params' : Json}
    (h : Message.ofMetadata signo "signal" params = .ofMetadata k "signal" params') :
    signo = k := by
  injection h with h
  injection h

/-! ## Acts -/

/-- The number under which a deed describes a signal. -/
def describedSigno? : Deed → Option UInt32
  | .opens k _ _ => some k
  | .changes k _ _ => some k
  | _ => none

/-- A signal that a deed describes is still, when everything is done, as the
deed left it. -/
def Framed (sender c : LocalSignals) (deed : Deed) : Prop :=
  ∀ k ∈ describedSigno? deed,
    OrderedMap.find? sender.signals k = OrderedMap.find? (c.doDeed deed).signals k

section Acts

variable {Inv : LocalSignals → RemoteSignals → Prop} {law : RemoteSignals → Sent → Prop}
  {ok : LocalSignals → Deed → Prop} {i : Act} {sender : LocalSignals}

/-- **Deeds are enough.**  If the messages of each deed are taken lawfully, so
are those of deeds that follow one another. -/
theorem carries_deeds
    (hstep : ∀ c r deed, Inv c r → FitsDeed c deed → Framed sender c deed → ok c deed →
      ∃ r', Carries take law r (deed.messages.map fun m => ⟨m, i, sender⟩) r' ∧
        Inv (c.doDeed deed) r')
    (deeds : List Deed) :
    ∀ c r, Inv c r →
      Meets LocalSignals.doDeed (fun c d => FitsDeed c d ∧ Framed sender c d ∧ ok c d) c deeds →
      ∃ r', Carries take law r ((deeds.flatMap Deed.messages).map fun m => ⟨m, i, sender⟩) r' ∧
        Inv (deeds.foldl LocalSignals.doDeed c) r' := by
  induction deeds with
  | nil => exact fun c r h _ => ⟨r, rfl, h⟩
  | cons deed deeds ih =>
      intro c r h hmeets
      obtain ⟨⟨hfits, hframed, hok⟩, hrest⟩ := hmeets
      obtain ⟨r₁, hcarries, hinv⟩ := hstep c r deed h hfits hframed hok
      obtain ⟨r', hcarries', hinv'⟩ := ih _ r₁ hinv hrest
      refine ⟨r', ?_, hinv'⟩
      rw [List.flatMap_cons, List.map_append]
      exact hcarries.append hcarries'

/-- What the deeds leave is what the act leaves. -/
theorem send_of_act {c : LocalSignals} {deeds : List Deed}
    (hact : c.act i = (deeds.foldl LocalSignals.doDeed c, deeds.flatMap Deed.messages)) :
    send c i = (deeds.foldl LocalSignals.doDeed c,
      (deeds.flatMap Deed.messages).map fun m =>
        ⟨m, i, deeds.foldl LocalSignals.doDeed c⟩) := by
  unfold send
  rw [hact]

/-- A deed that is the only one is framed. -/
theorem framed_single (c : LocalSignals) (deed : Deed) : Framed (c.doDeed deed) c deed :=
  fun _ _ => rfl

/-- Deeds that end subscriptions describe nothing. -/
theorem framed_ending (c : LocalSignals) {deed : Deed} (h : deed.isEnding = true) :
    Framed sender c deed := by
  intro k hk
  cases deed with
  | announce ids => cases h
  | book k e isExplicit count => cases hk
  | opens k e isExplicit => cases h
  | closes k e isExplicit count => cases hk
  | describes k e m => cases h
  | changes k e m => cases h
  | sets e a p => cases h
  | emits k e sampleCount data => cases h

/-- Deeds that end subscriptions meet what each of them meets. -/
theorem meets_ending (hok : ∀ c d, Deed.isEnding d = true → ok c d) (deeds : List Deed) :
    ∀ c, (∀ d ∈ deeds, Deed.isEnding d = true) → Meets LocalSignals.doDeed FitsDeed c deeds →
      Meets LocalSignals.doDeed (fun c d => FitsDeed c d ∧ Framed sender c d ∧ ok c d) c
        deeds := by
  induction deeds with
  | nil => exact fun _ _ _ => trivial
  | cons deed deeds ih =>
      intro c hending hmeets
      have hdeed := hending deed List.mem_cons_self
      refine ⟨⟨hmeets.1, framed_ending c hdeed, hok c deed hdeed⟩, ?_⟩
      exact ih _ (fun d hd => hending d (List.mem_cons_of_mem _ hd)) hmeets.2

end Acts

end Publishing

end WsStreaming.Ports
