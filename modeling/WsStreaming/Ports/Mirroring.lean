import WsStreaming.Ports.Advertisement
import WsStreaming.Ports.Publishing

/-!
# What the peer sees of a connection

The remote signals of a connection mirror the local signals of its peer: which
ones are registered, which of them are subscribed and under which numbers, and
their metadata; and the application on one side is handed what the application
on the other side publishes.

Signals come and go, metadata change whether anybody is subscribed or not, and
the peer may request anything.  A relation between the two sides holds whenever
everything that was sent has arrived, and every operation sends what it takes
to restore it.

## Main results

* `relays_data`, `relays_deed` — data and deeds of the publishing side.
* `relays_act` — what each act of it sends restores the relation, and what is
  handed on by it.
-/

namespace WsStreaming.Ports

open WsStreaming.Verified
open WsStreaming.Verified.OrderedMap (OMap Distinct)
open WsStreaming.Verified.Run
open WsStreaming.Verified.Fifo (Carries)
open WsStreaming.Verified.Wire (Bytes)

namespace Mirroring

open LocalSignals (Act Deed FitsDeed doDeed Does Request)
open RemoteSignals (Changes Reliable)
open Publishing (Alike Described known known_of_find known_of_connected known_of_unknown known_put)
open Advertisement (Advertises hear Heard UniqueId SameId)

/-! ## What the application is handed -/

/-- The id of a signal, and bytes that were published on it. -/
structure Publication where
  id : String
  data : Bytes
deriving DecidableEq, Repr

/-- What an application is handed by an event. -/
def handed? (r : RemoteSignals) : RemoteEvent → Option Publication
  | .signal a (.dataReceived _ _ data) => (r.objects[a]?).map fun s => ⟨s.id, data⟩
  | _ => none

/-- What it is handed by events. -/
def handed (r : RemoteSignals) (events : List RemoteEvent) : List Publication :=
  events.filterMap (handed? r)

/-- The remote signals of a connection, and what its application was handed. -/
structure Listener where
  remotes : RemoteSignals := {}
  log : List Publication := []

/-- A message arrives. -/
def Listener.take (l : Listener) (m : Message) : Option Listener :=
  (l.remotes.step (.message m)).map fun r => ⟨r.1, l.log ++ handed r.1 r.2⟩

/-- A message that does not throw. -/
def Taken (_ : Listener) (m : Message) : Prop := Session.throws m = false

/-- What is handed on of the data of a signal: a signal that is neither linear
nor explicit has one sample in a packet. -/
def readAs (m : Metadata) (data : Bytes) : Bytes :=
  if m.rule = linearRule ∨ m.rule = explicitRule ∨ data.length < m.sampleSize then data
  else data.take m.sampleSize

/-- Whether an event hands data on. -/
def isData : RemoteEvent → Bool
  | .signal _ (.dataReceived _ _ _) => true
  | _ => false

section Dataless

variable {r : RemoteSignals}

theorem handed_of_dataless {events : List RemoteEvent} (h : ∀ e ∈ events, isData e = false) :
    handed r events = [] := by
  refine List.filterMap_eq_nil_iff.mpr fun e he => ?_
  have hdata := h e he
  cases e with
  | available id a => rfl
  | unavailable id a => rfl
  | signal a event =>
      cases event with
      | dataReceived value count data => cases hdata
      | subscribed => rfl
      | unsubscribed => rfl
      | metadataChanged => rfl
      | unavailable => rfl

theorem dataless_onObject {a : Nat} {f : RemoteSignal → RemoteSignal × List SignalEvent}
    (hf : ∀ s, ∀ e ∈ (f s).2, isData (.signal a e) = false) :
    ∀ e ∈ (r.onObject a f).2, isData e = false := by
  intro e he
  unfold RemoteSignals.onObject at he
  cases hs : r.objects[a]? with
  | none =>
      rw [hs] at he
      cases he
  | some s =>
      rw [hs] at he
      obtain ⟨event, hevent, rfl⟩ := List.mem_map.mp he
      exact hf s event hevent

theorem dataless_handleMetadata (a : Nat) (method : String) (params : Json) :
    ∀ e ∈ (r.handleMetadata a method params).2, isData e = false := by
  unfold RemoteSignals.handleMetadata
  split
  · apply dataless_onObject
    intro s
    unfold RemoteSignal.handleSubscribe
    split <;> simp [isData]
  split
  · apply dataless_onObject
    intro s
    unfold RemoteSignal.handleUnsubscribe
    split <;> simp [isData]
  split
  · simp [RemoteSignals.handleSignal, isData]
  split
  · apply dataless_onObject
    intro s
    dsimp only
    split <;> simp [isData]
  split
  · exact dataless_onObject fun s => by simp [isData]
  split
  · exact dataless_onObject fun s => by simp
  · simp

theorem dataless_announce (c : RemoteSignals) (id : String) :
    ∀ e ∈ (c.announce id).2, isData e = false := by
  rw [RemoteSignals.announce_eq]
  split <;> simp [isData]

theorem dataless_withdraw (c : RemoteSignals) (id : String) :
    ∀ e ∈ (c.withdraw id).2, isData e = false := by
  cases hfind : OrderedMap.find? c.byId id with
  | none =>
      rw [RemoteSignals.withdraw_of_none hfind]
      simp
  | some entry =>
      rw [RemoteSignals.withdraw_of_some hfind]
      intro e he
      rcases List.mem_append.mp he with he | he
      · refine dataless_onObject (fun s => ?_) e he
        unfold RemoteSignal.detach
        split <;> simp [isData]
      · split at he
        · cases he
        · rw [List.mem_singleton.mp he]
          rfl

/-- **A metadata message hands nothing on.** -/
theorem dataless_metadata {m : MetadataMessage} {q : RemoteSignals × List RemoteEvent}
    (hq : r.step (.message (.metadata m)) = some q) : ∀ e ∈ q.2, isData e = false := by
  have hdispatch {method : String} {q : RemoteSignals × List RemoteEvent}
      (hq : r.dispatchMetadata m.signo method m.params = some q) : ∀ e ∈ q.2, isData e = false := by
    obtain ⟨address, -, rfl⟩ := Option.map_eq_some_iff.mp hq
    cases address with
    | none => simp
    | some a => exact dataless_handleMetadata a method m.params
  have hloop {f : RemoteSignals → String → RemoteSignals × List RemoteEvent}
      (hf : ∀ c id, ∀ e ∈ (f c id).2, isData e = false) (ids : List String) :
      ∀ e ∈ (RemoteSignals.forEach f r ids).2, isData e = false := by
    intro e he
    obtain ⟨c', id, -, he⟩ := RemoteSignals.mem_forEach ids r he
    exact hf c' id e he
  change r.onPeerMetadataReceived m = some q at hq
  unfold RemoteSignals.onPeerMetadataReceived at hq
  split at hq
  · rw [← Option.some.inj hq]
    unfold RemoteSignals.handleSubscribe
    split
    · simp
    · exact dataless_handleMetadata _ _ _
  split at hq
  · obtain ⟨q', hq', rfl⟩ := Option.map_eq_some_iff.mp hq
    exact fun e he => hdispatch hq' e he
  split at hq
  · exact hdispatch hq
  split at hq
  · rw [← Option.some.inj hq]
    exact hloop dataless_announce _
  split at hq
  · rw [← Option.some.inj hq]
    exact hloop dataless_withdraw _
  · rw [← Option.some.inj hq]
    simp

end Dataless

/-! ## The relation -/

/-- A remote signal that is as it was, its number included. -/
structure Kept (s s' : RemoteSignal) : Prop where
  alike : Alike s s'
  signo : s'.signo = s.signo

theorem Kept.refl (s : RemoteSignal) : Kept s s := ⟨.refl s, rfl⟩

theorem Kept.trans {s s' s'' : RemoteSignal} (h : Kept s s') (h' : Kept s' s'') : Kept s s'' := by
  refine ⟨?_, h'.signo.trans h.signo⟩
  have hfirst := h.alike
  have hsecond := h'.alike
  exact ⟨hsecond.isSubscribed.trans hfirst.isSubscribed, hsecond.table.trans hfirst.table,
    hsecond.isExplicit.trans hfirst.isExplicit, hsecond.sampleSize.trans hfirst.sampleSize,
    hsecond.metadata.trans hfirst.metadata, hsecond.tcpDelta.trans hfirst.tcpDelta⟩

/-- A remote signal that is as it was described last; a description that begins
a subscription has a value index of its own. -/
structure Mirrored (e : RegisteredLocalSignal) (s : RemoteSignal) : Prop where
  isSubscribed : s.isSubscribed = true
  metadata : s.metadata = e.signal.metadata ∨
    ∃ i, s.metadata = .ofJson (e.signal.metadata.withValueIndex i)
  table : s.table.isSome = e.signal.metadata.isLinear
  isExplicit : s.isExplicit = decide (e.signal.metadata.rule = explicitRule)
  sampleSize : s.sampleSize = e.signal.metadata.sampleSize

/-- **The peer mirrors the signals.**  It is up to date with what is registered,
its numbers lead to the connected signals and to no others, and it has these as
they are described.  A signal remembers no number but its own. -/
structure Mirrors (helloSent : Bool) (c : LocalSignals) (r : RemoteSignals) : Prop where
  advertises : Advertises helloSent c r
  ownTables : r.OwnTables
  nonzero : ∀ k e, OrderedMap.find? c.signals k = some e → k ≠ 0
  slots : ∀ k e, OrderedMap.find? c.signals k = some e → e.onMetadataChanged = e.onDataPublished
  numbered : ∀ n, r.numbered n = known c n
  signed : ∀ id s, r.seen id = some s → s.signo ≠ 0 → c.names s.signo = some id
  clean : ∀ id s, r.seen id = some s → s.tcpDelta = 0
  shown : ∀ k e, OrderedMap.find? c.signals k = some e → e.onDataPublished = true →
    e.signal.id ≠ "" → ∃ s, r.seen e.signal.id = some s ∧ Mirrored e s
  quiet : ∀ id s, r.seen id = some s → s.isSubscribed = true → ∃ n, known c n = some id

/-- What is sent with a change of the signals restores the relation, and hands
these publications on. -/
def Relays (before after : Bool × LocalSignals) (messages : List Message)
    (publications : List Publication) : Prop :=
  ∀ l : Listener, Mirrors before.1 before.2 l.remotes →
    ∃ r, Carries Listener.take Taken l messages ⟨r, l.log ++ publications⟩ ∧
      Mirrors after.1 after.2 r

section Relays

variable {x y z : Bool × LocalSignals} {l l' : Listener} {messages more : List Message}
  {publications publications' : List Publication}

theorem Relays.refl (x : Bool × LocalSignals) : Relays x x [] [] := by
  intro l h
  refine ⟨l.remotes, ?_, h⟩
  rw [List.append_nil]
  rfl

theorem Relays.append (h : Relays x y messages publications)
    (h' : Relays y z more publications') :
    Relays x z (messages ++ more) (publications ++ publications') := by
  intro l hl
  obtain ⟨r, hcarries, hr⟩ := h l hl
  obtain ⟨r', hcarries', hr'⟩ := h' ⟨r, l.log ++ publications⟩ hr
  refine ⟨r', hcarries.append ?_, hr'⟩
  rw [← List.append_assoc]
  exact hcarries'

/-- What is handed on, is added to the log. -/
theorem log_carries (h : Carries Listener.take Taken l messages l') : l.log <+: l'.log := by
  induction messages generalizing l with
  | nil =>
      obtain rfl : l' = l := h
      exact List.prefix_refl _
  | cons m ms ih =>
      obtain ⟨-, l₁, hl₁, hrest⟩ := h
      obtain ⟨q, -, rfl⟩ := Option.map_eq_some_iff.mp hl₁
      exact (List.prefix_append _ _).trans (ih hrest)

/-- The remote signals take the messages on their own. -/
theorem remotes_carries (h : Carries Listener.take Taken l messages l') :
    messages.foldlM hear l.remotes = some l'.remotes := by
  induction messages generalizing l with
  | nil =>
      rw [show l' = l from h]
      rfl
  | cons m ms ih =>
      obtain ⟨-, l₁, hl₁, hrest⟩ := h
      obtain ⟨q, hq, rfl⟩ := Option.map_eq_some_iff.mp hl₁
      have hfirst : hear l.remotes m = some q.1 := congrArg (Option.map Prod.fst) hq
      rw [List.foldlM_cons, hfirst]
      exact ih hrest

/-- What is known of the same messages elsewhere. -/
theorem advertises_of_carries {helloSent : Bool} {c : LocalSignals}
    (h : Carries Listener.take Taken l messages l')
    (hconveys : ∃ r, Carries hear Heard l.remotes messages r ∧ Advertises helloSent c r) :
    Advertises helloSent c l'.remotes := by
  obtain ⟨r, hcarries, hr⟩ := hconveys
  have hsame := (remotes_carries h).symm.trans hcarries.foldlM
  rw [Option.some.inj hsame]
  exact hr

theorem taken_of_ne {method : String} (h : method ≠ "request") (l : Listener) (n : UInt32)
    (params : Json) : Taken l (.ofMetadata n method params) :=
  Advertisement.heard_of_ne h l.remotes n params

/-- A metadata message, with what it does to the remote signals. -/
theorem take_metadata {m : MetadataMessage} {r : RemoteSignals} {events : List RemoteEvent}
    (h : l.remotes.step (.message (.metadata m)) = some (r, events)) :
    l.take (.metadata m) = some ⟨r, l.log⟩ := by
  unfold Listener.take
  rw [h, Option.map_some, handed_of_dataless (dataless_metadata h), List.append_nil]

end Relays

section Mirrors

variable {helloSent : Bool} {c : LocalSignals} {r r' : RemoteSignals}

theorem Mirrors.reliable (h : Mirrors helloSent c r) : r.Reliable :=
  ⟨h.advertises.tracks.wellFormed, h.advertises.tracks.noDangling, h.ownTables⟩

/-- A number that leads to a signal is that of its entry. -/
theorem find_of_known {n : UInt32} {id : String} (h : known c n = some id) :
    ∃ e, OrderedMap.find? c.signals n = some e ∧ e.onDataPublished = true ∧
      e.signal.id = id ∧ id ≠ "" := by
  obtain ⟨e, he, rfl⟩ := Option.map_eq_some_iff.mp h
  obtain ⟨he, hconnected⟩ := Option.filter_eq_some_iff.mp he
  rw [Bool.and_eq_true, decide_eq_true_eq] at hconnected
  exact ⟨e, he, hconnected.1, rfl, hconnected.2⟩

theorem Mirrored.alike {e : RegisteredLocalSignal} {s s' : RemoteSignal} (h : Mirrored e s)
    (halike : Alike s s') : Mirrored e s' := by
  constructor
  · rw [halike.isSubscribed]
    exact h.isSubscribed
  · rw [halike.metadata]
    exact h.metadata
  · rw [halike.table]
    exact h.table
  · rw [halike.isExplicit]
    exact h.isExplicit
  · rw [halike.sampleSize]
    exact h.sampleSize

/-- What the peer has is as it was, so to speak; what is new was not seen. -/
theorem Mirrors.alike {helloSent' : Bool} (h : Mirrors helloSent c r)
    (hadvertises : Advertises helloSent' c r')
    (hreliable : r'.Reliable) (hnumbered : ∀ n, r'.numbered n = r.numbered n)
    (hseen : ∀ j s', r'.seen j = some s' → (∃ s, r.seen j = some s ∧ Kept s s') ∨
      s' = { id := j })
    (hsame : ∀ j s, r.seen j = some s → ∃ s', r'.seen j = some s' ∧ Kept s s') :
    Mirrors helloSent' c r' := by
  refine ⟨hadvertises, hreliable.ownTables, h.nonzero, h.slots, ?_, ?_, ?_, ?_, ?_⟩
  · intro n
    rw [hnumbered, h.numbered]
  · intro j s' hs' hne
    rcases hseen j s' hs' with ⟨s, hs, hkept⟩ | rfl
    · rw [hkept.signo] at hne ⊢
      exact h.signed j s hs hne
    · exact absurd rfl hne
  · intro j s' hs'
    rcases hseen j s' hs' with ⟨s, hs, hkept⟩ | rfl
    · rw [hkept.alike.tcpDelta]
      exact h.clean j s hs
    · rfl
  · intro k e hk hslot hid
    obtain ⟨s, hs, hmirrored⟩ := h.shown k e hk hslot hid
    obtain ⟨s', hs', hkept⟩ := hsame _ s hs
    exact ⟨s', hs', hmirrored.alike hkept.alike⟩
  · intro j s' hs' hsub
    rcases hseen j s' hs' with ⟨s, hs, hkept⟩ | rfl
    · rw [hkept.alike.isSubscribed] at hsub
      exact h.quiet j s hs hsub
    · cases hsub

end Mirrors

/-! ## Data -/

/-- The same signals under the same numbers, each of them as it was but for the
value of its table, its counter and its bindings. -/
structure Resembles (r r' : RemoteSignals) : Prop where
  reliable : r'.Reliable
  numbered : ∀ n, r'.numbered n = r.numbered n
  seen : ∀ j, r.seen j = none ∧ r'.seen j = none ∨
    ∃ s s', r.seen j = some s ∧ r'.seen j = some s' ∧ Kept s s'

section Data

variable {r r' r'' : RemoteSignals} {id : String} {s s' : RemoteSignal}

theorem Resembles.refl (h : r.Reliable) : Resembles r r := by
  refine ⟨h, fun _ => rfl, fun j => ?_⟩
  cases hj : r.seen j with
  | none => exact .inl ⟨rfl, rfl⟩
  | some s => exact .inr ⟨s, s, rfl, rfl, .refl s⟩

theorem Resembles.trans (h : Resembles r r') (h' : Resembles r' r'') : Resembles r r'' := by
  refine ⟨h'.reliable, fun n => (h'.numbered n).trans (h.numbered n), fun j => ?_⟩
  rcases h.seen j with ⟨hnone, hnone'⟩ | ⟨s, s', hs, hs', hkept⟩
  · rcases h'.seen j with ⟨-, hnone''⟩ | ⟨s', -, hs', -⟩
    · exact .inl ⟨hnone, hnone''⟩
    · rw [hnone'] at hs'
      cases hs'
  · rcases h'.seen j with ⟨hnone', -⟩ | ⟨t, s'', ht, hs'', hkept'⟩
    · rw [hs'] at hnone'
      cases hnone'
    · rw [hs'] at ht
      rw [← Option.some.inj ht] at hkept'
      exact .inr ⟨s, s'', hs, hs'', hkept.trans hkept'⟩

theorem resembles_modifyTable (h : r.Reliable) (a : Nat) (f : LinearTable → LinearTable) :
    Resembles r (r.modifyTable a f) := by
  refine ⟨h.modifyTable a f, fun n => RemoteSignals.numbered_modifyTable a f n, fun j => ?_⟩
  rw [RemoteSignals.seen_modifyTable]
  cases hj : r.seen j with
  | none => exact .inl ⟨rfl, rfl⟩
  | some s => exact .inr ⟨s, _, rfl, rfl, Publishing.alike_modifyTable s a f, rfl⟩

theorem resembles_of_changes (hchanges : Changes r r' id s') (hs : r.seen id = some s)
    (hkept : Kept s s') (hnumbered : ∀ n, r'.numbered n = r.numbered n) : Resembles r r' := by
  refine ⟨hchanges.reliable, hnumbered, fun j => ?_⟩
  by_cases hj : id = j
  · rw [← hj]
    exact .inr ⟨s, s', hs, hchanges.self, hkept⟩
  · rw [hchanges.other hj]
    cases hseen : r.seen j with
    | none => exact .inl ⟨rfl, rfl⟩
    | some t => exact .inr ⟨t, t, rfl, rfl, .refl t⟩

/-- What a remote signal hands on of its data. -/
def reads (s : RemoteSignal) (data : Bytes) : Bytes :=
  if s.table.isSome = true ∨ s.isExplicit = true ∨ data.length < s.sampleSize then data
  else data.take s.sampleSize

theorem Mirrored.reads_eq {e : RegisteredLocalSignal} (h : Mirrored e s) (data : Bytes) :
    reads s data = readAs e.signal.metadata data := by
  unfold reads readAs
  simp only [h.table, h.isExplicit, h.sampleSize, Metadata.isLinear, decide_eq_true_eq]

/-- **Data of a subscribed signal.** -/
theorem step_data (h : r.Reliable) {n : UInt32} (hn : r.numbered n = some id)
    (hs : r.seen id = some s) (hsub : s.isSubscribed = true) (hclean : s.tcpDelta = 0)
    (data : Bytes) :
    ∃ r' a value count, r.step (.message (.data n data)) =
        some (r', [.signal a (.dataReceived value count (reads s data))]) ∧
      Resembles r r' ∧ (r'.objects[a]?).map RemoteSignal.id = some id := by
  obtain ⟨e, he, hobject, hstep⟩ := RemoteSignals.step_data h hn hs data
  -- Whatever becomes of the object, it has the same id.
  have hid {r' : RemoteSignals} (hsame : RemoteSignals.Same r r') :
      (r'.objects[e.address]?).map RemoteSignal.id = some id := by
    have htag := congrArg (Option.map Prod.fst) (hsame.object e.address)
    rw [Option.map_map, Option.map_map, hobject] at htag
    exact htag.trans (congrArg some (RemoteSignals.id_of_seen h.wellFormed hs))
  have hsame := (RemoteSignals.quiet_handleData r e.address data).same
  cases htable : s.table with
  | some t =>
      have hhandle := RemoteSignals.handleData_of_table hobject hsub hclean htable data
      have hreads : reads s data = data := if_pos (.inl (by rw [htable]; rfl))
      rw [hhandle] at hstep hsame
      rw [hreads]
      refine ⟨_, _, 0, 0, hstep, ?_, hid hsame⟩
      split
      · exact resembles_modifyTable h _ _
      · exact .refl h
  | none =>
      cases hexplicit : s.isExplicit with
      | true =>
          obtain ⟨index, hindex⟩ : ∃ index, index =
            s.valueIndex + Int64.ofNat (s.explicitCount data.length) := ⟨_, rfl⟩
          have hhandle := RemoteSignals.handleData_explicit hobject hsub hclean htable hexplicit
            data hindex
          have hreads : reads s data = data := if_pos (.inr (.inl hexplicit))
          rw [hhandle] at hstep hsame
          rw [hreads]
          refine ⟨_, _, _, _, hstep, ?_, hid hsame⟩
          have hcounted : Resembles r
              (r.modifyObject e.address fun s => RemoteSignals.counted s index) := by
            have hchanges := RemoteSignals.changes_modifyObject h he hs
              (f := fun s => RemoteSignals.counted s index) (fun _ => rfl) fun _ => rfl
            apply resembles_of_changes hchanges hs ⟨⟨rfl, rfl, rfl, rfl, rfl, rfl⟩, rfl⟩
            exact fun n => RemoteSignals.numbered_modifyObject
              (f := fun s => RemoteSignals.counted s index) e.address (fun _ => rfl) n
          unfold RemoteSignals.driveTable
          split
          · exact hcounted.trans (resembles_modifyTable hcounted.reliable _ _)
          · exact hcounted
      | false =>
          have hhandle := RemoteSignals.handleData_implicit hobject hsub hclean htable hexplicit
            data
          have hreads : reads s data =
              if s.sampleSize ≤ data.length then data.take s.sampleSize else data := by
            unfold reads
            rw [htable, hexplicit]
            by_cases hsize : s.sampleSize ≤ data.length
            · rw [if_pos hsize, if_neg]
              simp only [Option.isSome_none, Bool.false_eq_true, false_or]
              omega
            · rw [if_neg hsize, if_pos (.inr (.inr (by omega)))]
          rw [hhandle] at hstep
          rw [hreads]
          exact ⟨r, _, _, _, hstep, .refl h, hid (.refl r)⟩

/-- What is handed on of data that are sent under a number. -/
def published (c : LocalSignals) (n : UInt32) (data : Bytes) : List Publication :=
  match OrderedMap.find? c.signals n with
  | some e =>
      if e.onDataPublished = true ∧ e.signal.id ≠ "" then
        [⟨e.signal.id, readAs e.signal.metadata data⟩]
      else []
  | none => []

/-- **Data are handed on** under the id of a connected signal, and dropped
otherwise. -/
theorem relays_data (helloSent : Bool) (c : LocalSignals) (n : UInt32) (data : Bytes) :
    Relays (helloSent, c) (helloSent, c) [.data n data] (published c n data) := by
  intro l h
  have hreliable := h.reliable
  have hunknown (hn : known c n = none) :
      Carries Listener.take Taken l [.data n data] ⟨l.remotes, l.log ++ []⟩ := by
    refine Carries.single (show Taken l _ from rfl) ?_
    unfold Listener.take
    rw [RemoteSignals.take_data_unknown hreliable (by rw [h.numbered, hn])]
    rfl
  cases hn : known c n with
  | none =>
      have hnothing : published c n data = [] := by
        unfold published
        cases he : OrderedMap.find? c.signals n with
        | none => rfl
        | some e =>
            rw [known_of_find he] at hn
            dsimp only
            split
            · rename_i hconnected
              rw [if_pos hconnected] at hn
              cases hn
            · rfl
      rw [hnothing]
      exact ⟨l.remotes, hunknown hn, h⟩
  | some id =>
      obtain ⟨e, he, hslot, rfl, hid⟩ := find_of_known hn
      obtain ⟨s, hs, hmirrored⟩ := h.shown n e he hslot hid
      obtain ⟨r', a, value, count, hstep, hresembles, hobject⟩ := step_data hreliable
        (by rw [h.numbered, hn]) hs hmirrored.isSubscribed (h.clean _ s hs) data
      have hpublished : published c n data = [⟨e.signal.id, readAs e.signal.metadata data⟩] := by
        unfold published
        rw [he]
        exact if_pos ⟨hslot, hid⟩
      refine ⟨r', Carries.single (show Taken l _ from rfl) ?_, ?_⟩
      · unfold Listener.take
        obtain ⟨s', hs', hid'⟩ := Option.map_eq_some_iff.mp hobject
        rw [hstep, Option.map_some, hpublished, ← hmirrored.reads_eq, ← hid']
        unfold handed handed?
        rw [List.filterMap_cons]
        dsimp only
        rw [hs']
        rfl
      · apply h.alike _ hresembles.reliable hresembles.numbered
        · intro j s' hs'
          rcases hresembles.seen j with ⟨-, hnone⟩ | ⟨s₀, s₁, hs₀, hs₁, hkept⟩
          · rw [hs'] at hnone
            cases hnone
          · rw [hs'] at hs₁
            rw [← Option.some.inj hs₁] at hkept
            exact .inl ⟨s₀, hs₀, hkept⟩
        · intro j s₀ hs₀
          rcases hresembles.seen j with ⟨hnone, -⟩ | ⟨s₁, s', hs₁, hs', hkept⟩
          · rw [hs₀] at hnone
            cases hnone
          · rw [hs₀] at hs₁
            rw [← Option.some.inj hs₁] at hkept
            exact ⟨s', hs', hkept⟩
        · exact h.advertises.same (RemoteSignals.same_onPeerDataReceived hstep)

end Data

/-! ## One side changes -/

section Sides

variable {helloSent : Bool} {c c' : LocalSignals} {r r' : RemoteSignals} {k : UInt32}
  {e new : RegisteredLocalSignal}

/-- What the peer can tell of an entry. -/
def face (e : RegisteredLocalSignal) : LocalSignal × Bool × Bool :=
  (e.signal, e.onMetadataChanged, e.onDataPublished)

/-- Entries that look the same. -/
theorem Mirrors.locals (h : Mirrors helloSent c r) (hkeyed : c'.Keyed)
    (hface : ∀ k, (OrderedMap.find? c'.signals k).map face =
      (OrderedMap.find? c.signals k).map face) : Mirrors helloSent c' r := by
  have hentry (k : UInt32) (e' : RegisteredLocalSignal)
      (hk : OrderedMap.find? c'.signals k = some e') :
      ∃ e, OrderedMap.find? c.signals k = some e ∧ e.signal = e'.signal ∧
        e.onMetadataChanged = e'.onMetadataChanged ∧ e.onDataPublished = e'.onDataPublished := by
    have hsame := hface k
    rw [hk, Option.map_some] at hsame
    obtain ⟨e, he, heq⟩ := Option.map_eq_some_iff.mp hsame.symm
    obtain ⟨hsignal, heq⟩ := Prod.mk.inj heq
    exact ⟨e, he, hsignal, (Prod.mk.inj heq).1, (Prod.mk.inj heq).2⟩
  have hknown : known c' = known c := by
    funext n
    cases hn : OrderedMap.find? c'.signals n with
    | none =>
        have hsame := hface n
        rw [hn, Option.map_none] at hsame
        unfold known
        rw [hn, Option.map_eq_none_iff.mp hsame.symm]
    | some e' =>
        obtain ⟨e, he, hsignal, -, hslot⟩ := hentry n e' hn
        rw [known_of_find hn, known_of_find he, hsignal, hslot]
  have hnames : c'.names = c.names := by
    funext n
    have hsame := congrArg (Option.map fun f : LocalSignal × Bool × Bool => f.1.id) (hface n)
    rw [Option.map_map, Option.map_map] at hsame
    exact hsame
  refine ⟨h.advertises.locals hkeyed hnames, h.ownTables, ?_, ?_, ?_, ?_, h.clean, ?_, ?_⟩
  · intro k e' hk
    obtain ⟨e, he, -⟩ := hentry k e' hk
    exact h.nonzero k e he
  · intro k e' hk
    obtain ⟨e, he, -, hmetadata, hslot⟩ := hentry k e' hk
    rw [← hmetadata, ← hslot]
    exact h.slots k e he
  · rw [hknown]
    exact h.numbered
  · rw [hnames]
    exact h.signed
  · intro k e' hk hslot hid
    obtain ⟨e, he, hsignal, -, hslot'⟩ := hentry k e' hk
    rw [← hslot'] at hslot
    rw [← hsignal] at hid ⊢
    obtain ⟨s, hs, hmirrored⟩ := h.shown k e he hslot hid
    refine ⟨s, hs, hmirrored.isSubscribed, ?_, ?_, ?_, ?_⟩
    · rw [← hsignal]
      exact hmirrored.metadata
    · rw [← hsignal]
      exact hmirrored.table
    · rw [← hsignal]
      exact hmirrored.isExplicit
    · rw [← hsignal]
      exact hmirrored.sampleSize
  · rw [hknown]
    exact h.quiet

/-- Another value of a table. -/
theorem Mirrors.modifyTable (h : Mirrors helloSent c r) (a : Nat) (f : LinearTable → LinearTable) :
    Mirrors helloSent (c.modifyTable a f) r := by
  apply h.locals
  · refine ⟨LocalSignals.distinct_modifyTable h.advertises.keyed.distinct a f, fun e he => ?_⟩
    obtain ⟨e', he', rfl⟩ := List.mem_map.mp he
    exact h.advertises.keyed.signo e' he'
  · intro k
    rw [LocalSignals.find?_modifyTable, Option.map_map]
    rfl

/-- An entry that looks the same. -/
theorem Mirrors.update (h : Mirrors helloSent c r) (hk : OrderedMap.find? c.signals k = some e)
    (hface : face new = face e) (hsigno : new.signo = e.signo) :
    Mirrors helloSent (c.update k fun _ => new) r := by
  apply h.locals (h.advertises.keyed.update_const hk hsigno)
  intro j
  rw [LocalSignals.find?_update]
  by_cases hj : k = j
  · rw [if_pos hj, ← hj, hk]
    exact congrArg some hface
  · rw [if_neg hj]

/-- Another entry, and what the peer sees of the signal. -/
theorem Mirrors.put (h : Mirrors helloSent c r) (hk : OrderedMap.find? c.signals k = some e)
    {n : Nat} (hid : new.signal.id = e.signal.id)
    (hslots : new.onMetadataChanged = new.onDataPublished)
    (hadvertises : Advertises helloSent ((c.withNextTable n).update k fun _ => new) r')
    (hreliable : r'.Reliable) (hother : ∀ j, e.signal.id ≠ j → r'.seen j = r.seen j)
    (hnumbered : ∀ j, r'.numbered j =
      if k = j then
        if new.onDataPublished = true ∧ new.signal.id ≠ "" then some new.signal.id else none
      else r.numbered j)
    (hsigned : ∀ s, r'.seen e.signal.id = some s → s.signo ≠ 0 → c.names s.signo = some e.signal.id)
    (hself : ∀ s, r'.seen e.signal.id = some s →
      s.tcpDelta = 0 ∧ (s.isSubscribed = true → new.onDataPublished = true ∧ e.signal.id ≠ ""))
    (hshown : new.onDataPublished = true → e.signal.id ≠ "" →
      ∃ s, r'.seen e.signal.id = some s ∧ Mirrored new s) :
    Mirrors helloSent ((c.withNextTable n).update k fun _ => new) r' := by
  have hentry (j : UInt32) (d : RegisteredLocalSignal)
      (hj : OrderedMap.find? ((c.withNextTable n).update k fun _ => new).signals j = some d) :
      k = j ∧ d = new ∨ k ≠ j ∧ OrderedMap.find? c.signals j = some d := by
    rw [LocalSignals.find?_put hk] at hj
    by_cases hkj : k = j
    · rw [if_pos hkj] at hj
      exact .inl ⟨hkj, (Option.some.inj hj).symm⟩
    · rw [if_neg hkj] at hj
      exact .inr ⟨hkj, hj⟩
  have hdifferent (j : UInt32) (d : RegisteredLocalSignal) (hkj : k ≠ j)
      (hj : OrderedMap.find? c.signals j = some d) : e.signal.id ≠ d.signal.id := by
    intro heq
    apply hkj
    exact h.advertises.unique k j e.signal.id (LocalSignals.names_of_find hk)
      (by rw [LocalSignals.names_of_find hj, heq])
  have hnames : ((c.withNextTable n).update k fun _ => new).names = c.names :=
    LocalSignals.names_update (c := c.withNextTable n) hk hid
  refine ⟨hadvertises, hreliable.ownTables, ?_, ?_, ?_, ?_, ?_, ?_, ?_⟩
  · intro j d hj
    rcases hentry j d hj with ⟨rfl, -⟩ | ⟨-, hj⟩
    · exact h.nonzero k e hk
    · exact h.nonzero j d hj
  · intro j d hj
    rcases hentry j d hj with ⟨-, rfl⟩ | ⟨-, hj⟩
    · exact hslots
    · exact h.slots j d hj
  · intro j
    rw [hnumbered, known_put hk, h.numbered]
  · intro j s hs
    rw [hnames]
    by_cases hj : e.signal.id = j
    · rw [← hj] at hs ⊢
      exact hsigned s hs
    · rw [hother j hj] at hs
      exact h.signed j s hs
  · intro j s hs
    by_cases hj : e.signal.id = j
    · rw [← hj] at hs
      exact (hself s hs).1
    · rw [hother j hj] at hs
      exact h.clean j s hs
  · intro j d hj hslot hne
    rcases hentry j d hj with ⟨rfl, rfl⟩ | ⟨hkj, hj⟩
    · rw [hid] at hne ⊢
      exact hshown hslot hne
    · rw [hother _ (hdifferent j d hkj hj)]
      exact h.shown j d hj hslot hne
  · intro j s hs hsub
    by_cases hj : e.signal.id = j
    · rw [← hj] at hs
      obtain ⟨hslot, hne⟩ := (hself s hs).2 hsub
      refine ⟨k, ?_⟩
      rw [known_put hk, if_pos rfl, if_pos ⟨hslot, by rw [hid]; exact hne⟩, hid, hj]
    · rw [hother j hj] at hs
      obtain ⟨i, hi⟩ := h.quiet j s hs hsub
      refine ⟨i, ?_⟩
      have hki : k ≠ i := by
        rintro rfl
        obtain ⟨d, hd, -, hdid, -⟩ := find_of_known hi
        rw [hk] at hd
        rw [← Option.some.inj hd] at hdid
        exact hj hdid
      rw [known_put hk, if_neg hki, hi]

end Sides

/-! ## Deeds -/

section Deeds

variable {helloSent : Bool} {c : LocalSignals} {k : UInt32} {e : RegisteredLocalSignal}

/-- A signal that has been described. -/
theorem mirrored_of_described {s s' : RemoteSignal} {m : Metadata} (h : Described s m s')
    (hsub : s.isSubscribed = true)
    (hm : m = e.signal.metadata ∨ ∃ i, m = .ofJson (e.signal.metadata.withValueIndex i)) :
    Mirrored e s' := by
  have hsame : m.rule = e.signal.metadata.rule ∧ m.sampleSize = e.signal.metadata.sampleSize := by
    rcases hm with rfl | ⟨i, rfl⟩
    · exact ⟨rfl, rfl⟩
    · exact ⟨Metadata.rule_withValueIndex _ i, Metadata.sampleSize_withValueIndex _ i⟩
  constructor
  · rw [h.isSubscribed, hsub]
  · rw [h.metadata]
    exact hm
  · have hsome := congrArg Option.isSome h.table
    rw [Option.isSome_map, hsame.1] at hsome
    rw [hsome, Metadata.isLinear]
    by_cases hlinear : e.signal.metadata.rule = linearRule
    · rw [if_pos hlinear, decide_eq_true hlinear]
      rfl
    · rw [if_neg hlinear, decide_eq_false hlinear]
      rfl
  · rw [h.isExplicit, hsame.1]
  · rw [h.sampleSize, hsame.2]

/-- **A subscription begins.** -/
theorem relays_opens (hk : OrderedMap.find? c.signals k = some e) (isExplicit : Bool) :
    Relays (helloSent, c) (helloSent, c.doDeed (.opens k e isExplicit))
      [e.subscribeMessage, e.signalMessage] [] := by
  intro l h
  have hreliable := h.reliable
  have hsigno : e.signo = k := h.advertises.keyed.signo_eq hk
  have hzero : e.signo ≠ 0 := by
    rw [hsigno]
    exact h.nonzero k e hk
  have hopened : (c.opened e isExplicit).signal = e.signal ∧
      (c.opened e isExplicit).onDataPublished = true ∧
        (c.opened e isExplicit).onMetadataChanged = true := by
    cases isExplicit <;> exact ⟨rfl, rfl, rfl⟩
  obtain ⟨hsignal, hslot, hslot'⟩ := hopened
  have hconveys := Advertisement.conveys_deed (d := .opens k e isExplicit) rfl hk l.remotes
    h.advertises
  rw [List.append_nil]
  by_cases hid : e.signal.id = ""
  · -- The peer ignores it.
    have hunknown : l.remotes.numbered e.signo = none := by
      rw [hsigno, h.numbered]
      exact known_of_unknown hk fun hnamed => hnamed.2 hid
    have hfirst : l.remotes.step (.message e.subscribeMessage) = some (l.remotes, []) := by
      unfold RegisteredLocalSignal.subscribeMessage
      rw [hid]
      exact RemoteSignals.take_subscribe_empty l.remotes e.signo
    have hcarries : Carries Listener.take Taken l [e.subscribeMessage, e.signalMessage]
        ⟨l.remotes, l.log⟩ :=
      Carries.cons (taken_of_ne (by decide) l _ _) (take_metadata hfirst)
        (Carries.single (taken_of_ne (by decide) _ _ _)
          (take_metadata (Publishing.step_unknown hreliable hunknown hzero _)))
    refine ⟨l.remotes, hcarries, ?_⟩
    apply h.put hk (congrArg LocalSignal.id hsignal) (hslot'.trans hslot.symm)
      (advertises_of_carries hcarries hconveys) hreliable fun _ _ => rfl
    · intro j
      by_cases hj : k = j
      · rw [if_pos hj, hsignal, if_neg fun hnamed => hnamed.2 hid, ← hj, ← hsigno, hunknown]
      · rw [if_neg hj]
    · exact h.signed _
    · intro s hs
      refine ⟨h.clean _ s hs, fun hsub => ?_⟩
      obtain ⟨n, hn⟩ := h.quiet _ s hs hsub
      exact absurd hid (find_of_known hn).choose_spec.2.2.2
    · exact fun _ hne => absurd hid hne
  · obtain ⟨r₁, events₁, hstep₁, hchanges₁, hnumbered₁⟩ :=
      RemoteSignals.take_subscribe hreliable hid e.signo
    have hknown : r₁.numbered e.signo = some e.signal.id := by
      rw [hnumbered₁, if_pos rfl]
    obtain ⟨r', s', events, hstep, hchanges, hnumbered, -, hs'⟩ :=
      RemoteSignals.take_signal hchanges₁.reliable hzero hknown hchanges₁.self
        (e.signal.metadata.withValueIndex e.valueIndex)
    have hboth := hchanges₁.trans hchanges
    have hdescribed : Described (Publishing.admitted l.remotes e.signal.id e.signo)
        (.ofJson (e.signal.metadata.withValueIndex e.valueIndex)) s' := by
      rw [hs']
      exact Publishing.described_describe _ _ _ _ _
    have hmirrored : Mirrored (c.opened e isExplicit) s' := by
      apply mirrored_of_described hdescribed
      · rw [Publishing.admitted_eq]
      · rw [hsignal]
        exact .inr ⟨e.valueIndex, rfl⟩
    have hcarries : Carries Listener.take Taken l [e.subscribeMessage, e.signalMessage]
        ⟨r', l.log⟩ :=
      Carries.cons (taken_of_ne (by decide) l _ _) (take_metadata hstep₁)
        (Carries.single (taken_of_ne (by decide) _ _ _)
          (take_metadata (l := ⟨r₁, l.log⟩) hstep))
    refine ⟨r', hcarries, ?_⟩
    apply h.put hk (congrArg LocalSignal.id hsignal) (hslot'.trans hslot.symm)
      (advertises_of_carries hcarries hconveys) hboth.reliable fun j hj => hboth.other hj
    · intro j
      rw [hnumbered, hnumbered₁, hsigno]
      by_cases hj : k = j
      · rw [if_pos hj, if_pos hj, hsignal, if_pos ⟨hslot, hid⟩]
      · rw [if_neg hj, if_neg hj]
    · intro s hs _
      rw [hboth.self] at hs
      have hnumber : s.signo = k := by
        have hadmitted := Publishing.admitted_eq l.remotes e.signal.id e.signo
        unfold Publishing.admitted at hadmitted
        rw [← Option.some.inj hs, hs', hadmitted]
        exact hsigno
      rw [hnumber]
      exact LocalSignals.names_of_find hk
    · intro s hs
      rw [hboth.self] at hs
      rw [← Option.some.inj hs, hdescribed.tcpDelta, Publishing.admitted_eq]
      refine ⟨?_, fun _ => ⟨hslot, hid⟩⟩
      change ((l.remotes.seen e.signal.id).getD { id := e.signal.id }).tcpDelta = 0
      cases hseen : l.remotes.seen e.signal.id with
      | none => rfl
      | some s => exact h.clean _ s hseen
    · exact fun _ _ => ⟨s', hboth.self, hmirrored⟩

/-- **A subscription ends.** -/
theorem relays_closes (hk : OrderedMap.find? c.signals k = some e) (isExplicit : Bool)
    (count : UInt32) :
    Relays (helloSent, c) (helloSent, c.doDeed (.closes k e isExplicit count))
      [e.unsubscribeMessage] [] := by
  intro l h
  have hsigno : e.signo = k := h.advertises.keyed.signo_eq hk
  have hconveys := Advertisement.conveys_deed (d := .closes k e isExplicit count) rfl hk l.remotes
    h.advertises
  rw [List.append_nil]
  by_cases hnamed : e.onDataPublished = true ∧ e.signal.id ≠ ""
  · obtain ⟨s, hs, hmirrored⟩ := h.shown k e hk hnamed.1 hnamed.2
    have hknown : l.remotes.numbered e.signo = some e.signal.id := by
      rw [hsigno, h.numbered, known_of_connected hk hnamed.1 hnamed.2]
    obtain ⟨r', events, hstep, hchanges, hnumbered⟩ :=
      RemoteSignals.take_unsubscribe h.reliable hknown hs
        (.object [("signalId", .string e.signal.id)])
    rw [Publishing.handleUnsubscribe_fst] at hchanges
    have hcarries : Carries Listener.take Taken l [e.unsubscribeMessage] ⟨r', l.log⟩ :=
      Carries.single (taken_of_ne (by decide) l _ _) (take_metadata hstep)
    refine ⟨r', hcarries, ?_⟩
    show Mirrors helloSent ((c.withNextTable c.nextTable).update k fun _ =>
      (LocalSignals.booked e isExplicit count).disconnect) r'
    refine h.put hk (by rfl) (by rfl) (advertises_of_carries hcarries hconveys)
      hchanges.reliable (fun j hj => hchanges.other hj) ?_ ?_ ?_ ?_
    · intro j
      rw [hnumbered, hsigno]
      rfl
    · intro s' hs'
      rw [hchanges.self] at hs'
      rw [← Option.some.inj hs']
      exact h.signed _ s hs
    · intro s' hs'
      rw [hchanges.self] at hs'
      rw [← Option.some.inj hs']
      exact ⟨h.clean _ s hs, fun hsub => nomatch hsub⟩
    · exact fun hslot _ => nomatch hslot
  · have hunknown : l.remotes.numbered e.signo = none := by
      rw [hsigno, h.numbered, known_of_unknown hk hnamed]
    obtain ⟨r', events, hstep, hreliable, hseen, hnumbered⟩ :=
      RemoteSignals.take_unsubscribe_unknown h.reliable hunknown
        (.object [("signalId", .string e.signal.id)])
    have hcarries : Carries Listener.take Taken l [e.unsubscribeMessage] ⟨r', l.log⟩ :=
      Carries.single (taken_of_ne (by decide) l _ _) (take_metadata hstep)
    refine ⟨r', hcarries, ?_⟩
    show Mirrors helloSent ((c.withNextTable c.nextTable).update k fun _ =>
      (LocalSignals.booked e isExplicit count).disconnect) r'
    refine h.put hk (by rfl) (by rfl) (advertises_of_carries hcarries hconveys)
      hreliable (fun j _ => hseen j) ?_ ?_ ?_ ?_
    · intro j
      rw [hnumbered]
      by_cases hj : k = j
      · rw [if_pos hj, ← hj, ← hsigno, hunknown]
        rfl
      · rw [if_neg hj]
    · intro s hs
      rw [hseen] at hs
      exact h.signed _ s hs
    · intro s hs
      rw [hseen] at hs
      refine ⟨h.clean _ s hs, fun hsub => ?_⟩
      -- A subscribed signal is known, which this one is not.
      obtain ⟨n, hn⟩ := h.quiet _ s hs hsub
      obtain ⟨d, hd, hslot, hdid, hne⟩ := find_of_known hn
      have hkn : k = n := h.advertises.unique k n e.signal.id (LocalSignals.names_of_find hk)
        (by rw [LocalSignals.names_of_find hd, hdid])
      rw [← hkn, hk] at hd
      rw [← Option.some.inj hd] at hslot
      exact absurd ⟨hslot, hne⟩ hnamed
    · exact fun hslot _ => nomatch hslot

/-- The signals that are registered are the same. -/
theorem advertises_described {r r' : RemoteSignals} (h : Advertises helloSent c r)
    (hk : OrderedMap.find? c.signals k = some e) {n : Nat} {new : RegisteredLocalSignal}
    (hid : new.signal.id = e.signal.id) (hsigno : new.signo = e.signo)
    (hsame : RemoteSignals.Same r r') :
    Advertises helloSent ((c.withNextTable n).update k fun _ => new) r' := by
  have hkeyed : (c.withNextTable n).Keyed := ⟨h.keyed.distinct, h.keyed.signo⟩
  exact (h.same hsame).locals (hkeyed.update_const hk hsigno)
    (LocalSignals.names_update (c := c.withNextTable n) hk hid)

/-- **Metadata change**, of a connected signal. -/
theorem relays_changes {m : Metadata} (hfits : c.FitsDeed (.changes k e m)) :
    Relays (helloSent, c) (helloSent, c.doDeed (.changes k e m))
      [.ofMetadata e.signo "signal" m.json] [] := by
  intro l h
  obtain ⟨hk, hslot⟩ := hfits
  have hsigno : e.signo = k := h.advertises.keyed.signo_eq hk
  have hzero : e.signo ≠ 0 := by
    rw [hsigno]
    exact h.nonzero k e hk
  have hconnected : e.onDataPublished = true := (h.slots k e hk).symm.trans hslot
  obtain ⟨r₀, hhear, hsame⟩ := Advertisement.hear_other h.advertises.tracks.noDangling e.signo
    "signal" (by decide) (by decide) (by decide) (by decide) m.json
  rw [List.append_nil]
  by_cases hid : e.signal.id = ""
  · have hunknown : l.remotes.numbered e.signo = none := by
      rw [hsigno, h.numbered]
      exact known_of_unknown hk fun hnamed => hnamed.2 hid
    refine ⟨l.remotes, Carries.single (taken_of_ne (by decide) l _ _)
      (take_metadata (Publishing.step_unknown h.reliable hunknown hzero _)), ?_⟩
    show Mirrors helloSent ((c.withNextTable (c.nextTable + 1)).update k fun _ =>
      c.changed e m) l.remotes
    refine h.put hk (by rfl) (by exact h.slots k e hk)
      (advertises_described h.advertises hk (by rfl) (by rfl) (.refl _)) h.reliable
      (fun _ _ => rfl) ?_ (h.signed _) ?_ ?_
    · intro j
      by_cases hj : k = j
      · rw [if_pos hj, ← hj, ← hsigno, hunknown]
        exact (if_neg fun hnamed => hnamed.2 hid).symm
      · rw [if_neg hj]
    · intro s hs
      refine ⟨h.clean _ s hs, fun hsub => ?_⟩
      obtain ⟨n, hn⟩ := h.quiet _ s hs hsub
      exact absurd hid (find_of_known hn).choose_spec.2.2.2
    · exact fun _ hne => absurd hid hne
  · obtain ⟨s, hs, hmirrored⟩ := h.shown k e hk hconnected hid
    have hknown : l.remotes.numbered e.signo = some e.signal.id := by
      rw [hsigno, h.numbered, known_of_connected hk hconnected hid]
    obtain ⟨r', s', events, hstep, hchanges, hnumbered, -, hs'⟩ :=
      RemoteSignals.take_signal h.reliable hzero hknown hs m.json
    rw [Metadata.ofJson_json] at hs'
    have hdescribed : Described s m s' := by
      rw [hs']
      exact Publishing.described_describe _ _ _ _ _
    obtain rfl : r₀ = r' := by
      have hfirst : hear l.remotes (.ofMetadata e.signo "signal" m.json) = some r' :=
        congrArg (Option.map Prod.fst) hstep
      exact Option.some.inj (hhear.symm.trans hfirst)
    refine ⟨r₀, Carries.single (taken_of_ne (by decide) l _ _) (take_metadata hstep), ?_⟩
    show Mirrors helloSent ((c.withNextTable (c.nextTable + 1)).update k fun _ =>
      c.changed e m) r₀
    refine h.put hk (by rfl) (by exact h.slots k e hk)
      (advertises_described h.advertises hk (by rfl) (by rfl) hsame) hchanges.reliable
      (fun j hj => hchanges.other hj) ?_ ?_ ?_ ?_
    · intro j
      rw [hnumbered]
      by_cases hj : k = j
      · rw [if_pos hj, ← hj, ← hsigno, hknown]
        exact (if_pos ⟨hconnected, hid⟩).symm
      · rw [if_neg hj]
    · intro s'' hs''
      rw [hchanges.self] at hs''
      rw [← Option.some.inj hs'', hs']
      exact h.signed _ s hs
    · intro s'' hs''
      rw [hchanges.self] at hs''
      rw [← Option.some.inj hs'', hdescribed.tcpDelta]
      exact ⟨h.clean _ s hs, fun _ => ⟨hconnected, hid⟩⟩
    · exact fun _ _ => ⟨s', hchanges.self,
        mirrored_of_described hdescribed hmirrored.isSubscribed (.inl rfl)⟩

/-- Metadata of a signal that is not connected change on one side only. -/
theorem relays_describes (hk : OrderedMap.find? c.signals k = some e) (m : Metadata)
    (hslot : ¬ e.onMetadataChanged = true) :
    Relays (helloSent, c) (helloSent, c.doDeed (.describes k e m)) [] [] := by
  intro l h
  have hquiet : ¬ e.onDataPublished = true := by
    rw [← h.slots k e hk]
    exact hslot
  have hunknown : known c k = none := known_of_unknown hk fun hnamed => hquiet hnamed.1
  refine ⟨l.remotes, ?_, ?_⟩
  · rw [List.append_nil]
    rfl
  · show Mirrors helloSent ((c.withNextTable c.nextTable).update k fun _ => e.described m) l.remotes
    refine h.put hk (by rfl) (by exact h.slots k e hk)
      (advertises_described h.advertises hk (by rfl) (by rfl) (.refl _)) h.reliable
      (fun _ _ => rfl) ?_ (h.signed _) ?_ ?_
    · intro j
      by_cases hj : k = j
      · rw [if_pos hj, ← hj, h.numbered, hunknown]
        exact (if_neg fun hnamed => hquiet hnamed.1).symm
      · rw [if_neg hj]
    · intro s hs
      refine ⟨h.clean _ s hs, fun hsub => ?_⟩
      obtain ⟨n, hn⟩ := h.quiet _ s hs hsub
      obtain ⟨d, hd, hslot', hdid, hne⟩ := find_of_known hn
      have hkn : k = n := h.advertises.unique k n e.signal.id (LocalSignals.names_of_find hk)
        (by rw [LocalSignals.names_of_find hd, hdid])
      rw [← hkn, hk] at hd
      rw [← Option.some.inj hd] at hslot'
      exact absurd hslot' hquiet
    · exact fun hslot' _ => absurd hslot' hquiet

/-- Nothing changes that the peer could tell. -/
theorem relays_silent {c' : LocalSignals}
    (h : ∀ r, Mirrors helloSent c r → Mirrors helloSent c' r) :
    Relays (helloSent, c) (helloSent, c') [] [] := by
  intro l hl
  refine ⟨l.remotes, ?_, h l.remotes hl⟩
  rw [List.append_nil]
  rfl

/-- What a deed publishes. -/
def Deed.publications (c : LocalSignals) : Deed → List Publication
  | .sets e _ p => published c e.domainSigno p.bytes
  | .emits _ e _ data => published c e.signo data
  | _ => []

/-- Whether a deed fits, and leaves the metadata of connected signals alone
unless the peer is told. -/
def Admits (c : LocalSignals) (d : Deed) : Prop :=
  c.FitsDeed d ∧ match d with
    | .announce _ => False
    | .describes _ e _ => ¬ e.onMetadataChanged = true
    | _ => True

/-- **One deed.** -/
theorem relays_deed {d : Deed} (hd : Admits c d) :
    Relays (helloSent, c) (helloSent, c.doDeed d) d.messages (Deed.publications c d) := by
  obtain ⟨hfits, hadmits⟩ := hd
  have hafter (c' : LocalSignals) {n : UInt32} {data : Bytes}
      (h : ∀ r, Mirrors helloSent c r → Mirrors helloSent c' r) :
      Relays (helloSent, c) (helloSent, c') [.data n data] (published c n data) := by
    have hboth := (relays_data helloSent c n data).append (relays_silent h)
    rw [List.append_nil, List.append_nil] at hboth
    exact hboth
  cases d with
  | announce ids => exact hadmits.elim
  | book k e isExplicit count =>
      exact relays_silent fun r h => h.update hfits rfl rfl
  | opens k e isExplicit => exact relays_opens hfits isExplicit
  | closes k e isExplicit count => exact relays_closes hfits isExplicit count
  | describes k e m => exact relays_describes hfits m hadmits
  | changes k e m => exact relays_changes hfits
  | sets e a p => exact hafter _ fun r h => h.modifyTable a fun t => t.updatePayload p
  | emits k e sampleCount data =>
      refine hafter _ fun r h => ?_
      have hindexed : Mirrors helloSent (c.update k fun _ => e.withValueIndex
          (e.valueIndex + Int64.ofNat sampleCount)) r := h.update hfits.1 rfl rfl
      unfold doDeed LocalSignals.drive
      dsimp only
      split
      · exact hindexed.modifyTable _ _
      · exact hindexed

end Deeds

/-! ## Acts -/

/-- What `local_signal::publish_data` hands on, of each of the other acts
nothing. -/
def publications (c : LocalSignals) : Act → List Publication
  | .publish address domainValue _ data =>
      match (c.findByAddress address).filter fun e => e.2.onDataPublished with
      | none => []
      | some (_, e) =>
          (match c.domainUpdate e domainValue with
            | some (_, p) => published c e.domainSigno p.bytes
            | none => []) ++ published c e.signo data
  | _ => []

section Acts

variable {helloSent : Bool} {c : LocalSignals}

theorem published_modifyTable (c : LocalSignals) (a : Nat) (f : LinearTable → LinearTable)
    (n : UInt32) (data : Bytes) : published (c.modifyTable a f) n data = published c n data := by
  unfold published
  rw [LocalSignals.find?_modifyTable]
  cases OrderedMap.find? c.signals n <;> rfl

theorem publications_of_none {address : Nat} {domainValue : Int64} {sampleCount : Nat}
    {data : Bytes}
    (hfind : (c.findByAddress address).filter (fun e => e.2.onDataPublished) = none) :
    publications c (.publish address domainValue sampleCount data) = [] := by
  show (match (c.findByAddress address).filter fun e => e.2.onDataPublished with
    | none => []
    | some (_, e) => _) = _
  rw [hfind]

theorem publications_of_some {address : Nat} {domainValue : Int64} {sampleCount : Nat}
    {data : Bytes} {k : UInt32} {e : RegisteredLocalSignal}
    (hfind : c.findByAddress address = some (k, e)) (hslot : e.onDataPublished = true) :
    publications c (.publish address domainValue sampleCount data) =
      (match c.domainUpdate e domainValue with
        | some (_, p) => published c e.domainSigno p.bytes
        | none => []) ++ published c e.signo data := by
  show (match (c.findByAddress address).filter fun e => e.2.onDataPublished with
    | none => []
    | some (_, e) => _) = _
  have hfilter : (some (k, e)).filter (fun e => e.2.onDataPublished) = some (k, e) :=
    Option.filter_some_pos hslot
  rw [hfind, hfilter]

/-- Deeds that end subscriptions. -/
theorem relays_ending (deeds : List Deed) (hending : ∀ d ∈ deeds, d.isEnding = true) :
    ∀ c, Meets doDeed FitsDeed c deeds →
      Relays (helloSent, c) (helloSent, deeds.foldl doDeed c) (deeds.flatMap Deed.messages) [] := by
  induction deeds with
  | nil => exact fun c _ => .refl _
  | cons d deeds ih =>
      intro c hmeets
      have hrest := ih (fun d' hd' => hending d' (List.mem_cons_of_mem _ hd')) _ hmeets.2
      have hd := hending d List.mem_cons_self
      have hfirst : Relays (helloSent, c) (helloSent, c.doDeed d) d.messages [] := by
        cases d with
        | book k e isExplicit count =>
            exact relays_deed (d := .book k e isExplicit count) ⟨hmeets.1, trivial⟩
        | closes k e isExplicit count =>
            exact relays_deed (d := .closes k e isExplicit count) ⟨hmeets.1, trivial⟩
        | announce ids => cases hd
        | opens k e isExplicit => cases hd
        | describes k e m => cases hd
        | changes k e m => cases hd
        | sets e a p => cases hd
        | emits k e sampleCount data => cases hd
      exact hfirst.append hrest

/-- **What happens on the publishing side.** -/
theorem relays_act (c : LocalSignals) (i : Act) (hi : ∀ ids, i ≠ .announce ids) :
    Relays (helloSent, c) (helloSent, (c.act i).1) (c.act i).2 (publications c i) := by
  intro l h
  have hdistinct : Distinct c.signals := h.advertises.keyed.distinct
  obtain ⟨deeds, hdoes, hact, hmeets⟩ := LocalSignals.deeds_of_act hdistinct i
  have hone {d : Deed} (hd : Admits c d) :
      Relays (helloSent, c) (helloSent, c.doDeed d) d.messages (Deed.publications c d) :=
    relays_deed hd
  rw [hact]
  cases hdoes with
  | announce ids => exact absurd rfl (hi ids)
  | unknown hfind => exact Relays.refl _ l h
  | unregistered hfind => exact Relays.refl _ l h
  | dropped hfind =>
      rw [publications_of_none hfind]
      exact Relays.refl _ l h
  | ends hending => exact relays_ending deeds hending c hmeets l h
  | again hfind hsub => exact hone ⟨hmeets.1, trivial⟩ l h
  | alone hfind hsub hdomain => exact hone ⟨hmeets.1, trivial⟩ l h
  | joins hfind hsub hdomain hsub' =>
      exact (hone ⟨hmeets.1, trivial⟩).append (relays_deed ⟨hmeets.2.1, trivial⟩) l h
  | both hfind hsub hdomain hsub' =>
      exact (hone ⟨hmeets.1, trivial⟩).append (relays_deed ⟨hmeets.2.1, trivial⟩) l h
  | unheard hfind hslot => exact hone ⟨hmeets.1, hslot⟩ l h
  | changes hfind hslot => exact hone ⟨hmeets.1, trivial⟩ l h
  | emits hfind hslot hset =>
      rw [publications_of_some hfind hslot, hset]
      exact hone ⟨hmeets.1, trivial⟩ l h
  | @sets _ _ sampleCount data k e e' a p hfind hslot hset he' =>
      have hsecond : Relays (helloSent, c.doDeed (.sets e a p))
          (helloSent, (c.doDeed (.sets e a p)).doDeed (.emits k e' sampleCount data))
          (Deed.emits k e' sampleCount data).messages (published c e.signo data) := by
        rw [← published_modifyTable c a (fun t => t.updatePayload p)]
        have hsigno : e.signo = e'.signo := by
          rw [he']
          rfl
        rw [hsigno]
        exact relays_deed (d := .emits k e' sampleCount data) ⟨hmeets.2.1, trivial⟩
      rw [publications_of_some hfind hslot, hset]
      exact (hone (d := .sets e a p) ⟨hmeets.1, trivial⟩).append hsecond l h

end Acts

end Mirroring

end WsStreaming.Ports
