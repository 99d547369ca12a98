import WsStreaming.Verified.Fifo
import WsStreaming.Ports.LocalNumbers
import WsStreaming.Ports.LocalDeeds
import WsStreaming.Ports.TableSubscriptions
import WsStreaming.Ports.TrackedNumbers
import WsStreaming.Ports.CommandClient
import WsStreaming.Ports.Greeting
import WsStreaming.Ports.Broadcast
import WsStreaming.Ports.Teardown

/-!
# Advertised signals

A client and a server connection, each sending to the other in order.  What a
side sends with a change of its signals brings the other side up to date with
it: once a side has greeted its peer and everything it sent has arrived, the
signals that its peer shows are the ones that it has registered.

The numbers come from a 32-bit counter, and that is where it ends.  A signal
with the number zero is removed without a word, and a signal whose number is
in use is advertised but not registered.

## Main results

* `conveys_request`, `utters_addLocalSignal`, `utters_removeLocalSignal`,
  `utters_doHello`, `utters_receive` — what each operation sends brings the
  peer up to date.
* `advertisement_agrees` — whole runs of both sides.
* `advertisement_disagrees` — the 2^32nd registration.
-/

namespace WsStreaming.Ports

open WsStreaming.Verified
open WsStreaming.Verified.OrderedMap (OMap Distinct)
open WsStreaming.Verified.Run
open WsStreaming.Verified.Fifo (Channel Carries Settles)

/-! ## The signals of one side -/

namespace LocalSignals

/-- The id of the signal with a number. -/
def names (c : LocalSignals) (n : UInt32) : Option String :=
  (OrderedMap.find? c.signals n).map fun e => e.signal.id

section Names

variable {c : LocalSignals} {k : UInt32} {e new : RegisteredLocalSignal}

theorem names_eq_subscriptions (c : LocalSignals) (n : UInt32) :
    c.names n = (OrderedMap.find? c.subscriptions n).map Subscription.id := by
  rw [find?_subscriptions, Option.map_map]
  rfl

theorem names_of_find (hk : OrderedMap.find? c.signals k = some e) :
    c.names k = some e.signal.id := by
  rw [names, hk]
  rfl

theorem names_update (hk : OrderedMap.find? c.signals k = some e)
    (hid : new.signal.id = e.signal.id) : (c.update k fun _ => new).names = c.names := by
  funext n
  rw [names, find?_update, names]
  by_cases hn : k = n
  · rw [if_pos hn, ← hn, hk]
    exact congrArg some hid
  · rw [if_neg hn]

theorem Keyed.signo_eq (h : c.Keyed) (hk : OrderedMap.find? c.signals k = some e) :
    e.signo = k :=
  h.signo _ (OrderedMap.mem_of_find?_eq_some hk)

theorem Keyed.update_const (h : c.Keyed) (hk : OrderedMap.find? c.signals k = some e)
    (hsigno : new.signo = e.signo) : (c.update k fun _ => new).Keyed := by
  refine ⟨distinct_update h.distinct k _, fun e' he' => ?_⟩
  rcases OrderedMap.mem_modify_const he' with rfl | ⟨-, hmem⟩
  · exact hsigno.trans (h.signo_eq hk)
  · exact h.signo e' hmem

/-- A signal whose number is free gets it. -/
theorem names_addLocalSignal {signal : LocalSignal}
    (hfind : c.findByAddress signal.address = none)
    (hfree : OrderedMap.find? c.signals c.nextSigno = none) (n : UInt32) :
    (c.addLocalSignal signal).1.names n =
      if c.nextSigno = n then some signal.id else c.names n := by
  have hfree' : OrderedMap.find? c.subscriptions c.nextSigno = none := by
    rw [find?_subscriptions, hfree]
    rfl
  rw [names_eq_subscriptions, subscriptions_addLocalSignal hfind, OrderedMap.find?_emplace,
    hfree', names_eq_subscriptions]
  by_cases hn : c.nextSigno = n
  · rw [if_pos hn, if_pos hn]
    rfl
  · rw [if_neg hn, if_neg hn]

theorem names_erase (k n : UInt32) :
    names { c with signals := OrderedMap.erase c.signals k } n =
      if k = n then none else c.names n := by
  rw [names, OrderedMap.find?_erase, names]
  split <;> rfl

/-- The ids of the registered signals. -/
theorem mem_ids_iff (hd : Distinct c.signals) {id : String} :
    id ∈ (c.signals.map fun e => e.2.signal.id) ↔ ∃ n, c.names n = some id := by
  constructor
  · intro hmem
    obtain ⟨e, he, rfl⟩ := List.mem_map.mp hmem
    exact ⟨e.1, names_of_find ((OrderedMap.find?_eq_some_iff hd).mpr he)⟩
  · rintro ⟨n, hn⟩
    obtain ⟨e, he, rfl⟩ := Option.map_eq_some_iff.mp hn
    exact List.mem_map.mpr ⟨(n, e), OrderedMap.mem_of_find?_eq_some he, rfl⟩

end Names

end LocalSignals

/-! ## What the other side makes of it -/

namespace Advertisement

open LocalSignals (Deed FitsDeed doDeed Request Does)
open RemoteSignals (Same subscribedId signalIds)

/-- A message reaches the signals of a peer. -/
def hear (r : RemoteSignals) (m : Message) : Option RemoteSignals := r.advance (.message m)

/-- A message that does not throw. -/
def Heard (_ : RemoteSignals) (m : Message) : Prop := Session.throws m = false

/-- The peer knows the numbers of the registered signals, and shows the signals
once it has been greeted. -/
structure Advertises (helloSent : Bool) (c : LocalSignals) (r : RemoteSignals) : Prop where
  keyed : c.Keyed
  unique : ∀ n n' id, c.names n = some id → c.names n' = some id → n = n'
  tracks : r.Tracks c.names
  announced : ∀ id, r.announced id = true ↔ helloSent = true ∧ ∃ n, c.names n = some id

/-- What is sent with a change of the signals brings the peer up to date. -/
def Conveys (helloSent : Bool) (c c' : LocalSignals) (messages : List Message) : Prop :=
  ∀ r, Advertises helloSent c r →
    ∃ r', Carries hear Heard r messages r' ∧ Advertises helloSent c' r'

section Messages

variable {helloSent : Bool} {c c' : LocalSignals} {r r' : RemoteSignals}

/-- The same signals, in another state. -/
theorem Advertises.locals (h : Advertises helloSent c r) (hkeyed : c'.Keyed)
    (hnames : c'.names = c.names) : Advertises helloSent c' r := by
  refine ⟨hkeyed, ?_, ?_, ?_⟩
  · rw [hnames]
    exact h.unique
  · rw [hnames]
    exact h.tracks
  · rw [hnames]
    exact h.announced

theorem Advertises.same (h : Advertises helloSent c r) (hsame : Same r r') :
    Advertises helloSent c r' := by
  refine ⟨h.keyed, h.unique, h.tracks.same hsame, fun id => ?_⟩
  rw [RemoteSignals.announced_eq hsame.byId]
  exact h.announced id

theorem heard_of_ne {method : String} (h : method ≠ "request") (r : RemoteSignals) (n : UInt32)
    (params : Json) : Heard r (.ofMetadata n method params) := by
  show (decide (n = 0) && decide (method = "request") && !params.isObject) = false
  rw [decide_eq_false h, Bool.and_false, Bool.false_and]

/-- A message about something else. -/
theorem hear_other (h : r.NoDangling) (n : UInt32) (method : String)
    (hsub : method ≠ "subscribe") (hunsub : method ≠ "unsubscribe")
    (havailable : method ≠ "available") (hunavailable : method ≠ "unavailable")
    (params : Json) : ∃ r', hear r (.ofMetadata n method params) = some r' ∧ Same r r' := by
  obtain ⟨q, hq⟩ := RemoteSignals.step_isSome h (.message (.ofMetadata n method params))
  refine ⟨q.1, congrArg (Option.map Prod.fst) hq, ?_⟩
  change r.onPeerMetadataReceived ⟨n, method, params⟩ = some q at hq
  rw [RemoteSignals.onPeerMetadataReceived, if_neg hsub, if_neg hunsub, if_neg havailable,
    if_neg hunavailable] at hq
  split at hq
  · exact RemoteSignals.same_dispatchMetadata hq
  · rw [← Option.some.inj hq]
    exact .refl r

/-- **A subscription begins.** -/
theorem Advertises.subscribe (h : Advertises helloSent c r) {k : UInt32}
    {e : RegisteredLocalSignal} (hk : OrderedMap.find? c.signals k = some e) :
    ∃ r', Carries hear Heard r [e.subscribeMessage, e.signalMessage] r' ∧
      Advertises helloSent c r' := by
  have hsigno := h.keyed.signo_eq hk
  have hname : c.names e.signo =
      some (subscribedId (.object [("signalId", .string e.signal.id)])) := by
    rw [hsigno]
    exact LocalSignals.names_of_find hk
  -- The number is bound, and the description reaches the object.
  have hbound : Advertises helloSent c
      (r.handleSubscribe e.signo (.object [("signalId", .string e.signal.id)])).1 := by
    refine ⟨h.keyed, h.unique, h.tracks.handleSubscribe h.unique hname, fun id => ?_⟩
    rw [RemoteSignals.announced_handleSubscribe]
    exact h.announced id
  obtain ⟨r', hhear, hsame⟩ := hear_other hbound.tracks.noDangling e.signo
    "signal" (by decide) (by decide) (by decide) (by decide)
    (e.signal.metadata.withValueIndex e.valueIndex)
  refine ⟨r', Carries.cons (heard_of_ne (by decide) r _ _) rfl
    (Carries.single (heard_of_ne (by decide) _ _ _) hhear), hbound.same hsame⟩

/-- **A subscription ends.** -/
theorem Advertises.unsubscribe (h : Advertises helloSent c r) (e : RegisteredLocalSignal) :
    ∃ r', Carries hear Heard r [e.unsubscribeMessage] r' ∧ Advertises helloSent c r' := by
  obtain ⟨q, hq⟩ := RemoteSignals.step_isSome h.tracks.noDangling (.message e.unsubscribeMessage)
  have hunsubscribe : r.handleUnsubscribe e.signo (.object [("signalId", .string e.signal.id)]) =
      some q := hq
  refine ⟨q.1, Carries.single (heard_of_ne (by decide) r _ _) (congrArg (Option.map Prod.fst) hq),
    h.keyed, h.unique, h.tracks.handleUnsubscribe hunsubscribe, fun id => ?_⟩
  rw [RemoteSignals.announced_handleUnsubscribe hunsubscribe]
  exact h.announced id

end Messages

/-! ## Requests -/

section Requests

variable {helloSent : Bool} {c c' c'' : LocalSignals}

theorem Conveys.refl (c : LocalSignals) : Conveys helloSent c c [] := fun r h => ⟨r, rfl, h⟩

theorem Conveys.append {messages more : List Message} (h : Conveys helloSent c c' messages)
    (h' : Conveys helloSent c' c'' more) : Conveys helloSent c c'' (messages ++ more) := by
  intro r hr
  obtain ⟨r', hcarries, hr'⟩ := h r hr
  obtain ⟨r'', hcarries', hr''⟩ := h' r' hr'
  exact ⟨r'', hcarries.append hcarries', hr''⟩

/-- The deeds that requests come down to. -/
def isSubscription : Deed → Bool
  | .book _ _ _ _ => true
  | .opens _ _ _ => true
  | .closes _ _ _ _ => true
  | _ => false

theorem isSubscription_of_isEnding {d : Deed} (h : d.isEnding = true) :
    isSubscription d = true := by
  cases d with
  | book k e isExplicit count => rfl
  | closes k e isExplicit count => rfl
  | announce ids => cases h
  | opens k e isExplicit => cases h
  | describes k e metadata => cases h
  | changes k e metadata => cases h
  | sets e address p => cases h
  | emits k e sampleCount data => cases h

/-- **One deed.** -/
theorem conveys_deed {d : Deed} (hd : isSubscription d = true) (hfits : c.FitsDeed d) :
    Conveys helloSent c (c.doDeed d) d.messages := by
  -- The entry stays that of the same signal, under the same number.
  have hupdate {n : Nat} {k : UInt32} {e new : RegisteredLocalSignal} {r : RemoteSignals}
      (h : Advertises helloSent c r) (hk : OrderedMap.find? c.signals k = some e)
      (hsignal : new.signal = e.signal) (hsigno : new.signo = e.signo) :
      Advertises helloSent ((c.withNextTable n).update k fun _ => new) r :=
    h.locals ((show (c.withNextTable n).Keyed from ⟨h.keyed.distinct, h.keyed.signo⟩).update_const
      hk hsigno) (LocalSignals.names_update (c := c.withNextTable n) hk (congrArg _ hsignal))
  intro r h
  cases d with
  | book k e isExplicit count =>
      exact ⟨r, rfl, hupdate (n := c.nextTable) h hfits rfl rfl⟩
  | opens k e isExplicit =>
      obtain ⟨r', hcarries, hr'⟩ := h.subscribe hfits
      refine ⟨r', hcarries, hupdate hr' hfits ?_ ?_⟩
      · cases isExplicit <;> rfl
      · cases isExplicit <;> rfl
  | closes k e isExplicit count =>
      obtain ⟨r', hcarries, hr'⟩ := h.unsubscribe e
      exact ⟨r', hcarries, hupdate (n := c.nextTable) hr' hfits rfl rfl⟩
  | announce ids => cases hd
  | describes k e metadata => cases hd
  | changes k e metadata => cases hd
  | sets e address p => cases hd
  | emits k e sampleCount data => cases hd

theorem conveys_deeds (deeds : List Deed) (hdeeds : ∀ d ∈ deeds, isSubscription d = true) :
    ∀ c, Meets doDeed FitsDeed c deeds →
      Conveys helloSent c (deeds.foldl doDeed c) (deeds.flatMap Deed.messages) := by
  induction deeds with
  | nil => exact fun c _ => .refl c
  | cons d deeds ih =>
      intro c hmeets
      have hfirst : Conveys helloSent c (c.doDeed d) d.messages :=
        conveys_deed (hdeeds d List.mem_cons_self) hmeets.1
      exact hfirst.append (ih (fun d' hd' => hdeeds d' (List.mem_cons_of_mem _ hd')) _ hmeets.2)

/-- **A request of the peer.** -/
theorem conveys_request (c : LocalSignals) (request : Request) :
    Conveys helloSent c (c.request request).1 (messagesOf (c.request request).2.1) := by
  intro r h
  cases request with
  | subscribe id =>
      obtain ⟨deeds, hdoes, hact, hmeets⟩ := LocalSignals.deeds_of_subscribe h.keyed.distinct id
      have hdeeds : ∀ d ∈ deeds, isSubscription d = true := by
        cases hdoes with
        | unknown hfind => simp
        | again hfind hsub => simp [isSubscription]
        | alone hfind hsub hdomain => simp [isSubscription]
        | joins hfind hsub hdomain hsub' => simp [isSubscription]
        | both hfind hsub hdomain hsub' => simp [isSubscription]
      obtain ⟨hleft, hsent⟩ := Prod.mk.inj hact
      rw [hleft, hsent]
      exact conveys_deeds deeds hdeeds c hmeets r h
  | unsubscribe id =>
      obtain ⟨deeds, hending, hleft, hsent, hmeets⟩ :=
        LocalSignals.deeds_of_unsubscribe c id true h.keyed.distinct
      change ∃ r', Carries hear Heard r (messagesOf (c.unsubscribe id true).2.1) r' ∧
        Advertises helloSent (c.unsubscribe id true).1 r'
      rw [hleft, hsent]
      exact conveys_deeds deeds (fun d hd => isSubscription_of_isEnding (hending d hd)) c hmeets r h

section Operation

variable {operation : LocalSignals → String → LocalSignals × List Output × Bool}

theorem conveys_forEachId
    (hop : ∀ c id, Conveys helloSent c (operation c id).1 (messagesOf (operation c id).2.1))
    (ids : List Json) : ∀ c, Conveys helloSent c (LocalSignals.forEachId operation c ids).1
      (messagesOf (LocalSignals.forEachId operation c ids).2.1) := by
  induction ids with
  | nil => exact fun c => .refl c
  | cons j ids ih =>
      intro c
      cases j with
      | string id =>
          have hall := (hop c id).append (ih (operation c id).1)
          rw [← messagesOf_append] at hall
          exact hall
      | null => exact ih c
      | bool b => exact ih c
      | integer n => exact ih c
      | float bits => exact ih c
      | array elements => exact ih c
      | object members => exact ih c

theorem conveys_doCommandInterfaceWith
    (hop : ∀ c id, Conveys helloSent c (operation c id).1 (messagesOf (operation c id).2.1))
    (failure : String) (c : LocalSignals) (params : Json) :
    Conveys helloSent c (LocalSignals.doCommandInterfaceWith operation failure c params).1
      (messagesOf (LocalSignals.doCommandInterfaceWith operation failure c params).2.1) := by
  cases params with
  | string id => exact hop c id
  | array ids => exact conveys_forEachId hop ids c
  | null => exact .refl c
  | bool b => exact .refl c
  | integer n => exact .refl c
  | float bits => exact .refl c
  | object members => exact .refl c

end Operation

end Requests

/-! ## Operations of a connection -/

/-- What a connection sends with a change of it brings the peer up to date. -/
def Utters (c c' : Connection) (outputs : List Output) : Prop :=
  ∀ r, Advertises c.helloSent c.locals r →
    ∃ r', Carries hear Heard r (messagesOf outputs) r' ∧ Advertises c'.helloSent c'.locals r'

/-- At a registration an object has an id that no other one has. -/
def UniqueId (c : LocalSignals) (signal : LocalSignal) : Prop :=
  ∀ e ∈ c.signals, e.2.signal.address = signal.address ↔ e.2.signal.id = signal.id

/-- At a removal an object has the id that it is registered with. -/
def SameId (c : LocalSignals) (signal : LocalSignal) : Prop :=
  ∀ e ∈ c.signals, e.2.signal.address = signal.address → e.2.signal.id = signal.id

instance (c : LocalSignals) (signal : LocalSignal) : Decidable (UniqueId c signal) :=
  inferInstanceAs (Decidable (∀ e ∈ c.signals, _ ↔ _))

instance (c : LocalSignals) (signal : LocalSignal) : Decidable (SameId c signal) :=
  inferInstanceAs (Decidable (∀ e ∈ c.signals, _ → _))

section Names

variable {helloSent : Bool} {c c' : LocalSignals} {r : RemoteSignals} {k : UInt32} {id : String}

/-- A signal with a free number and a new id is registered. -/
theorem Advertises.added (h : Advertises helloSent c r) (hkeyed : c'.Keyed)
    (hnames : ∀ n, c'.names n = if k = n then some id else c.names n) (hk : c.names k = none)
    (hid : ∀ n, c.names n ≠ some id) :
    Advertises helloSent c' (if helloSent then (r.announce id).1 else r) := by
  have hother : ∀ n j, c.names n = some j → c'.names n = some j := by
    intro n j hn
    have hne : k ≠ n := by
      rintro rfl
      rw [hk] at hn
      cases hn
    rw [hnames, if_neg hne, hn]
  have hmem : ∀ j, (∃ n, c'.names n = some j) ↔ id = j ∨ ∃ n, c.names n = some j := by
    intro j
    constructor
    · rintro ⟨n, hn⟩
      rw [hnames] at hn
      by_cases hkn : k = n
      · rw [if_pos hkn] at hn
        exact .inl (Option.some.inj hn)
      · rw [if_neg hkn] at hn
        exact .inr ⟨n, hn⟩
    · rintro (rfl | ⟨n, hn⟩)
      · exact ⟨k, by rw [hnames, if_pos rfl]⟩
      · exact ⟨n, hother n j hn⟩
  refine ⟨hkeyed, ?_, ?_, ?_⟩
  · intro n n' j hn hn'
    rw [hnames] at hn hn'
    by_cases hkn : k = n
    · by_cases hkn' : k = n'
      · exact hkn.symm.trans hkn'
      · rw [if_pos hkn] at hn
        rw [if_neg hkn'] at hn'
        exact absurd (hn'.trans hn.symm) (hid n')
    · rw [if_neg hkn] at hn
      by_cases hkn' : k = n'
      · rw [if_pos hkn'] at hn'
        exact absurd (hn.trans hn'.symm) (hid n)
      · rw [if_neg hkn'] at hn'
        exact h.unique n n' j hn hn'
  · have htracks := h.tracks.mono hother
    split
    · exact htracks.grows (RemoteSignals.grows_announce htracks.wellFormed id)
    · exact htracks
  · intro j
    cases helloSent with
    | true =>
        rw [if_pos rfl, RemoteSignals.announced_announce, hmem]
        by_cases hj : id = j
        · rw [if_pos hj]
          exact iff_of_true rfl ⟨rfl, .inl hj⟩
        · rw [if_neg hj, h.announced j]
          exact and_congr_right fun _ => (or_iff_right hj).symm
    | false =>
        rw [if_neg Bool.false_ne_true, h.announced j]
        exact iff_of_false (fun hj => Bool.false_ne_true hj.1) fun hj => Bool.false_ne_true hj.1

/-- A registered signal is removed. -/
theorem Advertises.removed (h : Advertises helloSent c r) (hkeyed : c'.Keyed)
    (hnames : ∀ n, c'.names n = if k = n then none else c.names n) (hk : c.names k = some id) :
    Advertises helloSent c' (r.withdraw id).1 := by
  have hother : ∀ n j, c'.names n = some j ↔ id ≠ j ∧ c.names n = some j := by
    intro n j
    rw [hnames]
    by_cases hkn : k = n
    · rw [if_pos hkn, ← hkn, hk]
      constructor
      · intro hn
        cases hn
      · rintro ⟨hne, hn⟩
        exact absurd (Option.some.inj hn) hne
    · rw [if_neg hkn]
      refine ⟨fun hn => ⟨?_, hn⟩, And.right⟩
      rintro rfl
      exact hkn (h.unique k n id hk hn)
  refine ⟨hkeyed, ?_, ?_, ?_⟩
  · intro n n' j hn hn'
    exact h.unique n n' j ((hother n j).mp hn).2 ((hother n' j).mp hn').2
  · apply h.tracks.withdraw
    intro n j hne hn
    exact (hother n j).mpr ⟨hne.symm, hn⟩
  · intro j
    rw [RemoteSignals.announced_withdraw]
    by_cases hj : id = j
    · rw [if_pos hj]
      refine iff_of_false Bool.false_ne_true ?_
      rintro ⟨-, n, hn⟩
      exact ((hother n j).mp hn).1 hj
    · rw [if_neg hj, h.announced j]
      refine and_congr_right fun _ => exists_congr fun n => ?_
      rw [hother]
      exact (and_iff_right hj).symm

/-- The peer is greeted. -/
theorem Advertises.greeted (h : Advertises helloSent c r) {r' : RemoteSignals}
    (htracks : r'.Tracks c.names)
    (hannounced : ∀ j, r'.announced j = true ↔
      (∃ n, c.names n = some j) ∨ r.announced j = true) : Advertises true c r' := by
  refine ⟨h.keyed, h.unique, htracks, fun j => ?_⟩
  rw [hannounced, h.announced]
  constructor
  · rintro (hj | ⟨-, hj⟩)
    · exact ⟨rfl, hj⟩
    · exact ⟨rfl, hj⟩
  · exact fun hj => .inl hj.2

end Names

section Connection

variable {c : Connection}

theorem signalIds_ids (ids : List String) :
    signalIds (.object [("signalIds", .array (ids.map .string))]) = ids := by
  change (ids.map Json.string).filterMap Json.string? = ids
  rw [List.filterMap_map]
  exact List.filterMap_some

/-- An available message. -/
theorem hear_available (r : RemoteSignals) (ids : List String) :
    hear r (Connection.idsMessage "available" ids) =
      some (r.handleAvailable (.object [("signalIds", .array (ids.map .string))])).1 := rfl

/-- **`connection::add_local_signal`.** -/
theorem utters_addLocalSignal {signal : LocalSignal} (hunique : UniqueId c.locals signal)
    (hroom : c.locals.HasRoom signal) :
    Utters c (c.addLocalSignal signal).1 (c.addLocalSignal signal).2 := by
  intro r h
  unfold Connection.addLocalSignal
  cases hfind : c.locals.findByAddress signal.address with
  | some found =>
      rw [LocalSignals.addLocalSignal_of_some hfind]
      exact ⟨r, rfl, h⟩
  | none =>
      have hfree : OrderedMap.find? c.locals.signals c.locals.nextSigno = none := by
        rcases hroom with hregistered | hfree
        · rw [LocalSignals.IsRegistered, hfind] at hregistered
          cases hregistered
        · exact hfree
      have hnew : ∀ n, c.locals.names n ≠ some signal.id := by
        intro n hn
        obtain ⟨e, he, hid⟩ := Option.map_eq_some_iff.mp hn
        have hmem := OrderedMap.mem_of_find?_eq_some he
        have hnone := List.find?_eq_none.mp hfind _ hmem
        exact hnone (decide_eq_true ((hunique _ hmem).mpr hid))
      have hadded := h.added (h.keyed.addLocalSignal signal)
        (LocalSignals.names_addLocalSignal hfind hfree)
        (by rw [LocalSignals.names, hfree]; rfl) hnew
      have hflag : (c.locals.addLocalSignal signal).2 = true := by
        unfold LocalSignals.addLocalSignal LocalSignals.emplaceSignal
        rw [hfind]
        dsimp only
        split <;> rfl
      dsimp only
      rw [hflag, Bool.true_and]
      cases hhello : c.helloSent with
      | false =>
          rw [hhello] at hadded
          refine ⟨r, rfl, ?_⟩
          exact hadded
      | true =>
          rw [hhello] at hadded
          refine ⟨(r.announce signal.id).1, Carries.single (heard_of_ne (by decide) r _ _) ?_,
            hadded⟩
          rw [hear_available]
          rfl

/-- **`connection::remove_local_signal`.** -/
theorem utters_removeLocalSignal {signal : LocalSignal} (hid : SameId c.locals signal)
    (hnumber : ∀ e ∈ c.locals.findByAddress signal.address, e.1 ≠ 0) :
    Utters c (c.removeLocalSignal signal).1 (c.removeLocalSignal signal).2 := by
  intro r h
  have hkeyed := (h.keyed.removeLocalSignal signal).1
  unfold Connection.removeLocalSignal LocalSignals.removeLocalSignal at *
  cases hfind : c.locals.findByAddress signal.address with
  | none => exact ⟨r, rfl, h⟩
  | some found =>
      obtain ⟨k, e⟩ := found
      rw [hfind] at hkeyed
      dsimp only at hkeyed ⊢
      have hk := LocalSignals.find?_of_findByAddress h.keyed.distinct hfind
      have hsame := hid _ (OrderedMap.mem_of_find?_eq_some hk)
        (LocalSignals.address_of_findByAddress hfind)
      have hname : c.locals.names k = some signal.id := by
        rw [LocalSignals.names_of_find hk]
        exact congrArg some hsame
      have hremoved := h.removed hkeyed (LocalSignals.names_erase k) hname
      rw [if_pos (hnumber _ hfind), messagesOf_append, RegisteredLocalSignal.messagesOf_release]
      exact ⟨_, Carries.single (heard_of_ne (by decide) r _ _) rfl, hremoved⟩

/-- **`connection::do_hello`.** -/
theorem utters_doHello (c : Connection) : Utters c c.doHello.1 c.doHello.2 := by
  intro r h
  obtain ⟨r₁, hversion, hsame₁⟩ := hear_other h.tracks.noDangling 0 "apiVersion"
    (by decide) (by decide) (by decide) (by decide) (.object [("version", .string "2.0.0")])
  have h₁ := h.same hsame₁
  obtain ⟨r₂, hinit, hsame₂⟩ := hear_other h₁.tracks.noDangling 0 "init"
    (by decide) (by decide) (by decide) (by decide)
    (.object [("commandInterfaces", c.commandInterfaces), ("streamId", .string c.localStreamId)])
  have h₂ := h₁.same hsame₂
  have hbegin : Carries hear Heard r [Connection.apiVersionMessage, c.initMessage] r₂ :=
    Carries.cons (heard_of_ne (by decide) r _ _) hversion
      (Carries.single (heard_of_ne (by decide) r₁ _ _) hinit)
  have hids (j : String) : j ∈ c.localIds ↔ ∃ n, c.locals.names n = some j :=
    LocalSignals.mem_ids_iff h.keyed.distinct
  unfold Connection.doHello
  rw [messagesOf_append]
  by_cases hempty : c.localIds = []
  · refine ⟨r₂, ?_, h₂.greeted h₂.tracks fun j => ?_⟩
    · rw [if_pos hempty]
      exact hbegin
    · rw [← hids, hempty, or_iff_right List.not_mem_nil]
  · have hshown : Advertises true c.locals (r₂.handleAvailable
        (.object [("signalIds", .array (c.localIds.map .string))])).1 := by
      refine h₂.greeted (h₂.tracks.handleAvailable _) fun j => ?_
      rw [RemoteSignals.announced_handleAvailable, signalIds_ids, hids]
    refine ⟨_, ?_, hshown⟩
    rw [if_neg hempty]
    exact hbegin.append (Carries.single (heard_of_ne (by decide) r₂ _ _)
      (hear_available r₂ c.localIds))

/-- Nothing changes that the peer could know of. -/
theorem Utters.silent {c c' : Connection} (hhello : c'.helloSent = c.helloSent)
    (hlocals : c'.locals = c.locals) : Utters c c' [] := by
  intro r h
  rw [hhello, hlocals]
  exact ⟨r, rfl, h⟩

/-- **`connection::do_command_interface`.** -/
theorem utters_doCommandInterface (c : Connection) (method : String) (params : Json) :
    Utters c (c.doCommandInterface method params).1 (c.doCommandInterface method params).2.1 := by
  unfold Connection.doCommandInterface
  split
  · exact conveys_doCommandInterfaceWith (fun c id => conveys_request c (.subscribe id)) _
      c.locals params
  split
  · exact conveys_doCommandInterfaceWith (fun c id => conveys_request c (.unsubscribe id)) _
      c.locals params
  · exact .silent rfl rfl

/-- **`connection::handle_command_interface_request`.** -/
theorem utters_request {params : Json} {q : Connection × List Output}
    (hq : c.handleCommandInterfaceRequest params = some q) : Utters c q.1 q.2 := by
  unfold Connection.handleCommandInterfaceRequest at hq
  split at hq
  · rw [← Option.some.inj hq]
    intro r h
    -- The response does not concern the signals.
    have hreply {c' : Connection} {outputs : List Output} (h' : Utters c c' outputs)
        (reply : Json) : Utters c c' (outputs ++ [.send (.ofMetadata 0 "response" reply)]) := by
      intro r h
      obtain ⟨r', hcarries, hr'⟩ := h' r h
      obtain ⟨r'', hhear, hsame⟩ := hear_other hr'.tracks.noDangling 0 "response"
        (by decide) (by decide) (by decide) (by decide) reply
      rw [messagesOf_append]
      exact ⟨r'', hcarries.append (Carries.single (heard_of_ne (by decide) _ _ _) hhear),
        hr'.same hsame⟩
    cases params.stringAt? "method" with
    | none => exact hreply (.silent rfl rfl) _ r h
    | some method => exact hreply (utters_doCommandInterface c method _) _ r h
  · cases hq

/-- **A message that arrives.** -/
theorem utters_receive {m : Message} {q : Connection × List Output × List RemoteEvent}
    (hq : c.receive m = some q) : Utters c q.1 q.2.1 := by
  rcases Connection.receive_cases hq with ⟨-, rfl⟩ | ⟨-, rfl⟩ | ⟨-, q', hq', rfl⟩ |
    ⟨-, remotes, events, rfl⟩
  · obtain ⟨version, hframe⟩ := c.handleApiVersion_frame (Session.paramsOf m)
    rw [hframe]
    exact .silent rfl rfl
  · unfold Connection.handleInit
    split
    · dsimp only
      split
      · exact utters_doHello { c with
          remoteStreamId := ((Session.paramsOf m).stringAt? "streamId").getD c.remoteStreamId }
      · exact .silent rfl rfl
    · exact .silent rfl rfl
  · exact utters_request hq'
  · exact .silent rfl rfl

end Connection

/-! ## Two connections -/

/-- The two sides. -/
inductive Side where
  | client
  | server
deriving DecidableEq, Repr

/-- The peer of a side. -/
def Side.other : Side → Side
  | .client => .server
  | .server => .client

/-- A connection, and what it has sent and its peer has not received. -/
structure Endpoint where
  connection : Connection
  outgoing : List Message := []

/-- The two connections. -/
structure Link where
  client : Endpoint
  server : Endpoint

/-- What can happen; a request of the peer comes as a message or over HTTP. -/
inductive Action where
  /-- `connection::run`. -/
  | run (side : Side)
  /-- `connection::add_local_signal`. -/
  | add (side : Side) (signal : LocalSignal)
  /-- `connection::remove_local_signal`. -/
  | remove (side : Side) (signal : LocalSignal)
  /-- The command interface client of a side sends a request. -/
  | request (side : Side) (client : InBandClient Unit) (method : String) (params : Json)
  /-- `connection::do_command_interface`, called for an HTTP request. -/
  | command (side : Side) (method : String) (params : Json)
  /-- The next message of a side reaches its peer. -/
  | deliver (side : Side)

namespace Link

/-- A side. -/
def endpoint (w : Link) : Side → Endpoint
  | .client => w.client
  | .server => w.server

/-- Another state of a side. -/
def put (w : Link) (e : Endpoint) : Side → Link
  | .client => { w with client := e }
  | .server => { w with server := e }

/-- What an operation of a side leaves and sends. -/
def tells (w : Link) (side : Side) (r : Connection × List Output) : Link :=
  w.put { connection := r.1, outgoing := (w.endpoint side).outgoing ++ messagesOf r.2 } side

/-- One action.  A message may be handled before the connection runs, which the
code excludes; an empty channel delivers nothing. -/
def step (w : Link) : Action → Option Link
  | .run side =>
      if (w.endpoint side).connection.isClient then some w
      else some (w.tells side (w.endpoint side).connection.doHello)
  | .add side signal => some (w.tells side ((w.endpoint side).connection.addLocalSignal signal))
  | .remove side signal =>
      some (w.tells side ((w.endpoint side).connection.removeLocalSignal signal))
  | .request side client method params =>
      some (w.tells side ((w.endpoint side).connection,
        [.send (.metadata (client.asyncRequest method params ()).2)]))
  | .command side method params =>
      let (connection, outputs, _) := (w.endpoint side).connection.doCommandInterface method params
      some (w.tells side (connection, outputs))
  | .deliver side =>
      match (w.endpoint side).outgoing with
      | [] => some w
      | m :: rest =>
          ((w.endpoint side.other).connection.receive m).map fun r =>
            (w.put { (w.endpoint side) with outgoing := rest } side).tells side.other (r.1, r.2.1)

/-- A new client connection and a new server connection. -/
def new (clientId serverId : String) (clientInterfaces serverInterfaces : Json) : Link where
  client := ⟨{ isClient := true, localStreamId := clientId
               commandInterfaces := clientInterfaces }, []⟩
  server := ⟨{ localStreamId := serverId, commandInterfaces := serverInterfaces }, []⟩

/-- The ids are unique on each side. -/
def Unique (w : Link) : Action → Prop
  | .add side signal => UniqueId (w.endpoint side).connection.locals signal
  | .remove side signal => SameId (w.endpoint side).connection.locals signal
  | _ => True

/-- A registration finds its number free, and no signal with the number zero
is removed. -/
def Numbered (w : Link) : Action → Prop
  | .add side signal => (w.endpoint side).connection.locals.HasRoom signal
  | .remove side signal =>
      ∀ e ∈ (w.endpoint side).connection.locals.findByAddress signal.address, e.1 ≠ 0
  | _ => True

instance (w : Link) : (action : Action) → Decidable (w.Unique action)
  | .add _ _ => inferInstanceAs (Decidable (UniqueId _ _))
  | .remove _ _ => inferInstanceAs (Decidable (SameId _ _))
  | .run _ => isTrue trivial
  | .request _ _ _ _ => isTrue trivial
  | .command _ _ _ => isTrue trivial
  | .deliver _ => isTrue trivial

instance (w : Link) : (action : Action) → Decidable (w.Numbered action)
  | .add _ _ => inferInstanceAs (Decidable (_ ∨ _))
  | .remove _ _ =>
      inferInstanceAs (Decidable (∀ e ∈ (_ : Option (UInt32 × RegisteredLocalSignal)), e.1 ≠ 0))
  | .run _ => isTrue trivial
  | .request _ _ _ _ => isTrue trivial
  | .command _ _ _ => isTrue trivial
  | .deliver _ => isTrue trivial

/-- **Advertisement agreement.**  The signals of a side that has sent its hello,
and whose messages have arrived, are the ones that its peer shows. -/
def Agrees (w : Link) : Prop :=
  ∀ side, (w.endpoint side).connection.helloSent = true → (w.endpoint side).outgoing = [] →
    ∀ id, (w.endpoint side.other).connection.remotes.announced id = true ↔
      id ∈ (w.endpoint side).connection.localIds

/-- One direction. -/
def channel (w : Link) (side : Side) : Channel Connection Message RemoteSignals :=
  ⟨(w.endpoint side).connection, (w.endpoint side).outgoing,
    (w.endpoint side.other).connection.remotes⟩

/-- Once its messages have arrived, the peer of a side is up to date. -/
def UpToDate (w : Link) (side : Side) : Prop :=
  ∃ r, Settles hear Heard (fun c r => Advertises c.helloSent c.locals r) (w.channel side) r

end Link

section Steps

variable {w : Link}

theorem Side.eq_or_other (side side' : Side) : side' = side ∨ side' = side.other := by
  cases side <;> cases side' <;> simp [Side.other]

/-- **One side speaks.** -/
theorem upToDate_tells (h : ∀ side, w.UpToDate side) {side : Side} {r : Connection × List Output}
    (hutters : Utters (w.endpoint side).connection r.1 r.2)
    (hremotes : r.1.remotes = (w.endpoint side).connection.remotes) (side' : Side) :
    (w.tells side r).UpToDate side' := by
  rcases Side.eq_or_other side side' with rfl | rfl
  · obtain ⟨settled, hsettles⟩ := h side'
    obtain ⟨settled', hcarries, hadvertises⟩ := hutters settled hsettles.2
    have hchannel : (w.tells side' r).channel side' =
        { w.channel side' with
          sender := r.1, queue := (w.channel side').queue ++ messagesOf r.2 } := by
      cases side' <;> rfl
    refine ⟨settled', ?_⟩
    rw [hchannel]
    exact hsettles.sends hcarries hadvertises
  · obtain ⟨settled, hsettles⟩ := h side.other
    have hchannel : (w.tells side r).channel side.other =
        { w.channel side.other with receiver := r.1.remotes } := by
      cases side <;> rfl
    have hreceiver : (w.channel side.other).receiver = (w.endpoint side).connection.remotes := by
      cases side <;> rfl
    refine ⟨settled, ?_⟩
    rw [hchannel, hremotes, ← hreceiver]
    exact hsettles

/-- **One message arrives.** -/
theorem upToDate_deliver (h : ∀ side, w.UpToDate side) (side : Side) :
    ∃ w', w.step (.deliver side) = some w' ∧ ∀ side', w'.UpToDate side' := by
  unfold Link.step
  dsimp only
  cases hqueue : (w.endpoint side).outgoing with
  | nil => exact ⟨w, rfl, h⟩
  | cons m rest =>
      obtain ⟨settled, hsettles⟩ := h side
      obtain ⟨hheard, r, hr, hrest⟩ := hsettles.delivers hqueue
      -- The message is handled, and leaves of the signals what was expected.
      obtain ⟨q, hq, rfl⟩ := Option.map_eq_some_iff.mp hr
      obtain ⟨p, hp⟩ := Session.receive_isSome hheard
        ((RemoteSignals.step_isSome_iff (.message m)).mp ⟨q, hq⟩)
      have hremotes : q.1 = p.1.remotes := by
        have hstep := Session.remotes_receive hp
        rw [show (w.endpoint side.other).connection.remotes.step (.message m) = some q from hq]
          at hstep
        exact congrArg Prod.fst (Option.some.inj hstep)
      refine ⟨_, congrArg (Option.map _) hp, ?_⟩
      intro side'
      rcases Side.eq_or_other side side' with rfl | rfl
      · refine ⟨settled, ?_⟩
        rw [hremotes] at hrest
        cases side' <;> exact hrest
      · obtain ⟨settled', hsettles'⟩ := h side.other
        obtain ⟨settled'', hcarries, hadvertises⟩ := utters_receive hp settled' hsettles'.2
        refine ⟨settled'', ?_⟩
        have hsends := hsettles'.sends hcarries hadvertises
        cases side <;> exact hsends

/-- **One action.** -/
theorem upToDate_step (h : ∀ side, w.UpToDate side) {action : Action} (hunique : w.Unique action)
    (hnumbered : w.Numbered action) :
    ∃ w', w.step action = some w' ∧ ∀ side, w'.UpToDate side := by
  cases action with
  | run side =>
      unfold Link.step
      dsimp only
      split
      · exact ⟨w, rfl, h⟩
      · exact ⟨_, rfl, upToDate_tells h (utters_doHello _) rfl⟩
  | add side signal =>
      exact ⟨_, rfl, upToDate_tells h (utters_addLocalSignal hunique hnumbered) rfl⟩
  | remove side signal =>
      exact ⟨_, rfl, upToDate_tells h (utters_removeLocalSignal hunique hnumbered) rfl⟩
  | request side client method params =>
      refine ⟨_, rfl, upToDate_tells h ?_ rfl⟩
      intro r hr
      obtain ⟨r', hhear, hsame⟩ := hear_other hr.tracks.noDangling 0 "request"
        (by decide) (by decide) (by decide) (by decide)
        (client.asyncRequest method params ()).2.params
      refine ⟨r', Carries.single ?_ hhear, hr.same hsame⟩
      rfl
  | command side method params =>
      obtain ⟨locals, hframe⟩ := (w.endpoint side).connection.doCommandInterface_frame params method
      have hremotes : ((w.endpoint side).connection.doCommandInterface method params).1.remotes =
          (w.endpoint side).connection.remotes := by
        rw [hframe]
      exact ⟨_, rfl, upToDate_tells h (utters_doCommandInterface _ method params) hremotes⟩
  | deliver side => exact upToDate_deliver h side

theorem upToDate_new (clientId serverId : String) (clientInterfaces serverInterfaces : Json)
    (side : Side) :
    (Link.new clientId serverId clientInterfaces serverInterfaces).UpToDate side := by
  refine ⟨{}, ?_, ?_⟩
  · cases side <;> rfl
  · have hempty : Advertises false {} {} := by
      refine ⟨⟨List.nodup_nil, ?_⟩, ?_, RemoteSignals.tracks_empty _, ?_⟩
      · intro e he
        cases he
      · intro n n' id hn
        cases hn
      · intro id
        exact iff_of_false Bool.false_ne_true fun hid => Bool.false_ne_true hid.1
    cases side <;> exact hempty

end Steps

/-- **The two sides agree.**  In every run of two new connections with unique
ids whose registrations find their numbers free, and which removes no signal
with the number zero: each step is defined, and at its end each side that has
sent its hello and whose messages have arrived shows on the other side exactly
the signals that are registered. -/
theorem advertisement_agrees (clientId serverId : String)
    (clientInterfaces serverInterfaces : Json) (actions : List Action)
    (hunique : MeetsOpt Link.step Link.Unique
      (.new clientId serverId clientInterfaces serverInterfaces) actions)
    (hnumbered : MeetsOpt Link.step Link.Numbered
      (.new clientId serverId clientInterfaces serverInterfaces) actions) :
    ∃ w, actions.foldlM Link.step (.new clientId serverId clientInterfaces serverInterfaces) =
      some w ∧ w.Agrees := by
  have hstep (w : Link) (action : Action) (h : ∀ side, w.UpToDate side)
      (hok : w.Unique action ∧ w.Numbered action) :
      ∃ w', w.step action = some w' ∧ ∀ side, w'.UpToDate side :=
    upToDate_step h hok.1 hok.2
  obtain ⟨w, hw, hfresh⟩ := foldlM_invariant_of_meets hstep actions _
    (upToDate_new clientId serverId clientInterfaces serverInterfaces) (hunique.and hnumbered)
  refine ⟨w, hw, fun side hhello hdrained id => ?_⟩
  obtain ⟨settled, hsettles⟩ := hfresh side
  have hadvertises : Advertises (w.endpoint side).connection.helloSent
      (w.endpoint side).connection.locals (w.endpoint side.other).connection.remotes :=
    hsettles.of_drained hdrained
  rw [hadvertises.announced, hhello]
  have hids : id ∈ (w.endpoint side).connection.localIds ↔
      ∃ n, (w.endpoint side).connection.locals.names n = some id :=
    LocalSignals.mem_ids_iff hadvertises.keyed.distinct
  rw [hids]
  exact and_iff_right rfl

/-- A signal is registered while the sides greet each other, requested, removed
and registered again. -/
def exchange : List Action :=
  [.run .server, .deliver .server, .add .server LocalSignals.bareSignal, .deliver .server,
    .deliver .server, .request .client {} ".subscribe" (.array [.string "signal"]),
    .deliver .client, .deliver .client, .deliver .client, .deliver .server, .deliver .server,
    .deliver .server, .remove .server LocalSignals.bareSignal,
    .add .server LocalSignals.bareSignal, .deliver .server, .deliver .server]

theorem advertisement_agrees_exchange :
    ∃ w, exchange.foldlM Link.step (.new "" "" .null .null) = some w ∧ w.Agrees :=
  advertisement_agrees "" "" .null .null exchange (by decide +kernel) (by decide +kernel)

example : (exchange.foldlM Link.step (.new "" "" .null .null)).any (fun w =>
    w.server.connection.helloSent && w.server.outgoing.isEmpty &&
      w.client.connection.remotes.announced "signal") = true := by decide +kernel

/-! ## The 2^32nd registration -/

/-- Two connections that have done nothing, but that the server has registered
signals and removed them, and perhaps still has some. -/
def idle (locals : LocalSignals) (outgoing : List Message) : Link where
  client := ⟨{ isClient := true, commandInterfaces := .null }, []⟩
  server := ⟨{ commandInterfaces := .null, locals := locals }, outgoing⟩

/-- The server registers a signal and removes it. -/
def round : List Action :=
  [.add .server LocalSignals.bareSignal, .remove .server LocalSignals.bareSignal,
    .deliver .server]

/-- The same, a number of times. -/
def rounds : Nat → List Action
  | 0 => []
  | n + 1 => rounds n ++ round

/-- The server is activated, and does it once more. -/
def finale : List Action :=
  [.run .server, .deliver .server, .deliver .server, .add .server LocalSignals.bareSignal,
    .deliver .server, .remove .server LocalSignals.bareSignal]

/-- The client is told of each removal. -/
theorem run_round {k : UInt32} (hk : k ≠ 0) (t : Nat) :
    round.foldlM Link.step (idle ⟨[], k, t⟩ []) = some (idle ⟨[], k + 1, t + 1⟩ []) ∧
      MeetsOpt Link.step Link.Unique (idle ⟨[], k, t⟩ []) round := by
  obtain ⟨e, he⟩ : ∃ e : RegisteredLocalSignal,
      e = { signal := LocalSignals.bareSignal, signo := k, isExplicit := true } := ⟨_, rfl⟩
  have hadd : Link.step (idle ⟨[], k, t⟩ []) (.add .server LocalSignals.bareSignal) =
      some (idle ⟨[(k, e)], k + 1, t + 1⟩ []) := by
    have hlocals := LocalSignals.register_add_bareSignal k t
    rw [← he] at hlocals
    have hquiet : (idle ⟨[], k, t⟩ []).server.connection.addLocalSignal LocalSignals.bareSignal =
        ({ commandInterfaces := .null
           locals := (LocalSignals.mk [] k t).register (.add LocalSignals.bareSignal) }, []) := by
      unfold Connection.addLocalSignal
      rw [show (idle ⟨[], k, t⟩ []).server.connection.helloSent = false from rfl]
      dsimp only
      rw [Bool.and_false]
      rfl
    rw [hlocals] at hquiet
    exact congrArg (fun r => some ((idle ⟨[], k, t⟩ []).tells .server r)) hquiet
  have hremove : Link.step (idle ⟨[(k, e)], k + 1, t + 1⟩ [])
      (.remove .server LocalSignals.bareSignal) =
      some (idle ⟨[], k + 1, t + 1⟩ [Connection.idsMessage "unavailable" ["signal"]]) := by
    have hlocals : (LocalSignals.mk [(k, e)] (k + 1) (t + 1)).removeLocalSignal
        LocalSignals.bareSignal = (⟨[], k + 1, t + 1⟩, [], k) := by
      rw [he]
      simp [LocalSignals.removeLocalSignal, LocalSignals.findByAddress, OrderedMap.erase,
        RegisteredLocalSignal.release]
    have hsent : (idle ⟨[(k, e)], k + 1, t + 1⟩ []).server.connection.removeLocalSignal
        LocalSignals.bareSignal =
          ({ commandInterfaces := .null, locals := ⟨[], k + 1, t + 1⟩ },
            [.send (Connection.idsMessage "unavailable" ["signal"])]) := by
      unfold Connection.removeLocalSignal
      rw [show (idle ⟨[(k, e)], k + 1, t + 1⟩ []).server.connection.locals =
        ⟨[(k, e)], k + 1, t + 1⟩ from rfl, hlocals]
      dsimp only
      rw [if_pos hk]
      rfl
    exact congrArg (fun r => some ((idle ⟨[(k, e)], k + 1, t + 1⟩ []).tells .server r)) hsent
  have hdeliver : Link.step
      (idle ⟨[], k + 1, t + 1⟩ [Connection.idsMessage "unavailable" ["signal"]])
      (.deliver .server) = some (idle ⟨[], k + 1, t + 1⟩ []) := rfl
  constructor
  · rw [round, List.foldlM_cons, hadd, Option.bind_eq_bind, Option.bind_some, List.foldlM_cons,
      hremove, Option.bind_eq_bind, Option.bind_some, List.foldlM_cons, hdeliver]
    rfl
  · refine ⟨?_, fun w hw => ⟨?_, fun w' hw' => ⟨trivial, fun _ _ => trivial⟩⟩⟩
    · intro e he
      cases he
    · rw [hadd] at hw
      rw [← Option.some.inj hw]
      intro e' he' _
      rw [List.mem_singleton.mp he', he]

theorem run_rounds (n : Nat) (hn : n < 2 ^ 32) :
    (rounds n).foldlM Link.step (idle {} []) = some (idle ⟨[], UInt32.ofNat (n + 1), n⟩ []) ∧
      MeetsOpt Link.step Link.Unique (idle {} []) (rounds n) := by
  induction n with
  | zero => exact ⟨rfl, trivial⟩
  | succ n ih =>
      obtain ⟨hrun, hunique⟩ := ih (by omega)
      have hk : UInt32.ofNat (n + 1) ≠ 0 := by
        intro hzero
        have hnat := congrArg UInt32.toNat hzero
        rw [UInt32.toNat_ofNat', Nat.mod_eq_of_lt (by omega)] at hnat
        cases hnat
      have hround := run_round hk n
      constructor
      · rw [rounds, List.foldlM_append, hrun]
        refine hround.1.trans ?_
        rw [UInt32.ofNat_add (n + 1) 1]
        rfl
      · apply hunique.append
        intro w hw
        rw [hrun] at hw
        rw [← Option.some.inj hw]
        exact hround.2

/-- The client still shows a signal that is not registered. -/
theorem finale_run :
    (finale.foldlM Link.step (idle ⟨[], 0, 2 ^ 32 - 1⟩ [])).map (fun w =>
        (w.server.connection.helloSent, w.server.outgoing, w.server.connection.localIds,
          w.client.connection.remotes.announced "signal")) = some (true, [], [], true) ∧
      MeetsOpt Link.step Link.Unique (idle ⟨[], 0, 2 ^ 32 - 1⟩ []) finale := by
  decide +kernel

/-- The two sides do not agree in every run: the server registers and removes
signals until its counter is back at zero, and removes the signal with that
number, of which the client is not told. -/
theorem advertisement_disagrees :
    ¬ ∀ (clientId serverId : String) (clientInterfaces serverInterfaces : Json)
      (actions : List Action),
      MeetsOpt Link.step Link.Unique
        (.new clientId serverId clientInterfaces serverInterfaces) actions →
      ∃ w, actions.foldlM Link.step (.new clientId serverId clientInterfaces serverInterfaces) =
        some w ∧ w.Agrees := by
  intro hagrees
  obtain ⟨n, hn⟩ : ∃ n, n = 2 ^ 32 - 1 := ⟨_, rfl⟩
  obtain ⟨hrounds, hunique⟩ := run_rounds n (by omega)
  have hzero : UInt32.ofNat (n + 1) = 0 := by
    rw [hn]
    rfl
  rw [hzero] at hrounds
  have hend := finale_run
  rw [← hn] at hend
  obtain ⟨hfinale, hunique'⟩ := hend
  obtain ⟨w, hw, hobserved⟩ := Option.map_eq_some_iff.mp hfinale
  obtain ⟨hhello, hdrained, hids, hannounced⟩ : w.server.connection.helloSent = true ∧
      w.server.outgoing = [] ∧ w.server.connection.localIds = [] ∧
      w.client.connection.remotes.announced "signal" = true := by
    simpa using hobserved
  have hmeets : MeetsOpt Link.step Link.Unique (idle {} []) (rounds n ++ finale) := by
    apply hunique.append
    intro s' hs'
    rw [hrounds] at hs'
    rw [← Option.some.inj hs']
    exact hunique'
  have hrun : (rounds n ++ finale).foldlM Link.step (idle {} []) = some w := by
    rw [List.foldlM_append, hrounds]
    exact hw
  obtain ⟨w', hw', hagree⟩ := hagrees "" "" .null .null _ hmeets
  change (rounds n ++ finale).foldlM Link.step (idle {} []) = some w' at hw'
  rw [hrun] at hw'
  obtain rfl := Option.some.inj hw'
  have hmem := (hagree .server hhello hdrained "signal").mp hannounced
  rw [show (w.endpoint .server).connection.localIds = [] from hids] at hmem
  cases hmem

end Advertisement
end WsStreaming.Ports
