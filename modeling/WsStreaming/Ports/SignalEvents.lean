import Mathlib.Data.List.Nodup
import WsStreaming.Verified.Trace
import WsStreaming.Ports.SignalTables

/-!
# Events of remote signals

The order of the events that a connection raises about remote signals:
`on_available` and `on_unavailable` of the connection alternate for each id,
`on_subscribed` and `on_unsubscribed` alternate for each object, and nothing
of the two comes after the object was detached.

Both laws are monitors whose state can be read off the tables: whether the id
is announced, and the phase of the object.  They hold as long as the behaviour
is defined, that is as long as no message follows a dangling number.

## Main results

* `Obeys` and its lemmas — what one operation raises.
* `obeys_step` — one step.
* `events_disciplined_iff` — whole runs.
-/

namespace WsStreaming.Ports

open WsStreaming.Verified
open WsStreaming.Verified.OrderedMap (OMap Distinct)
open WsStreaming.Verified.Run
open WsStreaming.Verified.Trace
open WsStreaming.Verified.Wire (Bytes)

namespace RemoteSignals

/-! ## The laws -/

/-- `on_available` and `on_unavailable` of one id alternate; the state is
whether the signal is announced. -/
def availability (id : String) : Monitor Bool RemoteEvent
  | isAnnounced, .available id' _ =>
      if id' = id then (if isAnnounced then none else some true) else some isAnnounced
  | isAnnounced, .unavailable id' _ =>
      if id' = id then (if isAnnounced then some false else none) else some isAnnounced
  | isAnnounced, .signal _ _ => some isAnnounced

/-- The phases of an object. -/
inductive Phase where
  | idle
  | subscribed
  | detached
deriving DecidableEq, Repr

/-- What an event of the object itself does to its phase. -/
def Phase.next : Phase → SignalEvent → Option Phase
  | .idle, .subscribed => some .subscribed
  | .subscribed, .unsubscribed => some .idle
  | .idle, .unavailable => some .detached
  | _, .subscribed | _, .unsubscribed | _, .unavailable => none
  | phase, .metadataChanged => some phase
  | phase, .dataReceived _ _ _ => some phase

/-- `on_subscribed` and `on_unsubscribed` of one object alternate, until it is
detached while it is not subscribed. -/
def lifecycle (address : Nat) : Monitor Phase RemoteEvent
  | phase, .signal a event => if a = address then phase.next event else some phase
  | phase, .available _ _ => some phase
  | phase, .unavailable _ _ => some phase

/-- Whether an id is announced. -/
def announced (c : RemoteSignals) (id : String) : Bool :=
  ((OrderedMap.find? c.byId id).map fun e => !e.hidden).getD false

/-- The phase of an object. -/
def phase (c : RemoteSignals) (a : Nat) : Phase :=
  match c.objects[a]? with
  | none => .idle
  | some s => if c.live a then (if s.isSubscribed then .subscribed else .idle) else .detached

/-- The events of an operation obey both laws. -/
structure Obeys (c : RemoteSignals) (r : RemoteSignals × List RemoteEvent) : Prop where
  availability : ∀ id, (availability id).read (c.announced id) r.2 = some (r.1.announced id)
  lifecycle : ∀ a, (lifecycle a).read (c.phase a) r.2 = some (r.1.phase a)

theorem Obeys.append {c : RemoteSignals} {r r' : RemoteSignals × List RemoteEvent}
    (h : c.Obeys r) (h' : r.1.Obeys r') : c.Obeys (r'.1, r.2 ++ r'.2) :=
  ⟨fun id => Monitor.read_append_of (h.availability id) (h'.availability id),
    fun a => Monitor.read_append_of (h.lifecycle a) (h'.lifecycle a)⟩

theorem Obeys.refl (c : RemoteSignals) : c.Obeys (c, []) := ⟨fun _ => rfl, fun _ => rfl⟩

/-! ## Messages for one signal -/

section Object

variable {c c' : RemoteSignals}

theorem phase_of_live {a : Nat} {s : RemoteSignal} (hs : c.objects[a]? = some s)
    (hlive : c.live a = true) : c.phase a = if s.isSubscribed then .subscribed else .idle := by
  simp only [phase, hs, hlive, if_true]

theorem phase_eq (hlive : c'.live = c.live) {a : Nat}
    (hobject : (c'.objects[a]?).map RemoteSignal.isSubscribed =
      (c.objects[a]?).map RemoteSignal.isSubscribed) : c'.phase a = c.phase a := by
  unfold phase
  cases hs' : c'.objects[a]? with
  | none =>
      rw [hs', Option.map_none] at hobject
      rw [Option.map_eq_none_iff.mp hobject.symm]
  | some s' =>
      rw [hs', Option.map_some] at hobject
      obtain ⟨s, hs, hsub⟩ := Option.map_eq_some_iff.mp hobject.symm
      rw [hs, hlive]
      dsimp only
      rw [hsub]

theorem live_eq (hid : c'.byId = c.byId) : c'.live = c.live := by
  funext a
  rw [live, live, hid]

theorem announced_eq (hid : c'.byId = c.byId) (id : String) :
    c'.announced id = c.announced id := by
  rw [announced, announced, hid]

theorem announced_addRemoteSignal (id j : String) :
    (c.addRemoteSignal id true).1.announced j = c.announced j := by
  rw [announced, announced, find?_addRemoteSignal]
  by_cases hid : id = j
  · rw [if_pos hid, ← hid]
    cases hfind : OrderedMap.find? c.byId id with
    | some e => rw [addRemoteSignal_of_some id true hfind]
    | none =>
        rw [addRemoteSignal_of_none id true hfind]
        rfl
  · rw [if_neg hid]

theorem announced_announce (id j : String) :
    (c.announce id).1.announced j = if id = j then true else c.announced j := by
  rw [announced, find?_announce]
  split
  · rfl
  · rfl

theorem announced_withdraw (id j : String) :
    (c.withdraw id).1.announced j = if id = j then false else c.announced j := by
  rw [announced, find?_withdraw]
  split
  · rfl
  · rfl

/-- Events that no law is about. -/
def Unlawed (events : List RemoteEvent) : Prop :=
  ∀ e ∈ events, ∃ a event, e = .signal a event ∧ ∀ phase : Phase, phase.next event = some phase

/-- An operation that neither subscribes, unsubscribes, adds nor removes. -/
theorem obeys_of_eq {r : RemoteSignals × List RemoteEvent} (hid : r.1.byId = c.byId)
    (hobject : ∀ a : Nat, (r.1.objects[a]?).map RemoteSignal.isSubscribed =
      (c.objects[a]?).map RemoteSignal.isSubscribed)
    (hevents : Unlawed r.2) : c.Obeys r := by
  constructor
  · intro id
    rw [announced_eq hid]
    apply Monitor.read_ignored
    intro e he
    obtain ⟨a, event, rfl, -⟩ := hevents e he
    rfl
  · intro a
    rw [phase_eq (live_eq hid) (hobject a)]
    apply Monitor.read_ignored
    intro e he
    obtain ⟨b, event, rfl, hnext⟩ := hevents e he
    rw [lifecycle]
    split
    · exact hnext _
    · rfl

theorem Quiet.isSubscribed (h : Quiet c c') (a : Nat) :
    (c'.objects[a]?).map RemoteSignal.isSubscribed =
      (c.objects[a]?).map RemoteSignal.isSubscribed := by
  have hobject := congrArg (Option.map fun t : String × UInt32 × Bool => t.2.2) (h.object a)
  rw [Option.map_map, Option.map_map] at hobject
  exact hobject

theorem Quiet.obeys {r : RemoteSignals × List RemoteEvent} (h : Quiet c r.1)
    (hevents : Unlawed r.2) : c.Obeys r :=
  obeys_of_eq h.byId h.isSubscribed hevents

theorem unlawed_nil : Unlawed [] := fun _ he => nomatch he

theorem unlawed_singleton {a : Nat} {event : SignalEvent}
    (h : ∀ phase : Phase, phase.next event = some phase) : Unlawed [.signal a event] := by
  intro e he
  exact ⟨a, event, List.mem_singleton.mp he, h⟩

theorem unlawed_metadataChanged (a : Nat) : Unlawed [.signal a .metadataChanged] :=
  unlawed_singleton fun phase => by cases phase <;> rfl

theorem unlawed_dataReceived (a : Nat) (value : Int64) (count : Nat) (data : Bytes) :
    Unlawed [.signal a (.dataReceived value count data)] :=
  unlawed_singleton fun phase => by cases phase <;> rfl

theorem unlawed_onObject (a : Nat) (f : RemoteSignal → RemoteSignal × List SignalEvent)
    (hf : ∀ s, (f s).2 = [] ∨ (f s).2 = [.metadataChanged]) : Unlawed (c.onObject a f).2 := by
  rw [onObject]
  cases c.objects[a]? with
  | none => exact unlawed_nil
  | some s =>
      rcases hf s with h | h
      · dsimp only
        rw [h]
        exact unlawed_nil
      · dsimp only
        rw [h]
        exact unlawed_metadataChanged a

theorem obeys_handleMetadata_quiet {method : String} (hsub : method ≠ "subscribe")
    (hunsub : method ≠ "unsubscribe") (a : Nat) (params : Json) :
    c.Obeys (c.handleMetadata a method params) := by
  have hquiet := quiet_handleMetadata c a hsub hunsub params
  apply hquiet.obeys
  rw [handleMetadata, if_neg hsub, if_neg hunsub]
  split
  · exact unlawed_metadataChanged a
  split
  · apply unlawed_onObject
    intro s
    dsimp only
    split
    · exact .inr rfl
    · exact .inl rfl
  split
  · exact unlawed_onObject a _ fun s => .inr rfl
  split
  · exact unlawed_onObject a _ fun s => .inl rfl
  · exact unlawed_nil

theorem obeys_handleData (a : Nat) (data : Bytes) : c.Obeys (c.handleData a data) := by
  apply (quiet_handleData c a data).obeys
  unfold handleData
  split
  · exact unlawed_nil
  dsimp only
  split
  · exact unlawed_dataReceived a _ _ _
  split
  · exact unlawed_dataReceived a _ _ _
  split
  · exact unlawed_dataReceived a _ _ _
  · exact unlawed_dataReceived a _ _ _

/-- An object handler that changes whether the signal is subscribed: the
events are the ones of a live object. -/
theorem obeys_onObject {a : Nat} (hlive : c.live a = true)
    {f : RemoteSignal → RemoteSignal × List SignalEvent}
    (hf : ∀ s : RemoteSignal, (f s).2.foldlM Phase.next
      (if s.isSubscribed then .subscribed else .idle) =
        some (if (f s).1.isSubscribed then .subscribed else .idle)) :
    c.Obeys (c.onObject a f) := by
  have hmaps := byId_onObject c a f
  constructor
  · intro id
    rw [announced_eq hmaps.1]
    apply Monitor.read_ignored
    intro e he
    rw [onObject] at he
    split at he
    · cases he
    · obtain ⟨event, -, rfl⟩ := List.mem_map.mp he
      rfl
  · intro b
    have hobject := getElem?_onObject c a f b
    have hlive' := live_eq hmaps.1
    by_cases hab : a = b
    · subst hab
      rw [if_pos rfl] at hobject
      rw [onObject] at hlive' hobject ⊢
      cases hs : c.objects[a]? with
      | none => rfl
      | some s =>
          rw [hs] at hlive' hobject
          dsimp only [Option.map_some] at hobject hlive' ⊢
          rw [phase_of_live hs hlive, phase_of_live hobject (by rw [hlive']; exact hlive)]
          rw [Monitor.read, List.foldlM_map, ← hf s]
          congr 1
          funext phase event
          exact if_pos rfl
    · rw [if_neg hab] at hobject
      rw [phase_eq hlive' (by rw [hobject])]
      apply Monitor.read_ignored
      intro e he
      rw [onObject] at he
      split at he
      · cases he
      · obtain ⟨event, -, rfl⟩ := List.mem_map.mp he
        exact if_neg hab

theorem obeys_handleMetadata {a : Nat} (hlive : c.live a = true) (method : String)
    (params : Json) : c.Obeys (c.handleMetadata a method params) := by
  by_cases hsub : method = "subscribe"
  · rw [handleMetadata, if_pos hsub]
    apply obeys_onObject hlive
    intro s
    unfold RemoteSignal.handleSubscribe
    by_cases hs : s.isSubscribed = true
    · rw [if_pos hs, if_pos hs, if_pos hs]
      rfl
    · rw [if_neg hs, if_neg hs]
      rfl
  by_cases hunsub : method = "unsubscribe"
  · rw [handleMetadata, if_neg hsub, if_pos hunsub]
    apply obeys_onObject hlive
    intro s
    unfold RemoteSignal.handleUnsubscribe
    by_cases hs : s.isSubscribed = true
    · rw [if_pos hs, if_pos hs]
      rfl
    · rw [if_neg hs, if_neg hs, if_neg hs]
      rfl
  · exact obeys_handleMetadata_quiet hsub hunsub a params

end Object

/-! ## Adding and announcing -/

section Add

variable {c : RemoteSignals}

/-- An object that is not live is not touched by what is added. -/
theorem live_addRemoteSignal_iff (h : c.WellFormed) (id : String) (hidden : Bool) {a : Nat}
    (ha : a < c.objects.length) :
    (c.addRemoteSignal id hidden).1.live a = c.live a := by
  rw [Bool.eq_iff_iff]
  constructor
  · intro hlive
    obtain ⟨j, e, hj, rfl⟩ := (h.addRemoteSignal id hidden).live_iff.mp hlive
    cases hfind : OrderedMap.find? c.byId id with
    | some e' =>
        rw [addRemoteSignal_of_some id hidden hfind] at hj
        exact h.live_iff.mpr ⟨j, e, hj, rfl⟩
    | none =>
        rw [find?_addRemoteSignal, addRemoteSignal_of_none id hidden hfind] at hj
        by_cases hid : id = j
        · rw [if_pos hid] at hj
          rw [← Option.some.inj hj] at ha
          exact absurd ha (Nat.lt_irrefl _)
        · rw [if_neg hid] at hj
          exact h.live_iff.mpr ⟨j, e, hj, rfl⟩
  · exact live_addRemoteSignal id hidden h

/-- Adding an entry begins no phase. -/
theorem phase_addRemoteSignal (h : c.WellFormed) (id : String) (hidden : Bool) (a : Nat) :
    (c.addRemoteSignal id hidden).1.phase a = c.phase a := by
  cases hs : c.objects[a]? with
  | some s =>
      have ha := (List.getElem?_eq_some_iff.mp hs).1
      unfold phase
      rw [getElem?_addRemoteSignal id hidden hs, hs, live_addRemoteSignal_iff h id hidden ha]
  | none =>
      cases hfind : OrderedMap.find? c.byId id with
      | some e => rw [addRemoteSignal_of_some id hidden hfind]
      | none =>
          have hnew : c.phase a = .idle := by rw [phase, hs]
          have hlive := live_added id hidden h
          rw [hnew]
          rw [addRemoteSignal_of_none id hidden hfind] at hlive ⊢
          by_cases ha : a = c.objects.length
          · subst ha
            have hobject : (c.objects ++ [({ id := id } : RemoteSignal)])[c.objects.length]? =
                some { id := id } := by simp
            exact phase_of_live hobject hlive
          · have hlength := List.getElem?_eq_none_iff.mp hs
            have hobject : (c.objects ++ [({ id := id } : RemoteSignal)])[a]? = none := by
              apply List.getElem?_eq_none_iff.mpr
              rw [List.length_append, List.length_singleton]
              omega
            rw [phase, hobject]

/-- An entry is added hidden. -/
theorem obeys_addRemoteSignal (h : c.WellFormed) (id : String) :
    c.Obeys ((c.addRemoteSignal id true).1, []) := by
  constructor
  · intro j
    rw [Monitor.read_nil, announced_addRemoteSignal]
  · intro a
    rw [Monitor.read_nil, phase_addRemoteSignal h]

/-- What an announcement raises. -/
theorem announce_snd (id : String) :
    (c.announce id).2 =
      if c.announced id then [] else [.available id (c.addRemoteSignal id false).2.2.address] := by
  rw [announce_eq, announced]
  cases hfind : OrderedMap.find? c.byId id with
  | some e =>
      rw [addRemoteSignal_of_some id false hfind]
      cases hhidden : e.hidden with
      | true => simp [hhidden]
      | false => simp [hhidden]
  | none =>
      rw [addRemoteSignal_of_none id false hfind]
      rfl

theorem live_announce_iff (h : c.WellFormed) (id : String) (a : Nat) :
    (c.announce id).1.live a = (c.addRemoteSignal id false).1.live a := by
  rw [Bool.eq_iff_iff, (h.announce id).live_iff, (h.addRemoteSignal id false).live_iff]
  constructor
  · rintro ⟨j, e, hj, rfl⟩
    rw [find?_announce] at hj
    by_cases hid : id = j
    · rw [if_pos hid] at hj
      exact ⟨j, _, by rw [find?_addRemoteSignal, if_pos hid], by rw [← Option.some.inj hj]⟩
    · rw [if_neg hid] at hj
      exact ⟨j, e, by rw [find?_addRemoteSignal, if_neg hid, hj], rfl⟩
  · rintro ⟨j, e, hj, rfl⟩
    rw [find?_addRemoteSignal] at hj
    by_cases hid : id = j
    · rw [if_pos hid] at hj
      exact ⟨j, _, by rw [find?_announce, if_pos hid], by rw [← Option.some.inj hj]⟩
    · rw [if_neg hid] at hj
      exact ⟨j, e, by rw [find?_announce, if_neg hid, hj], rfl⟩

theorem obeys_announce (h : c.WellFormed) (id : String) : c.Obeys (c.announce id) := by
  constructor
  · intro j
    rw [announced_announce, announce_snd]
    by_cases hid : id = j
    · subst hid
      cases hbefore : c.announced id with
      | true => simp
      | false => simp [Monitor.read_cons, availability]
    · rw [if_neg hid]
      apply Monitor.read_ignored
      intro e he
      split at he
      · cases he
      · rw [List.mem_singleton.mp he]
        exact if_neg hid
  · intro a
    have hphase : (c.announce id).1.phase a = (c.addRemoteSignal id false).1.phase a := by
      rw [phase, objects_announce, live_announce_iff h]
      rfl
    rw [hphase, phase_addRemoteSignal h, announce_snd]
    apply Monitor.read_ignored
    intro e he
    split at he
    · cases he
    · rw [List.mem_singleton.mp he]
      rfl

end Add

/-- Operations that obey the laws one after another. -/
theorem obeys_forEach {f : RemoteSignals → String → RemoteSignals × List RemoteEvent}
    (hwf : ∀ (c : RemoteSignals) (id : String), c.WellFormed → (f c id).1.WellFormed)
    (hf : ∀ (c : RemoteSignals) (id : String), c.WellFormed → c.Obeys (f c id))
    (ids : List String) :
    ∀ c : RemoteSignals, c.WellFormed → c.Obeys (forEach f c ids) := by
  induction ids with
  | nil => exact fun c _ => .refl c
  | cons id ids ih => exact fun c hc => (hf c id hc).append (ih _ (hwf c id hc))

/-! ## Removing -/

section Withdraw

variable {c : RemoteSignals}

/-- What `detach` raises, by whether the signal is subscribed. -/
theorem read_detach (s : RemoteSignal) (a : Nat) :
    (lifecycle a).read (if s.isSubscribed then .subscribed else .idle)
      (s.detach.2.map (.signal a)) = some .detached := by
  rw [RemoteSignal.detach]
  by_cases hs : s.isSubscribed = true
  · rw [if_pos hs, if_pos hs]
    simp [Monitor.read_cons, lifecycle, Phase.next]
  · rw [if_neg hs, if_neg hs]
    simp [Monitor.read_cons, lifecycle, Phase.next]

/-- After a removal exactly the removed object is live no more. -/
theorem live_withdraw (h : c.WellFormed) {id : String} {e : RemoteSignalEntry}
    (hfind : OrderedMap.find? c.byId id = some e) (b : Nat) :
    (c.withdraw id).1.live b = (decide (e.address ≠ b) && c.live b) := by
  rw [Bool.eq_iff_iff, Bool.and_eq_true, decide_eq_true_eq, (h.withdraw id).live_iff, h.live_iff]
  constructor
  · rintro ⟨j, e', hj, rfl⟩
    rw [find?_withdraw] at hj
    by_cases hid : id = j
    · rw [if_pos hid] at hj
      cases hj
    · rw [if_neg hid] at hj
      exact ⟨fun haddress => hid (h.id_eq hfind hj haddress), j, e', hj, rfl⟩
  · rintro ⟨hne, j, e', hj, rfl⟩
    have hid : ¬ id = j := by
      intro hid
      rw [← hid, hfind] at hj
      exact hne (by rw [Option.some.inj hj])
    exact ⟨j, e', by rw [find?_withdraw, if_neg hid, hj], rfl⟩

theorem obeys_withdraw (h : c.WellFormed) (id : String) : c.Obeys (c.withdraw id) := by
  cases hfind : OrderedMap.find? c.byId id with
  | none =>
      rw [withdraw_of_none hfind]
      exact .refl c
  | some e =>
      obtain ⟨s, hs, -⟩ := h.object id e hfind
      have hlive : c.live e.address = true := h.live_iff.mpr ⟨id, e, hfind, rfl⟩
      have hevents : (c.withdraw id).2 = s.detach.2.map (.signal e.address) ++
          if e.hidden then [] else [.unavailable id e.address] := by
        rw [withdraw_of_some hfind]
        dsimp only
        rw [onObject]
        dsimp only
        rw [hs]
      have hobjects (b : Nat) : (c.withdraw id).1.objects[b]? =
          if e.address = b then (c.objects[b]?).map fun s => s.detach.1 else c.objects[b]? := by
        rw [withdraw_of_some hfind]
        exact getElem?_onObject _ _ _ b
      constructor
      · intro j
        have hdetach : (availability j).read (c.announced j) (s.detach.2.map (.signal e.address)) =
            some (c.announced j) := by
          apply Monitor.read_ignored
          intro event hevent
          obtain ⟨event, -, rfl⟩ := List.mem_map.mp hevent
          rfl
        rw [hevents, announced_withdraw]
        apply Monitor.read_append_of hdetach
        by_cases hid : id = j
        · subst hid
          rw [announced, hfind, Option.map_some, Option.getD_some, if_pos rfl]
          cases e.hidden with
          | true => rfl
          | false => simp [Monitor.read_cons, availability]
        · rw [if_neg hid]
          apply Monitor.read_ignored
          intro event hevent
          split at hevent
          · cases hevent
          · rw [List.mem_singleton.mp hevent]
            exact if_neg hid
      · intro b
        have hafter := hobjects b
        have hlast (phase : Phase) : (lifecycle b).read phase
            (if e.hidden then [] else [.unavailable id e.address]) = some phase := by
          apply Monitor.read_ignored
          intro event hevent
          split at hevent
          · cases hevent
          · rw [List.mem_singleton.mp hevent]
            rfl
        rw [hevents]
        by_cases hb : e.address = b
        · subst hb
          rw [if_pos rfl, hs, Option.map_some] at hafter
          have hdetached : (c.withdraw id).1.phase e.address = .detached := by
            rw [phase, hafter, live_withdraw h hfind]
            simp
          rw [hdetached, phase_of_live hs hlive]
          exact Monitor.read_append_of (read_detach s e.address) (hlast _)
        · rw [if_neg hb] at hafter
          have hsame : (c.withdraw id).1.phase b = c.phase b := by
            rw [phase, phase, hafter, live_withdraw h hfind, decide_eq_true hb, Bool.true_and]
          rw [hsame]
          apply Monitor.read_append_of _ (hlast _)
          apply Monitor.read_ignored
          intro event hevent
          obtain ⟨event, -, rfl⟩ := List.mem_map.mp hevent
          exact if_neg hb

end Withdraw

/-! ## Closing -/

section Clear

variable {c : RemoteSignals}

/-- What detaching one object raises. -/
def detachEvents (c : RemoteSignals) (a : Nat) : List RemoteEvent :=
  ((c.objects[a]?).map fun s => s.detach.2.map (RemoteEvent.signal a)).getD []

theorem onObject_detach_snd (a : Nat) :
    (c.onObject a RemoteSignal.detach).2 = c.detachEvents a := by
  rw [onObject, detachEvents]
  cases c.objects[a]? with
  | none => rfl
  | some s => rfl

/-- Objects that are detached one after another. -/
theorem detachAll_snd (entries : List (String × RemoteSignalEntry)) :
    ∀ c : RemoteSignals, (entries.map fun e => e.2.address).Nodup →
      (c.detachAll entries).2 = entries.flatMap fun e => c.detachEvents e.2.address := by
  induction entries with
  | nil => exact fun c _ => rfl
  | cons e entries ih =>
      intro c hnodup
      obtain ⟨hnot, hrest⟩ := List.nodup_cons.mp hnodup
      have htail := ih (c.onObject e.2.address RemoteSignal.detach).1 hrest
      change (c.onObject e.2.address RemoteSignal.detach).2 ++
        ((c.onObject e.2.address RemoteSignal.detach).1.detachAll entries).2 = _
      rw [List.flatMap_cons, onObject_detach_snd, htail]
      congr 1
      apply List.flatMap_congr
      intro e' he'
      have hne : e.2.address ≠ e'.2.address :=
        fun heq => hnot (List.mem_map.mpr ⟨e', he', heq.symm⟩)
      rw [detachEvents, detachEvents, getElem?_onObject, if_neg hne]

theorem isSome_detachAll (entries : List (String × RemoteSignalEntry)) (a : Nat) :
    ∀ c : RemoteSignals, ((c.detachAll entries).1.objects[a]?).isSome = (c.objects[a]?).isSome := by
  induction entries with
  | nil => exact fun c => rfl
  | cons e entries ih =>
      intro c
      refine (ih (c.onObject e.2.address RemoteSignal.detach).1).trans ?_
      rw [getElem?_onObject]
      split
      · rw [Option.isSome_map]
      · rfl

theorem WellFormed.nodup_addresses (h : c.WellFormed) :
    (c.byId.map fun e => e.2.address).Nodup := by
  apply List.Nodup.map_on _ (List.Nodup.of_map Prod.fst h.distinct)
  rintro ⟨id, e⟩ he ⟨id', e'⟩ he' haddress
  have hfind := (OrderedMap.find?_eq_some_iff h.distinct).mpr he
  have hfind' := (OrderedMap.find?_eq_some_iff h.distinct).mpr he'
  obtain rfl := h.id_eq hfind hfind' haddress
  rw [hfind] at hfind'
  rw [Option.some.inj hfind']

/-- The announced entries of a list are withdrawn, each once. -/
theorem read_withdrawals (id : String) (entries : OMap String RemoteSignalEntry)
    (hdistinct : Distinct entries) :
    (availability id).read (((OrderedMap.find? entries id).map fun e => !e.hidden).getD false)
      ((entries.filter fun e => !e.2.hidden).map fun e => .unavailable e.1 e.2.address) =
        some false := by
  induction entries with
  | nil => rfl
  | cons e entries ih =>
      obtain ⟨k, e⟩ := e
      have hrest := ih hdistinct.of_cons
      rw [OrderedMap.find?_cons, List.filter_cons]
      by_cases hk : k = id
      · subst hk
        have hnone : OrderedMap.find? entries k = none :=
          OrderedMap.find?_eq_none_iff.mpr (List.nodup_cons.mp hdistinct).1
        rw [hnone] at hrest
        rw [if_pos rfl]
        cases hhidden : e.hidden with
        | true => simpa [hhidden] using hrest
        | false =>
            simp only [hhidden, Bool.not_false, if_true, List.map_cons, Option.map_some,
              Option.getD_some, Monitor.read_cons, availability, Option.bind_some]
            exact hrest
      · rw [if_neg hk]
        cases hhidden : e.hidden with
        | true => simpa [hhidden] using hrest
        | false =>
            simp only [Bool.not_false, if_true, List.map_cons, Monitor.read_cons, availability,
              if_neg hk, Option.bind_some]
            exact hrest

theorem read_detachEvents_other {a b : Nat} (hab : b ≠ a) (phase : Phase) :
    (lifecycle a).read phase (c.detachEvents b) = some phase := by
  apply Monitor.read_ignored
  intro event hevent
  rw [detachEvents] at hevent
  cases hs : c.objects[b]? with
  | none =>
      rw [hs] at hevent
      cases hevent
  | some s =>
      rw [hs] at hevent
      obtain ⟨event, -, rfl⟩ := List.mem_map.mp hevent
      exact if_neg hab

/-- An object that is detached once. -/
theorem read_detached {a : Nat} {s : RemoteSignal} (hs : c.objects[a]? = some s)
    (entries : List (String × RemoteSignalEntry))
    (hnodup : (entries.map fun e => e.2.address).Nodup) :
    (lifecycle a).read
        (if a ∈ entries.map (fun e => e.2.address) then
          (if s.isSubscribed then .subscribed else .idle) else .detached)
        (entries.flatMap fun e => c.detachEvents e.2.address) = some .detached := by
  induction entries with
  | nil => rfl
  | cons e entries ih =>
      obtain ⟨hnot, hrest⟩ := List.nodup_cons.mp hnodup
      have htail := ih hrest
      rw [List.map_cons, List.flatMap_cons]
      by_cases ha : e.2.address = a
      · subst ha
        rw [if_neg hnot] at htail
        rw [if_pos List.mem_cons_self]
        refine Monitor.read_append_of ?_ htail
        rw [detachEvents, hs]
        exact read_detach s e.2.address
      · have hmem : (a ∈ e.2.address :: entries.map fun e => e.2.address) =
            (a ∈ entries.map fun e => e.2.address) := by
          rw [List.mem_cons, eq_comm (a := a), eq_false ha, false_or]
        simp only [hmem]
        exact Monitor.read_append_of (read_detachEvents_other ha _) htail

theorem live_iff_mem (a : Nat) :
    c.live a = true ↔ a ∈ c.byId.map fun e => e.2.address := by
  rw [live, List.any_eq_true, List.mem_map]
  constructor
  · rintro ⟨e, he, ha⟩
    exact ⟨e, he, of_decide_eq_true ha⟩
  · rintro ⟨e, he, ha⟩
    exact ⟨e, he, decide_eq_true ha⟩

theorem obeys_clearRemoteSignals (h : c.WellFormed) : c.Obeys c.clearRemoteSignals := by
  have hempty := clearRemoteSignals_empty c
  have hnodup := h.nodup_addresses
  have hdetach := detachAll_snd c.byId { c with byId := [], bySigno := [] } hnodup
  have hevents : c.clearRemoteSignals.2 = (c.byId.flatMap fun e => c.detachEvents e.2.address) ++
      (c.byId.filter fun e => !e.2.hidden).map fun e => .unavailable e.1 e.2.address :=
    congrArg (· ++ _) hdetach
  constructor
  · intro id
    have hafter : c.clearRemoteSignals.1.announced id = false := by
      rw [announced, hempty.1]
      rfl
    rw [hevents, hafter]
    refine Monitor.read_append_of ?_ (read_withdrawals id c.byId h.distinct)
    apply Monitor.read_ignored
    intro event hevent
    obtain ⟨e, -, hevent⟩ := List.mem_flatMap.mp hevent
    rw [detachEvents] at hevent
    cases hs : c.objects[e.2.address]? with
    | none =>
        rw [hs] at hevent
        cases hevent
    | some s =>
        rw [hs] at hevent
        obtain ⟨event, -, rfl⟩ := List.mem_map.mp hevent
        rfl
  · intro a
    have hlive : c.clearRemoteSignals.1.live a = false := by
      rw [live, hempty.1]
      rfl
    have hlast (phase : Phase) : (lifecycle a).read phase
        ((c.byId.filter fun e => !e.2.hidden).map fun e => .unavailable e.1 e.2.address) =
          some phase := by
      apply Monitor.read_ignored
      intro event hevent
      obtain ⟨e, -, rfl⟩ := List.mem_map.mp hevent
      rfl
    have hsome := isSome_detachAll c.byId a { c with byId := [], bySigno := [] }
    change (c.clearRemoteSignals.1.objects[a]?).isSome = (c.objects[a]?).isSome at hsome
    rw [hevents]
    refine Monitor.read_append_of ?_ (hlast _)
    cases hs : c.objects[a]? with
    | none =>
        have hnone : c.clearRemoteSignals.1.objects[a]? = none := by
          rw [hs] at hsome
          exact Option.not_isSome_iff_eq_none.mp (by rw [hsome]; simp)
        rw [phase, phase, hs, hnone]
        apply Monitor.read_flatMap_ignored
        intro e _
        by_cases ha : e.2.address = a
        · rw [detachEvents, ha, hs]
          rfl
        · exact read_detachEvents_other ha _
    | some s =>
        obtain ⟨s', hs'⟩ := Option.isSome_iff_exists.mp (hsome.trans (by rw [hs]; rfl))
        have hafter : c.clearRemoteSignals.1.phase a = .detached := by
          rw [phase, hs', hlive]
          rfl
        have hbefore : c.phase a =
            if a ∈ c.byId.map (fun e => e.2.address) then
              (if s.isSubscribed then .subscribed else .idle) else .detached := by
          simp only [phase, hs, live_iff_mem]
        rw [hafter, hbefore]
        exact read_detached hs c.byId hnodup

end Clear

/-! ## Steps and runs -/

section Step

variable {c : RemoteSignals}

theorem obeys_dispatch {signo : UInt32} {handler : Nat → RemoteSignals × List RemoteEvent}
    (hhandler : ∀ a, c.live a = true → c.Obeys (handler a))
    {r : RemoteSignals × List RemoteEvent} (h : c.dispatch signo handler = some r) :
    c.Obeys r := by
  rw [dispatch, follow] at h
  cases hfind : OrderedMap.find? c.bySigno signo with
  | none =>
      rw [hfind] at h
      rw [← Option.some.inj h]
      exact .refl c
  | some a =>
      rw [hfind] at h
      dsimp only at h
      by_cases hlive : c.live a = true
      · rw [if_pos hlive] at h
        rw [← Option.some.inj h]
        exact hhandler a hlive
      · rw [if_neg hlive] at h
        cases h

theorem obeys_dispatchMetadata {signo : UInt32} {method : String} {params : Json}
    {r : RemoteSignals × List RemoteEvent}
    (h : c.dispatchMetadata signo method params = some r) : c.Obeys r :=
  obeys_dispatch (fun _ hlive => obeys_handleMetadata hlive method params) h

theorem obeys_forgetRemoteSigno (signo : UInt32) : c.Obeys (c.forgetRemoteSigno signo, []) :=
  obeys_of_eq rfl (fun _ => rfl) unlawed_nil

theorem obeys_setRemoteSignalSigno (a : Nat) (signo : UInt32) :
    c.Obeys (c.setRemoteSignalSigno a signo, []) := by
  refine obeys_of_eq rfl (fun b => ?_) unlawed_nil
  dsimp only
  rw [setRemoteSignalSigno, getElem?_modifyObject]
  split
  · rw [Option.map_map]
    rfl
  · rfl

theorem obeys_handleSubscribe (h : c.WellFormed) (signo : UInt32) (params : Json) :
    c.Obeys (c.handleSubscribe signo params) := by
  by_cases hid : subscribedId params = ""
  · rw [handleSubscribe, if_pos hid]
    exact .refl c
  · rw [handleSubscribe_of_ne hid]
    have hadded := (obeys_addRemoteSignal h (subscribedId params)).append
      (obeys_setRemoteSignalSigno (c.addRemoteSignal (subscribedId params) true).2.2.address signo)
    have hlive : ((c.addRemoteSignal (subscribedId params) true).1.setRemoteSignalSigno
        (c.addRemoteSignal (subscribedId params) true).2.2.address signo).live
          (c.addRemoteSignal (subscribedId params) true).2.2.address = true :=
      live_added _ true h
    exact hadded.append (obeys_handleMetadata hlive "subscribe" params)

/-- **One step obeys the laws.** -/
theorem obeys_step (h : c.WellFormed) {i : Input} {r : RemoteSignals × List RemoteEvent}
    (hr : c.step i = some r) : c.Obeys r := by
  cases i with
  | close =>
      rw [← Option.some.inj hr]
      exact obeys_clearRemoteSignals h
  | message m =>
      cases m with
      | data signo data => exact obeys_dispatch (fun a _ => obeys_handleData a data) hr
      | metadata m =>
          change c.onPeerMetadataReceived m = some r at hr
          rw [onPeerMetadataReceived] at hr
          split at hr
          · rw [← Option.some.inj hr]
            exact obeys_handleSubscribe h m.signo m.params
          split at hr
          · rw [handleUnsubscribe] at hr
            obtain ⟨r', hr', rfl⟩ := Option.map_eq_some_iff.mp hr
            have hforget := (obeys_dispatchMetadata hr').append
              (obeys_forgetRemoteSigno (c := r'.1) m.signo)
            rw [List.append_nil] at hforget
            exact hforget
          split at hr
          · exact obeys_dispatchMetadata hr
          split at hr
          · rw [← Option.some.inj hr]
            exact obeys_forEach (fun c id hc => hc.announce id)
              (fun c id hc => obeys_announce hc id) _ c h
          split at hr
          · rw [← Option.some.inj hr]
            exact obeys_forEach (fun c id hc => hc.withdraw id)
              (fun c id hc => obeys_withdraw hc id) _ c h
          · rw [← Option.some.inj hr]
            exact .refl c

/-- The number under which a message is dispatched, if it is. -/
def dispatched : Input → Option UInt32
  | .message (.metadata m) =>
      if m.method = "subscribe" then none
      else if m.method = "unsubscribe" ∨ m.signo ≠ 0 then some m.signo else none
  | .message (.data signo _) => some signo
  | .close => none

/-- A message is not dispatched under a number whose pointer dangles. -/
def FollowsNoDangling (c : RemoteSignals) (i : Input) : Prop :=
  ∀ signo, dispatched i = some signo → c.follow signo ≠ none

theorem dispatch_isSome {signo : UInt32} {handler : Nat → RemoteSignals × List RemoteEvent} :
    (c.dispatch signo handler).isSome = (c.follow signo).isSome := by
  rw [dispatch, Option.isSome_map]

/-- A step has a result iff it follows no dangling pointer. -/
theorem step_isSome_iff (i : Input) : (∃ r, c.step i = some r) ↔ c.FollowsNoDangling i := by
  have hnone (hi : dispatched i = none) : c.FollowsNoDangling i := by
    intro signo hsigno
    rw [hi] at hsigno
    cases hsigno
  have hsome {signo : UInt32} (hi : dispatched i = some signo) 
      {r : Option (RemoteSignals × List RemoteEvent)} (hr : r.isSome = (c.follow signo).isSome) :
      (∃ r', r = some r') ↔ c.FollowsNoDangling i := by
    rw [← Option.isSome_iff_exists, hr, Option.isSome_iff_ne_none]
    constructor
    · intro hfollow n hn
      rw [hi] at hn
      rw [← Option.some.inj hn]
      exact hfollow
    · exact fun hfollow => hfollow signo hi
  cases i with
  | close => exact iff_of_true ⟨_, rfl⟩ (hnone rfl)
  | message m =>
      cases m with
      | data signo data => exact hsome rfl dispatch_isSome
      | metadata m =>
          change (∃ r, c.onPeerMetadataReceived m = some r) ↔ _
          rw [onPeerMetadataReceived]
          have hdispatched : dispatched (.message (.metadata m)) =
              if m.method = "subscribe" then none
              else if m.method = "unsubscribe" ∨ m.signo ≠ 0 then some m.signo else none := rfl
          by_cases hsub : m.method = "subscribe"
          · rw [if_pos hsub] at hdispatched ⊢
            exact iff_of_true ⟨_, rfl⟩ (hnone hdispatched)
          rw [if_neg hsub] at hdispatched ⊢
          by_cases hunsub : m.method = "unsubscribe"
          · rw [if_pos (.inl hunsub)] at hdispatched
            rw [if_pos hunsub]
            apply hsome hdispatched
            rw [handleUnsubscribe, Option.isSome_map, dispatchMetadata, dispatch_isSome]
          rw [if_neg hunsub]
          by_cases hsigno : m.signo = 0
          · rw [if_neg (by simp [hunsub, hsigno])] at hdispatched
            rw [if_neg (not_not.mpr hsigno)]
            refine iff_of_true ?_ (hnone hdispatched)
            split
            · exact ⟨_, rfl⟩
            split
            · exact ⟨_, rfl⟩
            · exact ⟨_, rfl⟩
          · rw [if_pos (.inr hsigno)] at hdispatched
            rw [if_pos hsigno]
            exact hsome hdispatched dispatch_isSome

/-- The ids that an input announces. -/
def announcedIds : Input → List String
  | .message (.metadata m) =>
      if m.signo = 0 ∧ m.method = "available" then signalIds m.params else []
  | _ => []

theorem mem_forEach {f : RemoteSignals → String → RemoteSignals × List RemoteEvent}
    {event : RemoteEvent} (ids : List String) :
    ∀ c, event ∈ (forEach f c ids).2 → ∃ c', ∃ id ∈ ids, event ∈ (f c' id).2 := by
  induction ids with
  | nil => exact fun c h => nomatch h
  | cons id ids ih =>
      intro c h
      rcases List.mem_append.mp h with h | h
      · exact ⟨c, id, List.mem_cons_self, h⟩
      · obtain ⟨c', j, hj, h⟩ := ih _ h
        exact ⟨c', j, List.mem_cons_of_mem _ hj, h⟩

theorem mem_onObject {a : Nat} {f : RemoteSignal → RemoteSignal × List SignalEvent}
    {event : RemoteEvent} (h : event ∈ (c.onObject a f).2) : ∃ e, event = .signal a e := by
  rw [onObject] at h
  cases hs : c.objects[a]? with
  | none =>
      rw [hs] at h
      cases h
  | some s =>
      rw [hs] at h
      obtain ⟨e, -, rfl⟩ := List.mem_map.mp h
      exact ⟨e, rfl⟩

theorem mem_handleMetadata {a : Nat} {method : String} {params : Json} {event : RemoteEvent}
    (h : event ∈ (c.handleMetadata a method params).2) : ∃ e, event = .signal a e := by
  rw [handleMetadata] at h
  split at h
  · exact mem_onObject h
  split at h
  · exact mem_onObject h
  split at h
  · exact ⟨_, List.mem_singleton.mp h⟩
  split at h
  · exact mem_onObject h
  split at h
  · exact mem_onObject h
  split at h
  · exact mem_onObject h
  · cases h

theorem mem_handleData {a : Nat} {data : Bytes} {event : RemoteEvent}
    (h : event ∈ (c.handleData a data).2) : ∃ e, event = .signal a e := by
  unfold handleData at h
  split at h
  · cases h
  dsimp only at h
  split at h
  · exact ⟨_, List.mem_singleton.mp h⟩
  split at h
  · exact ⟨_, List.mem_singleton.mp h⟩
  split at h
  · exact ⟨_, List.mem_singleton.mp h⟩
  · exact ⟨_, List.mem_singleton.mp h⟩

theorem mem_dispatch {signo : UInt32} {handler : Nat → RemoteSignals × List RemoteEvent}
    {r : RemoteSignals × List RemoteEvent} (h : c.dispatch signo handler = some r)
    {event : RemoteEvent} (hevent : event ∈ r.2) : ∃ a, event ∈ (handler a).2 := by
  rw [dispatch] at h
  obtain ⟨address, -, rfl⟩ := Option.map_eq_some_iff.mp h
  cases address with
  | none => cases hevent
  | some a => exact ⟨a, hevent⟩

theorem mem_withdraw {id : String} {event : RemoteEvent} (h : event ∈ (c.withdraw id).2) :
    (∃ a e, event = .signal a e) ∨ ∃ a, event = .unavailable id a := by
  cases hfind : OrderedMap.find? c.byId id with
  | none =>
      rw [withdraw_of_none hfind] at h
      cases h
  | some e =>
      rw [withdraw_of_some hfind] at h
      rcases List.mem_append.mp h with h | h
      · obtain ⟨event, he⟩ := mem_onObject h
        exact .inl ⟨_, event, he⟩
      · split at h
        · cases h
        · exact .inr ⟨_, List.mem_singleton.mp h⟩

theorem mem_detachAll {event : RemoteEvent} (entries : List (String × RemoteSignalEntry)) :
    ∀ c : RemoteSignals, event ∈ (c.detachAll entries).2 → ∃ a e, event = .signal a e := by
  induction entries with
  | nil => exact fun c h => nomatch h
  | cons e entries ih =>
      intro c h
      rcases List.mem_append.mp h with h | h
      · obtain ⟨event, he⟩ := mem_onObject h
        exact ⟨_, event, he⟩
      · exact ih _ h

theorem mem_clearRemoteSignals {event : RemoteEvent} (h : event ∈ c.clearRemoteSignals.2) :
    (∃ a e, event = .signal a e) ∨ ∃ id a, event = .unavailable id a := by
  rcases List.mem_append.mp h with h | h
  · exact .inl (mem_detachAll _ _ h)
  · obtain ⟨e, -, rfl⟩ := List.mem_map.mp h
    exact .inr ⟨_, _, rfl⟩

/-- Only an `available` message that names the id announces it. -/
theorem mem_announcedIds {i : Input} {r : RemoteSignals × List RemoteEvent}
    (hr : c.step i = some r) {id : String} {a : Nat} (h : .available id a ∈ r.2) :
    id ∈ announcedIds i := by
  have hdispatch {signo : UInt32} {method : String} {params : Json}
      {r : RemoteSignals × List RemoteEvent}
      (hr : c.dispatchMetadata signo method params = some r) (h : .available id a ∈ r.2) :
      False := by
    obtain ⟨b, hb⟩ := mem_dispatch hr h
    obtain ⟨e, he⟩ := mem_handleMetadata hb
    cases he
  cases i with
  | close =>
      rw [← Option.some.inj hr] at h
      rcases mem_clearRemoteSignals h with ⟨b, e, he⟩ | ⟨j, b, he⟩
      · cases he
      · cases he
  | message m =>
      cases m with
      | data signo data =>
          obtain ⟨b, hb⟩ := mem_dispatch hr h
          obtain ⟨e, he⟩ := mem_handleData hb
          cases he
      | metadata m =>
          change c.onPeerMetadataReceived m = some r at hr
          rw [onPeerMetadataReceived] at hr
          split at hr
          · rw [← Option.some.inj hr, handleSubscribe] at h
            split at h
            · cases h
            · obtain ⟨e, he⟩ := mem_handleMetadata h
              cases he
          split at hr
          · rw [handleUnsubscribe] at hr
            obtain ⟨r', hr', rfl⟩ := Option.map_eq_some_iff.mp hr
            exact (hdispatch hr' h).elim
          split at hr
          · exact (hdispatch hr h).elim
          rename_i hsigno
          split at hr
          · rename_i hmethod
            rw [← Option.some.inj hr] at h
            obtain ⟨c', j, hj, h⟩ := mem_forEach _ _ h
            rw [announce_snd] at h
            split at h
            · cases h
            · obtain ⟨rfl, -⟩ := RemoteEvent.available.inj (List.mem_singleton.mp h)
              rw [announcedIds, if_pos ⟨not_not.mp hsigno, hmethod⟩]
              exact hj
          split at hr
          · rw [← Option.some.inj hr] at h
            obtain ⟨c', j, -, h⟩ := mem_forEach _ _ h
            rcases mem_withdraw h with ⟨b, e, he⟩ | ⟨b, he⟩
            · cases he
            · cases he
          · rw [← Option.some.inj hr] at h
            cases h

end Step

/-- Whether an event withdraws an id. -/
def withdraws (id : String) : RemoteEvent → Bool
  | .unavailable id' _ => id' = id
  | _ => false

/-- Where nothing is announced, a signal is withdrawn as often as it stops
being announced. -/
theorem countP_withdraws {id : String} {events : List RemoteEvent}
    (hnone : ∀ a, .available id a ∉ events) :
    ∀ {b b' : Bool}, (availability id).read b events = some b' →
      events.countP (withdraws id) + b'.toNat = b.toNat := by
  induction events with
  | nil =>
      intro b b' h
      rw [← Option.some.inj h]
      simp
  | cons e events ih =>
      intro b b' h
      rw [Monitor.read_cons] at h
      obtain ⟨b₁, hb₁, h⟩ := Option.bind_eq_some_iff.mp h
      have hcount := ih (fun a ha => hnone a (List.mem_cons_of_mem _ ha)) h
      rw [List.countP_cons]
      cases e with
      | signal a event =>
          rw [← Option.some.inj hb₁] at hcount
          exact hcount
      | available id' a =>
          have hid : ¬ id' = id := fun hid => hnone a (by rw [← hid]; exact List.mem_cons_self)
          rw [availability, if_neg hid] at hb₁
          rw [← Option.some.inj hb₁] at hcount
          exact hcount
      | unavailable id' a =>
          by_cases hid : id' = id
          · rw [availability, if_pos hid] at hb₁
            cases b with
            | false => cases hb₁
            | true =>
                rw [← Option.some.inj hb₁] at hcount
                simp only [withdraws, hid, decide_true, if_true, Bool.toNat_true]
                simp only [Bool.toNat_false] at hcount
                omega
          · rw [availability, if_neg hid] at hb₁
            rw [← Option.some.inj hb₁] at hcount
            simp only [withdraws, hid, decide_false]
            exact hcount

/-- The laws about the events of a run. -/
structure Disciplined (inputs : List Input) (events : List RemoteEvent) : Prop where
  availability : ∀ id, ((availability id).read false events).isSome = true
  hidden : ∀ id, (∀ i ∈ inputs, id ∉ announcedIds i) →
    ∀ a, .available id a ∉ events ∧ .unavailable id a ∉ events
  lifecycle : ∀ a, ((lifecycle a).read .idle events).isSome = true

/-- A close withdraws each signal that is announced and not yet withdrawn,
once, and no other. -/
def WithdrawsAnnounced (before closing : List RemoteEvent) : Prop :=
  ∀ id, closing.countP (withdraws id) =
    if (availability id).read false before = some true then 1 else 0

/-- Messages, followed by a close or not. -/
def inputsOf (messages : List Message) (closes : Bool) : List Input :=
  messages.map .message ++ if closes then [.close] else []

theorem run_isSome_iff (inputs : List Input) :
    ∀ c : RemoteSignals,
      (∃ r, run step c inputs = some r) ↔ MeetsOpt advance FollowsNoDangling c inputs := by
  induction inputs with
  | nil => exact fun c => iff_of_true ⟨_, rfl⟩ trivial
  | cons i inputs ih =>
      intro c
      constructor
      · rintro ⟨r, hr⟩
        obtain ⟨r₁, r₂, h₁, h₂, -⟩ := run_cons_eq_some.mp hr
        refine ⟨(step_isSome_iff i).mp ⟨r₁, h₁⟩, ?_⟩
        intro c' hc'
        obtain ⟨r', hr', rfl⟩ := Option.map_eq_some_iff.mp hc'
        rw [h₁] at hr'
        rw [← Option.some.inj hr']
        exact (ih r₁.1).mp ⟨r₂, h₂⟩
      · intro hmeets
        obtain ⟨r₁, h₁⟩ := (step_isSome_iff i).mpr hmeets.1
        obtain ⟨r₂, h₂⟩ := (ih r₁.1).mpr (hmeets.2 r₁.1 (by rw [advance, h₁, Option.map_some]))
        exact ⟨_, run_cons_eq_some.mpr ⟨r₁, r₂, h₁, h₂, rfl⟩⟩

section Run

variable {inputs : List Input} {r : RemoteSignals × List RemoteEvent}

theorem wellFormed_run (hr : run step {} inputs = some r) : r.1.WellFormed :=
  run_invariant (fun _ _ _ hc hstep => hc.step hstep) inputs {} r wellFormed_empty hr

theorem read_availability (hr : run step {} inputs = some r) (id : String) :
    (availability id).read false r.2 = some (r.1.announced id) := by
  have hempty : ({} : RemoteSignals).announced id = false := rfl
  rw [← hempty]
  apply read_run (fun c => c.announced id) _ _ inputs {} r wellFormed_empty hr
  · exact fun c i r hc hstep => hc.step hstep
  · exact fun c i r hc hstep => (obeys_step hc hstep).availability id

theorem read_lifecycle (hr : run step {} inputs = some r) (a : Nat) :
    (lifecycle a).read .idle r.2 = some (r.1.phase a) := by
  have hempty : ({} : RemoteSignals).phase a = .idle := rfl
  rw [← hempty]
  apply read_run (fun c => c.phase a) _ _ inputs {} r wellFormed_empty hr
  · exact fun c i r hc hstep => hc.step hstep
  · exact fun c i r hc hstep => (obeys_step hc hstep).lifecycle a

theorem disciplined_run (hr : run step {} inputs = some r) : Disciplined inputs r.2 := by
  constructor
  · intro id
    rw [read_availability hr]
    rfl
  · intro id hid
    have hnone (a : Nat) : .available id a ∉ r.2 := by
      intro ha
      obtain ⟨i, hi, c, r', hr', ha⟩ := mem_run hr ha
      exact hid i hi (mem_announcedIds hr' ha)
    have hcount := countP_withdraws hnone (read_availability hr id)
    intro a
    refine ⟨hnone a, fun ha => ?_⟩
    have hpos : 0 < r.2.countP (withdraws id) :=
      List.countP_pos_iff.mpr ⟨_, ha, decide_eq_true rfl⟩
    simp only [Bool.toNat_false] at hcount
    omega
  · intro a
    rw [read_lifecycle hr]
    rfl

/-- What a close raises after a run. -/
theorem withdrawsAnnounced_close (hr : run step {} inputs = some r) :
    WithdrawsAnnounced r.2 r.1.clearRemoteSignals.2 := by
  intro id
  have hread := (obeys_clearRemoteSignals (wellFormed_run hr)).availability id
  have hafter : r.1.clearRemoteSignals.1.announced id = false := by
    rw [announced, (clearRemoteSignals_empty r.1).1]
    rfl
  have hnone (a : Nat) : .available id a ∉ r.1.clearRemoteSignals.2 := by
    intro ha
    rcases mem_clearRemoteSignals ha with ⟨b, e, he⟩ | ⟨j, b, he⟩
    · cases he
    · cases he
  rw [hafter] at hread
  have hcount := countP_withdraws hnone hread
  rw [read_availability hr]
  cases hannounced : r.1.announced id with
  | true => simpa [hannounced] using hcount
  | false => simpa [hannounced] using hcount

end Run

/-- **Event discipline.**  A run of messages with at most one close after them
has a defined behaviour that obeys the laws iff no message in it is dispatched
under a number whose pointer dangles. -/
theorem events_disciplined_iff (messages : List Message) (closes : Bool) :
    (∃ r, run step {} (inputsOf messages closes) = some r ∧
        Disciplined (inputsOf messages closes) r.2 ∧
        (closes = true → ∃ before closing, run step {} (messages.map .message) = some before ∧
          r.2 = before.2 ++ closing ∧ WithdrawsAnnounced before.2 closing)) ↔
      MeetsOpt advance FollowsNoDangling {} (inputsOf messages closes) := by
  rw [← run_isSome_iff]
  constructor
  · rintro ⟨r, hr, -, -⟩
    exact ⟨r, hr⟩
  · rintro ⟨r, hr⟩
    refine ⟨r, hr, disciplined_run hr, ?_⟩
    intro hcloses
    rw [inputsOf, if_pos hcloses] at hr
    obtain ⟨before, r₂, hbefore, hclose, rfl⟩ := run_append.mp hr
    obtain ⟨r₃, r₄, h₃, h₄, rfl⟩ := run_cons_eq_some.mp hclose
    obtain rfl := Option.some.inj h₃
    obtain rfl := Option.some.inj h₄
    refine ⟨before, _, hbefore, rfl, ?_⟩
    rw [List.append_nil]
    exact withdrawsAnnounced_close hbefore

/-- The law does not hold for every run: a signal is bound under two numbers
and removed, and an unsubscribe message follows the older one. -/
theorem removed_signal_is_followed :
    ¬ ∃ r, run step {} (inputsOf
        [.ofMetadata 1 "subscribe" (.object [("signalId", .string "a")]),
          .ofMetadata 2 "subscribe" (.object [("signalId", .string "a")]),
          .ofMetadata 0 "unavailable" (.object [("signalIds", .array [.string "a"])]),
          .ofMetadata 1 "unsubscribe" (.object [("signalId", .string "a")])] false) =
      some r := by
  rintro ⟨r, hr⟩
  have hnone : run step {} (inputsOf
      [.ofMetadata 1 "subscribe" (.object [("signalId", .string "a")]),
        .ofMetadata 2 "subscribe" (.object [("signalId", .string "a")]),
        .ofMetadata 0 "unavailable" (.object [("signalIds", .array [.string "a"])]),
        .ofMetadata 1 "unsubscribe" (.object [("signalId", .string "a")])] false) = none := by
    decide +kernel
  rw [hnone] at hr
  cases hr

end RemoteSignals

end WsStreaming.Ports
