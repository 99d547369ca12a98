import WsStreaming.Ports.SignalTables

/-!
# Signal numbers of remote signals

`_signals_by_signo` holds pointers into `_signals_by_id` and is kept by four
operations.  A signal remembers only the number it was bound to last, and its
removal erases that number, whatever the number leads to by then.

So a number leads to a removed signal if the signal was bound under several
numbers, and a number of another signal is lost if the removed one had used it
before.  Both are exactly the cases below.

## Main results

* `noDangling_iff_unambiguous` — no number is left dangling by any step of a
  run iff whatever leads to a removed signal is erased with it.
* `routes_iff_undisturbing` — a message about one signal leaves the numbers of
  another alone iff the signal does not remember them.
-/

namespace WsStreaming.Ports

open WsStreaming.Verified
open WsStreaming.Verified.Run

namespace RemoteSignals

/-- Before a message that removes signals: each number that leads to one of
them is remembered by one of them, so that it is erased with it. -/
def Unambiguous (c : RemoteSignals) (i : Input) : Prop :=
  ∀ id ∈ removedIds i, ∀ e, OrderedMap.find? c.byId id = some e →
    ∀ n, OrderedMap.find? c.bySigno n = some e.address → ∃ j ∈ removedIds i, c.Erases j n

/-- The step has a result, and leaves no number dangling. -/
def LeavesNoneDangling (c : RemoteSignals) (i : Input) : Prop :=
  ∃ r, c.step i = some r ∧ r.1.NoDangling

/-- Without dangling numbers every step has a result. -/
theorem step_isSome {c : RemoteSignals} (hc : c.NoDangling) (i : Input) :
    ∃ r, c.step i = some r := by
  have hmetadata (signo : UInt32) (method : String) (params : Json) :
      ∃ r, c.dispatchMetadata signo method params = some r :=
    ⟨_, dispatch_of_noDangling hc signo _⟩
  cases i with
  | close => exact ⟨_, rfl⟩
  | message m =>
      cases m with
      | data signo data => exact ⟨_, dispatch_of_noDangling hc signo _⟩
      | metadata m =>
          change ∃ r, c.onPeerMetadataReceived m = some r
          rw [onPeerMetadataReceived]
          split
          · exact ⟨_, rfl⟩
          split
          · obtain ⟨r, hr⟩ := hmetadata m.signo "unsubscribe" m.params
            exact ⟨_, by rw [handleUnsubscribe, hr, Option.map_some]⟩
          split
          · exact hmetadata m.signo m.method m.params
          split
          · exact ⟨_, rfl⟩
          split
          · exact ⟨_, rfl⟩
          · exact ⟨_, rfl⟩

/-- After a removal no number dangles iff each one that led to a removed
signal was remembered. -/
theorem noDangling_handleUnavailable {c : RemoteSignals} (hwf : c.WellFormed)
    (hc : c.NoDangling) (params : Json) :
    (c.handleUnavailable params).1.NoDangling ↔
      ∀ id ∈ signalIds params, ∀ e, OrderedMap.find? c.byId id = some e →
        ∀ n, OrderedMap.find? c.bySigno n = some e.address →
          ∃ j ∈ signalIds params, c.Erases j n := by
  have hspec := forEach_withdraw (signalIds params) c hwf
  change (∀ n a, OrderedMap.find? (forEach withdraw c (signalIds params)).1.bySigno n = some a →
    (forEach withdraw c (signalIds params)).1.live a = true) ↔ _
  constructor
  · intro hafter id hid e he n hn
    by_contra hnone
    have hkept := (hspec.2.2 n).2 fun j hj hjn => hnone ⟨j, hj, hjn⟩
    rw [hn] at hkept
    obtain ⟨j, e', hj, haddress⟩ := hspec.1.live_iff.mp (hafter n e.address hkept)
    rw [hspec.2.1] at hj
    by_cases hmem : j ∈ signalIds params
    · rw [if_pos hmem] at hj
      cases hj
    · rw [if_neg hmem] at hj
      rw [hwf.id_eq hj he haddress] at hmem
      exact hmem hid
  · intro hbefore n a hn
    have hkeep : ∀ id ∈ signalIds params, ¬ c.Erases id n := by
      intro id hid herases
      rw [(hspec.2.2 n).1 ⟨id, hid, herases⟩] at hn
      cases hn
    rw [(hspec.2.2 n).2 hkeep] at hn
    obtain ⟨id, e, hid, rfl⟩ := hwf.live_iff.mp (hc n a hn)
    have hmem : id ∉ signalIds params := by
      intro hmem
      obtain ⟨j, hj, hjn⟩ := hbefore id hmem e hid n hn
      exact hkeep j hj hjn
    exact hspec.1.live_iff.mpr ⟨id, e, by rw [hspec.2.1, if_neg hmem, hid], rfl⟩

/-- **One step.** -/
theorem leavesNoneDangling_iff {c : RemoteSignals} (hwf : c.WellFormed) (hc : c.NoDangling)
    (i : Input) : c.LeavesNoneDangling i ↔ c.Unambiguous i := by
  obtain ⟨r, hr⟩ := step_isSome hc i
  have hiff : c.LeavesNoneDangling i ↔ r.1.NoDangling := by
    constructor
    · rintro ⟨r', hr', hdangling⟩
      rw [hr] at hr'
      rw [Option.some.inj hr']
      exact hdangling
    · exact fun h => ⟨r, hr, h⟩
  rw [hiff]
  have hnone (hremoved : removedIds i = []) : c.Unambiguous i := by
    intro id hid
    rw [hremoved] at hid
    cases hid
  rcases step_cases hr with ⟨signo, params, rfl, hi⟩ | ⟨signo, params, hr', hi⟩ | ⟨hsame, hi⟩ |
    ⟨params, rfl, hi⟩ | ⟨params, rfl, hi⟩ | ⟨rfl, hi⟩
  · exact iff_of_true (noDangling_handleSubscribe hwf hc signo params) (hnone hi)
  · obtain ⟨c', hsame, hr''⟩ := handleUnsubscribe_cases hr'
    rw [hr'']
    exact iff_of_true (noDangling_forgetRemoteSigno (hsame.noDangling hc) signo) (hnone hi)
  · exact iff_of_true (hsame.noDangling hc) (hnone hi)
  · refine iff_of_true ?_ (hnone hi)
    intro n a hn
    rw [bySigno_handleAvailable] at hn
    exact live_handleAvailable hwf params (hc n a hn)
  · rw [Unambiguous, hi]
    exact noDangling_handleUnavailable hwf hc params
  · refine iff_of_true ?_ (hnone hi)
    intro n a hn
    rw [(clearRemoteSignals_empty c).2] at hn
    cases hn

/-- **Numbers do not dangle.**  Over any run of messages and closes on a new
connection: each step has a result and leaves no number dangling iff at each
step the numbers that lead to a removed signal are remembered. -/
theorem noDangling_iff_unambiguous (inputs : List Input) :
    MeetsOpt advance LeavesNoneDangling {} inputs ↔ MeetsOpt advance Unambiguous {} inputs := by
  apply meetsOpt_iff fun c => c.WellFormed ∧ c.NoDangling
  · intro c i c' hinv hi hstep
    obtain ⟨r, hr, rfl⟩ := Option.map_eq_some_iff.mp hstep
    obtain ⟨r', hr', hdangling⟩ := (leavesNoneDangling_iff hinv.1 hinv.2 i).mpr hi
    rw [hr] at hr'
    rw [← Option.some.inj hr'] at hdangling
    exact ⟨hinv.1.step hr, hdangling⟩
  · exact fun c i hinv => leavesNoneDangling_iff hinv.1 hinv.2 i
  · refine ⟨wellFormed_empty, ?_⟩
    intro n a hn
    cases hn

/-- A signal is subscribed under two numbers and becomes unavailable. -/
def boundTwice : List Input :=
  [.message (.ofMetadata 1 "subscribe" (.object [("signalId", .string "a")])),
    .message (.ofMetadata 2 "subscribe" (.object [("signalId", .string "a")])),
    .message (.ofMetadata 0 "unavailable" (.object [("signalIds", .array [.string "a"])]))]

/-- The first number is left dangling, and a data packet under it has no
defined behaviour. -/
theorem boundTwice_dangles :
    (∃ c, boundTwice.foldlM advance {} = some c ∧ ¬ c.NoDangling) ∧
      (boundTwice ++ [Input.message (.data 1 [])]).foldlM advance {} = none := by
  constructor
  · have hrun : (boundTwice.foldlM advance {}).map (fun c => (c.byId, c.bySigno)) =
        some ([], [(1, 0)]) := by decide +kernel
    obtain ⟨c, hc, heq⟩ := Option.map_eq_some_iff.mp hrun
    obtain ⟨hid, hsigno⟩ := Prod.mk.inj heq
    refine ⟨c, hc, fun hdangling => ?_⟩
    have hlive := hdangling 1 0 (by rw [hsigno]; rfl)
    rw [live, hid] at hlive
    cases hlive
  · decide +kernel

/-! ## Messages about other signals -/

/-- A number leads to the signal with an id. -/
def Routes (c : RemoteSignals) (signo : UInt32) (id : String) : Prop :=
  ∃ e, OrderedMap.find? c.byId id = some e ∧ OrderedMap.find? c.bySigno signo = some e.address

/-- An `available`, `unavailable` or `unsubscribe` message that concerns no
other signal than `a`; an `unsubscribe` comes under a number that does not
lead to `b`. -/
inductive Concerns (c : RemoteSignals) (a b : String) : Input → Prop where
  | available {params : Json} (h : ∀ id ∈ signalIds params, id = a) :
      Concerns c a b (.message (.ofMetadata 0 "available" params))
  | unavailable {params : Json} (h : ∀ id ∈ signalIds params, id = a) :
      Concerns c a b (.message (.ofMetadata 0 "unavailable" params))
  | unsubscribe {signo : UInt32} {params : Json} (h : ¬ c.Routes signo b) :
      Concerns c a b (.message (.ofMetadata signo "unsubscribe" params))

/-- An `unavailable` message does not remove a signal that remembers the
number, and an `unsubscribe` message comes under no dangling number. -/
def Undisturbing (c : RemoteSignals) (signo : UInt32) (i : Input) : Prop :=
  (∀ id ∈ removedIds i, ¬ c.Erases id signo) ∧
    ∀ n params, i = .message (.ofMetadata n "unsubscribe" params) → c.follow n ≠ none

theorem method_of_eq {n n' : UInt32} {method method' : String} {params params' : Json}
    (h : Input.message (.ofMetadata n method params) =
      .message (.ofMetadata n' method' params')) : method = method' := by
  injection h with h
  injection h with h
  injection h

section Routes

variable {c : RemoteSignals} {a b : String} {signo : UInt32}

theorem find?_handleAvailable {params : Json} (hb : b ∉ signalIds params) :
    OrderedMap.find? (c.handleAvailable params).1.byId b = OrderedMap.find? c.byId b := by
  apply forEach_invariant
    (p := fun c' => OrderedMap.find? c'.byId b = OrderedMap.find? c.byId b) _ _ c rfl
  intro c' id hid hc'
  have hne : id ≠ b := fun heq => hb (heq ▸ hid)
  rw [find?_announce, if_neg hne, hc']

theorem routes_handleAvailable {params : Json} (hb : b ∉ signalIds params)
    (h : c.Routes signo b) : (c.handleAvailable params).1.Routes signo b := by
  obtain ⟨e, he, hn⟩ := h
  refine ⟨e, ?_, ?_⟩
  · rw [find?_handleAvailable hb, he]
  · rw [bySigno_handleAvailable, hn]

theorem routes_handleUnavailable (hwf : c.WellFormed) {params : Json}
    (hb : b ∉ signalIds params) (h : c.Routes signo b) :
    (c.handleUnavailable params).1.Routes signo b ↔
      ∀ id ∈ signalIds params, ¬ c.Erases id signo := by
  obtain ⟨e, he, hn⟩ := h
  have hspec := forEach_withdraw (signalIds params) c hwf
  constructor
  · rintro ⟨e', -, hn'⟩ id hid herases
    have hnone := (hspec.2.2 signo).1 ⟨id, hid, herases⟩
    change OrderedMap.find? (forEach withdraw c (signalIds params)).1.bySigno signo = _ at hn'
    rw [hnone] at hn'
    cases hn'
  · intro hkeep
    refine ⟨e, ?_, ?_⟩
    · exact (hspec.2.1 b).trans (by rw [if_neg hb, he])
    · exact ((hspec.2.2 signo).2 hkeep).trans hn

theorem routes_handleUnsubscribe {n : UInt32} {params : Json}
    {r : RemoteSignals × List RemoteEvent} (hn : n ≠ signo) (h : c.Routes signo b)
    (hr : c.handleUnsubscribe n params = some r) : r.1.Routes signo b := by
  obtain ⟨c', hsame, hr'⟩ := handleUnsubscribe_cases hr
  obtain ⟨e, he, hsigno⟩ := h
  rw [hr']
  refine ⟨e, ?_, ?_⟩
  · change OrderedMap.find? c'.byId b = some e
    rw [hsame.byId, he]
  · change OrderedMap.find? (OrderedMap.erase c'.bySigno n) signo = some e.address
    rw [OrderedMap.find?_erase, if_neg hn, hsame.bySigno, hsigno]

theorem handleUnsubscribe_isSome {n : UInt32} {params : Json} :
    (∃ r, c.handleUnsubscribe n params = some r) ↔ c.follow n ≠ none := by
  rw [handleUnsubscribe, dispatchMetadata, dispatch]
  cases c.follow n with
  | none => simp
  | some address => simp

/-- **Messages about one signal do not disturb another.**  In every state that
a connection reaches and for every number that leads to a signal: a message
that concerns only another signal leaves the number iff what it removes does
not remember the number, and it follows no dangling number itself. -/
theorem routes_iff_undisturbing (inputs : List Input)
    (hreach : inputs.foldlM advance {} = some c) (hab : a ≠ b) (h : c.Routes signo b)
    {i : Input} (hi : c.Concerns a b i) :
    (∃ r, c.step i = some r ∧ r.1.Routes signo b) ↔ c.Undisturbing signo i := by
  have hwf := reached_wellFormed hreach
  cases hi with
  | available hids =>
      have hb : b ∉ signalIds _ := fun hmem => hab (hids b hmem).symm
      refine iff_of_true ⟨_, rfl, routes_handleAvailable hb h⟩ ⟨?_, ?_⟩
      · intro id hid
        cases hid
      · intro n params' heq
        exact absurd (method_of_eq heq) (by decide)
  | unavailable hids =>
      rename_i params
      have hb : b ∉ signalIds params := fun hmem => hab (hids b hmem).symm
      have hremoved : removedIds (.message (.ofMetadata 0 "unavailable" params)) =
          signalIds params := rfl
      have hroutes := routes_handleUnavailable hwf hb h
      constructor
      · rintro ⟨r, hr, hafter⟩
        obtain rfl : c.handleUnavailable params = r := Option.some.inj hr
        refine ⟨?_, ?_⟩
        · rw [hremoved]
          exact hroutes.mp hafter
        · intro n params' heq
          exact absurd (method_of_eq heq) (by decide)
      · intro hundisturbing
        have hkeep := hundisturbing.1
        rw [hremoved] at hkeep
        exact ⟨_, rfl, hroutes.mpr hkeep⟩
  | unsubscribe hother =>
      rename_i n params
      have hne : n ≠ signo := fun heq => hother (heq ▸ h)
      have hstep : c.step (.message (.ofMetadata n "unsubscribe" params)) =
          c.handleUnsubscribe n params := rfl
      have hremoved : removedIds (.message (.ofMetadata n "unsubscribe" params)) = [] := by
        apply if_neg
        rintro ⟨-, hmethod⟩
        exact absurd (show "unsubscribe" = "unavailable" from hmethod) (by decide)
      rw [hstep]
      constructor
      · rintro ⟨r, hr, -⟩
        refine ⟨?_, ?_⟩
        · rw [hremoved]
          intro id hid
          cases hid
        · intro n' params' heq
          cases heq
          exact handleUnsubscribe_isSome.mp ⟨r, hr⟩
      · intro hundisturbing
        obtain ⟨r, hr⟩ := handleUnsubscribe_isSome.mpr (hundisturbing.2 n params rfl)
        exact ⟨r, hr, routes_handleUnsubscribe hne h hr⟩

end Routes

/-- The withdrawal of one signal. -/
def withdrawal (id : String) : Input :=
  .message (.ofMetadata 0 "unavailable" (.object [("signalIds", .array [.string id])]))

theorem concerns_withdrawal (c : RemoteSignals) (a b : String) :
    c.Concerns a b (withdrawal a) := by
  apply Concerns.unavailable
  intro id hid
  exact List.mem_singleton.mp hid

theorem routes_after_withdrawal :
    ∃ c, [Input.message (.ofMetadata 1 "subscribe" (.object [("signalId", .string "a")])),
        .message (.ofMetadata 2 "subscribe" (.object [("signalId", .string "b")]))].foldlM
          advance {} = some c ∧
      ∃ r, c.step (withdrawal "a") = some r ∧ r.1.Routes 2 "b" := by
  have hrun : ([Input.message (.ofMetadata 1 "subscribe" (.object [("signalId", .string "a")])),
      .message (.ofMetadata 2 "subscribe" (.object [("signalId", .string "b")]))].foldlM
        advance {}).map (fun c => (c.byId, c.bySigno, c.signoOf 0)) =
      some ([("a", ⟨true, 0⟩), ("b", ⟨true, 1⟩)], [(1, 0), (2, 1)], 1) := by decide +kernel
  obtain ⟨c, hc, heq⟩ := Option.map_eq_some_iff.mp hrun
  obtain ⟨hid, heq⟩ := Prod.mk.inj heq
  obtain ⟨hsigno, hlast⟩ := Prod.mk.inj heq
  refine ⟨c, hc, (routes_iff_undisturbing _ hc (by decide) ⟨⟨true, 1⟩, ?_, ?_⟩
    (concerns_withdrawal c "a" "b")).mpr ⟨?_, ?_⟩⟩
  · rw [hid]
    rfl
  · rw [hsigno]
    rfl
  · intro id hmem herases
    obtain rfl : id = "a" := List.mem_singleton.mp hmem
    obtain ⟨e, he, hn⟩ := herases
    rw [hid] at he
    obtain rfl : (⟨true, 0⟩ : RemoteSignalEntry) = e := Option.some.inj he
    rw [hlast] at hn
    cases hn
  · intro n params heq
    exact absurd (method_of_eq heq) (by decide)

/-- Not every message leaves the numbers of other signals: a signal still
remembers the number that was released and bound to another one since. -/
theorem reused_number_is_lost :
    ∃ c, [Input.message (.ofMetadata 1 "subscribe" (.object [("signalId", .string "a")])),
        .message (.ofMetadata 1 "unsubscribe" (.object [("signalId", .string "a")])),
        .message (.ofMetadata 1 "subscribe" (.object [("signalId", .string "b")]))].foldlM
          advance {} = some c ∧
      c.Routes 1 "b" ∧ c.Concerns "a" "b" (withdrawal "a") ∧
      ¬ ∃ r, c.step (withdrawal "a") = some r ∧ r.1.Routes 1 "b" := by
  have hrun : ([Input.message (.ofMetadata 1 "subscribe" (.object [("signalId", .string "a")])),
      .message (.ofMetadata 1 "unsubscribe" (.object [("signalId", .string "a")])),
      .message (.ofMetadata 1 "subscribe" (.object [("signalId", .string "b")]))].foldlM
        advance {}).map (fun c => (c.byId, c.bySigno,
          (c.step (withdrawal "a")).map fun r => r.1.bySigno)) =
      some ([("a", ⟨true, 0⟩), ("b", ⟨true, 1⟩)], [(1, 1)], some []) := by decide +kernel
  obtain ⟨c, hc, heq⟩ := Option.map_eq_some_iff.mp hrun
  obtain ⟨hid, heq⟩ := Prod.mk.inj heq
  obtain ⟨hsigno, hafter⟩ := Prod.mk.inj heq
  refine ⟨c, hc, ⟨⟨true, 1⟩, ?_, ?_⟩, concerns_withdrawal c "a" "b", ?_⟩
  · rw [hid]
    rfl
  · rw [hsigno]
    rfl
  · rintro ⟨r, hr, e, -, hn⟩
    rw [hr, Option.map_some] at hafter
    rw [Option.some.inj hafter] at hn
    cases hn

end RemoteSignals

end WsStreaming.Ports
