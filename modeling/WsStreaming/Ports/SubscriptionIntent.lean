import WsStreaming.Verified.Run
import WsStreaming.Ports.CommandClient
import WsStreaming.Ports.SignalTables

/-!
# What the application asks for and what is requested

A remote signal counts the subscriptions that the application holds, and asks
the connection for a request when the count leaves zero or comes back to it.
The connection drops the request if it has no client for the peer's command
interface at that moment; and a call of `unsubscribe` without a subscription
takes the count below zero, where it wraps around.

Apart from these two, the last request says what the application wants
(`intent_kept_of_steady`).
-/

namespace WsStreaming.Ports

open WsStreaming.Verified
open WsStreaming.Verified.Run (Meets)
open LocalSignals (Request)

/-- The part of `remote_signal_impl` that the application drives. -/
structure SubscriptionCounter where
  subscriptionCount : UInt32 := 0
deriving DecidableEq, Repr

namespace SubscriptionCounter

/-- `remote_signal_impl::subscribe`: whether `on_subscribe_requested` is
raised. -/
def subscribe (s : SubscriptionCounter) : SubscriptionCounter × Bool :=
  ({ s with subscriptionCount := s.subscriptionCount + 1 }, s.subscriptionCount = 0)

/-- `remote_signal_impl::unsubscribe`: whether `on_unsubscribe_requested` is
raised. -/
def unsubscribe (s : SubscriptionCounter) : SubscriptionCounter × Bool :=
  ({ s with subscriptionCount := s.subscriptionCount - 1 }, s.subscriptionCount - 1 = 0)

end SubscriptionCounter

/-- A connection and one signal of its peer, which lies at `address`; next to
it the subscriptions that the application holds, whether it ever held one, and
the last request for the signal that was sent. -/
structure Subscriber where
  commander : Commander Unit := {}
  id : String
  address : Nat
  counter : SubscriptionCounter := {}
  held : Nat := 0
  everHeld : Bool := false
  last : Option Request := none

namespace Subscriber

/-- What can happen. -/
inductive Input where
  /-- The application subscribes. -/
  | subscribe
  /-- The application unsubscribes. -/
  | unsubscribe
  /-- An `init` message arrives. -/
  | init (params : Json) (hasEndpoint : Bool)
  /-- An `available` message arrives. -/
  | available (params : Json)

/-- What a slot of the connection does for a request; the slots are connected
as long as the entry of the signal is there. -/
def ask (w : Subscriber) (request : Request)
    (answer : Commander Unit × Option CommandRequest) : Subscriber :=
  if w.commander.connection.remotes.live w.address then
    { w with
      commander := answer.1
      last := if answer.2.isSome then some request else w.last }
  else w

/-- One step.  A call of `unsubscribe` without a subscription is no change of
what the application holds. -/
def step (w : Subscriber) : Input → Subscriber
  | .subscribe =>
      let (counter, requested) := w.counter.subscribe
      let w := { w with counter := counter, held := w.held + 1, everHeld := true }
      if requested then
        w.ask (.subscribe w.id) (w.commander.onSignalSubscribeRequested w.id ())
      else w
  | .unsubscribe =>
      let (counter, requested) := w.counter.unsubscribe
      let w := { w with counter := counter, held := w.held - 1 }
      if requested then
        w.ask (.unsubscribe w.id) (w.commander.onSignalUnsubscribeRequested w.id ())
      else w
  | .init params hasEndpoint =>
      { w with commander := (w.commander.handleInit params hasEndpoint).1 }
  | .available params =>
      let connection := w.commander.connection
      { w with commander := { w.commander with
          connection := { connection with
            remotes := (connection.remotes.handleAvailable params).1 } } }

/-- **The intent of the application is kept**: the last request is to
subscribe exactly if a subscription is held, and there was a request unless
none was ever held. -/
def Kept (w : Subscriber) : Prop :=
  (w.last = some (.subscribe w.id) ↔ 0 < w.held) ∧ (w.last = none → w.everHeld = false)

/-- A signal that was announced, before the application has done anything. -/
structure Announced (w : Subscriber) : Prop where
  wellFormed : w.commander.connection.remotes.WellFormed
  live : w.commander.connection.remotes.live w.address = true
  counter : w.counter = {}
  held : w.held = 0
  everHeld : w.everHeld = false
  last : w.last = none

/-- The application ends no subscription that it does not hold, holds fewer
than `2 ^ 32` of them, and takes the first and gives back the last one only
while the connection has a client. -/
def Steady (w : Subscriber) : Input → Prop
  | .subscribe => w.held + 1 < 2 ^ 32 ∧ (w.held = 0 → w.commander.client.isSome = true)
  | .unsubscribe => 0 < w.held ∧ (w.held = 1 → w.commander.client.isSome = true)
  | _ => True

/-- The counter counts what is held, and the last request follows it. -/
structure Following (w : Subscriber) : Prop where
  wellFormed : w.commander.connection.remotes.WellFormed
  live : w.commander.connection.remotes.live w.address = true
  count : w.counter.subscriptionCount.toNat = w.held
  ever : 0 < w.held → w.everHeld = true
  last : w.last =
    if w.everHeld then
      some (if 0 < w.held then .subscribe w.id else .unsubscribe w.id)
    else none

theorem Announced.following {w : Subscriber} (h : w.Announced) : w.Following where
  wellFormed := h.wellFormed
  live := h.live
  count := by rw [h.counter, h.held]; rfl
  ever := by rw [h.held]; exact fun hpos => absurd hpos (Nat.lt_irrefl 0)
  last := by rw [h.everHeld, h.last]; rfl

theorem Following.kept {w : Subscriber} (h : w.Following) : w.Kept := by
  unfold Kept
  rw [h.last]
  cases hever : w.everHeld with
  | false =>
      have hnone : ¬ 0 < w.held := by
        intro hpos
        rw [h.ever hpos] at hever
        cases hever
      exact ⟨iff_of_false nofun hnone, fun _ => rfl⟩
  | true =>
      by_cases hpos : 0 < w.held
      · rw [if_pos rfl, if_pos hpos]
        exact ⟨iff_of_true rfl hpos, nofun⟩
      · rw [if_pos rfl, if_neg hpos]
        exact ⟨iff_of_false (by intro hsame; cases hsame) hpos, nofun⟩

/-- A command for which there is a client is sent, and leaves the signals of
the peer alone. -/
theorem request_of_client {c : Commander Unit} (h : c.client.isSome = true)
    (command signalId : String) :
    (c.request command signalId ()).2.isSome = true ∧
      (c.request command signalId ()).1.connection = c.connection := by
  obtain ⟨client, hclient⟩ := Option.isSome_iff_exists.mp h
  unfold Commander.request
  rw [hclient]
  exact ⟨rfl, rfl⟩

/-- Once a request was sent for what is held now, everything agrees. -/
theorem following_ask {w : Subscriber} (hwell : w.commander.connection.remotes.WellFormed)
    (hlive : w.commander.connection.remotes.live w.address = true)
    (hcount : w.counter.subscriptionCount.toNat = w.held) (hever : w.everHeld = true)
    (hclient : w.commander.client.isSome = true) (command : String) {request : Request}
    (hrequest : (if 0 < w.held then .subscribe w.id else .unsubscribe w.id) = request) :
    (w.ask request (w.commander.request command w.id ())).Following := by
  obtain ⟨hsent, hconnection⟩ := request_of_client hclient command w.id
  unfold ask
  rw [if_pos hlive, if_pos hsent]
  constructor
  · rw [hconnection]
    exact hwell
  · rw [hconnection]
    exact hlive
  · exact hcount
  · exact fun _ => hever
  · dsimp only
    rw [hever, if_pos rfl, hrequest]

/-- **One step.** -/
theorem Following.step {w : Subscriber} (h : w.Following) {i : Input} (hsteady : w.Steady i) :
    (w.step i).Following := by
  have hcount := h.count
  cases i with
  | subscribe =>
      obtain ⟨hfew, hclient⟩ := hsteady
      have hnext : (w.counter.subscriptionCount + 1).toNat = w.held + 1 := by
        rw [UInt32.toNat_add, hcount]
        exact Nat.mod_eq_of_lt hfew
      unfold Subscriber.step SubscriptionCounter.subscribe
      dsimp only
      by_cases hfirst : w.held = 0
      · have hzero : w.counter.subscriptionCount = 0 := by
          rw [← UInt32.toNat_inj, hcount, hfirst]
          rfl
        rw [if_pos (decide_eq_true hzero)]
        exact following_ask
          (w := { w with
            counter := ⟨w.counter.subscriptionCount + 1⟩, held := w.held + 1, everHeld := true })
          h.wellFormed h.live hnext rfl (hclient hfirst) ".subscribe" (if_pos (Nat.succ_pos _))
      · have hzero : ¬ w.counter.subscriptionCount = 0 := by
          intro hzero
          rw [hzero] at hcount
          exact hfirst hcount.symm
        rw [if_neg (by rw [decide_eq_true_iff]; exact hzero)]
        have hpos : 0 < w.held := Nat.pos_of_ne_zero hfirst
        constructor
        · exact h.wellFormed
        · exact h.live
        · exact hnext
        · exact fun _ => rfl
        · have hlast := h.last
          rw [h.ever hpos, if_pos rfl, if_pos hpos] at hlast
          dsimp only
          rw [if_pos rfl, if_pos (Nat.succ_pos _), hlast]
  | unsubscribe =>
      obtain ⟨hpos, hclient⟩ := hsteady
      have hone : (1 : UInt32) ≤ w.counter.subscriptionCount := by
        rw [UInt32.le_iff_toNat_le, hcount]
        exact hpos
      have hnext : (w.counter.subscriptionCount - 1).toNat = w.held - 1 := by
        rw [UInt32.toNat_sub_of_le _ _ hone, hcount]
        rfl
      unfold Subscriber.step SubscriptionCounter.unsubscribe
      dsimp only
      by_cases hlast : w.held = 1
      · have hzero : w.counter.subscriptionCount - 1 = 0 := by
          rw [← UInt32.toNat_inj, hnext, hlast]
          rfl
        rw [if_pos (decide_eq_true hzero)]
        have hnone : ¬ 0 < w.held - 1 := by omega
        exact following_ask
          (w := { w with
            counter := ⟨w.counter.subscriptionCount - 1⟩, held := w.held - 1 })
          h.wellFormed h.live hnext (h.ever hpos) (hclient hlast) ".unsubscribe" (if_neg hnone)
      · have hzero : ¬ w.counter.subscriptionCount - 1 = 0 := by
          intro hzero
          rw [hzero] at hnext
          change 0 = w.held - 1 at hnext
          omega
        rw [if_neg (by rw [decide_eq_true_iff]; exact hzero)]
        constructor
        · exact h.wellFormed
        · exact h.live
        · exact hnext
        · exact fun _ => h.ever hpos
        · have hlast' := h.last
          rw [h.ever hpos, if_pos rfl, if_pos hpos] at hlast'
          dsimp only
          rw [h.ever hpos, if_pos rfl, if_pos (by omega), hlast']
  | init params hasEndpoint =>
      have hremotes : (w.commander.handleInit params hasEndpoint).1.connection.remotes =
          w.commander.connection.remotes := by
        unfold Commander.handleInit Connection.handleInit
        dsimp only
        split
        · split <;> rfl
        · rfl
      constructor
      · change (w.commander.handleInit params hasEndpoint).1.connection.remotes.WellFormed
        rw [hremotes]
        exact h.wellFormed
      · change (w.commander.handleInit params hasEndpoint).1.connection.remotes.live
          w.address = true
        rw [hremotes]
        exact h.live
      · exact hcount
      · exact h.ever
      · exact h.last
  | available params =>
      constructor
      · exact RemoteSignals.wellFormed_handleAvailable h.wellFormed params
      · exact RemoteSignals.live_handleAvailable h.wellFormed params h.live
      · exact hcount
      · exact h.ever
      · exact h.last

/-- **The intent is kept in every run of steady steps.** -/
theorem intent_kept_of_steady {w : Subscriber} (hnew : w.Announced) (inputs : List Input)
    (hsteady : Meets step Steady w inputs) : (inputs.foldl step w).Kept :=
  (Run.foldl_invariant_of_meets (fun _ _ h hok => h.step hok) inputs w hnew.following
    hsteady).kept

/-- A signal that a peer announced before its `init` message. -/
def announcedSignal : Subscriber :=
  { commander := { connection := { remotes := (({} : RemoteSignals).announce "a").1 } }
    id := "a"
    address := 0 }

/-- The `init` message of a peer that offers the in-band interface. -/
def offer : Input :=
  .init (.object [("commandInterfaces", .object [("jsonrpc", .object [])])]) true

theorem announced_announcedSignal : announcedSignal.Announced where
  wellFormed := RemoteSignals.WellFormed.announce "a" RemoteSignals.wellFormed_empty
  live := by decide +kernel
  counter := rfl
  held := rfl
  everHeld := rfl
  last := rfl

/-- Subscriptions that overlap, and end. -/
theorem intent_kept_twice :
    ([offer, .subscribe, .subscribe, .unsubscribe].foldl step announcedSignal).Kept ∧
      ([offer, .subscribe, .subscribe, .unsubscribe, .unsubscribe].foldl step
        announcedSignal).Kept := by
  have hsteady : Meets step Steady announcedSignal
      [offer, .subscribe, .subscribe, .unsubscribe, .unsubscribe] := by
    refine ⟨trivial, ⟨by decide, fun _ => by decide +kernel⟩, ⟨by decide, nofun⟩,
      ⟨by decide, nofun⟩, ⟨by decide, fun _ => by decide +kernel⟩, trivial⟩
  exact ⟨intent_kept_of_steady announced_announcedSignal _ ⟨hsteady.1, hsteady.2.1,
      hsteady.2.2.1, hsteady.2.2.2.1, trivial⟩,
    intent_kept_of_steady announced_announcedSignal _ hsteady⟩

/-- **A subscription is lost**: one that is taken before the `init` message,
and one that is taken after a call of `unsubscribe` too many. -/
theorem intent_lost :
    (([.subscribe, offer].foldl step announcedSignal).commander.client = some (.inBand {}) ∧
      ¬ ([.subscribe, offer].foldl step announcedSignal).Kept) ∧
    (([offer, .unsubscribe, .subscribe].foldl step announcedSignal).commander.client =
        some (.inBand {}) ∧
      ¬ ([offer, .unsubscribe, .subscribe].foldl step announcedSignal).Kept) := by
  have hlost (w : Subscriber) (hheld : w.held = 1) (hlast : w.last = none) : ¬ w.Kept := by
    intro hkept
    have hsome := hkept.1.mpr (by omega)
    rw [hlast] at hsome
    cases hsome
  exact ⟨⟨by decide +kernel, hlost _ rfl (by decide +kernel)⟩,
    ⟨by decide +kernel, hlost _ rfl (by decide +kernel)⟩⟩

end Subscriber

end WsStreaming.Ports
