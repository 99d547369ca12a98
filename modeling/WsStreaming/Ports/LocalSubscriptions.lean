import WsStreaming.Ports.LocalSignals

/-!
# Local signals refine their bookkeeping

`connection::subscribe` and `connection::unsubscribe` act on the flags and
counts as the abstract requests of `Subscriptions` do.

## Main results

* `subscriptions_subscribe`, `subscriptions_unsubscribe` — the refinement.
-/

namespace WsStreaming.Ports

open WsStreaming.Verified
open WsStreaming.Verified.OrderedMap (OMap Distinct)

namespace LocalSignals

theorem subscriptions_modifyTable (c : LocalSignals) (address : Nat)
    (f : LinearTable → LinearTable) :
    (c.modifyTable address f).subscriptions = c.subscriptions := by
  simp only [subscriptions, modifyTable, List.map_map]
  exact List.map_congr_left fun e _ => rfl

theorem subscriptions_refresh (c : LocalSignals) (k : UInt32) :
    (c.refreshLocalSignalBindings k).subscriptions = c.subscriptions := by
  unfold refreshLocalSignalBindings
  cases OrderedMap.find? c.signals k with
  | none => rfl
  | some entry => exact subscriptions_update_of_eq _ k fun e => rfl

theorem subscriptions_beginSubscription (c : LocalSignals) (k : UInt32)
    (entry : RegisteredLocalSignal) (isExplicit : Bool) :
    (c.beginSubscription k entry isExplicit).subscriptions =
      c.subscriptions.put k (entry.addSubscription isExplicit).subscription := by
  rw [beginSubscription, subscriptions_update_of_eq _ k (f := RegisteredLocalSignal.engage)
    fun _ => rfl, subscriptions_update_const]

theorem subscriptions_finishSubscription (c : LocalSignals) (k : UInt32) :
    (c.finishSubscription k).subscriptions = c.subscriptions := by
  rw [finishSubscription, subscriptions_update_of_eq _ k (f := RegisteredLocalSignal.connect)
    fun _ => rfl, subscriptions_refresh]

/-- The nested call for the table adds one to its count. -/
theorem subscriptions_subscribe_false (c : LocalSignals) (id : String) :
    (c.subscribe id false).1.subscriptions =
      match c.subscriptions.findById id with
      | none => c.subscriptions
      | some (d, t) => c.subscriptions.put d t.increment := by
  rw [findById_subscriptions]
  cases hfind : c.findById id with
  | none => rw [subscribe_of_none hfind, Option.map_none]
  | some found =>
      obtain ⟨k, entry⟩ := found
      by_cases hsub : entry.isSubscribed = true
      · rw [subscribe_of_subscribed hfind hsub]
        exact subscriptions_update_const c k _
      · rw [subscribe_false hfind hsub]
        change ((c.beginSubscription k entry false).finishSubscription k).subscriptions = _
        rw [subscriptions_finishSubscription, subscriptions_beginSubscription]
        rfl

/-- **`connection::subscribe` refines the abstract request.** -/
theorem subscriptions_subscribe (c : LocalSignals) (id : String) :
    (c.subscribe id true).1.subscriptions = c.subscriptions.subscribe id := by
  rw [Subscriptions.subscribe, findById_subscriptions]
  cases hfind : c.findById id with
  | none => rw [subscribe_of_none hfind, Option.map_none]
  | some found =>
      obtain ⟨k, entry⟩ := found
      rw [Option.map_some]
      dsimp only
      by_cases hsub : entry.isSubscribed = true
      · rw [subscribe_of_subscribed hfind hsub, isActive_subscription, if_pos hsub]
        exact subscriptions_update_const c k _
      · have hbegin := subscriptions_beginSubscription c k entry true
        have hdomain : entry.subscription.domain = entry.signal.domainId? := rfl
        rw [subscribe_true hfind hsub, isActive_subscription, if_neg hsub,
          Subscriptions.domainOf, hdomain]
        cases entry.signal.domainId? with
        | none =>
            change ((c.beginSubscription k entry true).finishSubscription k).subscriptions = _
            rw [subscriptions_finishSubscription, hbegin]
            rfl
        | some tableId =>
            change (((c.beginSubscription k entry true).subscribe tableId false).1
              |>.finishSubscription k).subscriptions = _
            rw [subscriptions_finishSubscription, subscriptions_subscribe_false, hbegin]
            rfl

theorem subscriptions_disconnect (c : LocalSignals) (k : UInt32)
    (entry : RegisteredLocalSignal) (isExplicit : Bool) :
    (c.update k fun _ => (entry.dropSubscription isExplicit).disconnect).subscriptions =
      c.subscriptions.put k (entry.subscription.drop isExplicit) := by
  rw [subscriptions_update_const, ← subscription_dropSubscription]
  rfl

/-- **`connection::unsubscribe` refines the abstract call.** -/
theorem subscriptions_unsubscribe (c : LocalSignals) (id : String) (isExplicit : Bool) :
    (c.unsubscribe id isExplicit).1.subscriptions =
      c.subscriptions.unsubscribe id isExplicit := by
  induction c, id, isExplicit using unsubscribe_induction with
  | none c id isExplicit hfind =>
      have habs : c.subscriptions.findById id = none := by
        rw [findById_subscriptions, hfind, Option.map_none]
      rw [unsubscribe_of_none hfind, Subscriptions.unsubscribe_of_none habs]
  | subscribed c id isExplicit k entry hfind hsub =>
      have habs : c.subscriptions.findById id = some (k, entry.subscription) := by
        rw [findById_subscriptions, hfind, Option.map_some]
      have hactive : (entry.subscription.drop isExplicit).isActive = true := by
        rw [← subscription_dropSubscription]
        exact hsub
      rw [unsubscribe_of_subscribed hfind hsub,
        Subscriptions.unsubscribe_of_active habs hactive, subscriptions_update_const,
        subscription_dropSubscription]
  | ended c id isExplicit k entry hfind hsub ih =>
      have habs : c.subscriptions.findById id = some (k, entry.subscription) := by
        rw [findById_subscriptions, hfind, Option.map_some]
      have hactive : (entry.subscription.drop isExplicit).isActive = false := by
        rw [← subscription_dropSubscription]
        exact Bool.eq_false_iff.mpr hsub
      have hdomain : entry.subscription.domain = entry.signal.domainId? := rfl
      rw [unsubscribe_of_ended hfind hsub, Subscriptions.unsubscribe_of_ended habs hactive,
        hdomain]
      cases htable : entry.signal.domainId? with
      | none => exact subscriptions_disconnect c k entry isExplicit
      | some tableId =>
          have hnested := ih tableId htable
          rw [subscriptions_disconnect] at hnested
          exact hnested

end LocalSignals

end WsStreaming.Ports
