import WsStreaming.Verified.Halting
import WsStreaming.Ports.LocalEntries

/-!
# The calls of `connection::unsubscribe`

`connection::unsubscribe` calls itself for the table of the signal whose
subscription it ended, and the ids of the tables are the application's: they
may form a cycle.  Nothing in the source says why the calls come to an end.

A nested call that makes another one has just taken a count from one to zero,
and no call raises a count from zero but the last one, by wrapping around.  So
the number of signals whose count is not zero bounds the calls.

## Main results

* `unsubscribe_comes_to_end` — the calls end, and what each of them does to the
  counts.
-/

namespace WsStreaming.Ports

open WsStreaming.Verified
open WsStreaming.Verified.Halting
open WsStreaming.Verified.OrderedMap (OMap Distinct)

/-- A call of `connection::unsubscribe`. -/
structure UnsubscribeCall where
  c : LocalSignals
  id : String
  isExplicit : Bool
deriving DecidableEq, Repr

namespace UnsubscribeCall

/-- What the call does itself, before it calls itself: the signals after it, and
what it does outside. -/
def own (call : UnsubscribeCall) : LocalSignals × List Output :=
  match call.c.findById call.id with
  | none => (call.c, [])
  | some (k, entry) =>
      let dropped := entry.dropSubscription call.isExplicit
      if dropped.isSubscribed then (call.c.update k fun _ => dropped, [])
      else (call.c.update k fun _ => dropped.disconnect, entry.farewell)

/-- The signals after the call's own work. -/
def after (call : UnsubscribeCall) : LocalSignals := call.own.1

/-- The call that it makes, `unsubscribe(table_id, false)`. -/
def next (call : UnsubscribeCall) : Option UnsubscribeCall :=
  (call.c.unsubscribeNext call.id call.isExplicit).map fun e => ⟨e.1, e.2, false⟩

/-- The number of calls that can follow. -/
def pending (call : UnsubscribeCall) : Nat :=
  call.c.signals.countP (fun e => e.2.implicitSubscribeCount ≠ 0) + call.isExplicit.toNat

/-- The call's own work takes the count of one signal from one to zero and
leaves all others alone. -/
def EndsCount (call : UnsubscribeCall) (k : UInt32) : Prop :=
  (OrderedMap.find? call.c.signals k).map RegisteredLocalSignal.implicitSubscribeCount = some 1 ∧
  (OrderedMap.find? call.after.signals k).map RegisteredLocalSignal.implicitSubscribeCount =
    some 0 ∧
  ∀ j, j ≠ k → (OrderedMap.find? call.after.signals j).map
      RegisteredLocalSignal.implicitSubscribeCount =
    (OrderedMap.find? call.c.signals j).map RegisteredLocalSignal.implicitSubscribeCount

section Next

variable {call call' : UnsubscribeCall}

/-- A call that makes another one has ended a subscription. -/
theorem ended_of_next (h : call.next = some call') :
    ∃ k entry tableId, call.c.findById call.id = some (k, entry) ∧
      ¬ (entry.dropSubscription call.isExplicit).isSubscribed = true ∧
      entry.signal.domainId? = some tableId ∧
      call' = ⟨call.c.update k fun _ => (entry.dropSubscription call.isExplicit).disconnect,
        tableId, false⟩ := by
  unfold next LocalSignals.unsubscribeNext at h
  cases hfind : call.c.findById call.id with
  | none =>
      rw [hfind] at h
      cases h
  | some found =>
      obtain ⟨k, entry⟩ := found
      rw [hfind] at h
      dsimp only at h
      by_cases hsub : (entry.dropSubscription call.isExplicit).isSubscribed = true
      · rw [if_pos hsub] at h
        cases h
      · rw [if_neg hsub] at h
        cases hdomain : entry.signal.domainId? with
        | none =>
            rw [hdomain] at h
            cases h
        | some tableId =>
            rw [hdomain] at h
            exact ⟨k, entry, tableId, rfl, hsub, hdomain, (Option.some.inj h).symm⟩

theorem own_of_ended {k : UInt32} {entry : RegisteredLocalSignal}
    (hfind : call.c.findById call.id = some (k, entry))
    (hsub : ¬ (entry.dropSubscription call.isExplicit).isSubscribed = true) :
    call.own = (call.c.update k fun _ => (entry.dropSubscription call.isExplicit).disconnect,
      entry.farewell) := by
  unfold own
  rw [hfind]
  exact if_neg hsub

/-- The nested call begins where the own work ends. -/
theorem c_of_next (h : call.next = some call') :
    call'.c = call.after ∧ call'.isExplicit = false := by
  obtain ⟨k, entry, tableId, hfind, hsub, -, rfl⟩ := ended_of_next h
  exact ⟨(congrArg Prod.fst (own_of_ended hfind hsub)).symm, rfl⟩

/-- **A call that makes another one** leaves its signal with no count, and an
implicit one found it at one. -/
theorem count_of_next (hd : Distinct call.c.signals) (h : call.next = some call') :
    ∃ k entry ended, OrderedMap.find? call.c.signals k = some entry ∧
      ended.implicitSubscribeCount = 0 ∧
      (call.isExplicit = false → entry.implicitSubscribeCount = 1) ∧
      call'.c = call.c.update k fun _ => ended := by
  obtain ⟨k, entry, tableId, hfind, hsub, -, rfl⟩ := ended_of_next h
  have hactive : (entry.subscription.drop call.isExplicit).isActive = false := by
    rw [← LocalSignals.subscription_dropSubscription]
    exact Bool.eq_false_iff.mpr hsub
  have hcount := Subscriptions.count_of_drop hactive
  rw [← LocalSignals.subscription_dropSubscription] at hcount
  exact ⟨k, entry, (entry.dropSubscription call.isExplicit).disconnect,
    LocalSignals.find?_of_findById hd hfind, hcount.1, hcount.2, rfl⟩

/-- **An implicit call that makes another one** ends one count. -/
theorem endsCount_of_next (hd : Distinct call.c.signals) (h : call.next = some call')
    (himplicit : call.isExplicit = false) : ∃ k, call.EndsCount k := by
  obtain ⟨k, entry, ended, hfind, hzero, hone, hc⟩ := count_of_next hd h
  have hafter := (c_of_next h).1.symm.trans hc
  refine ⟨k, ?_, ?_, ?_⟩
  · rw [hfind, Option.map_some, hone himplicit]
  · rw [hafter, LocalSignals.find?_update, if_pos rfl, hfind, Option.map_some, Option.map_some,
      hzero]
  · intro j hj
    rw [hafter, LocalSignals.find?_update, if_neg hj.symm]

/-- **Variant.** -/
theorem pending_of_next (hd : Distinct call.c.signals) (h : call.next = some call') :
    Distinct call'.c.signals ∧ call'.pending < call.pending := by
  obtain ⟨k, entry, ended, hfind, hzero, hone, hc⟩ := count_of_next hd h
  constructor
  · rw [hc]
    exact LocalSignals.distinct_update hd k _
  · have hcount := OrderedMap.countP_modify hd hfind (fun _ => ended)
      (p := fun e => e.2.implicitSubscribeCount ≠ 0)
      (q := fun e => e.2.implicitSubscribeCount ≠ 0) fun _ _ _ => rfl
    unfold pending
    rw [(c_of_next h).2, hc]
    change (OrderedMap.modify call.c.signals k fun _ => ended).countP _ + _ < _
    simp only [hzero, ne_eq, not_true_eq_false, decide_false, Bool.false_eq_true, if_false]
      at hcount
    cases hexplicit : call.isExplicit with
    | true =>
        simp only [Bool.toNat_true, Bool.toNat_false, ne_eq]
        omega
    | false =>
        rw [if_pos (by rw [hone hexplicit]; decide)] at hcount
        simp only [Bool.toNat_false, ne_eq]
        omega

end Next

/-! ## The whole call -/

theorem unsubscribe_of_next_none {call : UnsubscribeCall} (h : call.next = none) :
    (call.c.unsubscribe call.id call.isExplicit).1 = call.after ∧
      (call.c.unsubscribe call.id call.isExplicit).2.1 = call.own.2 := by
  cases hfind : call.c.findById call.id with
  | none =>
      unfold after own
      rw [LocalSignals.unsubscribe_of_none hfind, hfind]
      exact ⟨rfl, rfl⟩
  | some found =>
      obtain ⟨k, entry⟩ := found
      by_cases hsub : (entry.dropSubscription call.isExplicit).isSubscribed = true
      · unfold after own
        rw [LocalSignals.unsubscribe_of_subscribed hfind hsub, hfind]
        dsimp only
        rw [if_pos hsub]
        exact ⟨rfl, rfl⟩
      · cases hdomain : entry.signal.domainId? with
        | none =>
            unfold after
            rw [own_of_ended hfind hsub, LocalSignals.unsubscribe_of_ended hfind hsub, hdomain]
            exact ⟨rfl, rfl⟩
        | some tableId =>
            unfold next LocalSignals.unsubscribeNext at h
            rw [hfind] at h
            dsimp only at h
            rw [if_neg hsub, hdomain] at h
            cases h

theorem unsubscribe_of_next {call call' : UnsubscribeCall} (h : call.next = some call') :
    (call.c.unsubscribe call.id call.isExplicit).1 =
        (call'.c.unsubscribe call'.id call'.isExplicit).1 ∧
      (call.c.unsubscribe call.id call.isExplicit).2.1 =
        call.own.2 ++ (call'.c.unsubscribe call'.id call'.isExplicit).2.1 := by
  obtain ⟨k, entry, tableId, hfind, hsub, hdomain, rfl⟩ := ended_of_next h
  rw [own_of_ended hfind hsub, LocalSignals.unsubscribe_of_ended hfind hsub, hdomain]
  exact ⟨rfl, rfl⟩

/-- **The whole call is the own work of its calls**, one after another. -/
theorem unsubscribe_of_halts {call : UnsubscribeCall} {calls : List UnsubscribeCall}
    (h : Halts next call calls) :
    calls.getLast?.map after = some (call.c.unsubscribe call.id call.isExplicit).1 ∧
      calls.flatMap (fun call => call.own.2) =
        (call.c.unsubscribe call.id call.isExplicit).2.1 := by
  induction h with
  | @last call h =>
      have hwhole := unsubscribe_of_next_none h
      rw [hwhole.1, hwhole.2, List.flatMap_singleton]
      exact ⟨rfl, rfl⟩
  | @step call call' calls h hrest ih =>
      have hwhole := unsubscribe_of_next h
      rw [hwhole.1, hwhole.2, List.flatMap_cons, ih.2]
      refine ⟨?_, rfl⟩
      rw [← ih.1]
      cases hrest with
      | last h' => rfl
      | step h' hrest' => rfl

theorem pending_le (call : UnsubscribeCall) :
    call.pending ≤ call.c.signals.length + 1 := by
  have hcount := List.countP_le_length (l := call.c.signals)
    (p := fun e => e.2.implicitSubscribeCount ≠ 0)
  have hexplicit := Bool.toNat_le call.isExplicit
  unfold pending
  omega

/-- **`connection::unsubscribe` comes to an end.**  Whatever the registered
signals, their tables, flags and counts are, and whatever id it is called with:
its calls, the first one included, are a finite list, with at most two more than
there are signals, and their own work is all that it does.  Each nested call but
the last takes the count of exactly one signal from one to zero, and leaves the
others alone. -/
theorem unsubscribe_comes_to_end (c : LocalSignals) (hc : Distinct c.signals) (id : String)
    (isExplicit : Bool) :
    ∃ calls, Halts next ⟨c, id, isExplicit⟩ calls ∧ calls.length ≤ c.signals.length + 2 ∧
      calls.getLast?.map after = some (c.unsubscribe id isExplicit).1 ∧
      calls.flatMap (fun call => call.own.2) = (c.unsubscribe id isExplicit).2.1 ∧
      (∀ call ∈ calls.tail, call.isExplicit = false) ∧
      ∀ call ∈ calls.tail.dropLast, ∃ k, call.EndsCount k := by
  obtain ⟨calls, hcalls, hlength⟩ := exists_halts
    (fun call => Distinct call.c.signals) pending
    (fun call call' hd h => pending_of_next hd h) ⟨c, id, isExplicit⟩ hc
  have hbound := pending_le ⟨c, id, isExplicit⟩
  have hwhole := unsubscribe_of_halts hcalls
  have himplicit : ∀ call ∈ calls.tail, call.isExplicit = false :=
    hcalls.forall_tail fun call call' h => (c_of_next h).2
  have hcounts : ∀ call ∈ calls.dropLast,
      call.isExplicit = false → ∃ k, call.EndsCount k :=
    hcalls.forall_dropLast (fun call => Distinct call.c.signals)
      (fun call call' hd h => ⟨(pending_of_next hd h).1, endsCount_of_next hd h⟩) hc
  refine ⟨calls, hcalls, ?_, hwhole.1, hwhole.2, himplicit, ?_⟩
  · dsimp only at hbound
    omega
  · intro call hcall
    have hnested := himplicit call (List.dropLast_subset _ hcall)
    rw [← List.tail_dropLast] at hcall
    exact hcounts call (List.mem_of_mem_tail hcall) hnested

/-- A local signal that names a table. -/
def naming (address : Nat) (id tableId : String) : LocalSignal :=
  ⟨address, id, .ofJson (.object [("tableId", .string tableId)])⟩

/-- Two signals that name each other, and a third one that names the first; the
peer is subscribed to the first one. -/
def cycle : LocalSignals :=
  { signals :=
      [(1, { signal := naming 0 "a" "b", signo := 1, isExplicitlySubscribed := true }),
       (2, { signal := naming 1 "b" "a", signo := 2, implicitSubscribeCount := 1 }),
       (3, { signal := naming 2 "c" "a", signo := 3 })]
    nextSigno := 4 }

theorem unsubscribe_comes_to_end_cycle :
    Distinct cycle.signals ∧
    ∃ calls, Halts next ⟨cycle, "a", true⟩ calls ∧ calls.length ≤ 5 ∧
      calls.getLast?.map after = some (cycle.unsubscribe "a" true).1 ∧
      calls.flatMap (fun call => call.own.2) = (cycle.unsubscribe "a" true).2.1 ∧
      (∀ call ∈ calls.tail, call.isExplicit = false) ∧
      ∀ call ∈ calls.tail.dropLast, ∃ k, call.EndsCount k :=
  ⟨by decide, unsubscribe_comes_to_end cycle (by decide) "a" true⟩

/-- The release goes around the cycle once, until a count of zero wraps. -/
example : ((UnsubscribeCall.next ⟨cycle, "a", true⟩).bind next).bind next = none := by
  decide +kernel

end UnsubscribeCall

end WsStreaming.Ports
