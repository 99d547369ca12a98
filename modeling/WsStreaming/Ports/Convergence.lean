import WsStreaming.Ports.CommandExchange
import WsStreaming.Ports.HttpCommandClient
import WsStreaming.Ports.SubscriptionCommands

/-!
# Subscriptions converge

What an application asks for and what its peer has noted: two connections as
in `CommandExchange`, and one signal that stays registered.  Its remote signal
counts the subscriptions of the application, asks for a subscription when the
count leaves zero and for its end when it comes back, and the other side sets
and clears the explicit flag of the signal.

Once the messages have arrived, the flag is set exactly if the count is not
zero (`exchange_converges`), as long as nobody else sends commands for this
signal and the application counts within its bounds.
-/

namespace WsStreaming.Ports

open WsStreaming.Verified
open WsStreaming.Verified.Run
open WsStreaming.Verified.Fifo (Carries Settles)
open WsStreaming.Verified.OrderedMap (OMap Distinct)

/-! ## A remote signal that is not withdrawn -/

namespace RemoteSignals

/-- The id of the object at an address. -/
def idAt (r : RemoteSignals) (a : Nat) : Option String := (r.objects[a]?).map RemoteSignal.id

/-- The entry of a signal stays, and so does every object; a new object with
its id is that of its entry. -/
structure Retains (id : String) (r r' : RemoteSignals) : Prop where
  kept : ∀ e, OrderedMap.find? r.byId id = some e → ∃ e', OrderedMap.find? r'.byId id = some e' ∧
    e'.address = e.address ∧ (e.hidden = false → e'.hidden = false)
  named : ∀ a j, r.idAt a = some j → r'.idAt a = some j
  fresh : ∀ a, r.idAt a = none → r'.idAt a = some id →
    ∃ e', OrderedMap.find? r'.byId id = some e' ∧ e'.address = a

/-- Every object with the id is that of the entry. -/
def Sole (id : String) (r : RemoteSignals) : Prop :=
  ∀ a, r.idAt a = some id → ∃ e, OrderedMap.find? r.byId id = some e ∧ e.address = a

section Retains

variable {id : String} {r r' r'' : RemoteSignals}

theorem Retains.refl (id : String) (r : RemoteSignals) : Retains id r r := by
  refine ⟨fun e he => ⟨e, he, rfl, fun h => h⟩, fun _ _ h => h, fun a hnone hsome => ?_⟩
  rw [hnone] at hsome
  cases hsome

theorem Retains.trans (h : Retains id r r') (h' : Retains id r' r'') : Retains id r r'' := by
  refine ⟨fun e he => ?_, fun a j hj => h'.named a j (h.named a j hj), fun a hnone hsome => ?_⟩
  · obtain ⟨e', he', haddress, hshown⟩ := h.kept e he
    obtain ⟨e'', he'', haddress', hshown'⟩ := h'.kept e' he'
    exact ⟨e'', he'', haddress'.trans haddress, fun hh => hshown' (hshown hh)⟩
  · cases hmiddle : r'.idAt a with
    | none => exact h'.fresh a hmiddle hsome
    | some j =>
        obtain rfl : j = id := Option.some.inj ((h'.named a j hmiddle).symm.trans hsome)
        obtain ⟨e', he', haddress⟩ := h.fresh a hnone hmiddle
        obtain ⟨e'', he'', haddress', -⟩ := h'.kept e' he'
        exact ⟨e'', he'', haddress'.trans haddress⟩

/-- The same entries and objects with the same ids. -/
theorem retains_of_eq (hbyId : r'.byId = r.byId) (hid : ∀ a, r'.idAt a = r.idAt a) :
    Retains id r r' := by
  refine ⟨fun e he => ⟨e, ?_, rfl, fun h => h⟩, fun a j hj => ?_, fun a hnone hsome => ?_⟩
  · rw [hbyId, he]
  · rw [hid, hj]
  · rw [hid, hnone] at hsome
    cases hsome

theorem Same.idAt (h : Same r r') (a : Nat) : r'.idAt a = r.idAt a := by
  have htag := congrArg (Option.map Prod.fst) (h.object a)
  rw [Option.map_map, Option.map_map] at htag
  exact htag

theorem Same.retains (h : Same r r') : Retains id r r' := retains_of_eq h.byId h.idAt

theorem idAt_modifyObject {f : RemoteSignal → RemoteSignal} (hf : ∀ s, (f s).id = s.id)
    (r : RemoteSignals) (b a : Nat) : (r.modifyObject b f).idAt a = r.idAt a := by
  rw [RemoteSignals.idAt, getElem?_modifyObject]
  split
  · rw [Option.map_map]
    exact congrArg (fun g => (r.objects[a]?).map g) (funext hf)
  · rfl

theorem retains_addRemoteSignal (j : String) (hidden : Bool) :
    Retains id r (r.addRemoteSignal j hidden).1 := by
  cases hfind : OrderedMap.find? r.byId j with
  | some e =>
      rw [addRemoteSignal_of_some j hidden hfind]
      exact .refl id r
  | none =>
      rw [addRemoteSignal_of_none j hidden hfind]
      refine ⟨fun e he => ⟨e, ?_, rfl, fun h => h⟩, fun a k hk => ?_, fun a hnone hsome => ?_⟩
      · have hne : j ≠ id := by
          rintro rfl
          rw [hfind] at he
          cases he
        dsimp only
        rw [OrderedMap.find?_emplace, if_neg hne, he]
      · obtain ⟨s, hs, rfl⟩ := Option.map_eq_some_iff.mp hk
        have hlt : a < r.objects.length := (List.getElem?_eq_some_iff.mp hs).1
        unfold RemoteSignals.idAt
        dsimp only
        rw [List.getElem?_append_left hlt, hs]
        rfl
      · -- The new object is the last one.
        have hle : r.objects.length ≤ a :=
          List.getElem?_eq_none_iff.mp (Option.map_eq_none_iff.mp hnone)
        unfold RemoteSignals.idAt at hsome
        dsimp only at hsome
        rw [List.getElem?_append_right hle] at hsome
        cases hplace : a - r.objects.length with
        | succ n =>
            rw [hplace] at hsome
            cases hsome
        | zero =>
            rw [hplace] at hsome
            obtain rfl : j = id := Option.some.inj hsome
            refine ⟨⟨hidden, r.objects.length⟩, ?_, by dsimp only; omega⟩
            dsimp only
            rw [OrderedMap.find?_emplace, if_pos rfl, hfind]
            rfl

theorem retains_announce (j : String) : Retains id r (r.announce j).1 := by
  have hadd : Retains id r (r.addRemoteSignal j false).1 := retains_addRemoteSignal j false
  refine hadd.trans ⟨fun e he => ?_, fun a k hk => ?_, fun a hnone hsome => ?_⟩
  · rw [find?_announce]
    rw [find?_addRemoteSignal] at he
    by_cases hj : j = id
    · rw [if_pos hj] at he ⊢
      obtain rfl := Option.some.inj he
      exact ⟨_, rfl, rfl, fun _ => rfl⟩
    · rw [if_neg hj] at he ⊢
      exact ⟨e, he, rfl, fun h => h⟩
  · rw [RemoteSignals.idAt, objects_announce]
    exact hk
  · rw [RemoteSignals.idAt, objects_announce] at hsome
    exact absurd (hnone.symm.trans hsome) (by simp)

theorem retains_withdraw {j : String} (hj : j ≠ id) : Retains id r (r.withdraw j).1 := by
  have hid (a : Nat) : (r.withdraw j).1.idAt a = r.idAt a := by
    cases hfind : OrderedMap.find? r.byId j with
    | none => rw [withdraw_of_none hfind]
    | some e =>
        rw [withdraw_of_some hfind]
        dsimp only
        rw [RemoteSignals.idAt, getElem?_onObject]
        split
        · rw [Option.map_map]
          refine congrArg (fun g => (r.objects[a]?).map g) (funext fun s => ?_)
          show s.detach.1.id = s.id
          unfold RemoteSignal.detach
          split <;> rfl
        · rfl
  refine ⟨fun e he => ⟨e, ?_, rfl, fun h => h⟩, fun a k hk => ?_, fun a hnone hsome => ?_⟩
  · rw [find?_withdraw, if_neg hj, he]
  · rw [hid, hk]
  · rw [hid, hnone] at hsome
    cases hsome

theorem retains_forEach {f : RemoteSignals → String → RemoteSignals × List RemoteEvent}
    (ids : List String) (hf : ∀ r, ∀ j ∈ ids, Retains id r (f r j).1) :
    Retains id r (forEach f r ids).1 :=
  forEach_invariant (p := Retains id r) ids (fun r' j hj h => h.trans (hf r' j hj)) r (.refl id r)

theorem retains_handleSubscribe (signo : UInt32) (params : Json) :
    Retains id r (r.handleSubscribe signo params).1 := by
  by_cases hempty : subscribedId params = ""
  · rw [handleSubscribe, if_pos hempty]
    exact .refl id r
  · rw [handleSubscribe_of_ne hempty]
    refine (retains_addRemoteSignal (subscribedId params) true).trans
      (Retains.trans ?_ (same_handleMetadata _ _ _ _).retains)
    refine retains_of_eq rfl fun a => ?_
    exact idAt_modifyObject (f := fun s => s.setSigno signo) (fun _ => rfl) _ _ a

/-- **A message that does not withdraw the signal.** -/
theorem retains_step {m : Message} {q : RemoteSignals × List RemoteEvent}
    (hm : id ∉ removedIds (.message m)) (hq : r.step (.message m) = some q) :
    Retains id r q.1 := by
  cases m with
  | data signo data => exact (same_onPeerDataReceived hq).retains
  | metadata m =>
      change r.onPeerMetadataReceived m = some q at hq
      unfold onPeerMetadataReceived at hq
      split at hq
      · rw [← Option.some.inj hq]
        exact retains_handleSubscribe m.signo m.params
      split at hq
      · obtain ⟨r', hsame, hr'⟩ := handleUnsubscribe_cases hq
        rw [hr']
        exact hsame.retains.trans (retains_of_eq rfl fun _ => rfl)
      split at hq
      · exact (same_dispatchMetadata hq).retains
      rename_i hsigno
      split at hq
      · rw [← Option.some.inj hq]
        exact retains_forEach _ fun r' j _ => retains_announce j
      split at hq
      · rename_i hmethod
        rw [← Option.some.inj hq]
        refine retains_forEach _ fun r' j hj => retains_withdraw fun h => hm ?_
        unfold removedIds
        dsimp only
        rw [if_pos ⟨not_not.mp hsigno, hmethod⟩]
        exact h ▸ hj
      · rw [← Option.some.inj hq]
        exact .refl id r

/-- The object of an entry keeps its place. -/
theorem Retains.sole (h : Retains id r r') (hsole : r.Sole id) : r'.Sole id := by
  intro a ha
  cases hbefore : r.idAt a with
  | none => exact h.fresh a hbefore ha
  | some j =>
      obtain rfl : j = id := Option.some.inj ((h.named a j hbefore).symm.trans ha)
      obtain ⟨e, he, haddress⟩ := hsole a hbefore
      obtain ⟨e', he', haddress', -⟩ := h.kept e he
      exact ⟨e', he', haddress'.trans haddress⟩

/-- A signal that is announced stays so. -/
theorem Retains.announced (h : Retains id r r') (hannounced : r.announced id = true) :
    r'.announced id = true := by
  unfold RemoteSignals.announced at hannounced ⊢
  cases hfind : OrderedMap.find? r.byId id with
  | none =>
      rw [hfind] at hannounced
      cases hannounced
  | some e =>
      rw [hfind] at hannounced
      obtain ⟨e', he', -, hshown⟩ := h.kept e hfind
      rw [he', Option.map_some, Option.getD_some, hshown (by simpa using hannounced)]
      rfl

end Retains

end RemoteSignals

/-! ## Explicit flags -/

namespace Subscriptions

/-- The id and the explicit flag of the signal with a number. -/
def flags (m : Subscriptions) (n : UInt32) : Option (String × Bool) :=
  (OrderedMap.find? m n).map fun s => (s.id, s.isExplicit)

/-- No two signals have the same id. -/
def Unique (m : Subscriptions) : Prop :=
  ∀ n n' s s', OrderedMap.find? m n = some s → OrderedMap.find? m n' = some s' →
    s.id = s'.id → n = n'

section Flags

variable {m : Subscriptions} {k : UInt32} {s new : Subscription}

theorem flags_put (hk : OrderedMap.find? m k = some s) (n : UInt32) :
    (m.put k new).flags n = if k = n then some (new.id, new.isExplicit) else m.flags n := by
  rw [flags, find?_put hk]
  split
  · rfl
  · rfl

theorem Unique.put (h : m.Unique) (hk : OrderedMap.find? m k = some s) (hid : new.id = s.id) :
    (m.put k new).Unique := by
  -- Every signal has the id that it had.
  have hbefore (n : UInt32) (u : Subscription) (hu : OrderedMap.find? (m.put k new) n = some u) :
      ∃ v, OrderedMap.find? m n = some v ∧ v.id = u.id := by
    rw [find?_put hk] at hu
    by_cases hn : k = n
    · rw [if_pos hn] at hu
      rw [← Option.some.inj hu, hid, ← hn]
      exact ⟨s, hk, rfl⟩
    · rw [if_neg hn] at hu
      exact ⟨u, hu, rfl⟩
  intro n n' u u' hu hu' hsame
  obtain ⟨v, hv, hvid⟩ := hbefore n u hu
  obtain ⟨v', hv', hvid'⟩ := hbefore n' u' hu'
  exact h n n' v v' hv hv' (hvid.trans (hsame.trans hvid'.symm))

/-- The flag of the signal that is found becomes another one. -/
theorem flags_of_found (hm : Distinct m) (hunique : m.Unique) {id : String}
    (hfind : m.findById id = some (k, s)) (b : Bool) (n : UInt32) :
    (if k = n then some (s.id, b) else m.flags n) =
      (m.flags n).map fun x => (x.1, if id = x.1 then b else x.2) := by
  have hk := find?_of_findById hm hfind
  have hid := id_of_findById hfind
  by_cases hn : k = n
  · rw [if_pos hn, flags, ← hn, hk, Option.map_some, Option.map_some]
    dsimp only
    rw [if_pos hid.symm]
  · rw [if_neg hn]
    cases hu : OrderedMap.find? m n with
    | none => rw [flags, hu, Option.map_none, Option.map_none]
    | some u =>
        have hne : id ≠ u.id := fun heq =>
          hn (hunique k n s u hk hu (hid.trans heq))
        rw [flags, hu, Option.map_some, Option.map_some]
        dsimp only
        rw [if_neg hne]

theorem flags_of_not_found {id : String} (hfind : m.findById id = none) (b : Bool) (n : UInt32) :
    m.flags n = (m.flags n).map fun x => (x.1, if id = x.1 then b else x.2) := by
  cases hu : OrderedMap.find? m n with
  | none => rw [flags, hu, Option.map_none, Option.map_none]
  | some u =>
      have hne : id ≠ u.id := by
        rintro rfl
        have hall := List.find?_eq_none.mp hfind (n, u) (OrderedMap.mem_of_find?_eq_some hu)
        simp at hall
      rw [flags, hu, Option.map_some, Option.map_some]
      dsimp only
      rw [if_neg hne]

/-- **A subscribe request** sets the flag of its signal. -/
theorem flags_subscribe (hm : Distinct m) (hunique : m.Unique) (id : String) (n : UInt32) :
    (m.subscribe id).flags n = (m.flags n).map fun x => (x.1, if id = x.1 then true else x.2) := by
  unfold subscribe
  cases hfind : m.findById id with
  | none => exact flags_of_not_found hfind true n
  | some found =>
      obtain ⟨k, s⟩ := found
      have hk := find?_of_findById hm hfind
      dsimp only
      rw [← flags_of_found hm hunique hfind true n]
      have hrequest : (m.put k s.request).flags n =
          if k = n then some (s.id, true) else m.flags n :=
        flags_put hk n
      split
      · exact hrequest
      · cases hdomain : (m.put k s.request).domainOf s with
        | none => exact hrequest
        | some found =>
            -- The domain is subscribed implicitly.
            obtain ⟨d, t⟩ := found
            have hd : OrderedMap.find? (m.put k s.request) d = some t := by
              obtain ⟨id', -, hfound⟩ := Option.bind_eq_some_iff.mp hdomain
              exact find?_of_findById (Distinct.put hm k _) hfound
            dsimp only
            rw [flags_put hd, ← hrequest]
            by_cases hn : d = n
            · rw [if_pos hn, ← hn, flags, hd]
              rfl
            · rw [if_neg hn]

/-- **An unsubscribe call** clears the flag of its signal if it is explicit. -/
theorem flags_unsubscribe (m : Subscriptions) (id : String) (isExplicit : Bool) :
    Distinct m → m.Unique → ∀ n, (m.unsubscribe id isExplicit).flags n =
      (m.flags n).map fun x => (x.1, if isExplicit = true ∧ id = x.1 then false else x.2) := by
  -- What the call does to the signal itself.
  have hdrop {m : Subscriptions} {id : String} {isExplicit : Bool} {k : UInt32}
      {s : Subscription} (hm : Distinct m) (hunique : m.Unique)
      (hfind : m.findById id = some (k, s)) (n : UInt32) :
      (m.put k (s.drop isExplicit)).flags n =
        (m.flags n).map fun x => (x.1, if isExplicit = true ∧ id = x.1 then false else x.2) := by
    have hk := find?_of_findById hm hfind
    rw [flags_put hk]
    cases isExplicit with
    | true =>
        simp only [true_and]
        exact flags_of_found hm hunique hfind false n
    | false =>
        simp only [Bool.false_eq_true, false_and, if_false]
        by_cases hn : k = n
        · rw [if_pos hn, flags, ← hn, hk]
          rfl
        · rw [if_neg hn]
          cases m.flags n <;> rfl
  induction m, id, isExplicit using unsubscribe_induction with
  | none m id isExplicit hfind =>
      intro _ _ n
      rw [unsubscribe_of_none hfind]
      cases isExplicit with
      | true =>
          simp only [true_and]
          exact flags_of_not_found hfind false n
      | false =>
          simp only [Bool.false_eq_true, false_and, if_false]
          cases m.flags n <;> rfl
  | active m id isExplicit k s hfind hactive =>
      intro hm hunique n
      rw [unsubscribe_of_active hfind hactive]
      exact hdrop hm hunique hfind n
  | ended m id isExplicit k s hfind hactive ih =>
      intro hm hunique n
      have hk := find?_of_findById hm hfind
      rw [unsubscribe_of_ended hfind hactive, ← hdrop hm hunique hfind n]
      cases hdomain : s.domain with
      | none => rfl
      | some tableId =>
          dsimp only
          rw [ih tableId hdomain (Distinct.put hm k _)
            (hunique.put hk (Subscription.id_drop s _)) n]
          simp only [Bool.false_eq_true, false_and, if_false]
          cases (m.put k (s.drop isExplicit)).flags n <;> rfl

end Flags

end Subscriptions

namespace LocalSignals

/-- The id and the explicit flag of the signal with a number. -/
def flags (c : LocalSignals) (n : UInt32) : Option (String × Bool) :=
  (OrderedMap.find? c.signals n).map fun e => (e.signal.id, e.isExplicitlySubscribed)

/-- What a request makes of the flag of a signal. -/
def Request.flag (id : String) (b : Bool) : Request → Bool
  | .subscribe j => if j = id then true else b
  | .unsubscribe j => if j = id then false else b

/-- What requests make of it, one after another. -/
def flagAfter (id : String) (b : Bool) (rs : List Request) : Bool := rs.foldl (Request.flag id) b

section Flags

variable {c : LocalSignals}

theorem flags_subscriptions (c : LocalSignals) (n : UInt32) :
    c.subscriptions.flags n = c.flags n := by
  rw [Subscriptions.flags, find?_subscriptions, Option.map_map]
  rfl

/-- **A request** sets or clears the flag of the signal that it names. -/
theorem flags_request (hd : Distinct c.signals)
    (hunique : ∀ n n' id, c.names n = some id → c.names n' = some id → n = n') (r : Request)
    (n : UInt32) :
    (c.request r).1.flags n = (c.flags n).map fun x => (x.1, r.flag x.1 x.2) := by
  have hm : Distinct c.subscriptions := distinct_subscriptions.mpr hd
  have hids : c.subscriptions.Unique := by
    intro n n' s s' hs hs' hsame
    apply hunique n n' s.id
    · rw [names_eq_subscriptions, hs]
      rfl
    · rw [names_eq_subscriptions, hs', hsame]
      rfl
  rw [← flags_subscriptions, ← flags_subscriptions]
  cases r with
  | subscribe id =>
      rw [show (c.request (.subscribe id)).1.subscriptions = c.subscriptions.subscribe id from
        subscriptions_subscribe c id]
      exact Subscriptions.flags_subscribe hm hids id n
  | unsubscribe id =>
      rw [show (c.request (.unsubscribe id)).1.subscriptions = c.subscriptions.unsubscribe id true
        from subscriptions_unsubscribe c id true,
        Subscriptions.flags_unsubscribe c.subscriptions id true hm hids n]
      simp only [true_and]
      rfl

/-- A request for another signal. -/
theorem Request.flag_of_ne {r : Request} {id : String} (hne : signalIdOf r ≠ id) (b : Bool) :
    r.flag id b = b := by
  cases r with
  | subscribe j => exact if_neg hne
  | unsubscribe j => exact if_neg hne

theorem flagAfter_of_ne {id : String} {rs : List Request}
    (hne : ∀ r ∈ rs, signalIdOf r ≠ id) (b : Bool) :
    flagAfter id b rs = b := by
  induction rs generalizing b with
  | nil => rfl
  | cons r rs ih =>
      show flagAfter id (r.flag id b) rs = b
      rw [Request.flag_of_ne (hne r List.mem_cons_self)]
      exact ih (fun r' hr' => hne r' (List.mem_cons_of_mem _ hr')) b

theorem flagAfter_append (id : String) (b : Bool) (rs more : List Request) :
    flagAfter id b (rs ++ more) = flagAfter id (flagAfter id b rs) more :=
  List.foldl_append

theorem names_eq_flags (c : LocalSignals) (n : UInt32) : c.names n = (c.flags n).map Prod.fst := by
  rw [names, flags, Option.map_map]
  rfl

/-- **Requests, one after another.** -/
theorem flags_requests (rs : List Request) : ∀ {c : LocalSignals}, Distinct c.signals →
    (∀ n n' id, c.names n = some id → c.names n' = some id → n = n') → ∀ n,
      (rs.foldl (fun c r => (c.request r).1) c).flags n =
        (c.flags n).map fun x => (x.1, flagAfter x.1 x.2 rs) := by
  induction rs with
  | nil =>
      intro c _ _ n
      exact Option.map_id'.symm
  | cons r rs ih =>
      intro c hd hunique n
      have hflags := flags_request hd hunique r
      have hnames (n : UInt32) : (c.request r).1.names n = c.names n := by
        rw [names_eq_flags, hflags, Option.map_map, names_eq_flags]
        rfl
      rw [List.foldl_cons, ih (distinct_request hd r) (by
        intro n n' id hn hn'
        rw [hnames] at hn hn'
        exact hunique n n' id hn hn'), hflags, Option.map_map]
      rfl

/-! ### What leaves a signal alone -/

/-- A signal with an id stays registered, and its flag is as it was; one that
is new has none. -/
structure Stands (id : String) (c c' : LocalSignals) : Prop where
  flagged : ∀ n b, c'.flags n = some (id, b) →
    c.flags n = some (id, b) ∨ b = false ∧ ∀ n, c.names n ≠ some id
  named : ∀ n, c.names n = some id → ∃ n', c'.names n' = some id

variable {id : String} {c' : LocalSignals}

theorem stands_of_flags (h : ∀ n, c'.flags n = c.flags n) : Stands id c c' := by
  refine ⟨fun n b hb => .inl ?_, fun n hn => ⟨n, ?_⟩⟩
  · rw [← h, hb]
  · rw [names_eq_flags, h, ← names_eq_flags, hn]

theorem stands_of_subscriptions (h : c'.subscriptions = c.subscriptions) : Stands id c c' := by
  apply stands_of_flags
  intro n
  rw [← flags_subscriptions, h, flags_subscriptions]

theorem Stands.refl (id : String) (c : LocalSignals) : Stands id c c :=
  stands_of_flags fun _ => rfl

/-- **Requests for other signals.** -/
theorem stands_requests (hd : Distinct c.signals)
    (hunique : ∀ n n' id, c.names n = some id → c.names n' = some id → n = n')
    {rs : List Request} (hne : ∀ r ∈ rs, signalIdOf r ≠ id) :
    Stands id c (rs.foldl (fun c r => (c.request r).1) c) := by
  have hflags := flags_requests rs hd hunique
  refine ⟨fun n b hb => .inl ?_, fun n hn => ⟨n, ?_⟩⟩
  · rw [hflags] at hb
    obtain ⟨x, hx, hsame⟩ := Option.map_eq_some_iff.mp hb
    obtain ⟨hid, hflag⟩ := Prod.mk.inj hsame
    rw [hid, flagAfter_of_ne hne] at hflag
    rw [hx, ← hid, ← hflag]
  · rw [names_eq_flags, hflags, Option.map_map, ← hn, names_eq_flags]
    rfl

/-- **A signal is registered.** -/
theorem stands_addLocalSignal {signal : LocalSignal}
    (hunique : Advertisement.UniqueId c signal) (hnumbered : Mirroring.Numbered c signal) :
    Stands id c (c.addLocalSignal signal).1 := by
  cases hfind : c.findByAddress signal.address with
  | some found =>
      rw [addLocalSignal_of_some hfind]
      exact .refl id c
  | none =>
      have hfree : OrderedMap.find? c.signals c.nextSigno = none := by
        rcases hnumbered with hregistered | ⟨hfree, -⟩
        · rw [IsRegistered, hfind] at hregistered
          cases hregistered
        · exact hfree
      have hflags (n : UInt32) : (c.addLocalSignal signal).1.flags n =
          if c.nextSigno = n then some (signal.id, false) else c.flags n := by
        have hfree' : OrderedMap.find? c.subscriptions c.nextSigno = none := by
          rw [find?_subscriptions, hfree]
          rfl
        rw [← flags_subscriptions, subscriptions_addLocalSignal hfind, Subscriptions.flags,
          OrderedMap.find?_emplace, hfree', ← flags_subscriptions]
        by_cases hn : c.nextSigno = n
        · rw [if_pos hn, if_pos hn]
          rfl
        · rw [if_neg hn, if_neg hn]
          rfl
      refine ⟨fun n b hb => ?_, fun n hn => ⟨n, ?_⟩⟩
      · rw [hflags] at hb
        by_cases hn : c.nextSigno = n
        · rw [if_pos hn] at hb
          obtain ⟨hid, hfalse⟩ := Prod.mk.inj (Option.some.inj hb)
          refine .inr ⟨hfalse.symm, fun k hk => ?_⟩
          -- Another object would have the id.
          obtain ⟨e, he, heid⟩ := Option.map_eq_some_iff.mp hk
          have hmem := OrderedMap.mem_of_find?_eq_some he
          have haddress := (hunique (k, e) hmem).mpr (heid.trans hid.symm)
          have hnone := List.find?_eq_none.mp hfind (k, e) hmem
          simp only [decide_eq_true_eq] at hnone
          exact hnone haddress
        · rw [if_neg hn] at hb
          exact .inl hb
      · rw [names_addLocalSignal hfind hfree, if_neg, hn]
        rintro rfl
        rw [names, hfree] at hn
        cases hn

/-- **Another signal is removed.** -/
theorem stands_removeLocalSignal {signal : LocalSignal} (hd : Distinct c.signals)
    (hid : Advertisement.SameId c signal) (hne : signal.id ≠ id) :
    Stands id c (c.removeLocalSignal signal).1 := by
  unfold removeLocalSignal
  cases hfind : c.findByAddress signal.address with
  | none => exact .refl id c
  | some found =>
      obtain ⟨k, e⟩ := found
      have hk := find?_of_findByAddress hd hfind
      have hother (n : UInt32) (hn : c.names n = some id) : k ≠ n := by
        rintro rfl
        rw [names_of_find hk] at hn
        have haddress : e.signal.address = signal.address := by
          have hfound := List.find?_some hfind
          simpa using hfound
        apply hne
        rw [← hid (k, e) (OrderedMap.mem_of_find?_eq_some hk) haddress]
        exact Option.some.inj hn
      refine ⟨fun n b hb => .inl ?_, fun n hn => ⟨n, ?_⟩⟩
      · unfold flags at hb ⊢
        dsimp only at hb
        rw [OrderedMap.find?_erase] at hb
        by_cases hkn : k = n
        · rw [if_pos hkn] at hb
          cases hb
        · rw [if_neg hkn] at hb
          exact hb
      · dsimp only
        rw [names_erase, if_neg (hother n hn), hn]

/-- **Metadata change, or data are published.** -/
theorem stands_setMetadata (hd : Distinct c.signals) (address : Nat) (metadata : Metadata) :
    Stands id c (c.setMetadata address metadata).1 := by
  unfold setMetadata
  cases hfind : c.findByAddress address with
  | none => exact .refl id c
  | some found =>
      obtain ⟨k, e⟩ := found
      have hk := find?_of_findByAddress hd hfind
      have hflags (n : UInt32) : (c.update k fun _ =>
          { e with signal := { e.signal with metadata := metadata } }).flags n = c.flags n := by
        rw [flags, find?_update, flags]
        by_cases hn : k = n
        · rw [if_pos hn, ← hn, hk]
          rfl
        · rw [if_neg hn]
      dsimp only
      split
      · apply stands_of_flags
        intro n
        rw [← hflags, ← flags_subscriptions, ← flags_subscriptions, onLocalSignalMetadataChanged,
          subscriptions_update_of_eq _ k (f := fun e => e.withValueIndex 0) fun _ => rfl,
          subscriptions_refresh]
      · exact stands_of_flags hflags

end Flags

end LocalSignals

namespace CommandExchange

open Advertisement (Side)
open Mirroring (Dialogue)
open LocalSignals (Command Request Stands commandIds flagAfter)
open RemoteSignals (Retains removedIds)

/-! ## What requests say -/

/-- The requests that a command makes. -/
def requestsOf (streamId method : String) (params : Json) : List Request :=
  if method = streamId ++ ".subscribe" then (Command.subscribe params).requests
  else if method = streamId ++ ".unsubscribe" then (Command.unsubscribe params).requests
  else []

/-- The requests that a message makes. -/
def wishes (streamId : String) (m : MetadataMessage) : List Request :=
  match m.params.stringAt? "method" with
  | some method => requestsOf streamId method ((m.params.find? "params").getD .null)
  | none => []

section Wishes

theorem locals_doCommandInterface (c : Connection) (method : String) (params : Json) :
    (c.doCommandInterface method params).1.locals =
      (requestsOf c.localStreamId method params).foldl (fun c r => (c.request r).1) c.locals := by
  unfold Connection.doCommandInterface requestsOf
  split
  · exact LocalSignals.command_fst c.locals (.subscribe params)
  split
  · exact LocalSignals.command_fst c.locals (.unsubscribe params)
  · rfl

/-- Each request names an id of the command. -/
theorem id_of_mem_requestsOf {streamId method : String} {params : Json} {r : Request}
    (hr : r ∈ requestsOf streamId method params) : signalIdOf r ∈ commandIds params := by
  unfold requestsOf at hr
  split at hr
  · obtain ⟨id, hid, rfl⟩ := List.mem_map.mp hr
    exact hid
  split at hr
  · obtain ⟨id, hid, rfl⟩ := List.mem_map.mp hr
    exact hid
  · cases hr

/-- **What a request that arrives does.** -/
theorem locals_of_request {c : Connection} {m : MetadataMessage}
    {q : Connection × List Output × List RemoteEvent} (hsigno : m.signo = 0)
    (hmethod : m.method = "request") (hq : c.receive (.metadata m) = some q) :
    q.1.locals = (wishes c.localStreamId m).foldl (fun c r => (c.request r).1) c.locals := by
  rw [Connection.receive_request c hsigno hmethod] at hq
  obtain ⟨p, hp, rfl⟩ := Option.map_eq_some_iff.mp hq
  unfold Connection.handleCommandInterfaceRequest at hp
  split at hp
  · rw [← Option.some.inj hp]
    unfold wishes
    cases m.params.stringAt? "method" with
    | none => rfl
    | some method => exact locals_doCommandInterface c method _
  · cases hp

/-- Nothing else changes the signals of the receiver. -/
theorem locals_receive {c : Connection} {m : Message}
    {q : Connection × List Output × List RemoteEvent}
    (hrequest : Session.globalMethod m ≠ "request") (hq : c.receive m = some q) :
    q.1.locals = c.locals := by
  rcases Connection.receive_cases hq with ⟨-, rfl⟩ | ⟨-, rfl⟩ | ⟨hmethod, -⟩ |
    ⟨-, remotes, events, rfl⟩
  · obtain ⟨version, hframe⟩ := c.handleApiVersion_frame (Session.paramsOf m)
    rw [hframe]
  · obtain ⟨streamId, helloSent, hframe⟩ := c.handleInit_frame (Session.paramsOf m)
    rw [hframe]
  · exact absurd hmethod hrequest
  · rfl

/-- **What a request of the client says.** -/
theorem wishes_asyncRequest (client : InBandClient Nat) (streamId : String) (r : Request)
    (place : Nat) :
    wishes streamId (client.asyncRequest (streamId ++ commandOf r)
      (.array [.string (signalIdOf r)]) place).2 = [r] := by
  show requestsOf streamId (streamId ++ commandOf r) (.array [.string (signalIdOf r)]) = [r]
  unfold requestsOf
  cases r with
  | subscribe id => exact if_pos rfl
  | unsubscribe id =>
      have hne : streamId ++ ".unsubscribe" ≠ streamId ++ ".subscribe" := by
        intro heq
        have hlists := congrArg String.toList heq
        rw [String.toList_append, String.toList_append] at hlists
        exact absurd (List.append_cancel_left hlists) (by decide)
      exact (if_neg hne).trans (if_pos rfl)

end Wishes

/-! ## The side that asks -/

/-- The subscriptions that the application counts for the signal with an id. -/
def countOf (r : RemoteSignals) (counter : Nat → SubscriptionCounter) (id : String) : UInt32 :=
  ((OrderedMap.find? r.byId id).map fun e => (counter e.address).subscriptionCount).getD 0

/-- **What is counted is wanted**, and an object that is not there yet has no
count. -/
structure Counts (id : String) (r : RemoteSignals) (counter : Nat → SubscriptionCounter)
    (wanted : Bool) : Prop where
  wellFormed : r.WellFormed
  sole : r.Sole id
  fresh : ∀ a, r.idAt a = none → counter a = {}
  counted : wanted = decide (countOf r counter id ≠ 0)

section Counts

variable {id : String} {r r' : RemoteSignals} {counter : Nat → SubscriptionCounter}
  {wanted : Bool} {a : Nat} {x : SubscriptionCounter}

/-- The object of an entry has its id. -/
theorem idAt_of_entry (h : r.WellFormed) {e : RemoteSignalEntry}
    (he : OrderedMap.find? r.byId id = some e) : r.idAt e.address = some id := by
  obtain ⟨s, hs, rfl, -⟩ := h.object id e he
  rw [RemoteSignals.idAt, hs]
  rfl

/-- **A message of the peer.** -/
theorem Counts.listens (h : Counts id r counter wanted) (hretains : Retains id r r')
    (hwellFormed : r'.WellFormed) : Counts id r' counter wanted := by
  refine ⟨hwellFormed, hretains.sole h.sole, fun a ha => ?_, ?_⟩
  · cases hbefore : r.idAt a with
    | none => exact h.fresh a hbefore
    | some j =>
        rw [hretains.named a j hbefore] at ha
        cases ha
  · have hsame : countOf r' counter id = countOf r counter id := by
      unfold countOf
      cases hfind : OrderedMap.find? r.byId id with
      | some e =>
          obtain ⟨e', he', haddress, -⟩ := hretains.kept e hfind
          rw [he', Option.map_some, Option.map_some, haddress]
      | none =>
          cases hfind' : OrderedMap.find? r'.byId id with
          | none => rfl
          | some e' =>
              -- The object is new.
              have hnone : r.idAt e'.address = none := by
                cases hbefore : r.idAt e'.address with
                | none => rfl
                | some j =>
                    have hj := hretains.named _ j hbefore
                    rw [idAt_of_entry hwellFormed hfind'] at hj
                    rw [← Option.some.inj hj] at hbefore
                    obtain ⟨e, he, -⟩ := h.sole _ hbefore
                    rw [hfind] at he
                    cases he
              rw [Option.map_some, h.fresh _ hnone]
              rfl
    rw [hsame]
    exact h.counted

/-- **Another signal is counted.** -/
theorem Counts.other (h : Counts id r counter wanted) {j : String} (ha : r.idAt a = some j)
    (hj : j ≠ id) : Counts id r (Function.update counter a x) wanted := by
  refine ⟨h.wellFormed, h.sole, fun b hb => ?_, ?_⟩
  · have hne : b ≠ a := by
      rintro rfl
      rw [ha] at hb
      cases hb
    rw [Function.update_of_ne hne]
    exact h.fresh b hb
  · rw [h.counted]
    unfold countOf
    cases hfind : OrderedMap.find? r.byId id with
    | none => rfl
    | some e =>
        have hne : e.address ≠ a := by
          intro heq
          have hid := idAt_of_entry h.wellFormed hfind
          rw [heq, ha] at hid
          exact hj (Option.some.inj hid)
        rw [Option.map_some, Option.map_some, Function.update_of_ne hne]

/-- **The signal itself is counted.** -/
theorem Counts.own (h : Counts id r counter wanted) (ha : r.idAt a = some id) :
    countOf r counter id = (counter a).subscriptionCount ∧
      Counts id r (Function.update counter a x) (decide (x.subscriptionCount ≠ 0)) := by
  obtain ⟨e, he, rfl⟩ := h.sole a ha
  have hcount (counter : Nat → SubscriptionCounter) :
      countOf r counter id = (counter e.address).subscriptionCount := by
    rw [countOf, he]
    rfl
  refine ⟨hcount counter, h.wellFormed, h.sole, fun b hb => ?_, ?_⟩
  · have hne : b ≠ e.address := by
      rintro rfl
      rw [ha] at hb
      cases hb
    rw [Function.update_of_ne hne]
    exact h.fresh b hb
  · rw [hcount, Function.update_self]

end Counts

/-! ## The side that is asked -/

/-- No message withdraws the signal with an id. -/
def Spares (id : String) (messages : List Message) : Prop :=
  ∀ m ∈ messages, id ∉ removedIds (.message m)

/-- **The flag is what has been requested**, of everything that is wished; and
nothing is wished of a signal that is not registered. -/
structure Grants (id : String) (c : LocalSignals) (queue : List Message)
    (granted wished : List Request) : Prop where
  spares : Spares id queue
  within : ∀ r ∈ granted, r ∈ wished
  flagged : ∀ n b, c.flags n = some (id, b) → b = flagAfter id false granted
  unasked : (∀ n, c.names n ≠ some id) → ∀ r ∈ wished, signalIdOf r ≠ id

section Grants

variable {id : String} {c c' : LocalSignals} {queue messages : List Message}
  {granted wished : List Request}

theorem Spares.append (h : Spares id queue) (h' : Spares id messages) :
    Spares id (queue ++ messages) := by
  intro m hm
  rcases List.mem_append.mp hm with hm | hm
  · exact h m hm
  · exact h' m hm

theorem spares_of_said (h : said "unavailable" messages = []) : Spares id messages := by
  intro m hm
  cases m with
  | data n data => exact List.not_mem_nil
  | metadata m =>
      have hnone : (if m.signo = 0 ∧ m.method = "unavailable" then some m else none) = none :=
        List.filterMap_eq_nil_iff.mp h (.metadata m) hm
      have hother : ¬ (m.signo = 0 ∧ m.method = "unavailable") := by
        intro hsame
        rw [if_pos hsame] at hnone
        cases hnone
      unfold removedIds
      dsimp only
      rw [if_neg hother]
      exact List.not_mem_nil

theorem spares_of_quiet (h : Quiet quietMethods messages) : Spares id messages :=
  spares_of_said (h "unavailable" List.mem_cons_self)

theorem spares_doHello (c : Connection) : Spares id (messagesOf c.doHello.2) := by
  apply spares_of_said
  have havailable : said "unavailable" (messagesOf (if c.localIds = [] then []
      else [Output.send (Connection.idsMessage "available" c.localIds)])) = [] := by
    split <;> rfl
  unfold Connection.doHello
  rw [messagesOf_append, said_append, havailable]
  rfl

/-- Another signal is withdrawn. -/
theorem spares_removeLocalSignal (c : Connection) {signal : LocalSignal} (hne : signal.id ≠ id) :
    Spares id (messagesOf (c.removeLocalSignal signal).2) := by
  have hrelease : Spares id (messagesOf (c.locals.removeLocalSignal signal).2.1) := by
    unfold LocalSignals.removeLocalSignal
    split
    · exact spares_of_quiet (quiet_of_onlyNews (RegisteredLocalSignal.onlyNews_release _))
    · exact spares_of_said rfl
  unfold Connection.removeLocalSignal
  dsimp only
  rw [messagesOf_append]
  refine hrelease.append ?_
  split
  · intro m hm
    rw [List.mem_singleton.mp hm]
    show id ∉ [signal.id]
    exact fun hmem => hne (List.mem_singleton.mp hmem).symm
  · exact spares_of_said rfl

/-- **The signals change**, and something is sent. -/
theorem Grants.speaks (h : Grants id c queue granted wished) (hstands : Stands id c c')
    (hmessages : Spares id messages) : Grants id c' (queue ++ messages) granted wished := by
  refine ⟨h.spares.append hmessages, h.within, fun n b hb => ?_, fun hnone => ?_⟩
  · rcases hstands.flagged n b hb with hbefore | ⟨rfl, hnone⟩
    · exact h.flagged n b hbefore
    · rw [LocalSignals.flagAfter_of_ne fun r hr => h.unasked hnone r (h.within r hr)]
  · apply h.unasked
    intro n hn
    obtain ⟨n', hn'⟩ := hstands.named n hn
    exact hnone n' hn'

/-- **Requests are carried out.** -/
theorem Grants.serves (h : Grants id c queue granted wished) (hd : Distinct c.signals)
    (hunique : ∀ n n' id, c.names n = some id → c.names n' = some id → n = n')
    {rs : List Request} (hrs : ∀ r ∈ rs, r ∈ wished) (hmessages : Spares id messages) :
    Grants id (rs.foldl (fun c r => (c.request r).1) c) (queue ++ messages) (granted ++ rs)
      wished := by
  have hflags := LocalSignals.flags_requests rs hd hunique
  refine ⟨h.spares.append hmessages, fun r hr => ?_, fun n b hb => ?_, fun hnone => ?_⟩
  · rcases List.mem_append.mp hr with hr | hr
    · exact h.within r hr
    · exact hrs r hr
  · rw [hflags] at hb
    obtain ⟨x, hx, hsame⟩ := Option.map_eq_some_iff.mp hb
    obtain ⟨rfl, rfl⟩ := Prod.mk.inj hsame
    rw [LocalSignals.flagAfter_append, ← h.flagged n x.2 hx]
  · apply h.unasked
    intro n hn
    apply hnone n
    rw [LocalSignals.names_eq_flags, hflags, Option.map_map, ← hn, LocalSignals.names_eq_flags]
    rfl

/-- **Something is wished** of a signal that is registered, or of another one. -/
theorem Grants.wishes (h : Grants id c queue granted wished) {r : Request}
    (hr : signalIdOf r = id → ∃ n, c.names n = some id) :
    Grants id c queue granted (wished ++ [r]) := by
  refine ⟨h.spares, fun r' hr' => List.mem_append_left _ (h.within r' hr'), h.flagged, ?_⟩
  intro hnone r' hr'
  rcases List.mem_append.mp hr' with hr' | hr'
  · exact h.unasked hnone r' hr'
  · rw [List.mem_singleton.mp hr']
    intro hid
    obtain ⟨n, hn⟩ := hr hid
    exact hnone n hn

end Grants

/-! ## Both sides -/

namespace World

/-- What a side has asked for. -/
def wished (w : World) (side : Side) : List Request :=
  (w.asked side).flatMap (wishes (w.connection side.other).localStreamId)

/-- What has been carried out of it. -/
def granted (w : World) (side : Side) : List Request :=
  ((w.served side.other).map Prod.fst).flatMap (wishes (w.connection side.other).localStreamId)

/-- The subscriptions that the application of a side holds of a signal. -/
def held (w : World) (side : Side) (id : String) : UInt32 :=
  countOf (w.connection side).remotes (w.counter side) id

/-- Whether a side sends its requests in-band. -/
def isInBand (w : World) (side : Side) : Bool :=
  match w.client side with
  | some (.inBand _) => true
  | _ => false

/-- **The signal with an id is left to the application of a side.**  It stays
registered once it is, and nobody else sends commands for it; the application
has been handed it, does not count beyond 32 bits or below zero, and subscribes
it first when it can send the request in-band. -/
def Attends (w : World) (side : Side) (id : String) : Action → Prop
  | .dialogue (.link (.remove side' signal)) => side' = side.other → signal.id ≠ id
  | .dialogue (.link (.command side' _ params)) => side' = side.other → id ∉ commandIds params
  | .subscribe side' address =>
      side' = side → (w.connection side).remotes.idAt address = some id →
        (w.connection side).remotes.announced id = true ∧ w.held side id + 1 ≠ 0 ∧
          (w.held side id = 0 → w.isInBand side = true)
  | .unsubscribe side' address =>
      side' = side → (w.connection side).remotes.idAt address = some id → w.held side id ≠ 0
  | _ => True

/-- **The subscription has come through**: once all requests have arrived, the
signal is subscribed explicitly exactly if the application holds a
subscription. -/
def Converged (w : World) (side : Side) (id : String) : Prop :=
  w.outgoing side = [] → ∀ n e,
    OrderedMap.find? (w.connection side.other).locals.signals n = some e → e.signal.id = id →
      (e.isExplicitlySubscribed = true ↔ w.held side id ≠ 0)

/-- What is counted on one side is asked for, and what is asked for is granted
on the other one. -/
structure Pending (w : World) (side : Side) (id : String) : Prop where
  stream : w.isInBand side = true →
    (w.connection side).remoteStreamId = (w.connection side.other).localStreamId
  counts : Counts id (w.connection side).remotes (w.counter side)
    (flagAfter id false (w.wished side))
  grants : Grants id (w.connection side.other).locals (w.outgoing side.other) (w.granted side)
    (w.wished side)

section Pending

variable {w w' : World} {side side' sender : Side} {id : String} {d : Dialogue} {c : Connection}
  {m : Message} {rest messages : List Message}

theorem isInBand_iff : w.isInBand side = true ↔ ∃ c, w.client side = some (.inBand c) := by
  unfold isInBand
  split
  · rename_i c hclient
    exact iff_of_true rfl ⟨c, hclient⟩
  · rename_i hother
    refine iff_of_false Bool.false_ne_true ?_
    rintro ⟨c, hclient⟩
    exact hother c hclient

/-- What is wished has not changed on the side that asks. -/
theorem Pending.of_grants (h : w.Pending side id)
    (hinBand : w'.isInBand side = true → w.isInBand side = true)
    (hremotes : (w'.connection side).remotes = (w.connection side).remotes)
    (hremote : (w'.connection side).remoteStreamId = (w.connection side).remoteStreamId)
    (hlocal : (w'.connection side.other).localStreamId = (w.connection side.other).localStreamId)
    (hcounter : w'.counter side = w.counter side) (hasked : w'.asked side = w.asked side)
    (hgrants : Grants id (w'.connection side.other).locals (w'.outgoing side.other)
      (w'.granted side) (w.wished side)) : w'.Pending side id := by
  have hwished : w'.wished side = w.wished side := by
    unfold wished
    rw [hasked, hlocal]
  refine ⟨fun hin => ?_, ?_, ?_⟩
  · rw [hremote, hlocal]
    exact h.stream (hinBand hin)
  · rw [hremotes, hcounter, hwished]
    exact h.counts
  · rw [hwished]
    exact hgrants

/-- The connections have not changed. -/
theorem Pending.of_link (h : w.Pending side id) (hlink : d.link = w.dialogue.link) :
    World.Pending { w with dialogue := d } side id := by
  have hconnection (side : Side) : World.connection { w with dialogue := d } side =
      w.connection side := by
    unfold connection
    rw [hlink]
  have hgranted : World.granted { w with dialogue := d } side = w.granted side := by
    unfold granted
    rw [hconnection]
  have hqueue : World.outgoing { w with dialogue := d } side.other = w.outgoing side.other := by
    unfold outgoing
    rw [hlink]
  refine h.of_grants (fun hin => hin) ?_ ?_ ?_ rfl rfl ?_
  · rw [hconnection]
  · rw [hconnection]
  · rw [hconnection]
  · rw [hconnection, hqueue, hgranted]
    exact h.grants

/-- **A side does something for itself.** -/
theorem Pending.tells (h : w.Pending side id)
    (hself : d.link.endpoint side' = ⟨c, w.outgoing side' ++ messages⟩)
    (hother : d.link.endpoint side'.other = w.dialogue.link.endpoint side'.other)
    (hremotes : c.remotes = (w.connection side').remotes)
    (hremote : c.remoteStreamId = (w.connection side').remoteStreamId)
    (hlocal : c.localStreamId = (w.connection side').localStreamId)
    (hspeaks : side' = side.other →
      Stands id (w.connection side').locals c.locals ∧ Spares id messages) :
    World.Pending { w with dialogue := d } side id := by
  rcases Advertisement.Side.eq_or_other side side' with rfl | rfl
  · have hpeer : World.connection { w with dialogue := d } side'.other =
        w.connection side'.other :=
      congrArg Advertisement.Endpoint.connection hother
    have hhere : World.connection { w with dialogue := d } side' = c :=
      congrArg Advertisement.Endpoint.connection hself
    have hqueue : World.outgoing { w with dialogue := d } side'.other =
        w.outgoing side'.other :=
      congrArg Advertisement.Endpoint.outgoing hother
    have hgranted : World.granted { w with dialogue := d } side' = w.granted side' := by
      unfold granted
      rw [hpeer]
    refine h.of_grants (fun hin => hin) ?_ ?_ ?_ rfl rfl ?_
    · rw [hhere, hremotes]
    · rw [hhere, hremote]
    · rw [hpeer]
    · rw [hpeer, hqueue, hgranted]
      exact h.grants
  · obtain ⟨hstands, hspares⟩ := hspeaks rfl
    rw [other_other] at hother
    have hpeer : World.connection { w with dialogue := d } side.other = c :=
      congrArg Advertisement.Endpoint.connection hself
    have hhere : World.connection { w with dialogue := d } side = w.connection side :=
      congrArg Advertisement.Endpoint.connection hother
    have hqueue : World.outgoing { w with dialogue := d } side.other =
        w.outgoing side.other ++ messages :=
      congrArg Advertisement.Endpoint.outgoing hself
    have hgranted : World.granted { w with dialogue := d } side = w.granted side := by
      unfold granted
      rw [hpeer, hlocal]
    refine h.of_grants (fun hin => hin) ?_ ?_ ?_ rfl rfl ?_
    · rw [hhere]
    · rw [hhere]
    · rw [hpeer, hlocal]
    · rw [hpeer, hqueue, hgranted]
      exact h.grants.speaks hstands hspares

/-! ### What arrives -/

/-- What a message leaves alone on the side where it arrives, and on the other
one. -/
theorem hears_frame (w : World) (side : Side) (m : Message) :
    (w.hears side m).asked = w.asked ∧ (w.hears side m).counter = w.counter ∧
      (w.hears side m).client side.other = w.client side.other ∧
        (w.hears side m).served side.other = w.served side.other := by
  have hupdate {α : Type} (f : Side → α) (x : α) : Function.update f side x side.other =
      f side.other := Function.update_of_ne (other_ne side) x f
  cases m with
  | data n data => exact ⟨rfl, rfl, rfl, rfl⟩
  | metadata m =>
      unfold hears
      dsimp only
      split
      · exact ⟨rfl, rfl, rfl, rfl⟩
      split
      · exact ⟨rfl, rfl, hupdate _ _, rfl⟩
      split
      · exact ⟨rfl, rfl, rfl, hupdate _ _⟩
      split
      · exact ⟨rfl, rfl, hupdate _ _, rfl⟩
      · exact ⟨rfl, rfl, rfl, rfl⟩

theorem of_globalMethod {method : String} (hne : method ≠ "")
    (h : Session.globalMethod m = method) :
    ∃ m', m = .metadata m' ∧ m'.signo = 0 ∧ m'.method = method := by
  cases m with
  | data n data => exact absurd h.symm hne
  | metadata m =>
      unfold Session.globalMethod at h
      dsimp only at h
      split at h
      · rename_i hsigno
        exact ⟨m, rfl, hsigno, h⟩
      · exact absurd h.symm hne

/-- Only requests are served. -/
theorem served_hears (hrequest : Session.globalMethod m ≠ "request") :
    (w.hears side m).served = w.served := by
  cases m with
  | data n data => rfl
  | metadata m =>
      unfold hears
      dsimp only
      split
      · rfl
      rename_i hsigno
      have hglobal : Session.globalMethod (.metadata m) = m.method := if_pos (not_not.mp hsigno)
      split
      · rfl
      split
      · rename_i hmethod
        exact absurd (hglobal.trans hmethod) hrequest
      split
      · rfl
      · rfl

/-- A request that arrives is served. -/
theorem served_of_request {m : MetadataMessage} (hsigno : m.signo = 0)
    (hmethod : m.method = "request") :
    (w.hears side (.metadata m)).served side =
      w.served side ++ [(m, (w.connection side).commandResult m.params)] := by
  unfold hears
  dsimp only
  rw [if_neg (not_not_intro hsigno), if_neg (by rw [hmethod]; decide), if_pos hmethod]
  exact Function.update_self _ _ _

/-- Who has a client in-band afterwards, had one or has been greeted. -/
theorem isInBand_hears (hin : (w.hears side m).isInBand side = true) :
    Session.globalMethod m = "init" ∨ w.isInBand side = true := by
  cases m with
  | data n data => exact .inr hin
  | metadata m =>
      unfold hears at hin
      dsimp only at hin
      split at hin
      · exact .inr hin
      rename_i hsigno
      have hglobal : Session.globalMethod (.metadata m) = m.method := if_pos (not_not.mp hsigno)
      split at hin
      · rename_i hinit
        exact .inl (hglobal.trans hinit)
      split at hin
      · exact .inr hin
      split at hin
      · right
        obtain ⟨c, hc⟩ := isInBand_iff.mp hin
        dsimp only at hc
        rw [Function.update_self] at hc
        unfold Commander.handleCommandInterfaceResponse at hc
        cases hclient : w.client side with
        | none =>
            rw [show (w.commander side).client = none from hclient] at hc
            exact absurd (hclient.symm.trans hc) (by simp)
        | some client =>
            rw [show (w.commander side).client = some client from hclient] at hc
            cases client with
            | http => exact absurd (hclient.symm.trans hc) (by simp)
            | inBand client => exact isInBand_iff.mpr ⟨client, hclient⟩
      · exact .inr hin

/-- What a message leaves of the ids of the streams. -/
theorem streamIds_receive {q : Connection × List Output × List RemoteEvent}
    (hq : c.receive m = some q) : q.1.localStreamId = c.localStreamId ∧
      (Session.globalMethod m ≠ "init" → q.1.remoteStreamId = c.remoteStreamId) := by
  rcases Connection.receive_cases hq with ⟨-, rfl⟩ | ⟨hinit, rfl⟩ | ⟨-, p, hp, rfl⟩ |
    ⟨-, remotes, events, rfl⟩
  · obtain ⟨version, hframe⟩ := c.handleApiVersion_frame (Session.paramsOf m)
    rw [hframe]
    exact ⟨rfl, fun _ => rfl⟩
  · obtain ⟨streamId, helloSent, hframe⟩ := c.handleInit_frame (Session.paramsOf m)
    rw [hframe]
    exact ⟨rfl, fun hne => absurd hinit hne⟩
  · obtain ⟨locals, hframe⟩ := Connection.handleCommandInterfaceRequest_frame hp
    rw [hframe]
    exact ⟨rfl, fun _ => rfl⟩
  · exact ⟨rfl, fun _ => rfl⟩

/-- A greeting tells the id of the stream. -/
theorem remoteStreamId_handleInit {c' : Connection} {m' : MetadataMessage}
    (hm : .metadata m' = c'.initMessage) :
    (c.handleInit m'.params).1.remoteStreamId = c'.localStreamId := by
  have hparams := congrArg Session.paramsOf hm
  rw [show m'.params = _ from hparams]
  unfold Connection.handleInit
  dsimp only
  split
  · split <;> rfl
  · rename_i hobject
    exact absurd rfl hobject

/-- A message that is no request has no withdrawal for an answer. -/
theorem spares_receive {q : Connection × List Output × List RemoteEvent}
    (hrequest : Session.globalMethod m ≠ "request") (hq : c.receive m = some q) :
    Spares id (messagesOf q.2.1) := by
  have hnothing : Spares id (messagesOf []) := fun m hm => absurd hm List.not_mem_nil
  rcases Connection.receive_cases hq with ⟨-, rfl⟩ | ⟨-, rfl⟩ | ⟨hmethod, -⟩ |
    ⟨-, remotes, events, rfl⟩
  · exact hnothing
  · dsimp only
    unfold Connection.handleInit
    split
    · dsimp only
      split
      · exact spares_doHello _
      · exact hnothing
    · exact hnothing
  · exact absurd hmethod hrequest
  · exact hnothing

/-- **A message of the side that asks arrives.** -/
theorem Pending.arrives_there (h : w.Pending side id) (hw : w.Orderly)
    (hqueue : w.outgoing side = m :: rest) {q : Connection × List Output × List RemoteEvent}
    (hq : (w.connection side.other).receive m = some q)
    (hdelivered : Delivered w { w.hears side.other m with dialogue := d } side rest q.1
      (messagesOf q.2.1)) :
    World.Pending { w.hears side.other m with dialogue := d } side id := by
  obtain ⟨hasked, hcounter, hclient, -⟩ := hears_frame w side.other m
  rw [other_other] at hclient
  obtain ⟨hlocal, -⟩ := streamIds_receive hq
  obtain ⟨l, hsettles⟩ := hw.follows side.other
  have hkeyed := hsettles.2.1.advertises.keyed
  have hunique := hsettles.2.1.advertises.unique
  refine h.of_grants (fun hin => ?_) ?_ ?_ ?_ (congrFun hcounter side) (congrFun hasked side) ?_
  · rw [isInBand_iff] at hin ⊢
    rw [← hclient]
    exact hin
  · rw [hdelivered.connection]
  · rw [hdelivered.connection]
  · rw [hdelivered.connection_other, hlocal]
  · rw [hdelivered.connection_other, hdelivered.outgoing_other]
    by_cases hrequest : Session.globalMethod m = "request"
    · obtain ⟨m, rfl, hsigno, hmethod⟩ := of_globalMethod (by decide) hrequest
      have hserves := hw.calls side
      unfold OrderlyAt at hserves
      rw [hqueue, said_metadata, if_pos ⟨hsigno, hmethod⟩] at hserves
      have hwished : ∀ r ∈ wishes (w.connection side.other).localStreamId m,
          r ∈ w.wished side := fun r hr =>
        List.mem_flatMap.mpr ⟨m, hserves.next_mem, hr⟩
      obtain ⟨hobject, -⟩ := hserves.serves ((w.connection side.other).commandResult m.params)
      obtain ⟨-, before, hbefore, hmessages⟩ := keeps_request hsigno hmethod hobject hq
      have hspares : Spares id (messagesOf q.2.1) := by
        rw [hmessages]
        apply spares_of_said
        rw [said_append, hbefore "unavailable" List.mem_cons_self]
        rfl
      have hgranted :
          World.granted { w.hears side.other (.metadata m) with dialogue := d } side =
            w.granted side ++ wishes (w.connection side.other).localStreamId m := by
        unfold granted
        rw [hdelivered.connection_other, hlocal]
        dsimp only
        rw [served_of_request hsigno hmethod, List.map_append, List.flatMap_append]
        exact congrArg _ (List.append_nil _)
      rw [hgranted, locals_of_request hsigno hmethod hq]
      exact h.grants.serves hkeyed.distinct hunique hwished hspares
    · rw [locals_receive hrequest hq]
      have hgranted : World.granted { w.hears side.other m with dialogue := d } side =
          w.granted side := by
        unfold granted
        rw [hdelivered.connection_other, hlocal]
        dsimp only
        rw [served_hears hrequest]
      rw [hgranted]
      exact h.grants.speaks (.refl id _) (spares_receive hrequest hq)

/-- **A message of the side that is asked arrives.** -/
theorem Pending.arrives_here (h : w.Pending sender.other id) (hw : w.Orderly)
    (hqueue : w.outgoing sender = m :: rest) {q : Connection × List Output × List RemoteEvent}
    (hq : (w.connection sender.other).receive m = some q)
    (hdelivered : Delivered w { w.hears sender.other m with dialogue := d } sender rest q.1
      (messagesOf q.2.1)) :
    World.Pending { w.hears sender.other m with dialogue := d } sender.other id := by
  obtain ⟨hasked, hcounter, -, hserved⟩ := hears_frame w sender.other m
  rw [other_other] at hserved
  obtain ⟨hstream, hcounts, hgrants⟩ := h
  unfold wished granted at hgrants
  unfold wished at hcounts
  rw [other_other] at hstream hcounts hgrants
  rw [hqueue] at hgrants
  have hwished : World.wished { w.hears sender.other m with dialogue := d } sender.other =
      (w.asked sender.other).flatMap (wishes (w.connection sender).localStreamId) := by
    unfold wished
    rw [other_other, hdelivered.connection]
    dsimp only
    rw [hasked]
  have hgranted : World.granted { w.hears sender.other m with dialogue := d } sender.other =
      ((w.served sender).map Prod.fst).flatMap (wishes (w.connection sender).localStreamId) := by
    unfold granted
    rw [other_other, hdelivered.connection]
    dsimp only
    rw [hserved]
  refine ⟨fun hin => ?_, ?_, ?_⟩
  · rw [other_other, hdelivered.connection, hdelivered.connection_other]
    by_cases hinit : Session.globalMethod m = "init"
    · obtain ⟨m, rfl, hsigno, hmethod⟩ := of_globalMethod (by decide) hinit
      have hsaid : said "init" (w.outgoing sender) = m :: said "init" rest := by
        rw [hqueue, said_metadata, if_pos ⟨hsigno, hmethod⟩]
      obtain ⟨-, m', hone, hm'⟩ := hw.greets.once sender (by
        rw [hsaid]
        exact List.cons_ne_nil _ _)
      rw [hsaid] at hone
      rw [← (List.cons.inj hone).1] at hm'
      obtain ⟨hc, -⟩ := receive_init hsigno hmethod hq
      rw [hc]
      exact remoteStreamId_handleInit hm'
    · rw [(streamIds_receive hq).2 hinit]
      exact hstream ((isInBand_hears hin).resolve_left hinit)
  · have hstep := Session.remotes_receive hq
    rw [hdelivered.connection_other, hwished]
    dsimp only
    rw [hcounter]
    exact hcounts.listens
      (RemoteSignals.retains_step (hgrants.spares m List.mem_cons_self) hstep)
      (hcounts.wellFormed.step hstep)
  · rw [other_other, hdelivered.connection, hdelivered.outgoing, hgranted, hwished]
    exact ⟨fun m' hm' => hgrants.spares m' (List.mem_cons_of_mem _ hm'), hgrants.within,
      hgrants.flagged, hgrants.unasked⟩

/-! ### What the application does -/

theorem retains_carries {l l' : Mirroring.Listener} (hmessages : Spares id messages)
    (h : Carries Mirroring.Listener.take Mirroring.Taken l messages l') :
    Retains id l.remotes l'.remotes := by
  induction messages generalizing l with
  | nil =>
      rw [show l' = l from h]
      exact .refl id _
  | cons m rest ih =>
      obtain ⟨-, l₁, hl₁, hrest⟩ := h
      obtain ⟨q, hq, rfl⟩ := Option.map_eq_some_iff.mp hl₁
      have hfirst : Retains id l.remotes q.1 :=
        RemoteSignals.retains_step (hmessages m List.mem_cons_self) hq
      exact hfirst.trans (ih (fun m' hm' => hmessages m' (List.mem_cons_of_mem _ hm')) hrest)

/-- A signal that the application has been handed is registered. -/
theorem Pending.registered (h : w.Pending side id) (hw : w.Orderly)
    (hannounced : (w.connection side).remotes.announced id = true) :
    ∃ n, (w.connection side.other).locals.names n = some id := by
  obtain ⟨l, hcarries, hmirrors, -⟩ := hw.follows side.other
  have hretains : Retains id (w.connection side.other.other).remotes l.remotes :=
    retains_carries h.grants.spares hcarries
  rw [other_other] at hretains
  exact ((hmirrors.advertises.announced id).mp (hretains.announced hannounced)).2

/-- **The other application counts**, and may ask. -/
theorem Pending.calls_there (h : w.Pending side id) (a : Nat) (x : SubscriptionCounter)
    (asks : Bool) (command signalId : String) :
    World.Pending (if asks then
      (w.count side.other a x).ask side.other ((w.commander side.other).request command signalId
        (w.asked side.other).length) else w.count side.other a x) side id := by
  have hne : side ≠ side.other := (other_ne side).symm
  have hcount : (w.count side.other a x).Pending side id :=
    h.of_grants (fun hin => hin) rfl rfl rfl (Function.update_of_ne hne _ _) rfl h.grants
  cases asks with
  | false => exact hcount
  | true =>
      have hask := ask_request (w.count side.other a x) side.other command signalId
      change (w.count side.other a x).ask side.other ((w.commander side.other).request command
        signalId (w.asked side.other).length) = _ at hask
      rw [if_pos rfl, hask]
      split
      · rename_i client hclient
        obtain ⟨hconnection, hsent, -⟩ := (w.count side.other a x).sends_spec side.other client
          (((w.count side.other a x).connection side.other).remoteStreamId ++ command)
          (.array [.string signalId])
        refine hcount.of_grants (fun hin => ?_) ?_ ?_ ?_ rfl (Function.update_of_ne hne _ _) ?_
        · rw [isInBand_iff] at hin ⊢
          obtain ⟨c, hc⟩ := hin
          exact ⟨c, (Function.update_of_ne hne _ _).symm.trans hc⟩
        · rw [hconnection]
        · rw [hconnection]
        · rw [hconnection]
        · have hgranted : ((w.count side.other a x).sends side.other client
              (((w.count side.other a x).connection side.other).remoteStreamId ++ command)
              (.array [.string signalId])).granted side = w.granted side := by
            unfold granted
            rw [hconnection]
            rfl
          rw [hconnection, hsent, hgranted]
          exact hcount.grants.speaks (.refl id _) (spares_of_said rfl)
      · exact hcount

/-- **The application counts, and asks if it must.** -/
theorem Pending.calls_here (h : w.Pending side id) {a : Nat} {s : RemoteSignal} {r : Request}
    {x : SubscriptionCounter} {requested : Bool}
    (hs : (w.connection side).remotes.objects[a]? = some s) (hr : signalIdOf r = s.id)
    (hown : s.id = id →
      (∃ n, (w.connection side.other).locals.names n = some id) ∧
        (requested = true → w.isInBand side = true ∧
          ∀ b, r.flag id b = decide (x.subscriptionCount ≠ 0)) ∧
        (requested = false → decide (w.held side id ≠ 0) = decide (x.subscriptionCount ≠ 0))) :
    World.Pending (if requested && (w.connection side).remotes.live a then
      (w.count side a x).ask side ((w.commander side).request (commandOf r) s.id
        (w.asked side).length) else w.count side a x) side id := by
  have hid : (w.connection side).remotes.idAt a = some s.id := by
    rw [RemoteSignals.idAt, hs]
    rfl
  -- What is wanted is counted, once it has been asked for.
  have hcounts (wanted : Bool)
      (hother : s.id ≠ id → wanted = flagAfter id false (w.wished side))
      (hsame : s.id = id → wanted = decide (x.subscriptionCount ≠ 0)) :
      Counts id (w.connection side).remotes (Function.update (w.counter side) a x) wanted := by
    by_cases hs : s.id = id
    · rw [hsame hs]
      exact (h.counts.own (hs ▸ hid)).2
    · rw [hother hs]
      exact h.counts.other hid hs
  have hcount (hsame : s.id = id →
      flagAfter id false (w.wished side) = decide (x.subscriptionCount ≠ 0)) :
      (w.count side a x).Pending side id := by
    refine ⟨h.stream, ?_, h.grants⟩
    show Counts id (w.connection side).remotes (Function.update w.counter side _ side) _
    rw [Function.update_self]
    exact hcounts _ (fun _ => rfl) hsame
  by_cases hasks : (requested && (w.connection side).remotes.live a) = true
  · rw [if_pos hasks]
    have hrequested := (Bool.and_eq_true_iff.mp hasks).1
    have hask := ask_request (w.count side a x) side (commandOf r) s.id
    change (w.count side a x).ask side ((w.commander side).request (commandOf r) s.id
      (w.asked side).length) = _ at hask
    rw [hask]
    split
    · rename_i client hclient
      obtain ⟨hconnection, -, hkept⟩ := (w.count side a x).sends_spec side client
        (((w.count side a x).connection side).remoteStreamId ++ commandOf r)
        (.array [.string s.id])
      have hin : w.isInBand side = true := isInBand_iff.mpr ⟨client, hclient⟩
      have hwished : ((w.count side a x).sends side client
          (((w.count side a x).connection side).remoteStreamId ++ commandOf r)
          (.array [.string s.id])).wished side = w.wished side ++ [r] := by
        unfold wished
        rw [hconnection]
        show (Function.update w.asked side _ side).flatMap _ = _
        rw [Function.update_self, List.flatMap_append]
        have hwishes : wishes (w.connection side.other).localStreamId
            (client.asyncRequest ((w.connection side).remoteStreamId ++ commandOf r)
              (.array [.string s.id]) (w.asked side).length).2 = [r] := by
          rw [h.stream hin, ← hr]
          exact wishes_asyncRequest client _ r _
        refine congrArg (w.wished side ++ ·) (Eq.trans ?_ hwishes)
        exact List.append_nil _
      have hgranted : ((w.count side a x).sends side client
          (((w.count side a x).connection side).remoteStreamId ++ commandOf r)
          (.array [.string s.id])).granted side = w.granted side := by
        unfold granted
        rw [hconnection]
        rfl
      refine ⟨fun _ => ?_, ?_, ?_⟩
      · rw [hconnection, hconnection]
        exact h.stream hin
      · rw [hconnection, hwished, LocalSignals.flagAfter_append]
        show Counts id (w.connection side).remotes (Function.update w.counter side _ side) _
        rw [Function.update_self]
        refine hcounts _ (fun hne => ?_) fun hsame => ?_
        · exact LocalSignals.Request.flag_of_ne (fun heq => hne (hr.symm.trans heq)) _
        · exact ((hown hsame).2.1 hrequested).2 _
      · rw [hconnection, hkept, hgranted, hwished]
        exact h.grants.wishes fun heq => (hown (hr.symm.trans heq)).1
    · rename_i hnone
      refine hcount fun hsame => ?_
      obtain ⟨c, hc⟩ := isInBand_iff.mp ((hown hsame).2.1 hrequested).1
      exact absurd hc (hnone c)
  · rw [if_neg hasks]
    refine hcount fun hsame => ?_
    -- The entry of the signal is there, so that there is no request.
    have hlive : (w.connection side).remotes.live a = true := by
      obtain ⟨e, he, haddress⟩ := h.counts.sole a (hsame ▸ hid)
      exact h.counts.wellFormed.live_iff.mpr ⟨id, e, he, haddress⟩
    rw [hlive, Bool.and_true] at hasks
    rw [h.counts.counted]
    exact (hown hsame).2.2 (Bool.eq_false_iff.mpr hasks)

/-- What is held has been asked for in-band, and is registered. -/
theorem Pending.of_held (h : w.Pending side id) (hw : w.Orderly) (hheld : w.held side id ≠ 0) :
    w.isInBand side = true ∧ ∃ n, (w.connection side.other).locals.names n = some id := by
  have hwanted : flagAfter id false (w.wished side) = true := by
    rw [h.counts.counted]
    exact decide_eq_true hheld
  constructor
  · by_contra hnot
    have hasked : w.asked side = [] := (hw.calls side).silent fun c hc =>
      hnot (isInBand_iff.mpr ⟨c, hc⟩)
    unfold wished at hwanted
    rw [hasked] at hwanted
    cases hwanted
  · by_contra hnone
    have hunasked := h.grants.unasked fun n hn => hnone ⟨n, hn⟩
    rw [LocalSignals.flagAfter_of_ne hunasked] at hwanted
    cases hwanted

/-- **`remote_signal::subscribe`.** -/
theorem Pending.subscribes (h : w.Pending side id) (hw : w.Orderly) {a : Nat}
    (hattends : w.Attends side id (.subscribe side' a)) :
    (w.subscribe side' a).Pending side id := by
  unfold World.subscribe
  split
  · exact h
  rename_i s hs
  rcases Advertisement.Side.eq_or_other side side' with rfl | rfl
  · refine h.calls_here (r := .subscribe s.id) hs rfl fun hid => ?_
    subst hid
    have ha : (w.connection side').remotes.idAt a = some s.id := by
      rw [RemoteSignals.idAt, hs]
      rfl
    obtain ⟨hannounced, hfew, hclient⟩ := hattends rfl ha
    have hcount : w.held side' s.id = (w.counter side' a).subscriptionCount :=
      (h.counts.own (x := {}) ha).1
    rw [hcount] at hfew hclient ⊢
    refine ⟨h.registered hw hannounced, fun hfirst => ⟨hclient (of_decide_eq_true hfirst), ?_⟩,
      fun hnext => ?_⟩
    · intro b
      exact (if_pos rfl).trans (decide_eq_true hfew).symm
    · rw [decide_eq_true (of_decide_eq_false hnext)]
      exact (decide_eq_true hfew).symm
  · exact h.calls_there a _ _ ".subscribe" _

/-- **`remote_signal::unsubscribe`.** -/
theorem Pending.unsubscribes (h : w.Pending side id) (hw : w.Orderly) {a : Nat}
    (hattends : w.Attends side id (.unsubscribe side' a)) :
    (w.unsubscribe side' a).Pending side id := by
  unfold World.unsubscribe
  split
  · exact h
  rename_i s hs
  rcases Advertisement.Side.eq_or_other side side' with rfl | rfl
  · refine h.calls_here (r := .unsubscribe s.id) hs rfl fun hid => ?_
    subst hid
    have ha : (w.connection side').remotes.idAt a = some s.id := by
      rw [RemoteSignals.idAt, hs]
      rfl
    have hheld := hattends rfl ha
    obtain ⟨hin, hregistered⟩ := h.of_held hw hheld
    have hcount : w.held side' s.id = (w.counter side' a).subscriptionCount :=
      (h.counts.own (x := {}) ha).1
    refine ⟨hregistered, fun hlast => ⟨hin, fun b => ?_⟩, fun hmore => ?_⟩
    · refine (if_pos rfl).trans (decide_eq_false (not_not_intro ?_)).symm
      exact of_decide_eq_true hlast
    · rw [decide_eq_true hheld]
      exact (decide_eq_true (of_decide_eq_false hmore)).symm
  · exact h.calls_there a _ _ ".unsubscribe" _

/-! ### One step -/

/-- **A message arrives.** -/
theorem Pending.delivers (h : w.Pending side id) (hw : w.Orderly)
    (hd : w.dialogue.step (.link (.deliver sender)) = some d) :
    World.Pending { w.follows (.link (.deliver sender)) with dialogue := d } side id := by
  unfold World.follows
  dsimp only
  cases hqueue : w.outgoing sender with
  | nil => exact h.of_link (deliver_nil hd hqueue)
  | cons m rest =>
      dsimp only
      obtain ⟨q, hq, hdelivered⟩ := delivered hd hqueue
        (show World.dialogue { w.hears sender.other m with dialogue := d } = d from rfl)
      rcases Advertisement.Side.eq_or_other sender side with rfl | rfl
      · exact h.arrives_there hw hqueue hq hdelivered
      · exact h.arrives_here hw hqueue hq hdelivered

/-- **A side begins.** -/
theorem Pending.runs (h : w.Pending side id)
    (hd : w.dialogue.step (.link (.run side')) = some d) :
    World.Pending { w with dialogue := d } side id := by
  obtain ⟨link, hlink, rfl⟩ := Option.map_eq_some_iff.mp hd
  unfold Advertisement.Link.step at hlink
  dsimp only at hlink
  split at hlink
  · exact h.of_link (Option.some.inj hlink).symm
  · obtain ⟨hself, hother⟩ := endpoint_tells w.dialogue.link side' (w.connection side').doHello
    rw [← Option.some.inj hlink]
    refine h.tells hself hother rfl rfl rfl ?_
    rintro rfl
    exact ⟨.refl id _, spares_doHello _⟩

/-- **One step.** -/
theorem Pending.step (h : w.Pending side id) (hw : w.Orderly) {action : Action}
    (hadmits : w.Admits action) (hattends : w.Attends side id action)
    (hstep : w.step action = some w') : w'.Pending side id := by
  obtain ⟨l, hsettles⟩ := hw.follows side.other
  have hkeyed := hsettles.2.1.advertises.keyed
  have hunique := hsettles.2.1.advertises.unique
  cases action with
  | subscribe side' a =>
      rw [← Option.some.inj hstep]
      exact h.subscribes hw hattends
  | unsubscribe side' a =>
      rw [← Option.some.inj hstep]
      exact h.unsubscribes hw hattends
  | dialogue action =>
      obtain ⟨d, hd, rfl⟩ := Option.map_eq_some_iff.mp hstep
      have hacts (side' : Side) (i : LocalSignals.Act)
          (hstands : side' = side.other → Stands id (w.connection side').locals
            ((w.connection side').locals.act i).1) :
          World.Pending { w with dialogue := w.dialogue.acts side' i } side id := by
        obtain ⟨hself, hother⟩ := w.endpoint_acts side' i
        exact h.tells hself hother rfl rfl rfl fun hside =>
          ⟨hstands hside, spares_of_quiet (quiet_act _ i)⟩
      cases action with
      | setMetadata side' address metadata =>
          rw [← Option.some.inj hd]
          refine hacts side' _ ?_
          rintro rfl
          exact LocalSignals.stands_setMetadata hkeyed.distinct address metadata
      | publish side' address domainValue sampleCount data =>
          rw [← Option.some.inj hd]
          refine hacts side' _ ?_
          rintro rfl
          exact LocalSignals.stands_of_subscriptions
            (LocalSignals.subscriptions_publishData address domainValue sampleCount data)
      | link action =>
          cases action with
          | request side' client method params => exact hadmits.elim
          | deliver sender => exact h.delivers hw hd
          | run side' => exact h.runs hd
          | add side' signal =>
              rw [← Option.some.inj hd]
              obtain ⟨hself, hother⟩ := endpoint_tells w.dialogue.link side'
                ((w.connection side').addLocalSignal signal)
              refine h.tells hself hother rfl rfl rfl ?_
              rintro rfl
              exact ⟨LocalSignals.stands_addLocalSignal hadmits.1 hadmits.2,
                spares_of_quiet (keeps_addLocalSignal _ signal).2⟩
          | remove side' signal =>
              rw [← Option.some.inj hd]
              obtain ⟨hself, hother⟩ := endpoint_tells w.dialogue.link side'
                ((w.connection side').removeLocalSignal signal)
              refine h.tells hself hother rfl rfl rfl ?_
              rintro rfl
              exact ⟨LocalSignals.stands_removeLocalSignal hkeyed.distinct hadmits (hattends rfl),
                spares_removeLocalSignal _ (hattends rfl)⟩
          | command side' method params =>
              rw [← Option.some.inj hd]
              let done := (w.connection side').doCommandInterface method params
              obtain ⟨hself, hother⟩ := endpoint_tells w.dialogue.link side' (done.1, done.2.1)
              obtain ⟨locals, hframe⟩ :=
                (w.connection side').doCommandInterface_frame params method
              have hremotes := congrArg Connection.remotes hframe
              have hremote := congrArg Connection.remoteStreamId hframe
              have hlocal := congrArg Connection.localStreamId hframe
              refine h.tells hself hother hremotes hremote hlocal ?_
              rintro rfl
              refine ⟨?_, spares_of_quiet (keeps_doCommandInterface _ method params).2⟩
              show Stands id _ (Connection.doCommandInterface _ method params).1.locals
              rw [locals_doCommandInterface]
              refine LocalSignals.stands_requests hkeyed.distinct hunique fun r hr hid => ?_
              exact hattends rfl (hid ▸ id_of_mem_requestsOf hr)

/-- Nothing has been counted or asked for. -/
theorem pending_new (clientId serverId : String) (clientInterfaces serverInterfaces : Json)
    (hasEndpoint : Side → Bool) (side : Side) (id : String) :
    (World.new clientId serverId clientInterfaces serverInterfaces hasEndpoint).Pending side id := by
  refine ⟨fun hin => absurd hin Bool.false_ne_true,
    ⟨?_, ?_, fun _ _ => rfl, ?_⟩, ⟨?_, ?_, ?_, ?_⟩⟩
  · cases side <;> exact RemoteSignals.wellFormed_empty
  · intro a ha
    cases side <;> cases ha
  · cases side <;> rfl
  · intro m hm
    cases side <;> cases hm
  · intro r hr
    cases side <;> cases hr
  · intro n b hb
    cases side <;> cases hb
  · intro _ r hr
    cases side <;> cases hr

theorem Pending.converged (h : w.Pending side id) (hw : w.Orderly) : w.Converged side id := by
  intro hqueue n e he hid
  obtain ⟨replies, heard, hsteps, -, -⟩ := (hw.calls side).calls
  rw [hqueue] at hsteps
  -- Everything that was asked for has been carried out.
  have hasked : w.granted side = w.wished side := by
    have hall := hsteps.asked
    rw [said_nil, List.append_nil] at hall
    unfold granted wished
    rw [hall]
  have hflag := h.grants.flagged n e.isExplicitlySubscribed (by
    rw [LocalSignals.flags, he, ← hid]
    rfl)
  rw [hflag, hasked, h.counts.counted]
  exact decide_eq_true_iff

end Pending

instance (w : World) (side : Side) (id : String) :
    (action : Action) → Decidable (w.Attends side id action)
  | .dialogue (.link (.remove _ _)) => inferInstanceAs (Decidable (_ → _))
  | .dialogue (.link (.command _ _ _)) => inferInstanceAs (Decidable (_ → _))
  | .dialogue (.link (.run _)) => isTrue trivial
  | .dialogue (.link (.add _ _)) => isTrue trivial
  | .dialogue (.link (.request _ _ _ _)) => isTrue trivial
  | .dialogue (.link (.deliver _)) => isTrue trivial
  | .dialogue (.setMetadata _ _ _) => isTrue trivial
  | .dialogue (.publish _ _ _ _ _) => isTrue trivial
  | .subscribe _ _ => inferInstanceAs (Decidable (_ → _ → _))
  | .unsubscribe _ _ => inferInstanceAs (Decidable (_ → _ → _))

end World

section Runs

open World

/-- **Subscriptions converge.**  In every run of two connections in which a
signal is left to the application of one side, and it stays registered on the
other one, the signal is subscribed explicitly exactly if the application holds
a subscription, as soon as the requests have arrived. -/
theorem exchange_converges (clientId serverId : String) (clientInterfaces serverInterfaces : Json)
    (hasEndpoint : Side → Bool) (side : Side) (id : String) (actions : List Action)
    (hadmits : MeetsOpt step (fun w action => w.Admits action ∧ w.Attends side id action)
      (.new clientId serverId clientInterfaces serverInterfaces hasEndpoint) actions) :
    ∃ w, actions.foldlM step
      (.new clientId serverId clientInterfaces serverInterfaces hasEndpoint) = some w ∧
        w.Converged side id := by
  have hstep (w : World) (action : Action) (h : w.Orderly ∧ w.Pending side id)
      (hok : w.Admits action ∧ w.Attends side id action) :
      ∃ w', w.step action = some w' ∧ w'.Orderly ∧ w'.Pending side id := by
    obtain ⟨w', hw', horderly⟩ := orderly_step h.1 hok.1
    exact ⟨w', hw', horderly, h.2.step h.1 hok.1 hok.2 hw'⟩
  obtain ⟨w, hw, horderly, hpending⟩ := foldlM_invariant_of_meets hstep actions _
    ⟨orderly_new clientId serverId clientInterfaces serverInterfaces hasEndpoint,
      pending_new clientId serverId clientInterfaces serverInterfaces hasEndpoint side id⟩ hadmits
  exact ⟨w, hw, hpending.converged horderly⟩

theorem exchange_converges_holding :
    ∃ w, holding.foldlM step (.new "" "" inBandInterface inBandInterface fun _ => true) = some w ∧
      w.Converged .client LocalSignals.bareSignal.id :=
  exchange_converges "" "" inBandInterface inBandInterface (fun _ => true) .client
    LocalSignals.bareSignal.id holding (by decide +kernel)

-- Nothing is under way, one subscription is held and the signal is subscribed.
example : (holding.foldlM step (.new "" "" inBandInterface inBandInterface fun _ => true)).map
    (fun w => ((w.outgoing .client).length, w.held .client LocalSignals.bareSignal.id,
      (w.connection .server).locals.flags 1)) = some (0, 1, some ("signal", true)) := by
  decide +kernel

end Runs

end CommandExchange

end WsStreaming.Ports
