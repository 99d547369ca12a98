import WsStreaming.Verified.OrderedMap

/-!
# Subscription bookkeeping

What `connection::subscribe` and `connection::unsubscribe` do to the explicit
flags and the implicit counts, without tables, slots and messages: the
registered signals as a map from their numbers to a `Subscription`.

The functions of `LocalSignals` refine the ones here, so a law about flags and
counts is proved on this map and read back.
-/

namespace WsStreaming.Ports

open WsStreaming.Verified
open WsStreaming.Verified.OrderedMap (OMap Distinct)

/-- The part of a registered signal that decides about subscriptions: its id,
the table it names, the explicit flag and the implicit count. -/
structure Subscription where
  id : String
  domain : Option String
  isExplicit : Bool
  count : UInt32
deriving DecidableEq, Repr

namespace Subscription

/-- Whether the peer is subscribed. -/
def isActive (s : Subscription) : Bool := s.isExplicit || decide (0 < s.count)

/-- An explicit subscription. -/
def request (s : Subscription) : Subscription := { s with isExplicit := true }

/-- One more implicit subscription. -/
def increment (s : Subscription) : Subscription := { s with count := s.count + 1 }

/-- The bookkeeping of an unsubscribe call. -/
def drop (s : Subscription) (isExplicit : Bool) : Subscription :=
  if isExplicit then { s with isExplicit := false } else { s with count := s.count - 1 }

@[simp] theorem id_drop (s : Subscription) (b : Bool) : (s.drop b).id = s.id := by
  cases b <;> rfl

@[simp] theorem domain_drop (s : Subscription) (b : Bool) : (s.drop b).domain = s.domain := by
  cases b <;> rfl

theorem isActive_eq_false {s : Subscription} :
    s.isActive = false ↔ s.isExplicit = false ∧ s.count = 0 := by
  rw [isActive, Bool.or_eq_false_iff, decide_eq_false_iff_not, UInt32.not_lt,
    UInt32.le_zero_iff]

theorem isActive_of_explicit {s : Subscription} (h : s.isExplicit = true) :
    s.isActive = true := by
  rw [isActive, h, Bool.true_or]

theorem isActive_of_count {s : Subscription} (h : s.count ≠ 0) : s.isActive = true := by
  cases hactive : s.isActive with
  | true => rfl
  | false => exact absurd (isActive_eq_false.mp hactive).2 h

end Subscription

/-- The subscriptions by signal number. -/
abbrev Subscriptions := OMap UInt32 Subscription

namespace Subscriptions

/-- The signal with an id. -/
def findById (m : Subscriptions) (id : String) : Option (UInt32 × Subscription) :=
  m.find? fun e => e.2.id = id

/-- The registered signal that a signal names as its table. -/
def domainOf (m : Subscriptions) (s : Subscription) : Option (UInt32 × Subscription) :=
  s.domain.bind m.findById

/-- Another subscription for a signal. -/
def put (m : Subscriptions) (k : UInt32) (s : Subscription) : Subscriptions :=
  OrderedMap.modify m k fun _ => s

/-- A subscribe request. -/
def subscribe (m : Subscriptions) (id : String) : Subscriptions :=
  match m.findById id with
  | none => m
  | some (k, s) =>
      let m := m.put k s.request
      if s.isActive then m
      else
        match m.domainOf s with
        | none => m
        | some (d, t) => m.put d t.increment

/-! ## Lookups -/

theorem mem_of_findById {m : Subscriptions} {id : String} {e : UInt32 × Subscription}
    (h : m.findById id = some e) : e ∈ m :=
  List.mem_of_find?_eq_some h

theorem id_of_findById {m : Subscriptions} {id : String} {e : UInt32 × Subscription}
    (h : m.findById id = some e) : e.2.id = id := by
  have hid := List.find?_some h
  simpa using hid

theorem find?_of_findById {m : Subscriptions} (hm : Distinct m) {id : String} {k : UInt32}
    {s : Subscription} (h : m.findById id = some (k, s)) : OrderedMap.find? m k = some s :=
  (OrderedMap.find?_eq_some_iff hm).mpr (mem_of_findById h)

theorem find?_put {m : Subscriptions} {k : UInt32} {s : Subscription}
    (hk : OrderedMap.find? m k = some s) (new : Subscription) (j : UInt32) :
    OrderedMap.find? (m.put k new) j = if k = j then some new else OrderedMap.find? m j := by
  rw [put, OrderedMap.find?_modify]
  by_cases h : k = j
  · rw [if_pos h, if_pos h, ← h, hk]
    rfl
  · rw [if_neg h, if_neg h]

/-- A change that keeps the id does not move any signal. -/
theorem findById_put {m : Subscriptions} (hm : Distinct m) {k : UInt32} {s new : Subscription}
    (hk : OrderedMap.find? m k = some s) (hid : new.id = s.id) (id : String) :
    (m.put k new).findById id =
      (m.findById id).map fun e => if e.1 = k then (k, new) else e := by
  apply OrderedMap.find_modify (p := fun s => s.id = id) hm hk
  rw [hid]

theorem domainOf_put {m : Subscriptions} (hm : Distinct m) {k : UInt32} {s new : Subscription}
    (hk : OrderedMap.find? m k = some s) (hid : new.id = s.id) (t : Subscription) :
    (m.put k new).domainOf t =
      (m.domainOf t).map fun e => if e.1 = k then (k, new) else e := by
  unfold domainOf
  cases t.domain with
  | none => rfl
  | some d => exact findById_put hm hk hid d

theorem Distinct.put {m : Subscriptions} (hm : Distinct m) (k : UInt32) (s : Subscription) :
    Distinct (m.put k s) :=
  hm.modify k _

/-! ## Ending subscriptions -/

/-- The sum of all counts. -/
def total (m : Subscriptions) : Nat := (m.map fun e => e.2.count.toNat).sum

private theorem total_put_le_total (m : Subscriptions) (k : UInt32) {new : Subscription}
    (hnew : new.count = 0) : (m.put k new).total ≤ m.total := by
  unfold total put OrderedMap.modify
  induction m with
  | nil => exact Nat.le_refl 0
  | cons e m ih =>
      simp only [List.map_cons, List.sum_cons]
      apply Nat.add_le_add _ ih
      split
      · simp only [hnew, UInt32.toNat_zero, Nat.zero_le]
      · exact Nat.le_refl _

/-- Setting a count to zero takes it away from the sum. -/
theorem total_put_le {m : Subscriptions} {k : UInt32} {s new : Subscription}
    (hmem : (k, s) ∈ m) (hnew : new.count = 0) :
    (m.put k new).total + s.count.toNat ≤ m.total := by
  induction m with
  | nil => cases hmem
  | cons e m ih =>
      have hcons : (put (e :: m) k new).total =
          (if e.1 = k then (e.1, new) else e).2.count.toNat + (put m k new).total := rfl
      have htotal : total (e :: m) = e.2.count.toNat + total m := rfl
      rw [hcons, htotal]
      rcases List.mem_cons.mp hmem with rfl | hmem
      · have hrest := total_put_le_total m k hnew
        simp only [if_true, hnew, UInt32.toNat_zero]
        omega
      · have hrest := ih hmem
        have hhead : (if e.1 = k then (e.1, new) else e).2.count.toNat ≤ e.2.count.toNat := by
          split
          · simp only [hnew, UInt32.toNat_zero, Nat.zero_le]
          · exact Nat.le_refl _
        omega

/-- A subscription that an implicit release brings to an end had a count of
one. -/
theorem count_of_drop {s : Subscription} {isExplicit : Bool}
    (h : (s.drop isExplicit).isActive = false) :
    (s.drop isExplicit).count = 0 ∧ (isExplicit = false → s.count = 1) := by
  have hzero := (Subscription.isActive_eq_false.mp h).2
  constructor
  · exact hzero
  · intro hexplicit
    rw [hexplicit] at hzero
    have hsub : s.count - 1 = 0 := hzero
    rw [← UInt32.sub_add_cancel s.count 1, hsub]
    rfl

/-- The nested call of `unsubscribe` has less to take away. -/
theorem measure_drop_lt {m : Subscriptions} {k : UInt32} {s : Subscription} {isExplicit : Bool}
    (hmem : (k, s) ∈ m) (h : (s.drop isExplicit).isActive = false) :
    2 * (m.put k (s.drop isExplicit)).total + false.toNat <
      2 * m.total + isExplicit.toNat := by
  have hcount := count_of_drop h
  have hle := total_put_le hmem hcount.1
  cases isExplicit with
  | true =>
      simp only [Bool.toNat_true, Bool.toNat_false]
      omega
  | false =>
      have hone : s.count.toNat = 1 := by
        rw [hcount.2 rfl]
        rfl
      simp only [Bool.toNat_false]
      omega

/-- An unsubscribe call. -/
def unsubscribe (m : Subscriptions) (id : String) (isExplicit : Bool) : Subscriptions :=
  match _hfind : m.findById id with
  | none => m
  | some (k, s) =>
      if _hactive : (s.drop isExplicit).isActive = true then m.put k (s.drop isExplicit)
      else
        match s.domain with
        | none => m.put k (s.drop isExplicit)
        | some tableId => (m.put k (s.drop isExplicit)).unsubscribe tableId false
termination_by 2 * m.total + isExplicit.toNat
decreasing_by
  exact measure_drop_lt (mem_of_findById _hfind) (Bool.eq_false_iff.mpr _hactive)

section Unsubscribe

variable {m : Subscriptions} {id : String} {k : UInt32} {s : Subscription} {isExplicit : Bool}

theorem unsubscribe_of_none (hfind : m.findById id = none) :
    m.unsubscribe id isExplicit = m := by
  rw [unsubscribe]
  split
  · rfl
  · rename_i hsome
    rw [hfind] at hsome
    cases hsome

theorem unsubscribe_of_active (hfind : m.findById id = some (k, s))
    (hactive : (s.drop isExplicit).isActive = true) :
    m.unsubscribe id isExplicit = m.put k (s.drop isExplicit) := by
  rw [unsubscribe]
  split
  · rename_i hnone
    rw [hfind] at hnone
    cases hnone
  · rename_i hsome
    rw [hfind] at hsome
    obtain ⟨rfl, rfl⟩ := Prod.mk.inj (Option.some.inj hsome)
    rw [dif_pos hactive]

theorem unsubscribe_of_ended (hfind : m.findById id = some (k, s))
    (hactive : (s.drop isExplicit).isActive = false) :
    m.unsubscribe id isExplicit =
      match s.domain with
      | none => m.put k (s.drop isExplicit)
      | some tableId => (m.put k (s.drop isExplicit)).unsubscribe tableId false := by
  rw [unsubscribe]
  split
  · rename_i hnone
    rw [hfind] at hnone
    cases hnone
  · rename_i hsome
    rw [hfind] at hsome
    obtain ⟨rfl, rfl⟩ := Prod.mk.inj (Option.some.inj hsome)
    rw [dif_neg (Bool.eq_false_iff.mp hactive)]

end Unsubscribe

/-- Induction along the nested calls. -/
@[elab_as_elim]
theorem unsubscribe_induction {motive : Subscriptions → String → Bool → Prop}
    (none : ∀ m id isExplicit, m.findById id = none → motive m id isExplicit)
    (active : ∀ m id isExplicit k s, m.findById id = some (k, s) →
      (s.drop isExplicit).isActive = true → motive m id isExplicit)
    (ended : ∀ m id isExplicit k s, m.findById id = some (k, s) →
      (s.drop isExplicit).isActive = false →
      (∀ tableId, s.domain = some tableId →
        motive (m.put k (s.drop isExplicit)) tableId false) → motive m id isExplicit)
    (m : Subscriptions) (id : String) (isExplicit : Bool) : motive m id isExplicit := by
  induction m, id, isExplicit using Subscriptions.unsubscribe.induct with
  | case1 m id isExplicit hfind => exact none m id isExplicit hfind
  | case2 m id isExplicit k s hfind hactive => exact active m id isExplicit k s hfind hactive
  | case3 m id isExplicit k s hfind hactive hdomain =>
      apply ended m id isExplicit k s hfind (Bool.eq_false_iff.mpr hactive)
      intro tableId htable
      rw [hdomain] at htable
      cases htable
  | case4 m id isExplicit k s hfind hactive tableId hdomain ih =>
      apply ended m id isExplicit k s hfind (Bool.eq_false_iff.mpr hactive)
      intro tableId' htable
      rw [hdomain] at htable
      obtain rfl := Option.some.inj htable
      exact ih

end Subscriptions

end WsStreaming.Ports
