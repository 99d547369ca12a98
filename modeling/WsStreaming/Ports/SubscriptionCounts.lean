import Mathlib.Data.List.Nodup
import Mathlib.Data.List.Perm.Subperm
import WsStreaming.Verified.Run
import WsStreaming.Ports.LocalSubscriptions

/-!
# Implicit subscription counts

An explicit subscription that begins takes an implicit one on the table that
the signal names.  The implicit count of a signal is to be the number of other
signals that hold such a subscription on it.

`subscribe` takes only when an explicit request begins a subscription, but
`unsubscribe` releases whenever one ends, also if it was begun implicitly or
was not there at all.  The counts are exact as long as whatever ends had taken
(`Released`), and not in general.

What a subscription has taken is not in the state of the program.  It is kept
beside it, as a history: `took k` is the number of the signal on which the
current subscription of signal number `k` took an implicit one.

## Main results

* `Subscriptions.countsExact_unsubscribe` — an unsubscribe call settles the debt of the call
  that made it.
* `counts_exact_of_released` — the law over all runs of commands.
* `unmatched_unsubscribe_underflows` — a request that breaks it.
-/

namespace WsStreaming.Ports

open WsStreaming.Verified
open WsStreaming.Verified.OrderedMap (OMap Distinct)
open WsStreaming.Verified.Run

/-- What the current subscriptions have taken. -/
abbrev Took := UInt32 → Option UInt32

namespace Subscriptions

/-- Whether a signal holds an implicit subscription on signal number `k`. -/
def holds (took : Took) (k : UInt32) (e : UInt32 × Subscription) : Bool :=
  decide (e.1 ≠ k) && e.2.isActive && decide (took e.1 = some k)

/-- The number of other signals that hold an implicit subscription. -/
def holders (m : Subscriptions) (took : Took) (k : UInt32) : Nat := m.countP (holds took k)

/-- The counts are the numbers of holders, but for one that is still to be
taken from the signal with a debt. -/
def CountsUpTo (m : Subscriptions) (took : Took) (debt : Option UInt32) : Prop :=
  ∀ k s, OrderedMap.find? m k = some s →
    s.count.toNat = m.holders took k + if debt = some k then 1 else 0

/-- The counts are the numbers of holders. -/
def CountsExact (m : Subscriptions) (took : Took) : Prop := m.CountsUpTo took none

/-- A subscription takes on the signal that is named, and on no other. -/
def TookNamed (m : Subscriptions) (took : Took) : Prop :=
  ∀ k s, OrderedMap.find? m k = some s → s.isActive = true →
    ∀ d, took k = some d → (m.domainOf s).map Prod.fst = some d

/-- No signal names itself. -/
def Proper (m : Subscriptions) : Prop := ∀ e ∈ m, e.2.domain ≠ some e.2.id

/-- The signals whose subscription an unsubscribe call for signal number `k`
ends: the signal itself, if nothing is left of its subscription, and then each
table in turn whose last one goes with it. -/
inductive Ends (m : Subscriptions) (k : UInt32) (isExplicit : Bool) :
    UInt32 → Subscription → Prop where
  | first {s : Subscription} (hk : OrderedMap.find? m k = some s)
      (hs : (s.drop isExplicit).isActive = false) : Ends m k isExplicit k s
  | table {j d : UInt32} {s t : Subscription} (hj : Ends m k isExplicit j s)
      (hd : m.domainOf s = some (d, t)) (ht : (t.drop false).isActive = false) :
      Ends m k isExplicit d t

/-- Whatever ends and names a registered signal had taken on it. -/
def Matched (m : Subscriptions) (took : Took) (k : UInt32) (isExplicit : Bool) : Prop :=
  ∀ j s, Ends m k isExplicit j s → ∀ d t, m.domainOf s = some (d, t) →
    s.isActive = true ∧ took j = some d

/-- Before an unsubscribe request: each subscription that it ends had taken one
on the table the signal names, and whoever else is subscribed and names a
signal that it ends has taken one on it. -/
def Released (m : Subscriptions) (took : Took) : LocalSignals.Request → Prop
  | .subscribe _ => True
  | .unsubscribe id =>
      ∀ k s, m.findById id = some (k, s) → ∀ j u, m.Ends k true j u →
        (∀ d t, m.domainOf u = some (d, t) → u.isActive = true ∧ took j = some d) ∧
        ∀ i v, OrderedMap.find? m i = some v → i ≠ j → v.isActive = true →
          (m.domainOf v).map Prod.fst = some j → took i = some j

/-! ## One change -/

/-- The same signals under the same numbers, whatever their subscriptions. -/
structure SameSignals (m m' : Subscriptions) : Prop where
  keys : m'.map Prod.fst = m.map Prod.fst
  find : ∀ j u', OrderedMap.find? m' j = some u' →
    ∃ u, OrderedMap.find? m j = some u ∧ u'.id = u.id ∧ u'.domain = u.domain
  place : ∀ id, (m'.findById id).map Prod.fst = (m.findById id).map Prod.fst

theorem SameSignals.refl (m : Subscriptions) : SameSignals m m :=
  ⟨rfl, fun _ u' h => ⟨u', h, rfl, rfl⟩, fun _ => rfl⟩

theorem SameSignals.trans {m m' m'' : Subscriptions} (h : SameSignals m m')
    (h' : SameSignals m' m'') : SameSignals m m'' := by
  constructor
  · exact h'.keys.trans h.keys
  · intro j u'' hj
    obtain ⟨u', hj', hid', hdomain'⟩ := h'.find j u'' hj
    obtain ⟨u, hj, hid, hdomain⟩ := h.find j u' hj'
    exact ⟨u, hj, hid'.trans hid, hdomain'.trans hdomain⟩
  · exact fun id => (h'.place id).trans (h.place id)

theorem SameSignals.distinct {m m' : Subscriptions} (h : SameSignals m m') (hm : Distinct m) :
    Distinct m' := by
  rw [Distinct, h.keys]
  exact hm

theorem SameSignals.proper {m m' : Subscriptions} (h : SameSignals m m') (hm : Distinct m)
    (hproper : m.Proper) : m'.Proper := by
  intro e he
  obtain ⟨u, hu, hid, hdomain⟩ := h.find e.1 e.2
    ((OrderedMap.find?_eq_some_iff (h.distinct hm)).mpr he)
  rw [hid, hdomain]
  exact hproper (e.1, u) (OrderedMap.mem_of_find?_eq_some hu)

theorem SameSignals.domainOf {m m' : Subscriptions} (h : SameSignals m m') {u u' : Subscription}
    (hdomain : u'.domain = u.domain) :
    (m'.domainOf u').map Prod.fst = (m.domainOf u).map Prod.fst := by
  rw [Subscriptions.domainOf, Subscriptions.domainOf, hdomain]
  cases u.domain with
  | none => rfl
  | some id => exact h.place id

section Put

variable {m : Subscriptions} {took : Took} {k : UInt32} {s new : Subscription}

theorem find?_of_domainOf (hm : Distinct m) {t : Subscription} {d : UInt32} {u : Subscription}
    (h : m.domainOf t = some (d, u)) : OrderedMap.find? m d = some u := by
  cases hd : t.domain with
  | none =>
      rw [domainOf, hd] at h
      cases h
  | some id =>
      rw [domainOf, hd] at h
      exact find?_of_findById hm h

theorem ne_of_domainOf (hm : Distinct m) (hproper : m.Proper)
    (hk : OrderedMap.find? m k = some s) {d : UInt32} {t : Subscription}
    (h : m.domainOf s = some (d, t)) : d ≠ k := by
  intro hdk
  have ht := find?_of_domainOf hm h
  rw [hdk, hk] at ht
  obtain rfl := Option.some.inj ht
  cases hd : s.domain with
  | none =>
      rw [domainOf, hd] at h
      cases h
  | some id =>
      have hid : s.id = id := id_of_findById (by rw [domainOf, hd] at h; exact h)
      apply hproper (k, s) (OrderedMap.mem_of_find?_eq_some hk)
      rw [hd, hid]

/-- The holders after a change of one subscription. -/
theorem holders_put (hm : Distinct m) (hk : OrderedMap.find? m k = some s)
    (new : Subscription) (took took' : Took) (htook : ∀ j, j ≠ k → took' j = took j)
    (j : UInt32) :
    (m.put k new).holders took' j + (if holds took j (k, s) then 1 else 0) =
      m.holders took j + (if holds took' j (k, new) then 1 else 0) := by
  apply OrderedMap.countP_modify hm hk
  intro e _ he
  rw [holds, holds, htook e.1 he]

/-- A change that leaves the subscription on or off leaves the holders. -/
theorem holders_put_of_isActive (hm : Distinct m) (hk : OrderedMap.find? m k = some s)
    (hactive : new.isActive = s.isActive) (j : UInt32) :
    (m.put k new).holders took j = m.holders took j := by
  have hput := holders_put hm hk new took took (fun _ _ => rfl) j
  have hsame : holds took j (k, new) = holds took j (k, s) := by
    simp only [holds, hactive]
  rw [hsame] at hput
  omega

theorem SameSignals.put (hm : Distinct m) (hk : OrderedMap.find? m k = some s)
    (hid : new.id = s.id) (hdomain : new.domain = s.domain) : SameSignals m (m.put k new) := by
  constructor
  · exact OrderedMap.map_fst_modify m k _
  · intro j u' hj
    rw [find?_put hk] at hj
    by_cases hkj : k = j
    · rw [if_pos hkj] at hj
      obtain rfl := Option.some.inj hj
      exact ⟨s, hkj ▸ hk, hid, hdomain⟩
    · rw [if_neg hkj] at hj
      exact ⟨u', hj, rfl, rfl⟩
  · intro id
    rw [findById_put hm hk hid, Option.map_map]
    apply Option.map_congr
    intro e _
    simp only [Function.comp_apply]
    split
    · rename_i hkey
      exact hkey.symm
    · rfl

/-- What was taken is still named after a change that switches nothing on. -/
theorem TookNamed.of_sameSignals {m' : Subscriptions} (h : m.TookNamed took)
    (hsame : SameSignals m m')
    (hactive : ∀ j u u', OrderedMap.find? m j = some u → OrderedMap.find? m' j = some u' →
      u'.isActive = true → u.isActive = true) : m'.TookNamed took := by
  intro j u' hj hu' d htook
  obtain ⟨u, hj', -, hdomain⟩ := hsame.find j u' hj
  rw [hsame.domainOf hdomain]
  exact h j u hj' (hactive j u u' hj' hj hu') d htook

/-- Ending a subscription switches nothing on. -/
theorem isActive_of_put_inactive (hk : OrderedMap.find? m k = some s)
    (hnew : new.isActive = false) (j : UInt32) (u u' : Subscription)
    (hu : OrderedMap.find? m j = some u) (hu' : OrderedMap.find? (m.put k new) j = some u')
    (hactive : u'.isActive = true) : u.isActive = true := by
  rw [find?_put hk] at hu'
  by_cases hkj : k = j
  · rw [if_pos hkj] at hu'
    obtain rfl := Option.some.inj hu'
    rw [hnew] at hactive
    cases hactive
  · rw [if_neg hkj, hu] at hu'
    obtain rfl := Option.some.inj hu'
    exact hactive

/-- A subscription with a count is on. -/
theorem isActive_of_debt (h : m.CountsUpTo took (some k)) (hk : OrderedMap.find? m k = some s) :
    s.isActive = true ∧ s.count ≠ 0 := by
  have hcount := h k s hk
  rw [if_pos rfl] at hcount
  have hne : s.count ≠ 0 := by
    intro hzero
    rw [hzero, UInt32.toNat_zero] at hcount
    omega
  exact ⟨Subscription.isActive_of_count hne, hne⟩

end Put

/-! ## Unsubscribing -/

/-- Ending a subscription ends nothing twice: what ends after the first is
what ended in the map before. -/
theorem Ends.of_put {m : Subscriptions} (hm : Distinct m) {k d : UInt32} {s : Subscription}
    {isExplicit : Bool} (hk : OrderedMap.find? m k = some s)
    (hs : (s.drop isExplicit).isActive = false) {t : Subscription}
    (hd : m.domainOf s = some (d, t)) {j : UInt32} {u : Subscription}
    (h : Ends (m.put k (s.drop isExplicit)) d false j u) :
    Ends m k isExplicit j u ∧ OrderedMap.find? m j = some u := by
  have hzero : (s.drop isExplicit).count = 0 := (count_of_drop hs).1
  -- The ended signal has no count left, so it is not one of the tables.
  have hother {u : Subscription} (hu : (u.drop false).isActive = false) :
      u ≠ s.drop isExplicit := by
    rintro rfl
    have hone := (count_of_drop hu).2 rfl
    rw [hzero] at hone
    cases hone
  induction h with
  | first hj hu =>
      rename_i u
      rw [find?_put hk] at hj
      by_cases hkd : k = d
      · rw [if_pos hkd] at hj
        exact absurd (Option.some.inj hj).symm (hother hu)
      · rw [if_neg hkd] at hj
        have ht := find?_of_domainOf hm hd
        rw [hj] at ht
        obtain rfl := Option.some.inj ht
        exact ⟨.table (.first hk hs) hd hu, hj⟩
  | table hj hd' hu ih =>
      rename_i j d' v u
      rw [domainOf_put hm hk (Subscription.id_drop s isExplicit)] at hd'
      obtain ⟨⟨d'', u''⟩, hd'', heq⟩ := Option.map_eq_some_iff.mp hd'
      by_cases hkey : d'' = k
      · rw [if_pos hkey] at heq
        exact absurd (Prod.mk.inj heq).2.symm (hother hu)
      · rw [if_neg hkey] at heq
        obtain ⟨rfl, rfl⟩ := Prod.mk.inj heq
        exact ⟨.table ih.1 hd'' hu, find?_of_domainOf hm hd''⟩

section Unsubscribe

variable {m : Subscriptions} {took : Took} {k : UInt32} {s : Subscription} {isExplicit : Bool}

theorem debtor_ne {j : UInt32} (hkj : ¬ k = j) :
    ¬ (if isExplicit then none else some k) = some j := by
  cases isExplicit with
  | true => simp
  | false => simpa using hkj

/-- What the nested call finds: one is to be taken from the table. -/
theorem countsUpTo_ended (hm : Distinct m) (hproper : m.Proper) (hnamed : m.TookNamed took)
    (hk : OrderedMap.find? m k = some s)
    (hcounts : m.CountsUpTo took (if isExplicit then none else some k))
    (hs : (s.drop isExplicit).isActive = false) (hmatched : m.Matched took k isExplicit) :
    (m.put k (s.drop isExplicit)).CountsUpTo took ((m.domainOf s).map Prod.fst) := by
  intro j u hj
  have hholders := holders_put hm hk (s.drop isExplicit) took took (fun _ _ => rfl) j
  have hoff : holds took j (k, s.drop isExplicit) = false := by
    simp only [holds, hs, Bool.and_false, Bool.false_and]
  have hdebt : (m.domainOf s).map Prod.fst ≠ some k := by
    intro hdomain
    obtain ⟨⟨d, t⟩, hd, rfl⟩ := Option.map_eq_some_iff.mp hdomain
    exact ne_of_domainOf hm hproper hk hd rfl
  rw [hoff] at hholders
  rw [find?_put hk] at hj
  by_cases hkj : k = j
  · subst hkj
    rw [if_pos rfl] at hj
    obtain rfl := Option.some.inj hj
    have hself : holds took k (k, s) = false := by simp [holds]
    have hzero := count_of_drop hs
    have hcount := hcounts k s hk
    rw [hself] at hholders
    rw [hzero.1, UInt32.toNat_zero, if_neg hdebt]
    cases isExplicit with
    | true =>
        have hsame : s.count = 0 := hzero.1
        rw [hsame] at hcount
        simp at hcount hholders
        omega
    | false =>
        rw [hzero.2 rfl] at hcount
        simp at hcount hholders
        omega
  · rw [if_neg hkj] at hj
    have hcount := hcounts j u hj
    rw [if_neg (debtor_ne hkj)] at hcount
    -- Whether the ended signal was a holder of `j`.
    have hheld : holds took j (k, s) = decide ((m.domainOf s).map Prod.fst = some j) := by
      cases hdomain : m.domainOf s with
      | none =>
          by_contra htrue
          have hholds : holds took j (k, s) = true := by simpa using htrue
          rw [holds, Bool.and_eq_true, Bool.and_eq_true, decide_eq_true_eq] at hholds
          have htable := hnamed k s hk hholds.1.2 j (of_decide_eq_true hholds.2)
          rw [hdomain] at htable
          cases htable
      | some e =>
          have htook := hmatched k s (.first hk hs) e.1 e.2 hdomain
          simp [holds, htook.1, htook.2, hkj]
    rw [hheld] at hholders
    simp only [decide_eq_true_eq, Bool.false_eq_true, if_false] at hholders
    omega

/-- The conditions of an unsubscribe call hold for the nested one. -/
theorem Matched.nested (hm : Distinct m)
    (hk : OrderedMap.find? m k = some s) (hs : (s.drop isExplicit).isActive = false)
    (hmatched : m.Matched took k isExplicit) {d : UInt32} {t : Subscription}
    (hd : m.domainOf s = some (d, t)) :
    (m.put k (s.drop isExplicit)).Matched took d false := by
  intro j u hj d' t' hd'
  have hold := Ends.of_put hm hk hs hd hj
  rw [domainOf_put hm hk (Subscription.id_drop s isExplicit)] at hd'
  obtain ⟨⟨d'', t''⟩, hd'', heq⟩ := Option.map_eq_some_iff.mp hd'
  have htook := hmatched j u hold.1 d'' t'' hd''
  have hkey : d'' = d' := by
    split at heq
    · rename_i hkey
      exact hkey.trans (Prod.mk.inj heq).1
    · exact (Prod.mk.inj heq).1
  rw [← hkey]
  exact htook

/-- What an unsubscribe call relies on.  A nested call has one to take from the
signal that it is for. -/
structure Ready (m : Subscriptions) (took : Took) (id : String) (isExplicit : Bool) : Prop where
  distinct : Distinct m
  proper : m.Proper
  named : m.TookNamed took
  counts : m.CountsUpTo took (if isExplicit then none else (m.findById id).map Prod.fst)
  matched : ∀ k s, m.findById id = some (k, s) → m.Matched took k isExplicit

theorem Ready.debt {id : String} (h : m.Ready took id isExplicit)
    (hfind : m.findById id = some (k, s)) :
    m.CountsUpTo took (if isExplicit then none else some k) := by
  have hcounts := h.counts
  rw [hfind] at hcounts
  exact hcounts

/-- A nested call finds a count to take from. -/
theorem Ready.count_ne_zero {id : String} (h : m.Ready took id false)
    (hfind : m.findById id = some (k, s)) : s.count ≠ 0 :=
  (isActive_of_debt (h.debt hfind) (find?_of_findById h.distinct hfind)).2

/-- Whoever stays subscribed was subscribed. -/
theorem Ready.isActive_of_drop {id : String} (h : m.Ready took id isExplicit)
    (hfind : m.findById id = some (k, s)) (hactive : (s.drop isExplicit).isActive = true) :
    s.isActive = true := by
  cases isExplicit with
  | true =>
      -- The flag is cleared, so it is the count that keeps it on.
      apply Subscription.isActive_of_count
      intro hzero
      have hoff : (s.drop true).isActive = false :=
        Subscription.isActive_eq_false.mpr ⟨rfl, hzero⟩
      rw [hactive] at hoff
      cases hoff
  | false => exact Subscription.isActive_of_count (h.count_ne_zero hfind)

theorem sameSignals_drop (hm : Distinct m) (hk : OrderedMap.find? m k = some s)
    (isExplicit : Bool) : SameSignals m (m.put k (s.drop isExplicit)) :=
  .put hm hk (Subscription.id_drop s isExplicit) (Subscription.domain_drop s isExplicit)

/-- The nested call is ready if its caller was. -/
theorem Ready.nested {id tableId : String} (h : m.Ready took id isExplicit)
    (hfind : m.findById id = some (k, s)) (hs : (s.drop isExplicit).isActive = false)
    (hdomain : s.domain = some tableId) :
    (m.put k (s.drop isExplicit)).Ready took tableId false := by
  have hk := find?_of_findById h.distinct hfind
  have hmatched := h.matched k s hfind
  have hsame := sameSignals_drop h.distinct hk isExplicit
  have hlookup : m.domainOf s = m.findById tableId := by
    rw [domainOf, hdomain]
    rfl
  constructor
  · exact hsame.distinct h.distinct
  · exact hsame.proper h.distinct h.proper
  · exact h.named.of_sameSignals hsame (isActive_of_put_inactive hk hs)
  · have hsettled := countsUpTo_ended h.distinct h.proper h.named hk (h.debt hfind) hs hmatched
    rw [hlookup, ← hsame.place tableId] at hsettled
    exact hsettled
  · intro d t hd
    have hkey : (m.findById tableId).map Prod.fst = some d := by
      rw [← hsame.place tableId, hd]
      rfl
    obtain ⟨⟨d', t'⟩, hd', rfl⟩ := Option.map_eq_some_iff.mp hkey
    exact hmatched.nested h.distinct hk hs (hlookup.trans hd')

/-- **An unsubscribe call settles the debt of the call that made it.** -/
theorem countsExact_unsubscribe (m : Subscriptions) (id : String) (isExplicit : Bool) :
    m.Ready took id isExplicit → (m.unsubscribe id isExplicit).CountsExact took := by
  induction m, id, isExplicit using unsubscribe_induction with
  | none m id isExplicit hfind =>
      intro hready
      have hcounts := hready.counts
      rw [hfind, Option.map_none, ite_self] at hcounts
      rw [unsubscribe_of_none hfind]
      exact hcounts
  | active m id isExplicit k s hfind hactive =>
      intro hready j u hj
      have hk := find?_of_findById hready.distinct hfind
      have hs := hready.isActive_of_drop hfind hactive
      have hcounts := hready.debt hfind
      have hholders : (m.put k (s.drop isExplicit)).holders took j = m.holders took j :=
        holders_put_of_isActive hready.distinct hk (by rw [hactive, hs]) j
      rw [unsubscribe_of_active hfind hactive] at hj ⊢
      rw [hholders, if_neg (by simp)]
      rw [find?_put hk] at hj
      by_cases hkj : k = j
      · subst hkj
        rw [if_pos rfl] at hj
        obtain rfl := Option.some.inj hj
        have hcount := hcounts k s hk
        cases isExplicit with
        | true =>
            have hsame : (s.drop true).count = s.count := rfl
            rw [hsame]
            simpa using hcount
        | false =>
            simp at hcount
            have hpos : 1 ≤ s.count := by
              rw [UInt32.le_iff_toNat_le, hcount]
              exact Nat.le_add_left 1 _
            have hsub : (s.drop false).count.toNat = s.count.toNat - 1 := by
              change (s.count - 1).toNat = _
              rw [UInt32.toNat_sub_of_le _ _ hpos]
              rfl
            omega
      · rw [if_neg hkj] at hj
        have hcount := hcounts j u hj
        rw [if_neg (debtor_ne hkj)] at hcount
        exact hcount
  | ended m id isExplicit k s hfind hs ih =>
      intro hready
      rw [unsubscribe_of_ended hfind hs]
      cases hdomain : s.domain with
      | none =>
          have hnone : m.domainOf s = none := by
            rw [domainOf, hdomain]
            rfl
          have hsettled := countsUpTo_ended hready.distinct hready.proper hready.named
            (find?_of_findById hready.distinct hfind) (hready.debt hfind) hs
            (hready.matched k s hfind)
          rw [hnone] at hsettled
          exact hsettled
      | some tableId => exact ih tableId hdomain (hready.nested hfind hs hdomain)

/-- An unsubscribe call registers and removes nothing. -/
theorem sameSignals_unsubscribe (m : Subscriptions) (id : String) (isExplicit : Bool) :
    Distinct m → SameSignals m (m.unsubscribe id isExplicit) := by
  induction m, id, isExplicit using unsubscribe_induction with
  | none m id isExplicit hfind =>
      intro _
      rw [unsubscribe_of_none hfind]
      exact .refl m
  | active m id isExplicit k s hfind hactive =>
      intro hm
      rw [unsubscribe_of_active hfind hactive]
      exact sameSignals_drop hm (find?_of_findById hm hfind) isExplicit
  | ended m id isExplicit k s hfind hs ih =>
      intro hm
      have hsame := sameSignals_drop hm (find?_of_findById hm hfind) isExplicit
      rw [unsubscribe_of_ended hfind hs]
      cases hdomain : s.domain with
      | none => exact hsame
      | some tableId => exact hsame.trans (ih tableId hdomain (hsame.distinct hm))

/-- An unsubscribe call switches nothing on, and what it switches off is what
`Ends` says. -/
theorem ends_of_unsubscribe (m : Subscriptions) (id : String) (isExplicit : Bool) :
    m.Ready took id isExplicit → ∀ j u u', OrderedMap.find? m j = some u →
      OrderedMap.find? (m.unsubscribe id isExplicit) j = some u' →
      (u'.isActive = true → u.isActive = true) ∧
        (u.isActive = true → u'.isActive = false →
          ∃ k s, m.findById id = some (k, s) ∧ m.Ends k isExplicit j u) := by
  induction m, id, isExplicit using unsubscribe_induction with
  | none m id isExplicit hfind =>
      intro _ j u u' hu hu'
      rw [unsubscribe_of_none hfind, hu] at hu'
      obtain rfl := Option.some.inj hu'
      constructor
      · exact fun h => h
      · intro hon hoff
        rw [hon] at hoff
        cases hoff
  | active m id isExplicit k s hfind hactive =>
      intro hready j u u' hu hu'
      have hk := find?_of_findById hready.distinct hfind
      have hs := hready.isActive_of_drop hfind hactive
      have hkeep : u'.isActive = u.isActive := by
        rw [unsubscribe_of_active hfind hactive, find?_put hk] at hu'
        by_cases hkj : k = j
        · subst hkj
          rw [if_pos rfl] at hu'
          rw [hk] at hu
          rw [← Option.some.inj hu', ← Option.some.inj hu, hactive, hs]
        · rw [if_neg hkj, hu] at hu'
          rw [Option.some.inj hu']
      rw [hkeep]
      constructor
      · exact fun h => h
      · intro hon hoff
        rw [hon] at hoff
        cases hoff
  | ended m id isExplicit k s hfind hs ih =>
      intro hready j u u' hu hu'
      have hk := find?_of_findById hready.distinct hfind
      have hfirst : m.Ends k isExplicit k s := .first hk hs
      -- The signal itself is off; the others are as the nested call leaves them.
      have hput := find?_put hk (s.drop isExplicit) j
      rw [unsubscribe_of_ended hfind hs] at hu'
      cases hdomain : s.domain with
      | none =>
          rw [hdomain] at hu'
          by_cases hkj : k = j
          · subst hkj
            rw [hk] at hu
            obtain rfl := Option.some.inj hu
            exact ⟨isActive_of_put_inactive hk hs k _ u' hk hu', fun _ _ => ⟨k, s, hfind, hfirst⟩⟩
          · have hsame : u' = u := by
              rw [if_neg hkj, hu] at hput
              rw [hput] at hu'
              exact (Option.some.inj hu').symm
            rw [hsame]
            constructor
            · exact fun h => h
            · intro hon hoff
              rw [hon] at hoff
              cases hoff
      | some tableId =>
          rw [hdomain] at hu'
          have hnested := ih tableId hdomain (hready.nested hfind hs hdomain)
          by_cases hkj : k = j
          · subst hkj
            rw [if_pos rfl] at hput
            rw [hk] at hu
            obtain rfl := Option.some.inj hu
            constructor
            · intro hon
              have hoff := (hnested k _ u' hput hu').1 hon
              rw [hs] at hoff
              cases hoff
            · exact fun _ _ => ⟨k, s, hfind, hfirst⟩
          · rw [if_neg hkj, hu] at hput
            constructor
            · exact (hnested j u u' hput hu').1
            · intro hon hoff
              obtain ⟨d, t, hd, hends⟩ := (hnested j u u' hput hu').2 hon hoff
              have hlookup : m.domainOf s = m.findById tableId := by
                rw [domainOf, hdomain]
                rfl
              have hkey : (m.findById tableId).map Prod.fst = some d := by
                rw [← (sameSignals_drop hready.distinct hk isExplicit).place tableId, hd]
                rfl
              obtain ⟨⟨d', t'⟩, hd', rfl⟩ := Option.map_eq_some_iff.mp hkey
              exact ⟨k, s, hfind,
                (Ends.of_put hready.distinct hk hs (hlookup.trans hd') hends).1⟩

end Unsubscribe

/-! ## Subscribing -/

section Subscribe

variable {m : Subscriptions} {took : Took}

/-- There are no more signals than signal numbers. -/
theorem length_le (hm : Distinct m) : m.length ≤ 2 ^ 32 := by
  have hnodup : ((m.map Prod.fst).map UInt32.toNat).Nodup :=
    hm.map fun a b hab => UInt32.toNat_inj.mp hab
  have hsubset : (m.map Prod.fst).map UInt32.toNat ⊆ List.range (2 ^ 32) := by
    intro n hn
    obtain ⟨k, -, rfl⟩ := List.mem_map.mp hn
    exact List.mem_range.mpr k.toNat_lt
  have hle := (List.subperm_of_subset hnodup hsubset).length_le
  rw [List.length_map, List.length_map, List.length_range] at hle
  exact hle

/-- A number of holders fits the counter. -/
theorem holders_lt (took : Took) (hm : Distinct m) {k : UInt32} {s : Subscription}
    (hk : OrderedMap.find? m k = some s) : m.holders took k < 2 ^ 32 := by
  have hne : m.countP (holds took k) ≠ m.length := by
    intro heq
    have hself := List.countP_eq_length.mp heq (k, s) (OrderedMap.mem_of_find?_eq_some hk)
    simp [holds] at hself
  have hle : m.countP (holds took k) ≤ m.length := List.countP_le_length
  have hlength := length_le hm
  unfold holders
  omega

/-- Only what current subscriptions have taken counts. -/
theorem CountsUpTo.congr (hm : Distinct m) {took' : Took} {debt : Option UInt32}
    (htook : ∀ j u, OrderedMap.find? m j = some u → u.isActive = true → took' j = took j)
    (h : m.CountsUpTo took debt) : m.CountsUpTo took' debt := by
  intro k s hk
  have hholders : m.holders took' k = m.holders took k := by
    apply List.countP_congr
    intro e he
    have hfind := (OrderedMap.find?_eq_some_iff hm).mpr (show (e.1, e.2) ∈ m from he)
    cases hactive : e.2.isActive with
    | true => simp only [holds, htook e.1 e.2 hfind hactive]
    | false => simp only [holds, hactive, Bool.and_false, Bool.false_and]
  rw [hholders]
  exact h k s hk

/-- What a request's own subscription takes, if it begins one. -/
def startedBy (m : Subscriptions) (k : UInt32) : LocalSignals.Request → Option UInt32
  | .subscribe id =>
      match m.findById id with
      | some (j, s) => if j = k then (m.domainOf s).map Prod.fst else none
      | none => none
  | .unsubscribe _ => none

/-- The bookkeeping of a request. -/
def request (m : Subscriptions) : LocalSignals.Request → Subscriptions
  | .subscribe id => m.subscribe id
  | .unsubscribe id => m.unsubscribe id true

/-- The history after a request: a subscription that goes on keeps what it has
taken, one that begins has taken what the request takes for it. -/
def tookAfter (m : Subscriptions) (r : LocalSignals.Request) (took : Took) : Took := fun k =>
  match OrderedMap.find? (m.request r) k, OrderedMap.find? m k with
  | some s', some s =>
      if s'.isActive then if s.isActive then took k else m.startedBy k r else none
  | _, _ => none

theorem tookAfter_of_active {r : LocalSignals.Request} {k : UInt32} {s s' : Subscription}
    (hs' : OrderedMap.find? (m.request r) k = some s') (hs : OrderedMap.find? m k = some s)
    (hactive : s'.isActive = true) :
    m.tookAfter r took k = if s.isActive then took k else m.startedBy k r := by
  simp only [tookAfter, hs', hs, hactive, if_true]

/-- A request registers and removes nothing. -/
theorem sameSignals_request (hm : Distinct m) (r : LocalSignals.Request) :
    SameSignals m (m.request r) := by
  cases r with
  | unsubscribe id => exact sameSignals_unsubscribe m id true hm
  | subscribe id =>
      rw [request, subscribe]
      cases hfind : m.findById id with
      | none => exact .refl m
      | some e =>
          obtain ⟨k, s⟩ := e
          have hk := find?_of_findById hm hfind
          have hsame : SameSignals m (m.put k s.request) := .put hm hk rfl rfl
          dsimp only
          split
          · exact hsame
          · cases hdomain : (m.put k s.request).domainOf s with
            | none => exact hsame
            | some e =>
                have hd := find?_of_domainOf (hsame.distinct hm)
                  (show (m.put k s.request).domainOf s = some (e.1, e.2) from hdomain)
                exact hsame.trans (.put (hsame.distinct hm) hd rfl rfl)

/-- What is taken is named. -/
theorem tookNamed_tookAfter (hm : Distinct m) (hnamed : m.TookNamed took)
    (r : LocalSignals.Request) : (m.request r).TookNamed (m.tookAfter r took) := by
  intro k s' hs' hactive d htook
  have hsame := sameSignals_request hm r
  obtain ⟨s, hs, -, hdomain⟩ := hsame.find k s' hs'
  rw [tookAfter_of_active hs' hs hactive] at htook
  rw [hsame.domainOf hdomain]
  by_cases hold : s.isActive = true
  · rw [if_pos hold] at htook
    exact hnamed k s hs hold d htook
  · rw [if_neg hold] at htook
    cases r with
    | unsubscribe id => cases htook
    | subscribe id =>
        rw [startedBy] at htook
        cases hfind : m.findById id with
        | none =>
            rw [hfind] at htook
            cases htook
        | some e =>
            obtain ⟨j, u⟩ := e
            rw [hfind] at htook
            dsimp only at htook
            by_cases hjk : j = k
            · rw [if_pos hjk] at htook
              have hu := find?_of_findById hm hfind
              rw [hjk, hs] at hu
              rw [Option.some.inj hu]
              exact htook
            · rw [if_neg hjk] at htook
              cases htook

/-- A subscription that begins and names no registered signal takes nothing. -/
theorem countsExact_request (hm : Distinct m) (hcounts : m.CountsExact took) {k : UInt32}
    {s : Subscription} (hk : OrderedMap.find? m k = some s) (hs : s.isActive = false) :
    (m.put k s.request).CountsExact (fun j => if j = k then none else took j) := by
  intro j u hj
  have hholders := holders_put hm hk s.request took (fun j => if j = k then none else took j)
    (fun j hjk => if_neg hjk) j
  have hoff : holds took j (k, s) = false := by simp [holds, hs]
  have hnone : holds (fun j => if j = k then none else took j) j (k, s.request) = false := by
    simp [holds]
  rw [hoff, hnone] at hholders
  rw [find?_put hk] at hj
  have hcount : u.count.toNat = m.holders took j := by
    by_cases hkj : k = j
    · rw [if_pos hkj] at hj
      rw [← Option.some.inj hj]
      exact hcounts j s (hkj ▸ hk)
    · rw [if_neg hkj] at hj
      exact hcounts j u hj
  simp only [Bool.false_eq_true, if_false] at hholders
  rw [if_neg (by simp)]
  omega

/-- The count of a table that is taken fits its counter. -/
theorem toNat_increment (hm : Distinct m) (hproper : m.Proper) (hcounts : m.CountsExact took)
    {k d : UInt32} {s t : Subscription} (hk : OrderedMap.find? m k = some s)
    (hs : s.isActive = false) (hd : m.domainOf s = some (d, t)) :
    t.increment.count.toNat = t.count.toNat + 1 := by
  have hdk : d ≠ k := ne_of_domainOf hm hproper hk hd
  have hfind := find?_of_domainOf hm hd
  have hfind' : OrderedMap.find? (m.put k s.request) d = some t := by
    rw [find?_put hk, if_neg hdk.symm, hfind]
  have hlt := holders_lt (fun j => if j = k then some d else took j)
    (Distinct.put hm k s.request) hfind'
  have hput := holders_put hm hk s.request took (fun j => if j = k then some d else took j)
    (fun j hjk => if_neg hjk) d
  have hcount := hcounts d t hfind
  have hoff : holds took d (k, s) = false := by simp [holds, hs]
  have hheld : holds (fun j => if j = k then some d else took j) d (k, s.request) = true := by
    simp [holds, hdk.symm, Subscription.isActive_of_explicit
      (show s.request.isExplicit = true from rfl)]
  rw [hoff, hheld] at hput
  rw [if_neg (by simp)] at hcount
  simp only [Bool.false_eq_true, if_false, if_true] at hput
  change (t.count + 1).toNat = _
  rw [UInt32.toNat_add]
  simp only [UInt32.reduceToNat]
  omega

theorem isActive_increment (hm : Distinct m) (hproper : m.Proper) (hcounts : m.CountsExact took)
    {k d : UInt32} {s t : Subscription} (hk : OrderedMap.find? m k = some s)
    (hs : s.isActive = false) (hd : m.domainOf s = some (d, t)) :
    t.increment.isActive = true := by
  have htcount := toNat_increment hm hproper hcounts hk hs hd
  apply Subscription.isActive_of_count
  intro hzero
  rw [hzero, UInt32.toNat_zero] at htcount
  omega

/-- A subscription that begins and names a registered signal takes one on it. -/
theorem countsExact_take (hm : Distinct m) (hproper : m.Proper) (hcounts : m.CountsExact took)
    {k d : UInt32} {s t : Subscription} (hk : OrderedMap.find? m k = some s)
    (hs : s.isActive = false) (hd : m.domainOf s = some (d, t)) :
    ((m.put k s.request).put d t.increment).CountsExact
      (fun j => if j = k then some d else if j = d ∧ t.isActive = false then none else took j) := by
  have hdk : d ≠ k := ne_of_domainOf hm hproper hk hd
  have hfind := find?_of_domainOf hm hd
  have hm' : Distinct (m.put k s.request) := Distinct.put hm k _
  have hfind' : OrderedMap.find? (m.put k s.request) d = some t := by
    rw [find?_put hk, if_neg hdk.symm, hfind]
  intro j u hj
  -- The new subscription holds one on the table.
  have hfirst := holders_put hm hk s.request took (fun j => if j = k then some d else took j)
    (fun j hjk => if_neg hjk) j
  have hoff : holds took j (k, s) = false := by simp [holds, hs]
  have hheld : holds (fun j => if j = k then some d else took j) j (k, s.request) =
      decide (d = j) := by
    have hactive : s.request.isActive = true := Subscription.isActive_of_explicit rfl
    by_cases hdj : d = j
    · simp [holds, hactive, hdj, hdj ▸ hdk.symm]
    · simp [holds, hdj]
  rw [hoff, hheld] at hfirst
  have htcount := toNat_increment hm hproper hcounts hk hs hd
  have hton := isActive_increment hm hproper hcounts hk hs hd
  -- The table's own subscription begins or goes on, and takes nothing.
  have hsecond := holders_put hm' hfind' t.increment (fun j => if j = k then some d else took j)
    (fun j => if j = k then some d else if j = d ∧ t.isActive = false then none else took j)
    (fun j hjd => by simp [hjd]) j
  have hsame : holds (fun j => if j = k then some d else
        if j = d ∧ t.isActive = false then none else took j) j (d, t.increment) =
      holds (fun j => if j = k then some d else took j) j (d, t) := by
    cases hactive : t.isActive with
    | true => simp [holds, hdk, hton, hactive]
    | false => simp [holds, hdk, hactive]
  rw [hsame] at hsecond
  rw [find?_put hfind'] at hj
  rw [if_neg (by simp)]
  simp only [Bool.false_eq_true, if_false, decide_eq_true_eq] at hfirst
  by_cases hdj : d = j
  · rw [if_pos hdj] at hj
    have hcount := hcounts d t hfind
    rw [if_neg (by simp)] at hcount
    rw [← Option.some.inj hj, htcount]
    rw [if_pos hdj] at hfirst
    rw [← hdj] at hfirst hsecond ⊢
    omega
  · rw [if_neg hdj] at hj hfirst
    have hcount : u.count.toNat = m.holders took j := by
      rw [find?_put hk] at hj
      by_cases hkj : k = j
      · rw [if_pos hkj] at hj
        rw [← Option.some.inj hj]
        exact hcounts j s (hkj ▸ hk)
      · rw [if_neg hkj] at hj
        exact hcounts j u hj
    omega

/-- **A subscribe request keeps the counts exact.** -/
theorem countsExact_subscribe (hm : Distinct m) (hproper : m.Proper)
    (hcounts : m.CountsExact took) (id : String) :
    (m.request (.subscribe id)).CountsExact (m.tookAfter (.subscribe id) took) := by
  have hsame := sameSignals_request hm (.subscribe id)
  -- On what is subscribed afterwards, the history is what the cases below say.
  have hhistory {took' : Took} (hexact : (m.request (.subscribe id)).CountsExact took')
      (htook : ∀ j u u', OrderedMap.find? m j = some u →
        OrderedMap.find? (m.request (.subscribe id)) j = some u' → u'.isActive = true →
        (if u.isActive then took j else m.startedBy j (.subscribe id)) = took' j) :
      (m.request (.subscribe id)).CountsExact (m.tookAfter (.subscribe id) took) := by
    apply CountsUpTo.congr (hsame.distinct hm) _ hexact
    intro j u' hj hactive
    obtain ⟨u, hu, -, -⟩ := hsame.find j u' hj
    rw [tookAfter_of_active hj hu hactive]
    exact htook j u u' hu hj hactive
  cases hfind : m.findById id with
  | none =>
      have hnone : m.request (.subscribe id) = m := by rw [request, subscribe, hfind]
      apply hhistory (by rw [hnone]; exact hcounts)
      intro j u u' hu hu' hactive
      rw [hnone, hu] at hu'
      rw [Option.some.inj hu', if_pos hactive]
  | some e =>
      obtain ⟨k, s⟩ := e
      have hk := find?_of_findById hm hfind
      have hstarted : m.startedBy k (.subscribe id) = (m.domainOf s).map Prod.fst := by
        simp only [startedBy, hfind, if_true]
      have hother {j : UInt32} (hjk : ¬ k = j) : m.startedBy j (.subscribe id) = none := by
        simp only [startedBy, hfind, if_neg hjk]
      cases hactive : s.isActive with
      | true =>
          have hput : m.request (.subscribe id) = m.put k s.request := by
            simp only [request, subscribe, hfind, hactive, if_true]
          have hon : s.request.isActive = s.isActive := by
            rw [hactive]
            exact Subscription.isActive_of_explicit rfl
          apply hhistory
          · rw [hput]
            intro j u hj
            rw [holders_put_of_isActive hm hk hon]
            rw [find?_put hk] at hj
            by_cases hkj : k = j
            · rw [if_pos hkj] at hj
              rw [← Option.some.inj hj]
              exact hcounts j s (hkj ▸ hk)
            · rw [if_neg hkj] at hj
              exact hcounts j u hj
          · intro j u u' hu hu' hu'active
            have huactive : u.isActive = true := by
              rw [hput, find?_put hk] at hu'
              by_cases hkj : k = j
              · rw [← hkj, hk] at hu
                rw [← Option.some.inj hu]
                exact hactive
              · rw [if_neg hkj, hu] at hu'
                rw [Option.some.inj hu']
                exact hu'active
            rw [if_pos huactive]
      | false =>
          have hlookup : (m.put k s.request).domainOf s =
              (m.domainOf s).map fun e => if e.1 = k then (k, s.request) else e :=
            domainOf_put hm hk (show s.request.id = s.id from rfl) s
          cases hdomain : m.domainOf s with
          | none =>
              have hput : m.request (.subscribe id) = m.put k s.request := by
                rw [hdomain] at hlookup
                simp only [request, subscribe, hfind, hactive, Bool.false_eq_true, if_false,
                  hlookup, Option.map_none]
              apply hhistory (by rw [hput]; exact countsExact_request hm hcounts hk hactive)
              intro j u u' hu hu' hu'active
              by_cases hkj : k = j
              · subst hkj
                rw [hk] at hu
                rw [← Option.some.inj hu, hactive, hstarted, hdomain]
                simp
              · rw [hput, find?_put hk, if_neg hkj, hu] at hu'
                rw [Option.some.inj hu', if_pos hu'active, if_neg (fun h => hkj h.symm)]
          | some e =>
              obtain ⟨d, t⟩ := e
              have hdk : d ≠ k := ne_of_domainOf hm hproper hk hdomain
              have hput : m.request (.subscribe id) =
                  (m.put k s.request).put d t.increment := by
                rw [hdomain, Option.map_some, if_neg hdk] at hlookup
                simp only [request, subscribe, hfind, hactive, Bool.false_eq_true, if_false,
                  hlookup]
              apply hhistory
                (by rw [hput]; exact countsExact_take hm hproper hcounts hk hactive hdomain)
              intro j u u' hu hu' hu'active
              by_cases hkj : k = j
              · subst hkj
                rw [hk] at hu
                rw [← Option.some.inj hu, hactive, hstarted, hdomain]
                simp
              · have hjk : ¬ j = k := fun h => hkj h.symm
                by_cases hdj : d = j
                · subst hdj
                  have htfind := find?_of_domainOf hm hdomain
                  rw [htfind] at hu
                  rw [← Option.some.inj hu, hother hkj]
                  cases htactive : t.isActive with
                  | true => simp [hjk]
                  | false => simp [hjk]
                · have hfind' : OrderedMap.find? (m.put k s.request) d = some t := by
                    rw [find?_put hk, if_neg hdk.symm, find?_of_domainOf hm hdomain]
                  rw [hput, find?_put hfind', if_neg hdj, find?_put hk, if_neg hkj, hu] at hu'
                  have hjd : ¬ j = d := fun h => hdj h.symm
                  rw [Option.some.inj hu', if_pos hu'active]
                  simp [hjk, hjd]

/-- A subscribe request ends no subscription. -/
theorem isActive_subscribe (hm : Distinct m) (hproper : m.Proper) (hcounts : m.CountsExact took)
    (id : String) {j : UInt32} {u u' : Subscription} (hu : OrderedMap.find? m j = some u)
    (hu' : OrderedMap.find? (m.subscribe id) j = some u') (hactive : u.isActive = true) :
    u'.isActive = true := by
  rw [subscribe] at hu'
  cases hfind : m.findById id with
  | none =>
      rw [hfind, hu] at hu'
      rw [← Option.some.inj hu']
      exact hactive
  | some e =>
      obtain ⟨k, s⟩ := e
      have hk := find?_of_findById hm hfind
      -- The request itself switches nothing off.
      have hfirst {v : Subscription}
          (hv : OrderedMap.find? (m.put k s.request) j = some v) : v.isActive = true := by
        rw [find?_put hk] at hv
        by_cases hkj : k = j
        · rw [if_pos hkj] at hv
          rw [← Option.some.inj hv]
          exact Subscription.isActive_of_explicit rfl
        · rw [if_neg hkj, hu] at hv
          rw [← Option.some.inj hv]
          exact hactive
      rw [hfind] at hu'
      dsimp only at hu'
      by_cases hs : s.isActive = true
      · rw [if_pos hs] at hu'
        exact hfirst hu'
      · have hs' := Bool.eq_false_iff.mpr hs
        rw [if_neg hs, domainOf_put hm hk (show s.request.id = s.id from rfl)] at hu'
        cases hdomain : m.domainOf s with
        | none =>
            rw [hdomain] at hu'
            exact hfirst hu'
        | some e =>
            obtain ⟨d, t⟩ := e
            have hdk : d ≠ k := ne_of_domainOf hm hproper hk hdomain
            have hd : OrderedMap.find? (m.put k s.request) d = some t := by
              rw [find?_put hk, if_neg hdk.symm, find?_of_domainOf hm hdomain]
            rw [hdomain, Option.map_some, if_neg hdk] at hu'
            dsimp only at hu'
            rw [find?_put hd] at hu'
            by_cases hdj : d = j
            · rw [if_pos hdj] at hu'
              rw [← Option.some.inj hu']
              exact isActive_increment hm hproper hcounts hk hs' hdomain
            · rw [if_neg hdj] at hu'
              exact hfirst hu'

/-- Whoever holds keeps the table subscribed. -/
theorem isActive_of_holds (hcounts : m.CountsExact took) {j d : UInt32}
    {u t : Subscription} (hu : OrderedMap.find? m j = some u) (hjd : j ≠ d)
    (hactive : u.isActive = true) (htook : took j = some d)
    (ht : OrderedMap.find? m d = some t) : t.isActive = true := by
  have hpos : 0 < m.holders took d := by
    apply List.countP_pos_iff.mpr
    exact ⟨(j, u), OrderedMap.mem_of_find?_eq_some hu, by simp [holds, hjd, hactive, htook]⟩
  have hcount := hcounts d t ht
  rw [if_neg (by simp)] at hcount
  apply Subscription.isActive_of_count
  intro hzero
  rw [hzero, UInt32.toNat_zero] at hcount
  omega

end Subscribe

end Subscriptions

namespace LocalSignals

/-! ## Runs of commands -/

/-- A connection with what its current subscriptions have taken. -/
structure Audit where
  signals : LocalSignals
  took : Took

/-- A request, with the history. -/
def Audit.step (a : Audit) (r : Request) : Audit :=
  ⟨(a.signals.request r).1, a.signals.subscriptions.tookAfter r a.took⟩

/-- Before each request the subscriptions it ends are to be such. -/
def Released (a : Audit) (r : Request) : Prop := a.signals.subscriptions.Released a.took r

/-- Each implicit count is the number of other signals that are subscribed and
took one on it. -/
def CountsHolders (a : Audit) : Prop :=
  ∀ k entry, OrderedMap.find? a.signals.signals k = some entry →
    entry.implicitSubscribeCount.toNat =
      a.signals.signals.countP fun e =>
        decide (e.1 ≠ k) && e.2.isSubscribed && decide (a.took e.1 = some k)

/-- No call that a request leads to takes one from a count of zero. -/
def NoUnderflow (c : LocalSignals) : Request → Prop
  | .subscribe _ => True
  | .unsubscribe id =>
      ∀ c' tableId k entry, Calls c id true c' tableId false →
        c'.findById tableId = some (k, entry) → entry.implicitSubscribeCount ≠ 0

/-- No subscription ends while another subscribed signal names the signal. -/
def NoneStranded (c c' : LocalSignals) : Prop :=
  ∀ d t t', OrderedMap.find? c.signals d = some t → t.isSubscribed = true →
    OrderedMap.find? c'.signals d = some t' → t'.isSubscribed = false →
    ∀ j v, OrderedMap.find? c'.signals j = some v → j ≠ d → v.isSubscribed = true →
      (v.signal.domainId?.bind c'.findById).map Prod.fst ≠ some d

/-- What a request is to do. -/
structure Sound (a : Audit) (r : Request) : Prop where
  counts : CountsHolders (a.step r)
  underflow : a.signals.NoUnderflow r
  stranded : NoneStranded a.signals (a.step r).signals

/-- The invariant of the runs. -/
structure Exact (a : Audit) : Prop where
  distinct : Distinct a.signals.subscriptions
  proper : a.signals.subscriptions.Proper
  named : a.signals.subscriptions.TookNamed a.took
  counts : a.signals.subscriptions.CountsExact a.took

theorem subscriptions_request (c : LocalSignals) (r : Request) :
    (c.request r).1.subscriptions = c.subscriptions.request r := by
  cases r with
  | subscribe id => exact subscriptions_subscribe c id
  | unsubscribe id => exact subscriptions_unsubscribe c id true

theorem subscriptions_step (a : Audit) (r : Request) :
    (a.step r).signals.subscriptions = a.signals.subscriptions.request r :=
  subscriptions_request a.signals r

/-- The law on the bookkeeping is the law on the connection. -/
theorem countsHolders_of_exact {a : Audit}
    (h : a.signals.subscriptions.CountsExact a.took) : CountsHolders a := by
  intro k entry hk
  have hcount := h k entry.subscription (by rw [find?_subscriptions, hk, Option.map_some])
  rw [if_neg (by simp), Subscriptions.holders, subscriptions, List.countP_map] at hcount
  exact hcount

/-- A signal does not name itself as its domain. -/
theorem proper_subscriptions (c : LocalSignals) : c.subscriptions.Proper := by
  intro e he hdomain
  obtain ⟨⟨k, entry⟩, -, rfl⟩ := List.mem_map.mp he
  change entry.signal.domainId? = some entry.signal.id at hdomain
  rw [LocalSignal.domainId?] at hdomain
  split at hdomain
  · rename_i htable
    exact htable.2 (Option.some.inj hdomain)
  · cases hdomain

theorem Exact.ready {a : Audit} (h : Exact a) {id : String}
    (hreleased : Released a (.unsubscribe id)) :
    a.signals.subscriptions.Ready a.took id true :=
  ⟨h.distinct, h.proper, h.named, h.counts,
    fun k s hfind j u hends => (hreleased k s hfind j u hends).1⟩

/-- On what stays subscribed the history stays. -/
theorem tookAfter_unsubscribe {a : Audit} (h : Exact a) {id : String}
    (hreleased : Released a (.unsubscribe id)) {j : UInt32} {u : Subscription}
    (hu : OrderedMap.find? (a.signals.subscriptions.unsubscribe id true) j = some u)
    (hactive : u.isActive = true) :
    ∃ v, OrderedMap.find? a.signals.subscriptions j = some v ∧ v.isActive = true ∧
      v.domain = u.domain ∧ (a.step (.unsubscribe id)).took j = a.took j := by
  have hsame := Subscriptions.sameSignals_unsubscribe _ id true h.distinct
  obtain ⟨v, hv, -, hdomain⟩ := hsame.find j u hu
  have hbefore := (Subscriptions.ends_of_unsubscribe _ id true (h.ready hreleased) j v u hv hu).1
    hactive
  have htook : a.signals.subscriptions.tookAfter (.unsubscribe id) a.took j = _ :=
    Subscriptions.tookAfter_of_active hu hv hactive
  rw [if_pos hbefore] at htook
  exact ⟨v, hv, hbefore, hdomain.symm, htook⟩

/-- **A request that meets the condition keeps the invariant.** -/
theorem Exact.step {a : Audit} (h : Exact a) {r : Request} (hreleased : Released a r) :
    Exact (a.step r) := by
  have hsame := Subscriptions.sameSignals_request h.distinct r
  constructor
  · rw [subscriptions_step]
    exact hsame.distinct h.distinct
  · exact proper_subscriptions _
  · rw [subscriptions_step]
    exact Subscriptions.tookNamed_tookAfter h.distinct h.named r
  · rw [subscriptions_step]
    cases r with
    | subscribe id => exact Subscriptions.countsExact_subscribe h.distinct h.proper h.counts id
    | unsubscribe id =>
        apply Subscriptions.CountsUpTo.congr (hsame.distinct h.distinct) _
          (Subscriptions.countsExact_unsubscribe _ id true (h.ready hreleased))
        intro j u hu hactive
        obtain ⟨v, -, -, -, htook⟩ := tookAfter_unsubscribe h hreleased hu hactive
        exact htook

/-- The nested calls of a ready call are ready. -/
theorem Calls.ready {c c' : LocalSignals} {id id' : String} {isExplicit isExplicit' : Bool}
    (hcalls : Calls c id isExplicit c' id' isExplicit') {took : Took} :
    c.subscriptions.Ready took id isExplicit →
      c'.subscriptions.Ready took id' isExplicit' := by
  induction hcalls with
  | self c id isExplicit => exact fun h => h
  | @nested c c' c'' id tableId id' isExplicit isExplicit' hnext hcalls ih =>
      intro hready
      apply ih
      rw [unsubscribeNext] at hnext
      cases hfind : c.findById id with
      | none =>
          rw [hfind] at hnext
          cases hnext
      | some e =>
          obtain ⟨k, entry⟩ := e
          rw [hfind] at hnext
          dsimp only at hnext
          by_cases hsub : (entry.dropSubscription isExplicit).isSubscribed = true
          · rw [if_pos hsub] at hnext
            cases hnext
          · rw [if_neg hsub] at hnext
            obtain ⟨tableId', hdomain, heq⟩ := Option.map_eq_some_iff.mp hnext
            obtain ⟨rfl, rfl⟩ := Prod.mk.inj heq
            rw [subscriptions_disconnect]
            have hfind' : c.subscriptions.findById id = some (k, entry.subscription) := by
              rw [findById_subscriptions, hfind, Option.map_some]
            apply hready.nested hfind' _ hdomain
            rw [← subscription_dropSubscription]
            exact Bool.eq_false_iff.mpr hsub

theorem Exact.noUnderflow {a : Audit} (h : Exact a) {r : Request} (hreleased : Released a r) :
    a.signals.NoUnderflow r := by
  cases r with
  | subscribe id => trivial
  | unsubscribe id =>
      intro c' tableId k entry hcalls hfind
      have hready := hcalls.ready (h.ready hreleased)
      apply hready.count_ne_zero (k := k) (s := entry.subscription)
      rw [findById_subscriptions, hfind, Option.map_some]

theorem Exact.noneStranded {a : Audit} (h : Exact a) {r : Request} (hreleased : Released a r) :
    NoneStranded a.signals (a.step r).signals := by
  intro d t t' ht hon ht' hoff j v hv hjd hactive hdomain
  have hnext := h.step hreleased
  have hd : OrderedMap.find? a.signals.subscriptions d = some t.subscription := by
    rw [find?_subscriptions, ht, Option.map_some]
  have hd' : OrderedMap.find? (a.step r).signals.subscriptions d = some t'.subscription := by
    rw [find?_subscriptions, ht', Option.map_some]
  have hj : OrderedMap.find? (a.step r).signals.subscriptions j = some v.subscription := by
    rw [find?_subscriptions, hv, Option.map_some]
  have hnames : ((a.step r).signals.subscriptions.domainOf v.subscription).map Prod.fst =
      some d := by
    rw [domainOf_subscriptions, Option.map_map]
    exact hdomain
  -- Whoever holds one on the signal keeps it subscribed.
  have hnotook : (a.step r).took j ≠ some d := by
    intro htook
    have hkept := Subscriptions.isActive_of_holds hnext.counts hj hjd hactive
      htook hd'
    rw [isActive_subscription, hoff] at hkept
    cases hkept
  rw [subscriptions_step] at hd' hj hnames
  cases r with
  | subscribe id =>
      have hkept := Subscriptions.isActive_subscribe h.distinct h.proper h.counts id hd hd' hon
      rw [isActive_subscription, hoff] at hkept
      cases hkept
  | unsubscribe id =>
      obtain ⟨u, hu, hbefore, hsamedomain, htook⟩ :=
        tookAfter_unsubscribe h hreleased hj hactive
      obtain ⟨k, s, hfind, hends⟩ := (Subscriptions.ends_of_unsubscribe _ id true
        (h.ready hreleased) d _ _ hd hd').2 hon hoff
      have hsame := Subscriptions.sameSignals_unsubscribe _ id true h.distinct
      rw [Subscriptions.request, hsame.domainOf hsamedomain.symm] at hnames
      apply hnotook
      rw [htook]
      exact (hreleased k s hfind d _ hends).2 j u hu hjd hbefore hnames

/-- At the beginning nobody is subscribed. -/
theorem exact_of_unsubscribed {c : LocalSignals} (hc : Distinct c.signals)
    (hnew : ∀ e ∈ c.signals, e.2.isSubscribed = false) : Exact ⟨c, fun _ => none⟩ := by
  constructor
  · exact distinct_subscriptions.mpr hc
  · exact proper_subscriptions c
  · intro k s _ _ d hd
    cases hd
  · intro k s hk
    have hholders : c.subscriptions.holders (fun _ => none) k = 0 := by
      apply List.countP_eq_zero.mpr
      intro e _
      simp [Subscriptions.holds]
    obtain ⟨e, he, heq⟩ := List.mem_map.mp (OrderedMap.mem_of_find?_eq_some hk)
    obtain ⟨-, rfl⟩ := Prod.mk.inj heq
    have hoff : e.2.subscription.isActive = false := hnew e he
    have hzero := (Subscription.isActive_eq_false.mp hoff).2
    rw [hholders, hzero, if_neg (by simp)]
    rfl

theorem signals_foldl_step (rs : List Request) :
    ∀ a : Audit, (rs.foldl Audit.step a).signals =
      rs.foldl (fun c r => (c.request r).1) a.signals := by
  induction rs with
  | nil => intro a; rfl
  | cons r rs ih => intro a; exact ih (a.step r)

theorem foldl_command (commands : List Command) :
    ∀ c : LocalSignals, commands.foldl (fun c command => (c.command command).1) c =
      (commands.flatMap Command.requests).foldl (fun c r => (c.request r).1) c := by
  induction commands with
  | nil => intro c; rfl
  | cons command commands ih =>
      intro c
      rw [List.foldl_cons, ih, List.flatMap_cons, List.foldl_append, command_fst]

/-- **Exact counts.**  In a run of commands on registered signals of which none
is subscribed at first, if each unsubscribe request meets the condition when
it comes, each request leaves the counts exact, takes nothing from a count of
zero and strands nobody. -/
theorem counts_exact_of_released (c : LocalSignals) (hc : Distinct c.signals)
    (hnew : ∀ e ∈ c.signals, e.2.isSubscribed = false) (commands : List Command)
    (hreleased : Meets Audit.step Released ⟨c, fun _ => none⟩
      (commands.flatMap Command.requests)) :
    commands.foldl (fun c command => (c.command command).1) c =
        ((commands.flatMap Command.requests).foldl Audit.step ⟨c, fun _ => none⟩).signals ∧
      Meets Audit.step Sound ⟨c, fun _ => none⟩ (commands.flatMap Command.requests) := by
  constructor
  · rw [foldl_command, signals_foldl_step]
  · apply Meets.law _ _ _ (exact_of_unsubscribed hc hnew) hreleased
    intro a r hexact hr
    have hnext := hexact.step hr
    exact ⟨hnext, countsHolders_of_exact hnext.counts, hexact.noUnderflow hr,
      hexact.noneStranded hr⟩

/-- A time signal and a signal that names it, registered and not subscribed. -/
def timeAndValue : LocalSignals :=
  let time := MetadataBuilder.build (MetadataBuilder.new "time") [.linearRule 0 1, .table "time"]
  let value := MetadataBuilder.build (MetadataBuilder.new "value")
    [.dataType "real64", .table "time"]
  ((({} : LocalSignals).addLocalSignal ⟨0, "time", time⟩).1.addLocalSignal ⟨1, "value", value⟩).1

theorem subscriptions_timeAndValue_subscribed :
    (timeAndValue.request (.subscribe "value")).1.subscriptions =
      [(1, ⟨"time", none, false, 1⟩), (2, ⟨"value", some "time", true, 0⟩)] := by
  decide +kernel

/-- What ends when the value signal is unsubscribed. -/
theorem ends_timeAndValue {j : UInt32} {u : Subscription}
    (h : Subscriptions.Ends
      [(1, ⟨"time", none, false, 1⟩), (2, ⟨"value", some "time", true, 0⟩)] 2 true j u) :
    (j, u) = (2, ⟨"value", some "time", true, 0⟩) ∨ (j, u) = (1, ⟨"time", none, false, 1⟩) := by
  induction h with
  | first hk hs =>
      left
      rw [show OrderedMap.find? _ (2 : UInt32) = some _ from rfl] at hk
      rw [← Option.some.inj hk]
  | table hj hd ht ih =>
      right
      rcases ih with heq | heq
      · obtain ⟨rfl, rfl⟩ := Prod.mk.inj heq
        exact (Option.some.inj hd).symm
      · obtain ⟨rfl, rfl⟩ := Prod.mk.inj heq
        cases hd

theorem counts_exact_subscribe_unsubscribe :
    (∀ e ∈ timeAndValue.signals, e.2.isSubscribed = false) ∧
      Meets Audit.step Sound ⟨timeAndValue, fun _ => none⟩
        [.subscribe "value", .unsubscribe "value"] := by
  have hnew : ∀ e ∈ timeAndValue.signals, e.2.isSubscribed = false := by decide +kernel
  have htook : timeAndValue.subscriptions.tookAfter (.subscribe "value") (fun _ => none) 2 =
      some 1 := by decide +kernel
  refine ⟨hnew, (counts_exact_of_released timeAndValue (by decide +kernel) hnew
    [.subscribe (.string "value"), .unsubscribe (.string "value")] ⟨trivial, ?_, trivial⟩).2⟩
  change (timeAndValue.request (.subscribe "value")).1.subscriptions.Released
    (timeAndValue.subscriptions.tookAfter (.subscribe "value") fun _ => none)
    (.unsubscribe "value")
  rw [subscriptions_timeAndValue_subscribed]
  intro k s hfind j u hends
  obtain ⟨rfl, rfl⟩ := Prod.mk.inj (Option.some.inj hfind)
  have hends := ends_timeAndValue hends
  constructor
  · intro d t hd
    rcases hends with heq | heq
    · obtain ⟨rfl, rfl⟩ := Prod.mk.inj heq
      obtain ⟨rfl, rfl⟩ := Prod.mk.inj (Option.some.inj hd)
      exact ⟨rfl, htook⟩
    · obtain ⟨rfl, rfl⟩ := Prod.mk.inj heq
      cases hd
  · intro i v hv hij _ hdomain
    have hmem := OrderedMap.mem_of_find?_eq_some hv
    rcases List.mem_cons.mp hmem with heq | hmem
    · obtain ⟨rfl, rfl⟩ := Prod.mk.inj heq
      cases hdomain
    · obtain ⟨rfl, rfl⟩ := Prod.mk.inj (List.mem_singleton.mp hmem)
      obtain rfl := Option.some.inj hdomain
      exact htook

/-- The law does not hold for every run: a request to unsubscribe a signal that
is not subscribed takes one from the count of its table, which is zero. -/
theorem unmatched_unsubscribe_underflows :
    (∀ e ∈ timeAndValue.signals, e.2.isSubscribed = false) ∧
      (timeAndValue.command (.unsubscribe (.string "value"))).1.subscriptions =
        [(1, ⟨"time", none, false, 4294967295⟩), (2, ⟨"value", some "time", false, 0⟩)] ∧
      ¬ Meets Audit.step Sound ⟨timeAndValue, fun _ => none⟩
        (Command.requests (.unsubscribe (.string "value"))) := by
  have hsubs : (timeAndValue.command (.unsubscribe (.string "value"))).1.subscriptions =
      [(1, ⟨"time", none, false, 4294967295⟩), (2, ⟨"value", some "time", false, 0⟩)] := by
    decide +kernel
  refine ⟨by decide +kernel, hsubs, ?_⟩
  intro hmeets
  have htime := find?_subscriptions (timeAndValue.command (.unsubscribe (.string "value"))).1 1
  rw [hsubs] at htime
  obtain ⟨entry, hentry, hcount⟩ := Option.map_eq_some_iff.mp htime.symm
  have hexact := hmeets.1.counts 1 entry hentry
  have hnone : (Audit.step ⟨timeAndValue, fun _ => none⟩ (.unsubscribe "value")).took =
      fun _ => none := by
    funext k
    change timeAndValue.subscriptions.tookAfter (.unsubscribe "value") (fun _ => none) k = none
    unfold Subscriptions.tookAfter
    split
    · split
      · split <;> rfl
      · rfl
    · rfl
  have hzero : entry.implicitSubscribeCount.toNat = 0 := by
    rw [hexact, hnone, List.countP_eq_zero]
    intro e _
    simp
  rw [show entry.implicitSubscribeCount = 4294967295 from congrArg Subscription.count hcount]
    at hzero
  revert hzero
  decide

end LocalSignals

end WsStreaming.Ports
