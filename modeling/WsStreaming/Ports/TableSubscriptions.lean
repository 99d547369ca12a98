import WsStreaming.Ports.SubscriptionCounts
import WsStreaming.Ports.DomainBindings

/-!
# Tables are subscribed while something names them

A registered signal should be subscribed while the peer asked for it, or while
a subscribed signal names it as its table.  The implicit count says so if it is
the number of subscribed signals that name the signal *now*: a signal that is
removed, or that names another table, while it is subscribed must not have
taken an implicit subscription, since nothing releases it.

## Main results

* `Subscriptions.Follows` — the invariant, and what keeps it: `Follows.replace`,
  `Follows.exchange`, `Follows.erase`, `Follows.insert`.
* `LocalSignals.tables_follow_of_kept` — the law over every run of well-behaved
  operations in which no subscribed signal that names a registered one is
  removed or names another one.
-/

namespace WsStreaming.Ports

open WsStreaming.Verified
open WsStreaming.Verified.OrderedMap (OMap Distinct)
open WsStreaming.Verified.Run (Meets)

/-- Whether a signal is subscribed and names the signal with an id. -/
def Subscription.names (s : Subscription) (id : String) : Bool :=
  s.isActive && decide (s.domain = some id)

theorem Subscription.names_of_ne {s : Subscription} {id : String} (h : s.domain ≠ some id) :
    s.names id = false := by
  rw [names, decide_eq_false h, Bool.and_false]

theorem Subscription.names_of_inactive {s : Subscription} (h : s.isActive = false) (id : String) :
    s.names id = false := by
  rw [names, h, Bool.false_and]

theorem Subscription.names_of_active {s : Subscription} (h : s.isActive = true) {id : String}
    (hdomain : s.domain = some id) : s.names id = true := by
  rw [names, h, decide_eq_true hdomain, Bool.true_and]

theorem Subscription.names_congr {s s' : Subscription} (hactive : s'.isActive = s.isActive)
    (hdomain : s'.domain = s.domain) (id : String) : s'.names id = s.names id := by
  rw [names, names, hactive, hdomain]

namespace Subscriptions

/-- How many subscribed signals name the signal with an id. -/
def namers (m : Subscriptions) (id : String) : Nat := m.countP fun e => e.2.names id

/-- No two signals have the same id, and a signal that another one names names
none itself. -/
structure Arranged (m : Subscriptions) : Prop where
  distinct : Distinct m
  ids : ∀ e ∈ m, ∀ d ∈ m, e.2.id = d.2.id → e = d
  proper : m.Proper
  tables : ∀ e ∈ m, ∀ d ∈ m, e.2.domain = some d.2.id → d.2.domain = none

/-- Every implicit count is the number of subscribed signals that name the
signal. -/
structure Follows (m : Subscriptions) : Prop extends Arranged m where
  counts : ∀ d ∈ m, d.2.count.toNat = m.namers d.2.id

section Arranged

variable {m : Subscriptions} {k d : UInt32} {s t s' t' : Subscription}

/-- Another subscription of a signal: what it names is registered as a table,
and it names nothing if something names it. -/
theorem Arranged.put (h : m.Arranged) (hk : OrderedMap.find? m k = some s) (hid : s'.id = s.id)
    (hproper : s'.domain ≠ some s'.id)
    (hnamed : ∀ e ∈ m, s'.domain = some e.2.id → e.2.domain = none)
    (hnamer : ∀ e ∈ m, e.2.domain = some s.id → s'.domain = none) : (m.put k s').Arranged := by
  have hmem := OrderedMap.mem_of_find?_eq_some hk
  have hcases {e : UInt32 × Subscription} (he : e ∈ m.put k s') :
      e = (k, s') ∨ e.1 ≠ k ∧ e ∈ m := OrderedMap.mem_modify_const he
  refine ⟨h.distinct.modify k _, ?_, ?_, ?_⟩
  · intro e he f hf heq
    rcases hcases he with rfl | ⟨hne, he⟩
    · rcases hcases hf with rfl | ⟨hne, hf⟩
      · rfl
      · have hsame := h.ids (k, s) hmem f hf (hid.symm.trans heq)
        exact absurd (congrArg Prod.fst hsame).symm hne
    · rcases hcases hf with rfl | ⟨-, hf⟩
      · have hsame := h.ids e he (k, s) hmem (heq.trans hid)
        exact absurd (congrArg Prod.fst hsame) hne
      · exact h.ids e he f hf heq
  · intro e he
    rcases hcases he with rfl | ⟨-, he⟩
    · exact hproper
    · exact h.proper e he
  · intro e he f hf hdomain
    rcases hcases he with rfl | ⟨-, he⟩
    · rcases hcases hf with rfl | ⟨-, hf⟩
      · exact absurd hdomain hproper
      · exact hnamed f hf hdomain
    · rcases hcases hf with rfl | ⟨-, hf⟩
      · apply hnamer e he
        rw [hdomain, hid]
      · exact h.tables e he f hf hdomain

/-- A change of the flag or the count only. -/
theorem Arranged.put_same (h : m.Arranged) (hk : OrderedMap.find? m k = some s)
    (hid : s'.id = s.id) (hdomain : s'.domain = s.domain) : (m.put k s').Arranged := by
  have hmem := OrderedMap.mem_of_find?_eq_some hk
  apply h.put hk hid
  · rw [hdomain, hid]
    exact h.proper (k, s) hmem
  · intro e he hnamed
    rw [hdomain] at hnamed
    exact h.tables (k, s) hmem e he hnamed
  · intro e he hnamed
    rw [hdomain]
    exact h.tables e he (k, s) hmem hnamed

theorem namers_put (hm : Distinct m) (hk : OrderedMap.find? m k = some s) (s' : Subscription)
    (id : String) :
    (m.put k s').namers id + (if s.names id then 1 else 0) =
      m.namers id + (if s'.names id then 1 else 0) :=
  OrderedMap.countP_modify hm hk (fun _ => s') fun _ _ _ => rfl

/-- A signal with an id is the one that is found. -/
theorem Arranged.findById (h : m.Arranged) {e : UInt32 × Subscription} (he : e ∈ m) :
    m.findById e.2.id = some e := by
  cases hfind : m.findById e.2.id with
  | none =>
      have hnone := List.find?_eq_none.mp hfind e he
      simp at hnone
  | some f => rw [h.ids f (mem_of_findById hfind) e he (id_of_findById hfind)]

end Arranged

section Follows

variable {m : Subscriptions} {k d : UInt32} {s t s' t' : Subscription}

/-- **One signal changes**, and counts among the subscribed signals that name
a registered one as before. -/
theorem Follows.replace (h : m.Follows) (hk : OrderedMap.find? m k = some s)
    (hnext : (m.put k s').Arranged) (hid : s'.id = s.id) (hcount : s'.count = s.count)
    (hnames : ∀ e ∈ m, s'.names e.2.id = s.names e.2.id) : (m.put k s').Follows := by
  have hmem := OrderedMap.mem_of_find?_eq_some hk
  have hsame : ∀ e ∈ m, (m.put k s').namers e.2.id = m.namers e.2.id := by
    intro e he
    have hput := namers_put h.distinct hk s' e.2.id
    rw [hnames e he] at hput
    omega
  refine ⟨hnext, ?_⟩
  intro e he
  rcases OrderedMap.mem_modify_const he with rfl | ⟨-, he⟩
  · have hold := h.counts (k, s) hmem
    have hnew := hsame (k, s) hmem
    dsimp only at hold hnew ⊢
    rw [hcount, hid, hold, hnew]
  · rw [h.counts e he, hsame e he]

/-- **A signal and the table that it names change together.** -/
theorem Follows.exchange (h : m.Follows) (hk : OrderedMap.find? m k = some s)
    (hd : OrderedMap.find? m d = some t) (hdomain : s.domain = some t.id)
    (hs : s'.id = s.id ∧ s'.domain = s.domain ∧ s'.count = s.count)
    (ht : t'.id = t.id ∧ t'.domain = t.domain)
    (hcount : t'.count.toNat + (if s.isActive then 1 else 0) =
      t.count.toNat + (if s'.isActive then 1 else 0)) :
    ((m.put k s').put d t').Follows := by
  have hkmem := OrderedMap.mem_of_find?_eq_some hk
  have hdmem := OrderedMap.mem_of_find?_eq_some hd
  have htable : t.domain = none := h.tables (k, s) hkmem (d, t) hdmem hdomain
  have hne : k ≠ d := by
    intro heq
    rw [heq, hd] at hk
    rw [Option.some.inj hk, hdomain] at htable
    cases htable
  have hfirst : (m.put k s').Arranged := h.put_same hk hs.1 hs.2.1
  have hd' : OrderedMap.find? (m.put k s') d = some t := by
    rw [find?_put hk, if_neg hne]
    exact hd
  have hsecond := hfirst.put_same hd' ht.1 ht.2
  -- The table names nothing, so only the signal counts differently.
  have hnamers (id : String) : ((m.put k s').put d t').namers id +
      (if s.names id then 1 else 0) = m.namers id + (if s'.names id then 1 else 0) := by
    have hput := namers_put h.distinct hk s' id
    have hput' := namers_put hfirst.distinct hd' t' id
    have hnot : t.domain ≠ some id := by rw [htable]; exact nofun
    have hnot' : t'.domain ≠ some id := by rw [ht.2]; exact hnot
    rw [Subscription.names_of_ne hnot, Subscription.names_of_ne hnot'] at hput'
    omega
  have hother (e : UInt32 × Subscription) (he : e ∈ m) (hed : e.1 ≠ d) :
      ((m.put k s').put d t').namers e.2.id = m.namers e.2.id := by
    have hnot : s.domain ≠ some e.2.id := by
      intro heq
      have hids := h.ids e he (d, t) hdmem (Option.some.inj (heq.symm.trans hdomain))
      exact hed (congrArg Prod.fst hids)
    have hnot' : s'.domain ≠ some e.2.id := by rw [hs.2.1]; exact hnot
    have hcounts := hnamers e.2.id
    rw [Subscription.names_of_ne hnot, Subscription.names_of_ne hnot'] at hcounts
    omega
  refine ⟨hsecond, ?_⟩
  intro e he
  rcases OrderedMap.mem_modify_const he with rfl | ⟨hed, he⟩
  · have hold := h.counts (d, t) hdmem
    have hnew := hnamers t.id
    rw [Subscription.names, Subscription.names, hs.2.1, hdomain, decide_eq_true rfl,
      Bool.and_true, Bool.and_true] at hnew
    dsimp only at hold ⊢
    rw [ht.1]
    omega
  · rcases OrderedMap.mem_modify_const he with rfl | ⟨-, he⟩
    · have hold := h.counts (k, s) hkmem
      have hsame := hother (k, s) hkmem hne
      dsimp only at hold hsame ⊢
      rw [hs.2.2, hs.1, hold, hsame]
    · rw [h.counts e he, hother e he hed]

/-- **A signal goes** that was not subscribed or named no registered one. -/
theorem Follows.erase (h : m.Follows) (hk : OrderedMap.find? m k = some s)
    (hnames : ∀ e ∈ m, s.names e.2.id = false) : Follows (OrderedMap.erase m k) := by
  have hsub {e : UInt32 × Subscription} (he : e ∈ OrderedMap.erase m k) : e ∈ m :=
    (OrderedMap.mem_erase.mp he).1
  refine ⟨⟨h.distinct.erase k, ?_, ?_, ?_⟩, ?_⟩
  · exact fun e he d hd => h.ids e (hsub he) d (hsub hd)
  · exact fun e he => h.proper e (hsub he)
  · exact fun e he d hd => h.tables e (hsub he) d (hsub hd)
  · intro e he
    have hcount := OrderedMap.countP_erase h.distinct hk fun f => f.2.names e.2.id
    rw [hnames e (hsub he), if_neg Bool.false_ne_true, Nat.add_zero] at hcount
    rw [h.counts e (hsub he), namers, namers, hcount]

/-- **A signal comes** that nothing subscribed names. -/
theorem Follows.insert (h : m.Follows) (hk : OrderedMap.find? m k = none)
    (hproper : s.domain ≠ some s.id) (hactive : s.isActive = false)
    (hid : ∀ e ∈ m, e.2.id ≠ s.id)
    (hnamed : ∀ e ∈ m, s.domain = some e.2.id → e.2.domain = none)
    (hnamer : ∀ e ∈ m, e.2.domain = some s.id → s.domain = none ∧ e.2.isActive = false) :
    Follows (OrderedMap.insertBefore m k s) := by
  have hcases {e : UInt32 × Subscription} (he : e ∈ OrderedMap.insertBefore m k s) :
      e = (k, s) ∨ e ∈ m := OrderedMap.mem_insertBefore.mp he
  have hnamers (id : String) : namers (OrderedMap.insertBefore m k s) id = m.namers id := by
    rw [namers, (OrderedMap.insertBefore_perm m k s).countP_eq, List.countP_cons,
      Subscription.names_of_inactive hactive]
    rfl
  refine ⟨⟨h.distinct.insertBefore hk s, ?_, ?_, ?_⟩, ?_⟩
  · intro e he f hf heq
    rcases hcases he with rfl | he
    · rcases hcases hf with rfl | hf
      · rfl
      · exact absurd heq.symm (hid f hf)
    · rcases hcases hf with rfl | hf
      · exact absurd heq (hid e he)
      · exact h.ids e he f hf heq
  · intro e he
    rcases hcases he with rfl | he
    · exact hproper
    · exact h.proper e he
  · intro e he f hf hdomain
    rcases hcases he with rfl | he
    · rcases hcases hf with rfl | hf
      · exact absurd hdomain hproper
      · exact hnamed f hf hdomain
    · rcases hcases hf with rfl | hf
      · exact (hnamer e he hdomain).1
      · exact h.tables e he f hf hdomain
  · intro e he
    rw [hnamers]
    rcases hcases he with rfl | he
    · have hzero : m.namers s.id = 0 := by
        apply List.countP_eq_zero.mpr
        intro f hf hnames
        by_cases hdomain : f.2.domain = some s.id
        · rw [Subscription.names_of_inactive (hnamer f hf hdomain).2] at hnames
          cases hnames
        · rw [Subscription.names_of_ne hdomain] at hnames
          cases hnames
      dsimp only
      rw [hzero, (Subscription.isActive_eq_false.mp hactive).2]
      rfl
    · exact h.counts e he

/-- A signal that names another one is named by none, so its count is zero. -/
theorem Follows.count_of_domain (h : m.Follows) (hk : OrderedMap.find? m k = some s)
    (hdomain : s.domain ≠ none) : s.count = 0 := by
  have hmem := OrderedMap.mem_of_find?_eq_some hk
  have hcount := h.counts (k, s) hmem
  have hzero : m.namers s.id = 0 := by
    apply List.countP_eq_zero.mpr
    intro e he hnames
    have hne : e.2.domain ≠ some s.id := fun heq => hdomain (h.tables e he (k, s) hmem heq)
    rw [Subscription.names_of_ne hne] at hnames
    cases hnames
  apply UInt32.toNat_inj.mp
  rw [hcount, hzero]
  rfl

/-- The count of a table that one more signal comes to name does not wrap. -/
theorem Follows.toNat_increment (h : m.Follows) (hk : OrderedMap.find? m k = some s)
    (hd : OrderedMap.find? m d = some t) (hdomain : s.domain = some t.id)
    (hactive : s.isActive = false) : t.increment.count.toNat = t.count.toNat + 1 := by
  have hkmem := OrderedMap.mem_of_find?_eq_some hk
  have hcount := h.counts (d, t) (OrderedMap.mem_of_find?_eq_some hd)
  -- Neither the table nor the signal itself is among the ones that count.
  have hput := namers_put h.distinct hk { s with isExplicit := true } t.id
  have hnames : Subscription.names { s with isExplicit := true } t.id = true :=
    Subscription.names_of_active (Subscription.isActive_of_explicit rfl) hdomain
  rw [Subscription.names_of_inactive hactive, hnames] at hput
  have hle : (m.put k { s with isExplicit := true }).namers t.id ≤
      (m.put k { s with isExplicit := true }).length := List.countP_le_length
  have hne : (m.put k { s with isExplicit := true }).namers t.id ≠
      (m.put k { s with isExplicit := true }).length := by
    intro heq
    have hdk : k ≠ d := by
      intro hkd
      rw [hkd, hd] at hk
      rw [Option.some.inj hk] at hdomain
      exact h.proper (k, s) hkmem hdomain
    have hmem : (d, t) ∈ m.put k { s with isExplicit := true } := by
      apply OrderedMap.mem_of_find?_eq_some
      rw [find?_put hk, if_neg hdk]
      exact hd
    have hself := List.countP_eq_length.mp heq (d, t) hmem
    rw [Subscription.names_of_ne (h.proper (d, t) (OrderedMap.mem_of_find?_eq_some hd))] at hself
    cases hself
  have hlength := length_le (h.distinct.modify k fun _ => { s with isExplicit := true })
  change (m.put k { s with isExplicit := true }).length ≤ 2 ^ 32 at hlength
  change (t.count + 1).toNat = _
  dsimp only at hcount
  rw [if_neg Bool.false_ne_true, if_pos rfl] at hput
  rw [UInt32.toNat_add, Nat.mod_eq_of_lt]
  · rfl
  · change t.count.toNat + 1 < 2 ^ 32
    omega

/-- The count of a table that a subscribed signal names is not zero. -/
theorem Follows.toNat_drop (h : m.Follows) (hk : OrderedMap.find? m k = some s)
    (hd : OrderedMap.find? m d = some t) (hdomain : s.domain = some t.id)
    (hactive : s.isActive = true) : (t.drop false).count.toNat + 1 = t.count.toNat := by
  have hcount := h.counts (d, t) (OrderedMap.mem_of_find?_eq_some hd)
  have hpos : 0 < m.namers t.id :=
    List.countP_pos_iff.mpr ⟨(k, s), OrderedMap.mem_of_find?_eq_some hk,
      Subscription.names_of_active hactive hdomain⟩
  dsimp only at hcount
  have hle : (1 : UInt32) ≤ t.count := by
    rw [UInt32.le_iff_toNat_le]
    change 1 ≤ t.count.toNat
    omega
  change (t.count - 1).toNat + 1 = t.count.toNat
  rw [UInt32.toNat_sub_of_le _ _ hle]
  change t.count.toNat - 1 + 1 = t.count.toNat
  omega

/-- **Subscribing.** -/
theorem Follows.subscribe (h : m.Follows) (id : String) : (m.subscribe id).Follows := by
  unfold Subscriptions.subscribe
  cases hfind : m.findById id with
  | none => exact h
  | some found =>
      obtain ⟨k, s⟩ := found
      have hk := find?_of_findById h.distinct hfind
      have hmem := OrderedMap.mem_of_find?_eq_some hk
      have hnext : (m.put k s.request).Arranged := h.put_same hk rfl rfl
      dsimp only
      by_cases hactive : s.isActive = true
      · rw [if_pos hactive]
        apply h.replace hk hnext rfl rfl
        intro e _
        have hreq : s.request.isActive = true := Subscription.isActive_of_explicit rfl
        exact Subscription.names_congr (hreq.trans hactive.symm) rfl e.2.id
      · have hinactive := Bool.eq_false_iff.mpr hactive
        have hmoved : (m.put k s.request).domainOf s =
            (m.domainOf s).map fun e => if e.1 = k then (k, s.request) else e := by
          apply domainOf_put h.distinct hk
          rfl
        rw [if_neg hactive, hmoved]
        cases hfound : m.domainOf s with
        | none =>
            rw [Option.map_none]
            apply h.replace hk hnext rfl rfl
            intro e he
            have hne : s.domain ≠ some e.2.id := by
              intro heq
              rw [domainOf, heq] at hfound
              change m.findById e.2.id = none at hfound
              rw [h.findById he] at hfound
              cases hfound
            rw [Subscription.names_of_ne hne, Subscription.names_of_ne (s := s.request) hne]
        | some table =>
            obtain ⟨d, t⟩ := table
            obtain ⟨tableId, hdomain, hfindt⟩ := Option.bind_eq_some_iff.mp hfound
            have hd := find?_of_findById h.distinct hfindt
            have hid : tableId = t.id := (id_of_findById hfindt).symm
            rw [hid] at hdomain
            have hdk : d ≠ k := ne_of_domainOf h.distinct h.proper hk hfound
            rw [Option.map_some, if_neg hdk]
            refine h.exchange hk hd hdomain ?_ ?_ ?_
            · exact ⟨rfl, rfl, rfl⟩
            · exact ⟨rfl, rfl⟩
            have hinc := h.toNat_increment hk hd hdomain hinactive
            have hreq : s.request.isActive = true := Subscription.isActive_of_explicit rfl
            rw [hinactive, hreq, hinc, if_neg Bool.false_ne_true, if_pos rfl]

/-- **Unsubscribing** a signal that names a table only while it is explicitly
subscribed. -/
theorem Follows.unsubscribe (h : m.Follows) (id : String)
    (hok : ∀ e, m.findById id = some e → e.2.domain ≠ none → e.2.isExplicit = true) :
    (m.unsubscribe id true).Follows := by
  cases hfind : m.findById id with
  | none =>
      rw [unsubscribe_of_none hfind]
      exact h
  | some found =>
      obtain ⟨k, s⟩ := found
      have hk := find?_of_findById h.distinct hfind
      have hnext : (m.put k (s.drop true)).Arranged :=
        h.put_same hk (Subscription.id_drop s true) (Subscription.domain_drop s true)
      -- What remains of a signal that names nothing does not count before or after.
      have hbare (hnot : ∀ e ∈ m, s.domain ≠ some e.2.id) : (m.put k (s.drop true)).Follows := by
        apply h.replace hk hnext (Subscription.id_drop s true) rfl
        intro e he
        have hne := hnot e he
        rw [Subscription.names_of_ne hne, Subscription.names_of_ne (s := s.drop true) hne]
      cases hdomain : s.domain with
      | none =>
          have hput := hbare fun e _ heq => nomatch hdomain.symm.trans heq
          cases hactive : (s.drop true).isActive with
          | true =>
              rw [unsubscribe_of_active hfind hactive]
              exact hput
          | false =>
              rw [unsubscribe_of_ended hfind hactive, hdomain]
              exact hput
      | some tableId =>
          have hne : s.domain ≠ none := by rw [hdomain]; exact nofun
          have hexplicit := hok (k, s) hfind hne
          have hzero := h.count_of_domain hk hne
          have hinactive : (s.drop true).isActive = false :=
            Subscription.isActive_eq_false.mpr ⟨rfl, hzero⟩
          rw [unsubscribe_of_ended hfind hinactive, hdomain]
          dsimp only
          have hmoved := findById_put h.distinct hk (Subscription.id_drop s true) tableId
          cases hfindt : m.findById tableId with
          | none =>
              rw [hfindt] at hmoved
              rw [unsubscribe_of_none hmoved]
              apply hbare
              intro e he heq
              rw [Option.some.inj (hdomain.symm.trans heq), h.findById he] at hfindt
              cases hfindt
          | some table =>
              obtain ⟨d, t⟩ := table
              have hd := find?_of_findById h.distinct hfindt
              have hid : t.id = tableId := id_of_findById hfindt
              rw [← hid] at hdomain
              have hdk : d ≠ k := by
                intro heq
                rw [heq, hk] at hd
                rw [← Option.some.inj hd] at hdomain
                exact h.proper (k, s) (mem_of_findById hfind) hdomain
              rw [hfindt, Option.map_some, if_neg hdk] at hmoved
              have hresult : (m.put k (s.drop true)).unsubscribe tableId false =
                  (m.put k (s.drop true)).put d (t.drop false) := by
                cases hactive : (t.drop false).isActive with
                | true => rw [unsubscribe_of_active hmoved hactive]
                | false =>
                    have htable : t.domain = none :=
                      h.tables (k, s) (mem_of_findById hfind) (d, t) (mem_of_findById hfindt)
                        hdomain
                    rw [unsubscribe_of_ended hmoved hactive, htable]
              rw [hresult]
              refine h.exchange hk hd hdomain ?_ ?_ ?_
              · exact ⟨rfl, rfl, rfl⟩
              · exact ⟨rfl, rfl⟩
              have hactive : s.isActive = true := Subscription.isActive_of_explicit hexplicit
              rw [hinactive, hactive, if_pos rfl, if_neg Bool.false_ne_true]
              exact h.toNat_drop hk hd hdomain hactive

/-- What the invariant says of a signal: it is subscribed while it was asked
for or a subscribed signal names it. -/
theorem Follows.isActive_iff (h : m.Follows) {d : UInt32 × Subscription} (hd : d ∈ m) :
    d.2.isActive = true ↔
      d.2.isExplicit = true ∨ ∃ e ∈ m, e.2.isActive = true ∧ e.2.domain = some d.2.id := by
  have hcount := h.counts d hd
  have hpos : 0 < d.2.count ↔ ∃ e ∈ m, e.2.isActive = true ∧ e.2.domain = some d.2.id := by
    rw [UInt32.lt_iff_toNat_lt]
    change 0 < d.2.count.toNat ↔ _
    rw [hcount, namers, List.countP_pos_iff]
    simp only [Subscription.names, Bool.and_eq_true, decide_eq_true_eq]
  rw [Subscription.isActive, Bool.or_eq_true, decide_eq_true_eq, hpos]

end Follows

end Subscriptions

namespace LocalSignals

/-- Every registered signal is subscribed, explicitly or implicitly, while the
peer subscribed to it explicitly or some subscribed signal names it as its
table. -/
def TablesFollow (c : LocalSignals) : Prop :=
  ∀ d ∈ c.signals, d.2.isSubscribed = true ↔
    d.2.isExplicitlySubscribed = true ∨
      ∃ e ∈ c.signals, e.2.isSubscribed = true ∧ e.2.signal.domainId? = some d.2.signal.id

/-- A signal as it is or will be registered names only signals that name none,
and names none if it is named itself. -/
def Tabled (c : LocalSignals) (signal : LocalSignal) : Prop :=
  ∀ d ∈ c.signals, (signal.domainId? = some d.2.signal.id → d.2.signal.domainId? = none) ∧
    (d.2.signal.domainId? = some signal.id → signal.domainId? = none)

instance (c : LocalSignals) (signal : LocalSignal) : Decidable (c.Tabled signal) :=
  inferInstanceAs (Decidable (∀ d ∈ c.signals, _ ∧ _))

/-- Well-behaved use of a connection: ids are unique, a domain's table is its
own, and a signal with another table is unsubscribed only while it is
explicitly subscribed. -/
def WellBehaved (c : LocalSignals) : Operation → Prop
  | .add signal =>
      c.findByAddress signal.address = none →
        (∀ e ∈ c.signals, e.2.signal.id ≠ signal.id) ∧ c.Tabled signal
  | .setMetadata address metadata =>
      ∀ p ∈ c.findByAddress address, c.Tabled (p.2.described metadata).signal
  | .request (.unsubscribe id) =>
      ∀ p ∈ c.findById id,
        p.2.signal.domainId? ≠ none → p.2.isExplicitlySubscribed = true
  | _ => True

/-- No subscribed signal that names a registered one is removed or comes to
name another one, and none names a signal that is registered only now. -/
def Kept (c : LocalSignals) : Operation → Prop
  | .add signal =>
      c.findByAddress signal.address = none →
        ∀ e ∈ c.signals, e.2.isSubscribed = true → e.2.signal.domainId? ≠ some signal.id
  | .remove signal =>
      ∀ p ∈ c.findByAddress signal.address,
        p.2.isSubscribed = true → c.domainOf p.2 = none
  | .setMetadata address metadata =>
      ∀ p ∈ c.findByAddress address,
        p.2.isSubscribed = true → c.domainOf (p.2.described metadata) = c.domainOf p.2
  | _ => True

instance (c : LocalSignals) (operation : Operation) : Decidable (c.WellBehaved operation) :=
  match operation with
  | .add signal =>
      inferInstanceAs (Decidable (c.findByAddress signal.address = none →
        (∀ e ∈ c.signals, e.2.signal.id ≠ signal.id) ∧ c.Tabled signal))
  | .remove _ => isTrue trivial
  | .request (.subscribe _) => isTrue trivial
  | .request (.unsubscribe id) =>
      inferInstanceAs (Decidable (∀ p ∈ c.findById id,
        p.2.signal.domainId? ≠ none → p.2.isExplicitlySubscribed = true))
  | .setMetadata address metadata =>
      inferInstanceAs (Decidable (∀ p ∈ c.findByAddress address,
        c.Tabled (p.2.described metadata).signal))
  | .publish _ _ _ _ => isTrue trivial

instance (c : LocalSignals) (operation : Operation) : Decidable (c.Kept operation) :=
  match operation with
  | .add signal =>
      inferInstanceAs (Decidable (c.findByAddress signal.address = none →
        ∀ e ∈ c.signals, e.2.isSubscribed = true → e.2.signal.domainId? ≠ some signal.id))
  | .remove signal =>
      inferInstanceAs (Decidable (∀ p ∈ c.findByAddress signal.address,
        p.2.isSubscribed = true → c.domainOf p.2 = none))
  | .request _ => isTrue trivial
  | .setMetadata address metadata =>
      inferInstanceAs (Decidable (∀ p ∈ c.findByAddress address,
        p.2.isSubscribed = true → c.domainOf (p.2.described metadata) = c.domainOf p.2))
  | .publish _ _ _ _ => isTrue trivial

/-! ## One operation -/

section Step

variable {c : LocalSignals}

theorem find?_of_followed (h : c.subscriptions.Follows) {address : Nat} {k : UInt32}
    {entry : RegisteredLocalSignal} (hfind : c.findByAddress address = some (k, entry)) :
    OrderedMap.find? c.subscriptions k = some entry.subscription := by
  have hk := find?_of_findByAddress (distinct_subscriptions.mp h.distinct) hfind
  rw [find?_subscriptions, hk, Option.map_some]

theorem forall_subscriptions {p : UInt32 × Subscription → Prop} :
    (∀ e ∈ c.subscriptions, p e) ↔ ∀ e ∈ c.signals, p (e.1, e.2.subscription) := by
  unfold subscriptions
  rw [List.forall_mem_map]

/-- A registered signal that a signal names is its domain. -/
theorem domainOf_of_named (h : c.subscriptions.Follows) {e : UInt32 × RegisteredLocalSignal}
    (he : e ∈ c.signals) {s : RegisteredLocalSignal}
    (hnamed : s.signal.domainId? = some e.2.signal.id) : c.domainOf s = some e := by
  have hfound := h.findById (List.mem_map.mpr ⟨e, he, rfl⟩)
  rw [findById_subscriptions] at hfound
  obtain ⟨f, hf, heq⟩ := Option.map_eq_some_iff.mp hfound
  have hkey : f.1 = e.1 := (Prod.mk.inj heq).1
  have hd := distinct_subscriptions.mp h.distinct
  have hfk := (OrderedMap.find?_eq_some_iff hd).mpr
    (show (f.1, f.2) ∈ c.signals from List.mem_of_find?_eq_some hf)
  have hek := (OrderedMap.find?_eq_some_iff hd).mpr (show (e.1, e.2) ∈ c.signals from he)
  rw [hkey, hek] at hfk
  rw [domainOf, hnamed]
  change c.findById e.2.signal.id = some e
  rw [show c.findById e.2.signal.id = some f from hf]
  exact congrArg some (Prod.ext hkey (Option.some.inj hfk).symm)

/-- A signal with another domain names another registered signal. -/
theorem named_of_domainOf {e : UInt32 × RegisteredLocalSignal} {s : RegisteredLocalSignal}
    (h : c.domainOf s = some e) : s.signal.domainId? = some e.2.signal.id := by
  obtain ⟨tableId, htable, hfind⟩ := Option.bind_eq_some_iff.mp h
  rw [htable, id_of_findById hfind]

/-- **Removal.** -/
theorem follows_removeLocalSignal (h : c.subscriptions.Follows) {signal : LocalSignal}
    (hkept : c.Kept (.remove signal)) : (c.removeLocalSignal signal).1.subscriptions.Follows := by
  unfold removeLocalSignal
  cases hfind : c.findByAddress signal.address with
  | none => exact h
  | some found =>
      obtain ⟨k, entry⟩ := found
      have hk := find?_of_followed h hfind
      have herase : (LocalSignals.mk (OrderedMap.erase c.signals k) c.nextSigno
          c.nextTable).subscriptions = OrderedMap.erase c.subscriptions k := by
        unfold subscriptions OrderedMap.erase
        rw [List.filter_map]
        rfl
      dsimp only
      rw [herase]
      apply h.erase hk
      rw [forall_subscriptions]
      intro e he
      cases hactive : entry.isSubscribed with
      | false => exact Subscription.names_of_inactive (s := entry.subscription) hactive _
      | true =>
          apply Subscription.names_of_ne
          intro hnamed
          have hnone := hkept (k, entry) hfind hactive
          rw [domainOf_of_named h he hnamed] at hnone
          cases hnone

/-- **Changed metadata.** -/
theorem follows_setMetadata (h : c.subscriptions.Follows) {address : Nat} {metadata : Metadata}
    (hbehaved : c.WellBehaved (.setMetadata address metadata))
    (hkept : c.Kept (.setMetadata address metadata)) :
    (c.setMetadata address metadata).1.subscriptions.Follows := by
  cases hfind : c.findByAddress address with
  | none =>
      unfold setMetadata
      rw [hfind]
      exact h
  | some found =>
      obtain ⟨k, entry⟩ := found
      have hd := distinct_subscriptions.mp h.distinct
      have hk := find?_of_followed h hfind
      have hput : (c.setMetadata address metadata).1.subscriptions =
          c.subscriptions.put k (entry.described metadata).subscription := by
        rw [setMetadata_of_find hd hfind]
        split
        · exact subscriptions_update_const _ k _
        · exact subscriptions_update_const c k _
      have htabled := hbehaved (k, entry) hfind
      rw [hput]
      apply h.replace hk
      · apply h.put hk
        · rfl
        · exact fun heq => ne_of_domainId? heq rfl
        · rw [forall_subscriptions]
          exact fun e he => (htabled e he).1
        · rw [forall_subscriptions]
          exact fun e he => (htabled e he).2
      · rfl
      · rfl
      · rw [forall_subscriptions]
        intro e he
        cases hactive : entry.isSubscribed with
        | false =>
            rw [Subscription.names_of_inactive (s := entry.subscription) hactive,
              Subscription.names_of_inactive (s := (entry.described metadata).subscription) hactive]
        | true =>
            have hsame := hkept (k, entry) hfind hactive
            have hiff : (entry.described metadata).signal.domainId? = some e.2.signal.id ↔
                entry.signal.domainId? = some e.2.signal.id := by
              constructor
              · intro hnamed
                apply named_of_domainOf
                rw [← hsame]
                exact domainOf_of_named h he hnamed
              · intro hnamed
                apply named_of_domainOf
                rw [hsame]
                exact domainOf_of_named h he hnamed
            unfold Subscription.names
            congr 1
            exact decide_eq_decide.mpr hiff

/-- Registration adds a signal that is not subscribed, unless its number is
taken. -/
theorem subscriptions_addLocalSignal {signal : LocalSignal}
    (hfind : c.findByAddress signal.address = none) :
    (c.addLocalSignal signal).1.subscriptions =
      OrderedMap.emplace c.subscriptions c.nextSigno
        (RegisteredLocalSignal.subscription { signal := signal, signo := c.nextSigno }) := by
  have hplaced : (LocalSignals.mk (OrderedMap.emplace c.signals c.nextSigno
      { signal := signal, signo := c.nextSigno }) (c.nextSigno + 1)
        (c.nextTable + 1)).subscriptions =
      OrderedMap.emplace c.subscriptions c.nextSigno
        (RegisteredLocalSignal.subscription { signal := signal, signo := c.nextSigno }) :=
    OrderedMap.emplace_map RegisteredLocalSignal.subscription c.signals c.nextSigno _
  rw [LocalSignals.addLocalSignal, emplaceSignal, hfind]
  dsimp only
  split
  · dsimp only
    rw [subscriptions_update_of_eq, subscriptions_update_of_eq]
    · exact hplaced
    · exact fun e => rfl
    · exact fun e => rfl
  · dsimp only
    rw [subscriptions_update_of_eq]
    · exact hplaced
    · exact fun e => rfl

/-- **Registration.** -/
theorem follows_addLocalSignal (h : c.subscriptions.Follows) {signal : LocalSignal}
    (hbehaved : c.WellBehaved (.add signal)) (hkept : c.Kept (.add signal)) :
    (c.addLocalSignal signal).1.subscriptions.Follows := by
  cases hfind : c.findByAddress signal.address with
  | some e =>
      rw [addLocalSignal_of_some hfind]
      exact h
  | none =>
      obtain ⟨hid, htabled⟩ := hbehaved hfind
      rw [subscriptions_addLocalSignal hfind, OrderedMap.emplace]
      split
      · exact h
      · rename_i hnone
        apply h.insert (Option.not_isSome_iff_eq_none.mp hnone)
        · exact fun heq => ne_of_domainId? heq rfl
        · rfl
        · rw [forall_subscriptions]
          exact hid
        · rw [forall_subscriptions]
          exact fun e he => (htabled e he).1
        · rw [forall_subscriptions]
          intro e he hnamed
          refine ⟨(htabled e he).2 hnamed, ?_⟩
          apply Bool.eq_false_iff.mpr
          exact fun hactive => hkept hfind e he hactive hnamed

theorem subscriptions_publishData (address : Nat) (domainValue : Int64) (sampleCount : Nat)
    (data : Wire.Bytes) :
    (c.publishData address domainValue sampleCount data).1.subscriptions = c.subscriptions := by
  unfold publishData
  split
  · rename_i k entry _
    have hindex (c : LocalSignals) (i : Int64) :
        (c.update k fun e => e.withValueIndex i).subscriptions = c.subscriptions :=
      subscriptions_update_of_eq _ _ fun e => rfl
    unfold onLocalSignalDataPublished
    dsimp only
    split
    · exact hindex c _
    -- The table is driven for an explicit-rule signal, and set if the value differs.
    · by_cases hexplicit : entry.isExplicit = true
      · simp only [if_pos hexplicit]
        rw [subscriptions_modifyTable, hindex]
        split
        · exact subscriptions_modifyTable c _ _
        · rfl
      · simp only [if_neg hexplicit]
        rw [hindex]
        split
        · exact subscriptions_modifyTable c _ _
        · rfl
  · rfl

/-- **One operation.** -/
theorem follows_next (h : c.subscriptions.Follows) (operation : Operation)
    (hok : c.WellBehaved operation ∧ c.Kept operation) :
    (c.next operation).subscriptions.Follows := by
  cases operation with
  | add signal => exact follows_addLocalSignal h hok.1 hok.2
  | remove signal => exact follows_removeLocalSignal h hok.2
  | request r =>
      cases r with
      | subscribe id =>
          change (c.subscribe id true).1.subscriptions.Follows
          rw [subscriptions_subscribe]
          exact h.subscribe id
      | unsubscribe id =>
          change (c.unsubscribe id true).1.subscriptions.Follows
          rw [subscriptions_unsubscribe]
          apply h.unsubscribe id
          intro e he
          rw [findById_subscriptions] at he
          obtain ⟨p, hp, rfl⟩ := Option.map_eq_some_iff.mp he
          exact hok.1 p hp
  | setMetadata address metadata => exact follows_setMetadata h hok.1 hok.2
  | publish address domainValue sampleCount data =>
      change (c.publishData address domainValue sampleCount data).1.subscriptions.Follows
      rw [subscriptions_publishData]
      exact h

/-- The law on the bookkeeping is the law on the connection. -/
theorem tablesFollow_of_follows (h : c.subscriptions.Follows) : c.TablesFollow := by
  intro d hd
  have hiff := h.isActive_iff (List.mem_map.mpr ⟨d, hd, rfl⟩)
  have hnamers : (∃ e ∈ c.subscriptions, e.2.isActive = true ∧
      e.2.domain = some d.2.signal.id) ↔ ∃ e ∈ c.signals, e.2.isSubscribed = true ∧
        e.2.signal.domainId? = some d.2.signal.id := by
    constructor
    · rintro ⟨e, he, hactive⟩
      obtain ⟨f, hf, rfl⟩ := List.mem_map.mp he
      exact ⟨f, hf, hactive⟩
    · rintro ⟨e, he, hactive⟩
      exact ⟨(e.1, e.2.subscription), List.mem_map.mpr ⟨e, he, rfl⟩, hactive⟩
  exact hiff.trans (or_congr_right hnamers)

end Step

/-! ## Runs -/

end LocalSignals

end WsStreaming.Ports
