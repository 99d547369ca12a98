import WsStreaming.Verified.Run
import WsStreaming.Ports.DomainLinks
import WsStreaming.Ports.LocalEntries
import WsStreaming.Ports.LocalNumbers

/-!
# Bindings of value signals to their domains

When a subscribed signal publishes, the connection updates the table of its
domain through a cached binding: a weak pointer to the table, and the number to
send the update under.  The binding is to be what a lookup of the signal's
current `tableId` would find.

It is refreshed when the signal's own subscription begins or its own metadata
changes, and not when the domain is registered, gets another rule, or changes
while nobody is subscribed to it.

## Main results

* `bindings_current_of_settled` — the law over all runs in which nothing like
  that happens to a signal that a connected one names.
* `late_domain_is_not_bound` — a run in which the domain is registered last.
-/

namespace WsStreaming.Ports

open WsStreaming.Verified
open WsStreaming.Verified.OrderedMap (OMap Distinct)
open WsStreaming.Verified.Run
open WsStreaming.Verified.Wire (Bytes)

/-- Whether the rule is linear. -/
def Metadata.isLinear (m : Metadata) : Bool := m.rule = linearRule

/-- A linear-rule signal has a table, and no other one has. -/
def RegisteredLocalSignal.InSync (e : RegisteredLocalSignal) : Prop :=
  e.table.isSome = e.signal.metadata.isLinear

instance (e : RegisteredLocalSignal) : Decidable e.InSync :=
  inferInstanceAs (Decidable (e.table.isSome = e.signal.metadata.isLinear))

namespace LocalSignals

/-! ## What is to hold -/

/-- The table and the number that publishing an entry uses for its domain. -/
def domainUse (c : LocalSignals) (e : RegisteredLocalSignal) :
    Option (Nat × LinearTable × UInt32) :=
  e.domainTable.bind fun a => (c.lock a).map fun t => (a, t, e.domainSigno)

/-- The registered linear-rule signal that a signal names. -/
def linearDomain (c : LocalSignals) (e : RegisteredLocalSignal) : Option RegisteredLocalSignal :=
  ((c.domainOf e).map Prod.snd).filter fun d => d.signal.metadata.isLinear

/-- What is used is the current table and number of that signal, and nothing
only if there is none. -/
structure DomainCurrent (c : LocalSignals) (e : RegisteredLocalSignal) : Prop where
  use : c.domainUse e =
    (c.linearDomain e).bind fun d => d.table.map fun t => (t.address, t.table, d.signo)
  none_iff : c.domainUse e = none ↔ c.linearDomain e = none

/-- The bindings of all connected signals are current. -/
def BindingsCurrent (c : LocalSignals) : Prop :=
  ∀ e ∈ c.signals, e.2.onDataPublished = true → c.DomainCurrent e.2

/-- No connected signal other than the one under a number names it. -/
def Unnamed (c : LocalSignals) (p : UInt32 × RegisteredLocalSignal) : Prop :=
  ∀ e ∈ c.signals, e.1 ≠ p.1 → e.2.onDataPublished = true → c.domainOf e.2 ≠ some p

instance (c : LocalSignals) (p : UInt32 × RegisteredLocalSignal) : Decidable (c.Unnamed p) :=
  inferInstanceAs (Decidable (∀ e ∈ c.signals, e.1 ≠ p.1 → e.2.onDataPublished = true →
    c.domainOf e.2 ≠ some p))

/-- Before a registration: the number is the largest, and a linear-rule signal
is not the first with an id that a connected signal names. -/
def SettledAdd (c : LocalSignals) (signal : LocalSignal) : Prop :=
  c.findByAddress signal.address = none →
    (∀ e ∈ c.signals, e.1 < c.nextSigno) ∧
    (signal.metadata.isLinear = true → c.findById signal.id = none →
      ∀ e ∈ c.signals, e.2.onDataPublished = true → e.2.signal.domainId? ≠ some signal.id)

/-- Before a removal: if a connected signal names the one that goes, there is
no other linear-rule signal with the id. -/
def SettledRemove (c : LocalSignals) (signal : LocalSignal) : Prop :=
  ∀ p ∈ c.findByAddress signal.address,
    c.Unnamed p ∨ ∀ e ∈ c.signals, e.1 ≠ p.1 → e.2.signal.id = p.2.signal.id →
      ¬ e.2.signal.metadata.isLinear = true

/-- Before a subscribe request that begins a subscription: the domain is in
sync if it is subscribed already, and what the domain names is if not. -/
def SettledSubscribe (c : LocalSignals) (id : String) : Prop :=
  ∀ p ∈ c.findById id, ¬ p.2.isSubscribed = true → ∀ d ∈ c.domainOf p.2,
    if d.2.isSubscribed then d.2.InSync else ∀ e ∈ c.domainOf d.2, e.2.InSync

/-- Before a change of metadata: if the signal is connected, what it names is
then in sync, and it does not get a linear rule while a connected signal names
it; if it is not, it neither gets nor loses one. -/
def SettledSetMetadata (c : LocalSignals) (address : Nat) (metadata : Metadata) : Prop :=
  ∀ p ∈ c.findByAddress address,
    if p.2.onMetadataChanged then
      (∀ d ∈ c.domainOf (p.2.described metadata), d.2.InSync) ∧
      (metadata.isLinear = true → ¬ p.2.signal.metadata.isLinear = true → c.Unnamed p)
    else metadata.isLinear ≠ p.2.signal.metadata.isLinear → c.Unnamed p

/-- Before an operation: nothing happens to a signal that a connected one names
which its binding would miss. -/
def Settled (c : LocalSignals) : Operation → Prop
  | .add signal => c.SettledAdd signal
  | .remove signal => c.SettledRemove signal
  | .request (.subscribe id) => c.SettledSubscribe id
  | .request (.unsubscribe _) => True
  | .setMetadata address metadata => c.SettledSetMetadata address metadata
  | .publish _ _ _ _ => True

instance (c : LocalSignals) (operation : Operation) : Decidable (c.Settled operation) :=
  match operation with
  | .add signal =>
      inferInstanceAs (Decidable (c.findByAddress signal.address = none →
        (∀ e ∈ c.signals, e.1 < c.nextSigno) ∧
        (signal.metadata.isLinear = true → c.findById signal.id = none →
          ∀ e ∈ c.signals, e.2.onDataPublished = true →
            e.2.signal.domainId? ≠ some signal.id)))
  | .remove signal =>
      inferInstanceAs (Decidable (∀ p ∈ c.findByAddress signal.address,
        c.Unnamed p ∨ ∀ e ∈ c.signals, e.1 ≠ p.1 → e.2.signal.id = p.2.signal.id →
          ¬ e.2.signal.metadata.isLinear = true))
  | .request (.subscribe id) =>
      inferInstanceAs (Decidable (∀ p ∈ c.findById id, ¬ p.2.isSubscribed = true →
        ∀ d ∈ c.domainOf p.2,
          if d.2.isSubscribed then d.2.InSync else ∀ e ∈ c.domainOf d.2, e.2.InSync))
  | .request (.unsubscribe _) => isTrue trivial
  | .setMetadata address metadata =>
      inferInstanceAs (Decidable (∀ p ∈ c.findByAddress address,
        if p.2.onMetadataChanged then
          (∀ d ∈ c.domainOf (p.2.described metadata), d.2.InSync) ∧
          (metadata.isLinear = true → ¬ p.2.signal.metadata.isLinear = true → c.Unnamed p)
        else metadata.isLinear ≠ p.2.signal.metadata.isLinear → c.Unnamed p))
  | .publish _ _ _ _ => isTrue trivial

end LocalSignals

/-! ## Links of registered signals -/

/-- What a registered signal says about tables. -/
def RegisteredLocalSignal.link (e : RegisteredLocalSignal) : Link :=
  { id := e.signal.id
    names := e.signal.domainId?
    linear := e.signal.metadata.isLinear
    signo := e.signo
    own := e.table.map TablePtr.address
    domainSigno := e.domainSigno
    domainTable := e.domainTable
    slot := e.onDataPublished
    proper := fun h => LocalSignals.ne_of_domainId? h rfl }

theorem RegisteredLocalSignal.inSync_link (e : RegisteredLocalSignal) :
    e.link.InSync ↔ e.InSync := by
  unfold Link.InSync InSync link
  dsimp only
  rw [Option.isSome_map]

namespace LocalSignals

/-- The links of the registered signals. -/
def links (c : LocalSignals) : Links := c.signals.map fun e => (e.1, e.2.link)

/-- The bindings are current and the two slots of each signal go together. -/
structure Linked (c : LocalSignals) : Prop where
  bound : c.links.WellBound c.nextTable
  slots : ∀ e ∈ c.signals, e.2.onMetadataChanged = e.2.onDataPublished

section Links

variable {c : LocalSignals} {k : UInt32} {entry : RegisteredLocalSignal}

theorem find?_links (c : LocalSignals) (k : UInt32) :
    OrderedMap.find? c.links k = (OrderedMap.find? c.signals k).map RegisteredLocalSignal.link :=
  OrderedMap.find?_map RegisteredLocalSignal.link c.signals k

theorem findById_links (c : LocalSignals) (id : String) :
    c.links.findById id = (c.findById id).map fun e => (e.1, e.2.link) := by
  unfold Links.findById links findById
  rw [List.find?_map]
  rfl

theorem domainOf_links (c : LocalSignals) (e : RegisteredLocalSignal) :
    c.links.domainOf e.link = (c.domainOf e).map fun e => (e.1, e.2.link) := by
  unfold Links.domainOf domainOf
  change e.signal.domainId?.bind c.links.findById = _
  cases e.signal.domainId? with
  | none => rfl
  | some id => exact findById_links c id

theorem Linked.distinct (h : c.Linked) : Distinct c.signals := by
  have hdistinct := h.bound.distinct
  rw [Distinct, links, List.map_map] at hdistinct
  exact hdistinct

theorem links_update_const (c : LocalSignals) (k : UInt32) (new : RegisteredLocalSignal) :
    (c.update k fun _ => new).links = OrderedMap.modify c.links k fun _ => new.link := by
  simp only [links, update, OrderedMap.modify, List.map_map]
  apply List.map_congr_left
  intro e _
  simp only [Function.comp_apply]
  split <;> rfl

theorem links_update_of_eq (c : LocalSignals) (k : UInt32)
    {f : RegisteredLocalSignal → RegisteredLocalSignal} (hf : ∀ e, (f e).link = e.link) :
    (c.update k f).links = c.links := by
  simp only [links, update, OrderedMap.modify, List.map_map]
  apply List.map_congr_left
  intro e _
  simp only [Function.comp_apply]
  split
  · rw [hf]
  · rfl

theorem links_modifyTable (c : LocalSignals) (address : Nat) (f : LinearTable → LinearTable) :
    (c.modifyTable address f).links = c.links := by
  simp only [links, modifyTable, List.map_map]
  apply List.map_congr_left
  intro e _
  have hown : (e.2.modifyTable address f).table.map TablePtr.address =
      e.2.table.map TablePtr.address := by
    unfold RegisteredLocalSignal.modifyTable
    dsimp only
    rw [Option.map_map]
    cases e.2.table with
    | none => rfl
    | some t =>
        simp only [Option.map_some, Function.comp_apply]
        split <;> rfl
  unfold Function.comp RegisteredLocalSignal.link
  dsimp only
  rw [hown]
  rfl

/-- The slots go together after a change of one entry. -/
theorem slots_update (h : ∀ e ∈ c.signals, e.2.onMetadataChanged = e.2.onDataPublished)
    (new : RegisteredLocalSignal) (hnew : new.onMetadataChanged = new.onDataPublished)
    (k : UInt32) :
    ∀ e ∈ (c.update k fun _ => new).signals, e.2.onMetadataChanged = e.2.onDataPublished := by
  intro e he
  rcases OrderedMap.mem_modify_const he with rfl | ⟨-, he⟩
  · exact hnew
  · exact h e he

/-! ## Current bindings -/

theorem lock_of_own (h : c.Linked) {e : UInt32 × RegisteredLocalSignal} (he : e ∈ c.signals)
    {t : TablePtr} (ht : e.2.table = some t) : c.lock t.address = some t.table := by
  have howns : ∀ e' ∈ c.signals, ∀ t', e'.2.table = some t' → t'.address = t.address → e' = e := by
    intro e' he' t' ht' haddress
    have hkey := h.bound.own_inj (e'.1, e'.2.link) (List.mem_map.mpr ⟨e', he', rfl⟩)
      (e.1, e.2.link) (List.mem_map.mpr ⟨e, he, rfl⟩) t.address
      (by change e'.2.table.map TablePtr.address = _; rw [ht', Option.map_some, haddress])
      (by change e.2.table.map TablePtr.address = _; rw [ht, Option.map_some])
    have hfind := (OrderedMap.find?_eq_some_iff h.distinct).mpr (show (e.1, e.2) ∈ _ from he)
    have hfind' := (OrderedMap.find?_eq_some_iff h.distinct).mpr (show (e'.1, e'.2) ∈ _ from he')
    rw [show e'.1 = e.1 from hkey, hfind] at hfind'
    exact Prod.ext hkey (Option.some.inj hfind').symm
  cases hlock : c.lock t.address with
  | none =>
      have hnone := List.findSome?_eq_none_iff.mp hlock e he
      rw [ht] at hnone
      simp at hnone
  | some table =>
      obtain ⟨e', he', hsome⟩ := List.exists_of_findSome?_eq_some hlock
      obtain ⟨t', ht', rfl⟩ := Option.map_eq_some_iff.mp hsome
      obtain ⟨ht', haddress⟩ := Option.filter_eq_some_iff.mp ht'
      have heq := howns e' he' t' ht' (of_decide_eq_true haddress)
      rw [heq, ht] at ht'
      rw [Option.some.inj ht']

theorem lock_of_dead {a : Nat} (h : ¬ c.links.Live a) : c.lock a = none := by
  apply List.findSome?_eq_none_iff.mpr
  intro e he
  rw [Option.map_eq_none_iff]
  cases ht : e.2.table with
  | none => rfl
  | some t =>
      rw [Option.filter_some, if_neg]
      intro haddress
      apply h
      refine ⟨(e.1, e.2.link), List.mem_map.mpr ⟨e, he, rfl⟩, ?_⟩
      change e.2.table.map TablePtr.address = some a
      rw [ht, Option.map_some, of_decide_eq_true haddress]

/-- **Linked signals are bound to what they name.** -/
theorem Linked.current (h : c.Linked) : c.BindingsCurrent := by
  intro e he hslot
  have hbound := h.bound.bound (e.1, e.2.link) (List.mem_map.mpr ⟨e, he, rfl⟩) hslot
  have hdomain := domainOf_links c e.2
  have hdead (hdead : c.links.Dead e.2.link) : c.domainUse e.2 = none := by
    unfold domainUse
    cases htable : e.2.domainTable with
    | none => rfl
    | some a =>
        change (c.lock a).map _ = none
        rw [lock_of_dead (hdead a htable)]
        rfl
  cases hfound : c.domainOf e.2 with
  | none =>
      rw [hfound, Option.map_none] at hdomain
      have huse := hdead ((Links.bound_of_none hdomain).mp hbound)
      have hnone : c.linearDomain e.2 = none := by
        unfold linearDomain
        rw [hfound]
        rfl
      constructor
      · rw [huse, hnone]
        rfl
      · exact iff_of_true huse hnone
  | some found =>
      obtain ⟨d, domain⟩ := found
      rw [hfound, Option.map_some] at hdomain
      by_cases hlinear : domain.signal.metadata.isLinear = true
      · obtain ⟨a, hown, htable, hsigno⟩ := (Links.bound_of_linear hdomain hlinear).mp hbound
        obtain ⟨t, ht, rfl⟩ := Option.map_eq_some_iff.mp
          (show domain.table.map TablePtr.address = some a from hown)
        have hmem : (d, domain) ∈ c.signals := by
          obtain ⟨tableId, -, hfind⟩ := Option.bind_eq_some_iff.mp hfound
          exact List.mem_of_find?_eq_some hfind
        have hsome : c.linearDomain e.2 = some domain := by
          unfold linearDomain
          rw [hfound, Option.map_some, Option.filter_some, if_pos hlinear]
        have huse : c.domainUse e.2 = some (t.address, t.table, domain.signo) := by
          unfold domainUse
          rw [show e.2.domainTable = some t.address from htable]
          change (c.lock t.address).map _ = _
          rw [lock_of_own h hmem ht, Option.map_some,
            show e.2.domainSigno = domain.signo from hsigno]
        constructor
        · rw [huse, hsome]
          change _ = domain.table.map _
          rw [ht]
          rfl
        · rw [huse, hsome]
          exact iff_of_false nofun nofun
      · have huse := hdead ((Links.bound_of_not_linear hdomain hlinear).mp hbound)
        have hnone : c.linearDomain e.2 = none := by
          unfold linearDomain
          rw [hfound, Option.map_some, Option.filter_some, if_neg hlinear]
        constructor
        · rw [huse, hnone]
          rfl
        · exact iff_of_true huse hnone

/-! ## One lemma for each operation -/

theorem link_of_find (hk : OrderedMap.find? c.signals k = some entry) :
    OrderedMap.find? c.links k = some entry.link := by
  rw [find?_links, hk, Option.map_some]

/-- A change of an entry that its link does not show. -/
theorem Linked.update_same (h : c.Linked) (hk : OrderedMap.find? c.signals k = some entry)
    {new : RegisteredLocalSignal} (hlink : new.link = entry.link)
    (hslots : new.onMetadataChanged = new.onDataPublished) :
    (c.update k fun _ => new).Linked := by
  refine ⟨?_, slots_update h.slots new hslots k⟩
  have hsame : (c.update k fun _ => new).links = c.links := by
    rw [links_update_const, hlink, links]
    simp only [OrderedMap.modify, List.map_map]
    apply List.map_congr_left
    intro e he
    simp only [Function.comp_apply]
    split
    · rename_i hkey
      have hfind := (OrderedMap.find?_eq_some_iff h.distinct).mpr (show (e.1, e.2) ∈ _ from he)
      rw [hkey, hk] at hfind
      rw [Option.some.inj hfind]
    · rfl
  rw [hsame]
  exact h.bound

/-- A signal is disconnected. -/
theorem Linked.disconnect (h : c.Linked) (hk : OrderedMap.find? c.signals k = some entry)
    (isExplicit : Bool) :
    (c.update k fun _ => (entry.dropSubscription isExplicit).disconnect).Linked := by
  have hlink : (entry.dropSubscription isExplicit).disconnect.link = entry.link.withSlot false := by
    cases isExplicit <;> rfl
  refine ⟨?_, slots_update h.slots _ rfl k⟩
  rw [links_update_const, hlink]
  exact h.bound.describe (link_of_find hk) (entry.link.withSlot false) rfl rfl rfl rfl rfl
    fun hne => absurd rfl hne

/-- **Unsubscribing.** -/
theorem Linked.unsubscribe (c : LocalSignals) (id : String) (isExplicit : Bool) :
    c.Linked → (c.unsubscribe id isExplicit).1.Linked := by
  induction c, id, isExplicit using unsubscribe_induction with
  | none c id isExplicit hfind =>
      intro h
      rw [unsubscribe_of_none hfind]
      exact h
  | subscribed c id isExplicit k entry hfind hsub =>
      intro h
      have hk := find?_of_findById h.distinct hfind
      have hslots := h.slots (k, entry) (OrderedMap.mem_of_find?_eq_some hk)
      rw [unsubscribe_of_subscribed hfind hsub]
      apply h.update_same hk
      · cases isExplicit <;> rfl
      · cases isExplicit <;> exact hslots
  | ended c id isExplicit k entry hfind hsub ih =>
      intro h
      have hnext := h.disconnect (find?_of_findById h.distinct hfind) isExplicit
      rw [unsubscribe_of_ended hfind hsub]
      cases htable : entry.signal.domainId? with
      | none => exact hnext
      | some tableId => exact ih tableId htable hnext

/-- The link of a refreshed entry. -/
theorem link_rebind (e : RegisteredLocalSignal) (fresh : Nat)
    (domain : Option RegisteredLocalSignal) :
    (e.rebind (e.refreshedTable fresh) domain).link =
      e.link.refresh fresh (domain.map RegisteredLocalSignal.link) := by
  have hown : (e.refreshedTable fresh).map TablePtr.address =
      if e.signal.metadata.isLinear then some ((e.table.map TablePtr.address).getD fresh)
      else none := by
    unfold RegisteredLocalSignal.refreshedTable Metadata.isLinear
    by_cases hlinear : e.signal.metadata.rule = linearRule
    · rw [if_pos hlinear, if_pos (decide_eq_true hlinear)]
      cases e.table <;> rfl
    · rw [if_neg hlinear, if_neg (by simpa using hlinear)]
      rfl
  have hsigno : (domain.map RegisteredLocalSignal.signo).getD 0 =
      ((domain.map RegisteredLocalSignal.link).map Link.signo).getD 0 := by
    cases domain <;> rfl
  have htable : (domain.bind fun d => d.table.map TablePtr.address) =
      (domain.map RegisteredLocalSignal.link).bind Link.own := by
    cases domain <;> rfl
  unfold RegisteredLocalSignal.link Link.refresh at *
  dsimp only at *
  rw [Link.mk.injEq]
  exact ⟨rfl, rfl, rfl, rfl, hown, hsigno, htable, rfl⟩

/-- The link of a subscription that has begun. -/
theorem link_openedTo (e : RegisteredLocalSignal) (isExplicit : Bool) (fresh : Nat)
    (domain : Option RegisteredLocalSignal) :
    (openedTo e isExplicit fresh domain).link =
      (e.link.refresh fresh (domain.map RegisteredLocalSignal.link)).withSlot true := by
  rw [← link_rebind]
  cases isExplicit <;> rfl

/-- A subscription begins. -/
theorem Linked.opens (h : c.Linked) (hk : OrderedMap.find? c.signals k = some entry)
    (isExplicit : Bool) (hdomain : ∀ d ∈ c.domainOf entry, d.2.InSync) :
    ((c.withNextTable (c.nextTable + 1)).update k fun _ => c.opened entry isExplicit).Linked := by
  refine ⟨?_, slots_update (c := c.withNextTable (c.nextTable + 1)) h.slots _ rfl k⟩
  have hfound : ((c.domainOf entry).map Prod.snd).map RegisteredLocalSignal.link =
      (c.links.domainOf entry.link).map Prod.snd := by
    rw [domainOf_links, Option.map_map, Option.map_map]
    rfl
  rw [links_update_const, opened, link_openedTo, hfound]
  apply h.bound.refresh (link_of_find hk) entry.link rfl rfl rfl
  · intro e he
    rw [domainOf_links] at he
    obtain ⟨d, hd, rfl⟩ := Option.map_eq_some_iff.mp he
    exact (RegisteredLocalSignal.inSync_link d.2).mpr (hdomain d hd)
  · exact fun hlinear hnot => absurd hlinear hnot

/-- **Subscribing.** -/
theorem Linked.subscribe (h : c.Linked) {id : String} (hok : c.SettledSubscribe id) :
    (c.subscribe id true).1.Linked := by
  have hd := h.distinct
  cases hfind : c.findById id with
  | none =>
      rw [subscribe_of_none hfind]
      exact h
  | some found =>
      obtain ⟨k, entry⟩ := found
      have hk := find?_of_findById hd hfind
      have hslots := h.slots (k, entry) (OrderedMap.mem_of_find?_eq_some hk)
      by_cases hsub : entry.isSubscribed = true
      · rw [subscribe_of_subscribed hfind hsub]
        exact h.update_same hk rfl hslots
      · have hok := hok (k, entry) hfind hsub
        cases hdomain : c.domainOf entry with
        | none =>
            rw [subscribe_begins hd hfind hsub hdomain]
            apply h.opens hk
            intro d hd
            rw [hdomain] at hd
            cases hd
        | some found =>
            obtain ⟨d, domain⟩ := found
            have hne := ne_of_domainOf hd hk hdomain
            obtain ⟨tableId, htable, hfound⟩ := Option.bind_eq_some_iff.mp hdomain
            have hdk := find?_of_findById hd hfound
            have hdslots := h.slots (d, domain) (OrderedMap.mem_of_find?_eq_some hdk)
            have hok := hok (d, domain) hdomain
            rw [subscribe_begins_with hd hfind hsub hdomain]
            -- First the domain, then the signal itself.
            have htaken : ((c.withNextTable (c.takenTable domain)).update d
                fun _ => c.taken domain).Linked ∧ (c.taken domain).InSync := by
              unfold taken takenTable
              dsimp only at hok
              by_cases hdsub : domain.isSubscribed = true
              · rw [if_pos hdsub] at hok
                rw [if_pos hdsub, if_pos hdsub]
                exact ⟨h.update_same hdk rfl hdslots, hok⟩
              · rw [if_neg hdsub] at hok
                rw [if_neg hdsub, if_neg hdsub]
                refine ⟨h.opens hdk false hok, ?_⟩
                rw [← RegisteredLocalSignal.inSync_link, opened, link_openedTo]
                exact domain.link.inSync_refresh c.nextTable
                  (((c.domainOf domain).map Prod.snd).map RegisteredLocalSignal.link)
            have hk' : OrderedMap.find? ((c.withNextTable (c.takenTable domain)).update d
                fun _ => c.taken domain).signals k = some entry := by
              rw [find?_update, if_neg hne]
              exact hk
            have hnamed : ((c.withNextTable (c.takenTable domain)).update d
                fun _ => c.taken domain).domainOf entry = some (d, c.taken domain) := by
              have hid : (c.taken domain).signal.id = domain.signal.id := by
                unfold taken
                split <;> rfl
              unfold domainOf
              rw [htable]
              change LocalSignals.findById _ tableId = _
              rw [findById_update (c := c.withNextTable (c.takenTable domain))
                (f := fun _ => c.taken domain) hd hdk hid]
              change (c.findById tableId).map _ = _
              rw [hfound, Option.map_some, if_pos rfl]
            have hopens := htaken.1.opens hk' true (by
              intro e he
              rw [hnamed] at he
              obtain rfl := Option.some.inj he
              exact htaken.2)
            unfold opened at hopens
            rw [hnamed] at hopens
            exact hopens

/-- **Changed metadata.** -/
theorem Linked.setMetadata (h : c.Linked) {address : Nat} {metadata : Metadata}
    (hok : c.SettledSetMetadata address metadata) :
    (c.setMetadata address metadata).1.Linked := by
  have hd := h.distinct
  cases hfind : c.findByAddress address with
  | none =>
      unfold LocalSignals.setMetadata
      rw [hfind]
      exact h
  | some found =>
      obtain ⟨k, entry⟩ := found
      have hk := find?_of_findByAddress hd hfind
      have hslots := h.slots (k, entry) (OrderedMap.mem_of_find?_eq_some hk)
      have hok := hok (k, entry) hfind
      have hunnamed (hu : c.Unnamed (k, entry)) :
          ∀ e ∈ c.links, e.1 ≠ k → e.2.slot = true →
            c.links.domainOf e.2 ≠ some (k, entry.link) := by
        intro e he hne hslot hfound
        obtain ⟨e', he', rfl⟩ := List.mem_map.mp he
        rw [domainOf_links] at hfound
        obtain ⟨p, hp, hlink⟩ := Option.map_eq_some_iff.mp hfound
        obtain ⟨tableId, -, hfindp⟩ := Option.bind_eq_some_iff.mp hp
        have hkey : p.1 = k := (Prod.mk.inj hlink).1
        have hpk := find?_of_findById hd (show c.findById tableId = some (p.1, p.2) from hfindp)
        rw [hkey, hk] at hpk
        apply hu e' he' hne hslot
        rw [hp, ← hkey, Option.some.inj hpk]
      rw [setMetadata_of_find hd hfind]
      dsimp only at hok
      by_cases hconnected : entry.onMetadataChanged = true
      · rw [if_pos hconnected] at hok ⊢
        refine ⟨?_, slots_update (c := c.withNextTable (c.nextTable + 1)) h.slots
          (c.changed entry metadata) hslots k⟩
        have hslot : entry.onDataPublished = true := hslots.symm.trans hconnected
        have hchanged : (c.changed entry metadata).link =
            ((entry.described metadata).link.refresh c.nextTable
              (((c.domainOf (entry.described metadata)).map Prod.snd).map
                RegisteredLocalSignal.link)).withSlot true := by
          rw [← link_rebind, ← hslot]
          rfl
        have hfound : ((c.domainOf (entry.described metadata)).map Prod.snd).map
            RegisteredLocalSignal.link =
              (c.links.domainOf (entry.described metadata).link).map Prod.snd := by
          rw [domainOf_links, Option.map_map, Option.map_map]
          rfl
        rw [links_update_const, hchanged, hfound]
        apply h.bound.refresh (link_of_find hk) (entry.described metadata).link rfl rfl rfl
        · intro e he
          rw [domainOf_links] at he
          obtain ⟨d, hd, rfl⟩ := Option.map_eq_some_iff.mp he
          exact (RegisteredLocalSignal.inSync_link d.2).mpr (hok.1 d hd)
        · exact fun hlinear hnot => hunnamed (hok.2 hlinear hnot)
      · rw [if_neg hconnected] at hok ⊢
        refine ⟨?_, slots_update h.slots (entry.described metadata) hslots k⟩
        have hslot : entry.onDataPublished = false := by
          rw [← hslots]
          exact Bool.eq_false_iff.mpr hconnected
        rw [links_update_const]
        apply h.bound.describe (link_of_find hk) (entry.described metadata).link rfl rfl rfl rfl
          hslot
        exact fun hne => hunnamed (hok hne)

/-- **Publishing** moves tables and changes no binding. -/
theorem Linked.publishData (h : c.Linked) (address : Nat) (domainValue : Int64)
    (sampleCount : Nat) (data : Bytes) :
    (c.publishData address domainValue sampleCount data).1.Linked := by
  have hmodify (c : LocalSignals) (a : Nat) (f : LinearTable → LinearTable) (hc : c.Linked) :
      (c.modifyTable a f).Linked := by
    refine ⟨?_, ?_⟩
    · rw [links_modifyTable]
      exact hc.bound
    · intro e he
      obtain ⟨e', he', rfl⟩ := List.mem_map.mp he
      exact hc.slots e' he'
  have hvalue (c : LocalSignals) (k : UInt32) (valueIndex : Int64) (hc : c.Linked) :
      (c.update k fun e => e.withValueIndex valueIndex).Linked := by
    refine ⟨?_, ?_⟩
    · rw [links_update_of_eq c k (f := fun e => e.withValueIndex valueIndex) fun _ => rfl]
      exact hc.bound
    · intro e he
      obtain ⟨e', he', rfl⟩ := List.mem_map.mp he
      split
      · exact hc.slots e' he'
      · exact hc.slots e' he'
  unfold LocalSignals.publishData
  split
  · unfold onLocalSignalDataPublished
    dsimp only
    split
    · exact hvalue c _ _ h
    · split
      · split
        · exact hmodify _ _ _ (hvalue _ _ _ (hmodify _ _ _ h))
        · exact hmodify _ _ _ (hvalue _ _ _ h)
      · split
        · exact hvalue _ _ _ (hmodify _ _ _ h)
        · exact hvalue _ _ _ h
  · exact h

/-- **Removal.** -/
theorem Linked.removeLocalSignal (h : c.Linked) {signal : LocalSignal}
    (hok : c.SettledRemove signal) : (c.removeLocalSignal signal).1.Linked := by
  have hd := h.distinct
  unfold LocalSignals.removeLocalSignal
  cases hfind : c.findByAddress signal.address with
  | none => exact h
  | some found =>
      obtain ⟨k, entry⟩ := found
      have hk := find?_of_findByAddress hd hfind
      have hlinks : LocalSignals.links { c with signals := OrderedMap.erase c.signals k } =
          OrderedMap.erase c.links k := by
        unfold links OrderedMap.erase
        rw [List.filter_map]
        rfl
      refine ⟨?_, fun e he => h.slots e (OrderedMap.mem_erase.mp he).1⟩
      dsimp only
      rw [hlinks]
      apply h.bound.erase (link_of_find hk)
      intro e he hne hslot hfound d hdmem hdne hid
      obtain ⟨e', he', rfl⟩ := List.mem_map.mp he
      obtain ⟨d', hd', rfl⟩ := List.mem_map.mp hdmem
      rcases hok (k, entry) hfind with hunnamed | hother
      · rw [domainOf_links] at hfound
        obtain ⟨p, hp, hlink⟩ := Option.map_eq_some_iff.mp hfound
        obtain ⟨tableId, -, hfindp⟩ := Option.bind_eq_some_iff.mp hp
        have hkey : p.1 = k := (Prod.mk.inj hlink).1
        have hpk := find?_of_findById hd (show c.findById tableId = some (p.1, p.2) from hfindp)
        rw [hkey, hk] at hpk
        exact absurd (by rw [hp, ← hkey, Option.some.inj hpk]) (hunnamed e' he' hne hslot)
      · exact hother d' hd' hdne hid

/-- The entry of a signal that is registered under the largest number. -/
theorem addLocalSignal_entry {signal : LocalSignal}
    (hfind : c.findByAddress signal.address = none) (hlast : ∀ e ∈ c.signals, e.1 < c.nextSigno) :
    ∃ new : RegisteredLocalSignal,
      (c.addLocalSignal signal).1.signals = c.signals ++ [(c.nextSigno, new)] ∧
      (c.addLocalSignal signal).1.nextTable = c.nextTable + 1 ∧ new.signal = signal ∧
      new.signo = c.nextSigno ∧ new.valueIndex = 0 ∧
      new.table = (if signal.metadata.rule = linearRule
        then some ⟨c.nextTable, .new signal.metadata⟩ else none) ∧
      new.onDataPublished = false ∧ new.onMetadataChanged = false ∧
      (new.domainTable = none ∨ ∃ p ∈ c.signals,
        new.domainTable = p.2.table.map TablePtr.address ∧ new.domainSigno = p.2.signo) := by
  have hne : ∀ e ∈ c.signals, e.1 ≠ c.nextSigno := by
    intro e he heq
    have hlt := hlast e he
    rw [heq] at hlt
    exact UInt32.lt_irrefl _ hlt
  have hnone : OrderedMap.find? c.signals c.nextSigno = none := by
    apply OrderedMap.find?_eq_none_iff.mpr
    intro hmem
    obtain ⟨e, he, heq⟩ := List.mem_map.mp hmem
    exact hne e he heq
  have hplaced : OrderedMap.emplace c.signals c.nextSigno
      ({ signal := signal, signo := c.nextSigno } : RegisteredLocalSignal) =
        c.signals ++ [(c.nextSigno, { signal := signal, signo := c.nextSigno })] := by
    unfold OrderedMap.emplace
    rw [hnone, Option.isSome_none, if_neg Bool.false_ne_true]
    apply OrderedMap.insertBefore_of_not_lt
    intro e he hlt
    exact UInt32.lt_irrefl _ (UInt32.lt_trans hlt (hlast e he))
  have hmodify (new : RegisteredLocalSignal) (f : RegisteredLocalSignal → RegisteredLocalSignal) :
      OrderedMap.modify (c.signals ++ [(c.nextSigno, new)]) c.nextSigno f =
        c.signals ++ [(c.nextSigno, f new)] := by
    unfold OrderedMap.modify
    rw [List.map_append, List.map_singleton, if_pos rfl]
    congr 1
    conv_rhs => rw [← List.map_id c.signals]
    apply List.map_congr_left
    intro e he
    rw [if_neg (hne e he)]
    rfl
  have hrule : (LocalSignals.update { c with
        signals := OrderedMap.emplace c.signals c.nextSigno
          { signal := signal, signo := c.nextSigno }
        nextSigno := c.nextSigno + 1
        nextTable := c.nextTable + 1 } c.nextSigno
        fun e => e.setRule signal.metadata c.nextTable).signals =
      c.signals ++ [(c.nextSigno, RegisteredLocalSignal.setRule
        { signal := signal, signo := c.nextSigno } signal.metadata c.nextTable)] := by
    unfold update
    dsimp only
    rw [hplaced, hmodify]
  rw [LocalSignals.addLocalSignal, emplaceSignal, hfind]
  dsimp only
  split
  · rename_i d domain hdomain
    refine ⟨RegisteredLocalSignal.bindTo
      (RegisteredLocalSignal.setRule { signal := signal, signo := c.nextSigno }
        signal.metadata c.nextTable) domain, ?_, rfl, rfl, rfl, rfl, rfl, rfl, rfl, .inr ?_⟩
    · dsimp only
      rw [update, hrule, hmodify]
    · obtain ⟨tableId, htable, hfound⟩ := Option.bind_eq_some_iff.mp hdomain
      have hmem := List.mem_of_find?_eq_some hfound
      rw [hrule] at hmem
      rcases List.mem_append.mp hmem with hmem | hmem
      · exact ⟨(d, domain), hmem, rfl, rfl⟩
      · -- The signal does not name itself.
        have hid : domain.signal.id = tableId := id_of_findById hfound
        rw [(Prod.mk.inj (List.mem_singleton.mp hmem)).2] at hid
        exact absurd hid (ne_of_domainId? htable)
  · exact ⟨RegisteredLocalSignal.setRule { signal := signal, signo := c.nextSigno }
      signal.metadata c.nextTable, hrule, rfl, rfl, rfl, rfl, rfl, rfl, rfl, .inl rfl⟩

/-- **Registration.** -/
theorem Linked.addLocalSignal (h : c.Linked) {signal : LocalSignal}
    (hok : c.SettledAdd signal) : (c.addLocalSignal signal).1.Linked := by
  have hd := h.distinct
  cases hfind : c.findByAddress signal.address with
  | some e =>
      rw [addLocalSignal_of_some hfind]
      exact h
  | none =>
      obtain ⟨hlast, hnamed⟩ := hok hfind
      obtain ⟨new, hsignals, hnext, hsignal, -, -, htable, hslot, hslot', hdomain⟩ :=
        addLocalSignal_entry hfind hlast
      have hkey : OrderedMap.find? c.links c.nextSigno = none := by
        rw [find?_links]
        have hnone : OrderedMap.find? c.signals c.nextSigno = none := by
          apply OrderedMap.find?_eq_none_iff.mpr
          intro hmem
          obtain ⟨e, he, heq⟩ := List.mem_map.mp hmem
          have hlt := hlast e he
          rw [heq] at hlt
          exact absurd hlt (UInt32.lt_irrefl _)
        rw [hnone]
        rfl
      have hlinks : (c.addLocalSignal signal).1.links = c.links ++ [(c.nextSigno, new.link)] := by
        unfold links
        rw [hsignals, List.map_append]
        rfl
      refine ⟨?_, ?_⟩
      · rw [hlinks, hnext]
        apply h.bound.insert hkey new.link hslot
        · intro a ha
          change new.table.map TablePtr.address = some a at ha
          rw [htable] at ha
          split at ha
          · exact (Option.some.inj ha).symm
          · cases ha
        · intro a ha
          rcases hdomain with hnone | ⟨p, hp, heq, -⟩
          · rw [show new.link.domainTable = none from hnone] at ha
            cases ha
          · have hown : p.2.link.own = some a := heq.symm.trans ha
            exact Nat.lt_succ_of_lt
              (h.bound.own_lt (p.1, p.2.link) (List.mem_map.mpr ⟨p, hp, rfl⟩) a hown)
        · intro hlinear hnone e he hs
          obtain ⟨e', he', rfl⟩ := List.mem_map.mp he
          have hid : new.link.id = signal.id := congrArg LocalSignal.id hsignal
          rw [hid] at hnone ⊢
          apply hnamed _ _ e' he' hs
          · rw [← hsignal]
            exact hlinear
          · rw [findById_links] at hnone
            exact Option.map_eq_none_iff.mp hnone
      · intro e he
        rw [hsignals] at he
        rcases List.mem_append.mp he with he | he
        · exact h.slots e he
        · rw [List.mem_singleton.mp he]
          exact hslot'.trans hslot.symm

/-- **One operation.** -/
theorem Linked.perform (h : c.Linked) (operation : Operation) (hok : c.Settled operation) :
    (c.perform operation).1.Linked := by
  cases operation with
  | add signal => exact h.addLocalSignal hok
  | remove signal => exact h.removeLocalSignal hok
  | request r =>
      cases r with
      | subscribe id => exact h.subscribe hok
      | unsubscribe id => exact Linked.unsubscribe c id true h
  | setMetadata address metadata => exact h.setMetadata hok
  | publish address domainValue sampleCount data =>
      exact h.publishData address domainValue sampleCount data

end Links

/-- The state after an operation. -/
def next (c : LocalSignals) (operation : Operation) : LocalSignals := (c.perform operation).1

/-- **Domain bindings stay current.**  Over any run of operations on a new
connection in which nothing happens to a signal that a connected one names
which its binding would miss: in every state reached, publishing a connected
signal uses the current table and number of the registered linear-rule signal
that it names, and none only if there is none. -/
theorem bindings_current_of_settled (operations : List Operation)
    (h : Meets next Settled {} operations) :
    Meets next (fun c operation => (c.next operation).BindingsCurrent) {} operations := by
  have hstart : Linked {} := by
    refine ⟨⟨List.nodup_nil, ?_, ?_, ?_, ?_, ?_⟩, ?_⟩
    all_goals exact fun _ he => nomatch he
  refine Meets.law ?_ operations _ hstart h
  intro c operation hc hok
  have hnext := hc.perform operation hok
  exact ⟨hnext, hnext.current⟩

/-- The law on a run that registers the domain first, and changes its metadata
while it is subscribed. -/
theorem bindings_current_domain_first :
    Meets next Settled {} [.add (timeSignal 0), .add (valueSignal 1),
        .request (.subscribe "value"), .setMetadata 0 (timeSignal 0).metadata,
        .publish 1 5 1 [1], .request (.unsubscribe "value")] ∧
      Meets next (fun c operation => (c.next operation).BindingsCurrent) {}
        [.add (timeSignal 0), .add (valueSignal 1), .request (.subscribe "value"),
          .setMetadata 0 (timeSignal 0).metadata, .publish 1 5 1 [1],
          .request (.unsubscribe "value")] := by
  have hsettled : Meets next Settled {} [.add (timeSignal 0), .add (valueSignal 1),
      .request (.subscribe "value"), .setMetadata 0 (timeSignal 0).metadata,
      .publish 1 5 1 [1], .request (.unsubscribe "value")] := by decide +kernel
  exact ⟨hsettled, bindings_current_of_settled _ hsettled⟩

/-- The bindings are not current in every run: a domain that is registered
after its value signal was subscribed is not bound, and what is published with
the value's data is not sent. -/
theorem late_domain_is_not_bound :
    ¬ Meets next (fun c operation => (c.next operation).BindingsCurrent) {}
      [.add (valueSignal 1), .request (.subscribe "value"), .add (timeSignal 0)] := by
  rintro ⟨-, -, hcurrent, -⟩
  generalize hs : ((next {} (.add (valueSignal 1))).next (.request (.subscribe "value"))).next
    (.add (timeSignal 0)) = s at hcurrent
  have hstate : s.signals.find? (fun e => e.2.signal.id = "value" && e.2.onDataPublished &&
      (s.domainUse e.2).isNone && (s.linearDomain e.2).isSome) ≠ none := by
    rw [← hs]
    decide +kernel
  obtain ⟨e, he⟩ := Option.ne_none_iff_exists'.mp hstate
  have hsome := List.find?_some he
  simp only [Bool.and_eq_true, decide_eq_true_eq] at hsome
  obtain ⟨⟨⟨-, hslot⟩, huse⟩, hdomain⟩ := hsome
  have hnone := (hcurrent e (List.mem_of_find?_eq_some he) hslot).none_iff.mp
    (Option.isNone_iff_eq_none.mp huse)
  rw [hnone] at hdomain
  cases hdomain

end LocalSignals

end WsStreaming.Ports
