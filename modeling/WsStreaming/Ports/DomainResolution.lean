import Mathlib.Data.String.Basic
import WsStreaming.Ports.Publishing

/-!
# Domain signals on both sides

A signal names the table that its domain values come from.  The publishing side
looks for the registered signal with that id.  The receiving side looks, in the
order of the ids, for the first remote signal whose linear table has that name,
and a table is named by the metadata of the signal that owns it.

Both find the same signal as long as the domain names its table by its own id,
has been described, and no signal with a smaller id has a table of that name.

## Main results

* `tableSought_of_least` — what the receiving side finds.
* `domains_resolve_of_resolving` — the law over all interleavings of requests
  and deliveries.
* `untabled_domain_unresolved` — a domain signal whose table has no name.
-/

namespace WsStreaming.Ports

open WsStreaming.Verified
open WsStreaming.Verified.OrderedMap (OMap Distinct)
open WsStreaming.Verified.Run (Meets MeetsOpt)
open WsStreaming.Verified.Fifo (Carries Channel Move Settles)

namespace RemoteSignals

/-! ## The order of the remote signals -/

section Order

variable {c : RemoteSignals}

theorem sorted_addRemoteSignal (h : OrderedMap.Sorted c.byId) (id : String) (hidden : Bool) :
    OrderedMap.Sorted (c.addRemoteSignal id hidden).1.byId := by
  unfold addRemoteSignal
  split
  · exact h
  · exact h.emplace id _

theorem sorted_announce (h : OrderedMap.Sorted c.byId) (id : String) :
    OrderedMap.Sorted (c.announce id).1.byId := by
  have hadded := sorted_addRemoteSignal h id false
  rcases announce_fst (c := c) id with heq | heq
  · rw [heq, unhide]
    dsimp only
    apply OrderedMap.Sorted.modify
    exact hadded
  · rw [heq]
    exact hadded

theorem sorted_withdraw (h : OrderedMap.Sorted c.byId) (id : String) :
    OrderedMap.Sorted (c.withdraw id).1.byId := by
  cases hfind : OrderedMap.find? c.byId id with
  | none =>
      rw [withdraw_of_none hfind]
      exact h
  | some e =>
      rw [withdraw_of_some hfind]
      dsimp only
      rw [(byId_onObject _ e.address RemoteSignal.detach).1]
      exact h.erase id

/-- **Every step keeps the order.** -/
theorem sorted_step (h : OrderedMap.Sorted c.byId) {i : Input}
    {r : RemoteSignals × List RemoteEvent} (hstep : c.step i = some r) :
    OrderedMap.Sorted r.1.byId := by
  rcases step_cases hstep with ⟨signo, params, rfl, -⟩ | ⟨signo, params, hr, -⟩ | ⟨hsame, -⟩ |
    ⟨params, rfl, -⟩ | ⟨params, rfl, -⟩ | ⟨rfl, -⟩
  · by_cases hid : subscribedId params = ""
    · rw [handleSubscribe, if_pos hid]
      exact h
    · rw [handleSubscribe_of_ne hid, (same_handleMetadata _ _ _ _).byId]
      exact sorted_addRemoteSignal h _ true
  · obtain ⟨c', hsame, hr⟩ := handleUnsubscribe_cases hr
    rw [hr]
    change OrderedMap.Sorted c'.byId
    rw [hsame.byId]
    exact h
  · rw [hsame.byId]
    exact h
  · exact forEach_invariant (p := fun c => OrderedMap.Sorted c.byId) _
      (fun _ id _ hc => sorted_announce hc id) c h
  · exact forEach_invariant (p := fun c => OrderedMap.Sorted c.byId) _
      (fun _ id _ hc => sorted_withdraw hc id) c h
  · rw [(clearRemoteSignals_empty c).1]
    exact List.Pairwise.nil

end Order

/-! ## Tables by name -/

section Names

variable {c : RemoteSignals} {tableId id : String}

theorem hasTable_iff : c.hasTable tableId id = true ↔
    ∃ t, c.tableOf id = some t ∧ t.table.id ≠ "" ∧ t.table.id = tableId := by
  unfold hasTable
  cases c.tableOf id with
  | none => simp
  | some t => simp

theorem mem_of_hasTable (h : c.hasTable tableId id = true) : id ∈ c.byId.map Prod.fst := by
  obtain ⟨t, ht, -⟩ := hasTable_iff.mp h
  obtain ⟨s, hs, -⟩ := Option.bind_eq_some_iff.mp ht
  obtain ⟨e, he, -⟩ := Option.bind_eq_some_iff.mp hs
  exact List.mem_map_of_mem (OrderedMap.mem_of_find?_eq_some he)

/-- **The signal that is found**: the one with the least id among those with a
table of this name. -/
theorem tableSought_of_least (h : OrderedMap.Sorted c.byId) (hid : c.hasTable tableId id = true)
    (hleast : ∀ j, c.hasTable tableId j = true → ¬ j < id) : c.tableSought tableId = some id :=
  h.find?_key (mem_of_hasTable hid) hid fun j _ => hleast j

end Names

end RemoteSignals

namespace Publishing

open LocalSignals (Act Deed FitsDeed registered)
open RemoteSignals (Changes Extends)

/-! ## What is to hold -/

/-- If a message is the `signal` message of a signal that is bound to the linear
table of the registered signal that it names, then once the peer has taken the
message, its signal is bound to the remote signal with the same id and to the
table of that signal. -/
def ResolvesAlike (r : RemoteSignals) (m : Sent) : Prop :=
  ∀ k params, m.message = .ofMetadata k "signal" params →
    ∀ e, OrderedMap.find? m.sender.signals k = some e →
      ∀ j d t, OrderedMap.find? m.sender.signals j = some d →
        e.signal.domainId? = some d.signal.id → d.table = some t →
          e.domainTable = some t.address →
            ∃ r' s a u, take r m = some r' ∧ r'.seen e.signal.id = some s ∧
              r'.addressOf d.signal.id = some a ∧ s.domainSignal = some a ∧
              r'.tableOf d.signal.id = some u ∧ s.domainTable = some u.address

/-- A signal has been described to the peer as one with a table, or is about to
be, since its subscription begins. -/
def Pictured (r : RemoteSignals) (beginning : List UInt32)
    (d : UInt32 × RegisteredLocalSignal) : Prop :=
  (r.tableOf d.2.signal.id).isSome = true ∨ d.1 ∈ beginning

/-- The peer will find the domain of a signal by the name of its table: the
signal has an id, its domain names its own table, the peer has that table, and
no table of this name whose owner has a smaller id. -/
def Resolves (c : LocalSignals) (r : RemoteSignals) (beginning : List UInt32)
    (e : RegisteredLocalSignal) : Prop :=
  ∀ d ∈ c.signals, e.signal.domainId? = some d.2.signal.id →
    d.2.signal.metadata.isLinear = true →
      e.signal.id ≠ "" ∧ d.2.signal.metadata.tableId = d.2.signal.id ∧
        Pictured r beginning d ∧
        ∀ x ∈ c.signals, Pictured r beginning x → x.2.signal.metadata.isLinear = true →
          x.2.signal.metadata.tableId = d.2.signal.id → x.2.signal.id ≠ "" →
            ¬ x.2.signal.id < d.2.signal.id

/-- The signals whose subscriptions begin when one is requested that is not
subscribed: itself, and its domain unless that is subscribed. -/
def beginning (c : LocalSignals) (p : UInt32 × RegisteredLocalSignal) : List UInt32 :=
  p.1 :: (((c.domainOf p.2).filter fun d => !d.2.isSubscribed).map Prod.fst).toList

/-- Before something happens, with what the peer will have when it has taken
everything: it is a request, and the domain of each signal whose subscription
begins will be found. -/
def Resolving (w : LocalSignals × RemoteSignals) : Act → Prop
  | .announce _ => True
  | .request (.subscribe id) =>
      ∀ p ∈ w.1.findById id, p.2.isSubscribed = false →
        Resolves w.1 w.2 (beginning w.1 p) p.2 ∧
          ∀ d ∈ w.1.domainOf p.2, d.2.isSubscribed = false → Resolves w.1 w.2 [d.1] d.2
  | .request (.unsubscribe _) => True
  | .setMetadata _ _ => False
  | .publish _ _ _ _ => False

instance (r : RemoteSignals) (beginning : List UInt32) (d : UInt32 × RegisteredLocalSignal) :
    Decidable (Pictured r beginning d) :=
  inferInstanceAs (Decidable (_ ∨ _))

instance (c : LocalSignals) (r : RemoteSignals) (beginning : List UInt32)
    (e : RegisteredLocalSignal) : Decidable (Resolves c r beginning e) :=
  inferInstanceAs (Decidable (∀ d ∈ c.signals, e.signal.domainId? = some d.2.signal.id →
    d.2.signal.metadata.isLinear = true →
      e.signal.id ≠ "" ∧ d.2.signal.metadata.tableId = d.2.signal.id ∧
        Pictured r beginning d ∧
        ∀ x ∈ c.signals, Pictured r beginning x → x.2.signal.metadata.isLinear = true →
          x.2.signal.metadata.tableId = d.2.signal.id → x.2.signal.id ≠ "" →
            ¬ x.2.signal.id < d.2.signal.id))

instance (w : LocalSignals × RemoteSignals) (i : Act) : Decidable (Resolving w i) :=
  match i with
  | .announce _ => isTrue trivial
  | .request (.subscribe id) =>
      inferInstanceAs (Decidable (∀ p ∈ w.1.findById id, p.2.isSubscribed = false →
        Resolves w.1 w.2 (beginning w.1 p) p.2 ∧
          ∀ d ∈ w.1.domainOf p.2, d.2.isSubscribed = false → Resolves w.1 w.2 [d.1] d.2))
  | .request (.unsubscribe _) => isTrue trivial
  | .setMetadata _ _ => isFalse id
  | .publish _ _ _ _ => isFalse id

/-! ## Signals that stay as they are -/

/-- The same signals under the same numbers. -/
def SameSignals (c c' : LocalSignals) : Prop :=
  ∀ k, (OrderedMap.find? c'.signals k).map RegisteredLocalSignal.signal =
    (OrderedMap.find? c.signals k).map RegisteredLocalSignal.signal

section Signals

variable {c c' c'' : LocalSignals} {k : UInt32} {e : RegisteredLocalSignal}

theorem SameSignals.refl (c : LocalSignals) : SameSignals c c := fun _ => rfl

theorem SameSignals.trans (h : SameSignals c c') (h' : SameSignals c' c'') : SameSignals c c'' :=
  fun k => (h' k).trans (h k)

theorem SameSignals.symm (h : SameSignals c c') : SameSignals c' c := fun k => (h k).symm

theorem SameSignals.find (h : SameSignals c c') (hk : OrderedMap.find? c'.signals k = some e) :
    ∃ d, OrderedMap.find? c.signals k = some d ∧ d.signal = e.signal := by
  have hsame := h k
  rw [hk] at hsame
  exact Option.map_eq_some_iff.mp hsame.symm

theorem sameSignals_put {n : Nat} {new : RegisteredLocalSignal}
    (hk : OrderedMap.find? c.signals k = some e) (hsignal : new.signal = e.signal) :
    SameSignals c ((c.withNextTable n).update k fun _ => new) := by
  intro j
  rw [LocalSignals.find?_put hk]
  by_cases hj : k = j
  · rw [if_pos hj, ← hj, hk, Option.map_some, Option.map_some, hsignal]
  · rw [if_neg hj]

theorem sameSignals_modifyTable (c : LocalSignals) (a : Nat) (f : LinearTable → LinearTable) :
    SameSignals c (c.modifyTable a f) := by
  intro j
  rw [LocalSignals.find?_modifyTable, Option.map_map]
  rfl

theorem sameSignals_drive (c : LocalSignals) (table : Option Nat) (index : Int64) :
    SameSignals c (c.drive table index) := by
  cases table with
  | none => exact .refl c
  | some a => exact sameSignals_modifyTable c a _

/-- Whether a deed is done to metadata. -/
def isMetadataDeed : Deed → Bool
  | .describes _ _ _ => true
  | .changes _ _ _ => true
  | _ => false

theorem signal_opened (c : LocalSignals) (e : RegisteredLocalSignal) (isExplicit : Bool) :
    (c.opened e isExplicit).signal = e.signal := by
  cases isExplicit <;> rfl

theorem sameSignals_doDeed (deed : Deed) (hfits : c.FitsDeed deed)
    (hdeed : isMetadataDeed deed = false) : SameSignals c (c.doDeed deed) := by
  cases deed with
  | announce ids => exact .refl c
  | book k e isExplicit count => exact sameSignals_put (n := c.nextTable) hfits rfl
  | opens k e isExplicit => exact sameSignals_put hfits (signal_opened c e isExplicit)
  | closes k e isExplicit count => exact sameSignals_put (n := c.nextTable) hfits rfl
  | describes k e m => cases hdeed
  | changes k e m => cases hdeed
  | sets e a p => exact sameSignals_modifyTable c a _
  | emits k e sampleCount data =>
      have hcounted : SameSignals c (c.update k fun _ =>
          e.withValueIndex (e.valueIndex + Int64.ofNat sampleCount)) :=
        sameSignals_put (n := c.nextTable) hfits.1 rfl
      exact hcounted.trans (sameSignals_drive _ _ _)

end Signals

/-! ## Names of tables -/

/-- A table of the peer is that of a linear-rule signal, and has the name that
its metadata give. -/
def Owns (c : LocalSignals) (i : String) (t : TablePtr) : Prop :=
  ∃ k e, OrderedMap.find? c.signals k = some e ∧ e.signal.id = i ∧ i ≠ "" ∧
    e.signal.metadata.isLinear = true ∧ t.table.id = e.signal.metadata.tableId

/-- Both sides, when everything that was sent is taken. -/
structure Named (c : LocalSignals) (r : RemoteSignals) : Prop where
  joined : Joined c r
  sorted : OrderedMap.Sorted r.byId
  owned : ∀ i t, r.tableOf i = some t → Owns c i t

section Names

variable {c c' : LocalSignals} {r r' : RemoteSignals} {k : UInt32} {e : RegisteredLocalSignal}

theorem Owns.of_same {i : String} {t t' : TablePtr} (h : Owns c i t) (hsame : SameSignals c c')
    (hname : t'.table.id = t.table.id) : Owns c' i t' := by
  obtain ⟨k, e, hk, hid, hne, hlinear, htable⟩ := h
  obtain ⟨e', hk', hsignal⟩ := hsame.symm.find hk
  rw [← hsignal] at hid hlinear htable
  exact ⟨k, e', hk', hid, hne, hlinear, hname.trans htable⟩

/-- The peer's tables have the names that they had. -/
theorem Named.of_names (h : Named c r) (hjoined : Joined c' r') (hsame : SameSignals c c')
    (hsorted : OrderedMap.Sorted r'.byId)
    (hnames : ∀ i t', r'.tableOf i = some t' →
      ∃ t, r.tableOf i = some t ∧ t'.table.id = t.table.id) : Named c' r' := by
  refine ⟨hjoined, hsorted, ?_⟩
  intro i t' ht'
  obtain ⟨t, ht, hname⟩ := hnames i t' ht'
  exact (h.owned i t ht).of_same hsame hname

/-- The table of a signal that has been described. -/
theorem Described.owned {s s' : RemoteSignal} {m : Metadata} (h : Described s m s')
    (hold : ∀ t, s.table = some t → t.table.id = m.tableId) {t : TablePtr}
    (ht : s'.table = some t) : m.isLinear = true ∧ t.table.id = m.tableId := by
  have htable := h.table
  rw [ht, Option.map_some] at htable
  split at htable
  · rename_i hrule
    refine ⟨decide_eq_true hrule, ?_⟩
    rw [Option.some.inj htable, LinearTable.id_update]
    split
    · rfl
    · rename_i hempty
      rw [not_not.mp hempty]
      cases hs : s.table with
      | none => rfl
      | some u =>
          change u.table.id = ""
          rw [hold u hs]
          exact not_not.mp hempty
  · cases htable

/-- Metadata that say what the table is named and whether there is one. -/
theorem isLinear_withValueIndex (m : Metadata) (i : Int64) :
    (Metadata.ofJson (m.withValueIndex i)).isLinear = m.isLinear := by
  unfold Metadata.isLinear
  rw [Metadata.rule_withValueIndex]

/-- **A subscription begins.** -/
theorem Named.opens (h : Named c r) (hk : OrderedMap.find? c.signals k = some e)
    (isExplicit : Bool) (hid : e.signal.id ≠ "") (i : Act) (sender : LocalSignals) :
    ∃ r₁ r' s', take r ⟨e.subscribeMessage, i, sender⟩ = some r₁ ∧
      take r₁ ⟨e.signalMessage, i, sender⟩ = some r' ∧ Changes r r' e.signal.id s' ∧ r'.Bound s' ∧
      Described (admitted r e.signal.id k)
        (.ofJson (e.signal.metadata.withValueIndex e.valueIndex)) s' ∧
      Named (c.doDeed (.opens k e isExplicit)) r' := by
  obtain ⟨r₁, r', s', events₁, events, hfirst, hsecond, -, hchanges, hbound, hdescribed, hjoined⟩ :=
    h.joined.opens hk isExplicit hid
  refine ⟨r₁, r', s', take_of_step hfirst, take_of_step hsecond, hchanges, hbound, hdescribed,
    hjoined, RemoteSignals.sorted_step (RemoteSignals.sorted_step h.sorted hfirst) hsecond, ?_⟩
  have hsame : SameSignals c (c.doDeed (.opens k e isExplicit)) :=
    sameSignals_doDeed (.opens k e isExplicit) hk rfl
  intro i t ht
  refine Owns.of_same ?_ hsame rfl
  unfold RemoteSignals.tableOf at ht
  rw [hchanges.seen] at ht
  by_cases hi : e.signal.id = i
  · rw [if_pos hi] at ht
    have hname := hdescribed.owned (t := t) ?_ ht
    · rw [isLinear_withValueIndex, Metadata.tableId_withValueIndex] at hname
      exact ⟨k, e, hk, hi, hi ▸ hid, hname.1, hname.2⟩
    · intro u hu
      rw [table_admitted] at hu
      obtain ⟨j, d, hj, hd, -, -, hname⟩ := h.owned _ u hu
      obtain rfl := h.joined.registered.ids k e j d hk hj hd.symm
      rw [hk] at hj
      rw [hname, Metadata.tableId_withValueIndex, Option.some.inj hj]
  · rw [if_neg hi] at ht
    exact h.owned i t ht

/-- The table of a signal that names its own table. -/
theorem Named.hasTable (h : Named c r) {j : UInt32} {d : RegisteredLocalSignal}
    (hj : OrderedMap.find? c.signals j = some d)
    (htableId : d.signal.metadata.tableId = d.signal.id)
    (hsome : (r.tableOf d.signal.id).isSome = true) :
    r.hasTable d.signal.id d.signal.id = true := by
  obtain ⟨u, hu⟩ := Option.isSome_iff_exists.mp hsome
  obtain ⟨j', d', hj', hid, hne, -, hname⟩ := h.owned _ u hu
  obtain rfl := h.joined.registered.ids j d j' d' hj hj' hid.symm
  rw [hj] at hj'
  obtain rfl := Option.some.inj hj'
  have hown : u.table.id = d.signal.id := hname.trans htableId
  exact RemoteSignals.hasTable_iff.mpr ⟨u, hu, by rw [hown]; exact hne, hown⟩

/-- **What is bound** when the peer finds the domain. -/
theorem bound_of_sought {s' : RemoteSignal} {id : String} (hbound : r'.Bound s')
    (hsought : s'.soughtId? = some id) (hne : id ≠ s'.id) (hfound : r'.tableSought id = some id)
    (hhas : r'.hasTable id id = true) :
    ∃ a u, r'.addressOf id = some a ∧ s'.domainSignal = some a ∧ r'.tableOf id = some u ∧
      s'.domainTable = some u.address := by
  obtain ⟨u, hu, -⟩ := RemoteSignals.hasTable_iff.mp hhas
  obtain ⟨s, hs, -⟩ := Option.bind_eq_some_iff.mp hu
  obtain ⟨entry, hentry, -⟩ := Option.bind_eq_some_iff.mp hs
  have haddress : r'.addressOf id = some entry.address := by
    unfold RemoteSignals.addressOf
    rw [hentry]
    rfl
  have hdomain : r'.domainSought s' = some id := by
    unfold RemoteSignals.domainSought
    rw [hsought, Option.bind_some, hfound]
    exact Option.filter_some_pos (decide_eq_true hne)
  refine ⟨entry.address, u, haddress, ?_, hu, ?_⟩
  · rw [hbound.domainSignal, hdomain, Option.bind_some, haddress]
  · rw [hbound.domainTable, hdomain, Option.bind_some, hu]
    rfl

/-- What a described signal seeks is what the signal names. -/
theorem soughtId?_described {s s' : RemoteSignal} {i : Int64}
    (h : Described s (.ofJson (e.signal.metadata.withValueIndex i)) s')
    (hid : s'.id = e.signal.id) : s'.soughtId? = e.signal.domainId? := by
  unfold RemoteSignal.soughtId? LocalSignal.domainId?
  rw [h.metadata, Metadata.tableId_withValueIndex, hid]

/-- Tables of which the peer is told while the subscription of one signal
begins. -/
theorem pictured_of_changes {s' : RemoteSignal} (h : Joined c r)
    (hchanges : Changes r r' e.signal.id s') (hk : OrderedMap.find? c.signals k = some e)
    {j : UInt32} {x : RegisteredLocalSignal} (hj : OrderedMap.find? c.signals j = some x)
    (hsome : (r'.tableOf x.signal.id).isSome = true) : Pictured r [k] (j, x) := by
  by_cases hid : e.signal.id = x.signal.id
  · exact .inr (List.mem_singleton.mpr (h.registered.ids k e j x hk hj hid).symm)
  · have hsame : r'.tableOf x.signal.id = r.tableOf x.signal.id := by
      unfold RemoteSignals.tableOf
      rw [hchanges.other hid]
    rw [hsame] at hsome
    exact .inl hsome

/-- **The domain of a signal whose subscription begins.** -/
theorem resolved_opens (h : Named c r) (hk : OrderedMap.find? c.signals k = some e)
    (hresolves : Resolves c r [k] e) {s' : RemoteSignal} (hsame : SameSignals c c')
    (hnamed : Named c' r') (hchanges : Changes r r' e.signal.id s') (hbound : r'.Bound s')
    {old : RemoteSignal} {index : Int64}
    (hdescribed : Described old (.ofJson (e.signal.metadata.withValueIndex index)) s')
    {j : UInt32} {d : RegisteredLocalSignal} (hj : OrderedMap.find? c.signals j = some d)
    (hdomain : e.signal.domainId? = some d.signal.id)
    (hlinear : d.signal.metadata.isLinear = true) :
    ∃ a u, r'.addressOf d.signal.id = some a ∧ s'.domainSignal = some a ∧
      r'.tableOf d.signal.id = some u ∧ s'.domainTable = some u.address := by
  have hmem {i : UInt32} {x : RegisteredLocalSignal}
      (hi : OrderedMap.find? c.signals i = some x) : (i, x) ∈ c.signals :=
    (OrderedMap.find?_eq_some_iff h.joined.registered.distinct).mp hi
  obtain ⟨-, htableId, hpictured, hleast⟩ := hresolves (j, d) (hmem hj) hdomain hlinear
  have hne : e.signal.id ≠ d.signal.id := LocalSignals.ne_of_domainId? hdomain
  have hid : s'.id = e.signal.id :=
    RemoteSignals.id_of_seen hnamed.joined.reliable.wellFormed hchanges.self
  -- The peer has the table of the domain already.
  have hsome : (r'.tableOf d.signal.id).isSome = true := by
    rcases hpictured with hsome | hbeginning
    · unfold RemoteSignals.tableOf
      rw [hchanges.other hne]
      exact hsome
    · obtain rfl := List.mem_singleton.mp hbeginning
      rw [hk] at hj
      rw [Option.some.inj hj] at hne
      exact absurd rfl hne
  have hhas : r'.hasTable d.signal.id d.signal.id = true := by
    obtain ⟨d', hj', hsignal⟩ := hsame.symm.find hj
    rw [← hsignal] at htableId hsome ⊢
    exact hnamed.hasTable hj' htableId hsome
  apply bound_of_sought hbound ?_ (by rw [hid]; exact hne.symm) ?_ hhas
  · rw [soughtId?_described hdescribed hid, hdomain]
  -- Any other table of this name belongs to a larger id.
  · apply RemoteSignals.tableSought_of_least hnamed.sorted hhas
    intro i hi
    obtain ⟨t, ht, -, hname⟩ := RemoteSignals.hasTable_iff.mp hi
    obtain ⟨jx, x', hjx', rfl, hnex, hlinearx, hnamex⟩ := hnamed.owned i t ht
    obtain ⟨x, hjx, hsignal⟩ := hsame.find hjx'
    rw [← hsignal] at ht hnex hlinearx hnamex ⊢
    exact hleast (jx, x) (hmem hjx)
      (pictured_of_changes h.joined hchanges hk hjx (Option.isSome_iff_exists.mpr ⟨t, ht⟩)) hlinearx
      (hnamex.symm.trans hname) hnex

end Names

/-! ## Deeds -/

section Deeds

variable {c sender : LocalSignals} {r : RemoteSignals} {k : UInt32} {e : RegisteredLocalSignal}

/-- Any other message says nothing about a domain. -/
theorem resolvesAlike_of_ne {m : Sent}
    (h : ∀ k params, m.message ≠ .ofMetadata k "signal" params) : ResolvesAlike r m :=
  fun k params hm => absurd hm (h k params)

/-- The `signal` message of a signal that a deed describes. -/
theorem resolvesAlike_signal {m : Sent} {params : Json} {i : UInt32}
    (hm : m.message = .ofMetadata i "signal" params) (hi : i = k)
    (hsame : SameSignals c m.sender) (hregistered : m.sender.Registered)
    (hk : OrderedMap.find? c.signals k = some e)
    (h : ∀ j d, OrderedMap.find? c.signals j = some d → e.signal.domainId? = some d.signal.id →
      d.signal.metadata.isLinear = true →
        ∃ r' s a u, take r m = some r' ∧ r'.seen e.signal.id = some s ∧
          r'.addressOf d.signal.id = some a ∧ s.domainSignal = some a ∧
          r'.tableOf d.signal.id = some u ∧ s.domainTable = some u.address) :
    ResolvesAlike r m := by
  intro k' params' heq e' he' j d' t hj hdomain ht _
  rw [← signo_of_signal (hm.symm.trans heq), hi] at he'
  have hlinear : d'.signal.metadata.isLinear = true := by
    have hsync : d'.table.isSome = d'.signal.metadata.isLinear :=
      hregistered.inSync j d' hj
    rw [← hsync, ht]
    rfl
  obtain ⟨e₀, he₀, hsignal⟩ := hsame.find he'
  rw [hk] at he₀
  rw [← Option.some.inj he₀] at hsignal
  obtain ⟨d, hd, hsignal'⟩ := hsame.find hj
  rw [← hsignal, ← hsignal'] at hdomain
  rw [← hsignal'] at hlinear
  rw [← hsignal, ← hsignal']
  exact h j d hd hdomain hlinear

/-- **A subscription begins**, and the peer finds the domain. -/
theorem Named.begins (h : Named c r) (hk : OrderedMap.find? c.signals k = some e)
    (isExplicit : Bool) (hresolves : Resolves c r [k] e) (i : Act) (hsame : SameSignals c sender)
    (hregistered : sender.Registered) :
    ∃ r', Carries take ResolvesAlike r
        ((Deed.opens k e isExplicit).messages.map fun m => ⟨m, i, sender⟩) r' ∧
      Named (c.doDeed (.opens k e isExplicit)) r' ∧
      (∀ j, e.signal.id ≠ j → r'.tableOf j = r.tableOf j) ∧
      (e.signal.id ≠ "" → e.signal.metadata.isLinear = true →
        (r'.tableOf e.signal.id).isSome = true) := by
  have hd := h.joined.registered.distinct
  have hsigno := (h.joined.registered.signo k e hk).1
  have hopens : SameSignals c (c.doDeed (.opens k e isExplicit)) :=
    sameSignals_doDeed (.opens k e isExplicit) hk rfl
  have hfirst : ResolvesAlike r ⟨e.subscribeMessage, i, sender⟩ :=
    resolvesAlike_of_ne fun k params => ofMetadata_ne_signal (by decide) _ _ _ _
  by_cases hid : e.signal.id = ""
  · obtain ⟨hsubscribe, hsignal, hjoined⟩ := h.joined.opens_unnamed hk isExplicit hid
    refine ⟨r, Carries.cons hfirst (take_of_step hsubscribe)
      (Carries.single ?_ (take_of_step hsignal)), ?_, fun _ _ => rfl, fun hne => absurd hid hne⟩
    · apply resolvesAlike_signal rfl hsigno hsame hregistered hk
      intro j d hj hdomain hlinear
      have hmem := (OrderedMap.find?_eq_some_iff hd).mp hj
      exact absurd hid (hresolves (j, d) hmem hdomain hlinear).1
    · exact h.of_names hjoined hopens h.sorted fun _ t ht => ⟨t, ht, rfl⟩
  · obtain ⟨r₁, r', s', hsubscribe, hsignal, hchanges, hbound, hdescribed, hnamed⟩ :=
      h.opens hk isExplicit hid i sender
    refine ⟨r', Carries.cons hfirst hsubscribe (Carries.single ?_ hsignal), hnamed, ?_, ?_⟩
    · apply resolvesAlike_signal rfl hsigno hsame hregistered hk
      intro j d hj hdomain hlinear
      obtain ⟨a, u, hbound⟩ :=
        resolved_opens h hk hresolves hopens hnamed hchanges hbound hdescribed hj hdomain hlinear
      exact ⟨r', s', a, u, hsignal, hchanges.self, hbound⟩
    · intro j hj
      unfold RemoteSignals.tableOf
      rw [hchanges.other hj]
    · intro _ hlinear
      have hrule : (Metadata.ofJson (e.signal.metadata.withValueIndex e.valueIndex)).rule =
          linearRule := by
        rw [Metadata.rule_withValueIndex]
        exact of_decide_eq_true hlinear
      have htable := hdescribed.table
      rw [if_pos hrule] at htable
      obtain ⟨u, hu, -⟩ := Option.map_eq_some_iff.mp htable
      unfold RemoteSignals.tableOf
      rw [hchanges.self, Option.bind_some, hu]
      rfl

/-- Bookkeeping leaves the peer's tables. -/
theorem Named.book (h : Named c r) (hk : OrderedMap.find? c.signals k = some e)
    (isExplicit : Bool) (count : UInt32) : Named (c.doDeed (.book k e isExplicit count)) r := by
  apply h.of_names (h.joined.book hk isExplicit count) _ h.sorted
  · exact fun _ t ht => ⟨t, ht, rfl⟩
  · exact sameSignals_doDeed (.book k e isExplicit count) hk rfl

/-- The peer's tables after a deed that ends a subscription. -/
theorem Named.ending (h : Named c r) (deed : Deed) (hfits : c.FitsDeed deed)
    (hending : deed.isEnding = true) (i : Act) (sender : LocalSignals) :
    ∃ r', Carries take ResolvesAlike r (deed.messages.map fun m => ⟨m, i, sender⟩) r' ∧
      Named (c.doDeed deed) r' := by
  cases deed with
  | book k e isExplicit count =>
      exact ⟨r, rfl, h.book hfits isExplicit count⟩
  | closes k e isExplicit count =>
      obtain ⟨r', events, hstep, hseen, hjoined⟩ := h.joined.closes hfits isExplicit count
      refine ⟨r', Carries.single ?_ (take_of_step hstep), h.of_names hjoined ?_ ?_ ?_⟩
      · exact resolvesAlike_of_ne fun k params => ofMetadata_ne_signal (by decide) _ _ _ _
      · exact sameSignals_doDeed (.closes k e isExplicit count) hfits rfl
      · exact RemoteSignals.sorted_step h.sorted hstep
      · intro j t ht
        refine ⟨t, ?_, rfl⟩
        unfold RemoteSignals.tableOf at ht ⊢
        rcases hseen j with hsame | ⟨-, s, hs, hs'⟩
        · rw [← hsame]
          exact ht
        · rw [hs'] at ht
          rw [hs]
          exact ht
  | announce ids => cases hending
  | opens k e isExplicit => cases hending
  | describes k e m => cases hending
  | changes k e m => cases hending
  | sets e a p => cases hending
  | emits k e sampleCount data => cases hending

/-- Ids are announced. -/
theorem Named.announce (h : Named c r) (ids : List String) (i : Act) (sender : LocalSignals) :
    ∃ r', Carries take ResolvesAlike r
        ((Deed.announce ids).messages.map fun m => ⟨m, i, sender⟩) r' ∧ Named c r' := by
  obtain ⟨r', events, hstep, hextends, hjoined⟩ := h.joined.announce ids
  refine ⟨r', Carries.single ?_ (take_of_step hstep), h.of_names hjoined (.refl c) ?_ ?_⟩
  · exact resolvesAlike_of_ne fun k params => ofMetadata_ne_signal (by decide) _ _ _ _
  · exact RemoteSignals.sorted_step h.sorted hstep
  · intro j t ht
    refine ⟨t, ?_, rfl⟩
    unfold RemoteSignals.tableOf at ht ⊢
    rcases hextends.seen j with hsame | ⟨-, hnew⟩
    · rw [← hsame]
      exact ht
    · rw [hnew] at ht
      cases ht

end Deeds

/-! ## Acts -/

section Acts

variable {c : LocalSignals} {r : RemoteSignals} {k d : UInt32} {e domain : RegisteredLocalSignal}

/-- A smaller set of subscriptions that begin. -/
theorem Resolves.of_pictured {c' : LocalSignals} {r' : RemoteSignals} {ks ks' : List UInt32}
    (h : Resolves c r ks e) (hd : Distinct c.signals) (hd' : Distinct c'.signals)
    (hsame : SameSignals c c')
    (hback : ∀ j x, OrderedMap.find? c.signals j = some x → Pictured r' ks' (j, x) →
      Pictured r ks (j, x))
    (hforth : ∀ j x, OrderedMap.find? c.signals j = some x → e.signal.domainId? = some x.signal.id →
      x.signal.metadata.isLinear = true → Pictured r ks (j, x) → Pictured r' ks' (j, x)) :
    Resolves c' r' ks' e := by
  have hmove {r : RemoteSignals} {ks : List UInt32} {j : UInt32} {x y : RegisteredLocalSignal}
      (hsignal : x.signal = y.signal) (h : Pictured r ks (j, x)) : Pictured r ks (j, y) := by
    unfold Pictured at h ⊢
    rw [← hsignal]
    exact h
  rintro ⟨j, x'⟩ hx' hdomain hlinear
  obtain ⟨x, hx, hsignal⟩ := hsame.find ((OrderedMap.find?_eq_some_iff hd').mpr hx')
  dsimp only at hdomain hlinear ⊢
  rw [← hsignal] at hdomain hlinear ⊢
  obtain ⟨hid, htableId, hpictured, hleast⟩ :=
    h (j, x) ((OrderedMap.find?_eq_some_iff hd).mp hx) hdomain hlinear
  refine ⟨hid, htableId, hmove hsignal (hforth j x hx hdomain hlinear hpictured), ?_⟩
  rintro ⟨i, y'⟩ hy' hpictured' hlinear' htableId' hne
  obtain ⟨y, hy, hsignal'⟩ := hsame.find ((OrderedMap.find?_eq_some_iff hd').mpr hy')
  dsimp only at hlinear' htableId' hne ⊢
  rw [← hsignal'] at hlinear' htableId' hne ⊢
  exact hleast (i, y) ((OrderedMap.find?_eq_some_iff hd).mp hy)
    (hback i y hy (hmove hsignal'.symm hpictured')) hlinear' htableId' hne

/-- What a signal names is not nothing. -/
theorem ne_empty_of_domainId? {signal : LocalSignal} {id : String}
    (h : signal.domainId? = some id) : id ≠ "" := by
  unfold LocalSignal.domainId? at h
  split at h
  · rename_i hne
    rw [← Option.some.inj h]
    exact hne.1
  · cases h

theorem beginning_of_none (h : c.domainOf e = none) : beginning c (k, e) = [k] := by
  unfold beginning
  rw [h]
  rfl

theorem beginning_of_subscribed (h : c.domainOf e = some (d, domain))
    (hsub : domain.isSubscribed = true) : beginning c (k, e) = [k] := by
  unfold beginning
  rw [h, Option.filter_some_neg (by simpa using hsub)]
  rfl

theorem beginning_of_unsubscribed (h : c.domainOf e = some (d, domain))
    (hsub : ¬ domain.isSubscribed = true) : beginning c (k, e) = [k, d] := by
  unfold beginning
  rw [h, Option.filter_some_pos (by simpa using hsub)]
  rfl

/-- Once the domain has been described, only the signal itself is left. -/
theorem Resolves.after_domain {c' : LocalSignals} {r' : RemoteSignals}
    (h : Resolves c r [k, d] e) (hregistered : c.Registered) (hregistered' : c'.Registered)
    (hsame : SameSignals c c') (hdomain : c.domainOf e = some (d, domain))
    (hother : ∀ j, domain.signal.id ≠ j → r'.tableOf j = r.tableOf j)
    (hself : domain.signal.id ≠ "" → domain.signal.metadata.isLinear = true →
      (r'.tableOf domain.signal.id).isSome = true) : Resolves c' r' [k] e := by
  obtain ⟨hd, hnames, -⟩ := LocalSignals.entry_of_domainOf hregistered.distinct hdomain
  apply h.of_pictured hregistered.distinct hregistered'.distinct hsame
  · intro j x hx hpictured
    rcases hpictured with hsome | hbeginning
    · by_cases hid : domain.signal.id = x.signal.id
      · right
        rw [hregistered.ids j x d domain hx hd hid.symm]
        exact List.mem_cons_of_mem _ List.mem_cons_self
      · left
        rw [← hother _ hid]
        exact hsome
    · right
      exact List.mem_cons.mpr (.inl (List.mem_singleton.mp hbeginning))
  · intro j x hx hnamesx hlinear _
    rw [hnames] at hnamesx
    have hid : domain.signal.id = x.signal.id := Option.some.inj hnamesx
    obtain rfl := hregistered.ids d domain j x hd hx hid
    rw [hd] at hx
    rw [← Option.some.inj hx] at hlinear ⊢
    exact .inl (hself (ne_empty_of_domainId? hnames) hlinear)

/-- **A request**, whose messages are taken. -/
theorem Named.act (h : Named c r) (i : Act) (hok : Resolving (c, r) i) :
    ∃ r', Carries take ResolvesAlike r (send c i).2 r' ∧ Named (send c i).1 r' := by
  have hregistered := h.joined.registered
  obtain ⟨deeds, hdoes, hact, hmeets⟩ := LocalSignals.deeds_of_act hregistered.distinct i
  rw [send_of_act hact]
  cases hdoes with
  | announce ids => exact h.announce ids (.announce ids) c
  | unknown hfind => exact ⟨r, rfl, h⟩
  | @again id k e hfind hsub =>
      exact ⟨r, rfl, h.book hmeets.1 true e.implicitSubscribeCount⟩
  | @alone id k e hfind hsub hdomain =>
      have hresolves := (hok (k, e) hfind (Bool.eq_false_iff.mpr hsub)).1
      rw [beginning_of_none hdomain] at hresolves
      obtain ⟨r', hcarries, hnamed, -⟩ := h.begins hmeets.1 true hresolves
        (.request (.subscribe id)) (sameSignals_doDeed (.opens k e true) hmeets.1 rfl)
        (hregistered.doDeed (.opens k e true) hmeets.1 rfl)
      exact ⟨r', hcarries, hnamed⟩
  | @joins id k d e domain hfind hsub hdomain hsub' =>
      obtain ⟨hfirst, hsecond, -⟩ := hmeets
      have hresolves := (hok (k, e) hfind (Bool.eq_false_iff.mpr hsub)).1
      rw [beginning_of_subscribed hdomain hsub'] at hresolves
      have hbooked := h.book hfirst domain.isExplicitlySubscribed
        (domain.implicitSubscribeCount + 1)
      have hregistered' := hbooked.joined.registered
      have hresolves' := hresolves.of_pictured hregistered.distinct hregistered'.distinct
        (sameSignals_doDeed _ hfirst rfl) (fun _ _ _ hpictured => hpictured)
        (fun _ _ _ _ _ hpictured => hpictured)
      obtain ⟨r', hcarries, hnamed, -⟩ := hbooked.begins hsecond true hresolves'
        (.request (.subscribe id)) (sameSignals_doDeed (.opens k e true) hsecond rfl)
        (hregistered'.doDeed (.opens k e true) hsecond rfl)
      exact ⟨r', hcarries, hnamed⟩
  | @both id k d e domain hfind hsub hdomain hsub' =>
      obtain ⟨hfirst, hsecond, -⟩ := hmeets
      obtain ⟨hresolves, hresolves'⟩ := hok (k, e) hfind (Bool.eq_false_iff.mpr hsub)
      rw [beginning_of_unsubscribed hdomain hsub'] at hresolves
      have hsame₁ : SameSignals c (c.doDeed (.opens d domain false)) :=
        sameSignals_doDeed (.opens d domain false) hfirst rfl
      have hsame₂ := sameSignals_doDeed (.opens k e true) hsecond rfl
      have hregistered₁ := hregistered.doDeed (.opens d domain false) hfirst rfl
      have hregistered₂ := hregistered₁.doDeed (.opens k e true) hsecond rfl
      -- The domain comes first, and is described when the signal is.
      obtain ⟨r₁, hcarries₁, hnamed₁, hother, hself⟩ := h.begins hfirst false
        (hresolves' (d, domain) hdomain (Bool.eq_false_iff.mpr hsub')) (.request (.subscribe id))
        (hsame₁.trans hsame₂) hregistered₂
      have hresolves₁ := hresolves.after_domain hregistered hregistered₁ hsame₁ hdomain hother hself
      obtain ⟨r', hcarries, hnamed, -⟩ := hnamed₁.begins hsecond true hresolves₁
        (.request (.subscribe id)) hsame₂ hregistered₂
      exact ⟨r', hcarries₁.append hcarries, hnamed⟩
  | @ends id deeds hends =>
      refine carries_deeds ?_ deeds c r h
        (meets_ending (fun c d hending => hending) deeds c hends hmeets)
      exact fun c r deed h hfits _ hending => h.ending deed hfits hending _ _
  | unregistered hfind => cases hok
  | unheard hfind hslot => cases hok
  | changes hfind hslot => cases hok
  | dropped hfind => cases hok
  | emits hfind hslot hset => cases hok
  | sets hfind hslot hset he' => cases hok

end Acts

/-! ## Runs -/

/-- Nothing has been described. -/
theorem named_registered (signals : List LocalSignal) (hids : (signals.map LocalSignal.id).Nodup)
    (hcount : signals.length + 1 < 2 ^ 32) : Named (registered signals) {} := by
  obtain ⟨hregistered, huntouched⟩ := LocalSignals.registered_registered signals hids hcount
  refine ⟨joined_registered hregistered fun k e hk => (huntouched k e hk).1.slot, ?_, ?_⟩
  · exact List.Pairwise.nil
  · exact fun _ _ ht => nomatch ht

/-- **Both peers resolve the same domain signal.**  Take any fixed set of
signals with unique ids and any metadata, and any interleaving of requests with
deliveries.  If the peer will find the domain of each signal whose subscription
begins, then every `signal` message of a signal that is bound to the table of
the registered signal that it names leaves the receiving side bound to the
remote signal with the same id, and to its table. -/
theorem domains_resolve_of_resolving (signals : List LocalSignal)
    (hids : (signals.map LocalSignal.id).Nodup) (hcount : signals.length + 1 < 2 ^ 32)
    (moves : List (Move Act))
    (h : MeetsOpt (Fifo.lockstep send take) Resolving (registered signals, {})
      (Fifo.inputs moves)) :
    (∃ w, moves.foldlM (Fifo.step send take) ⟨registered signals, [], {}⟩ = some w) ∧
      MeetsOpt (Fifo.step send take) (Fifo.Delivers ResolvesAlike) ⟨registered signals, [], {}⟩
        moves := by
  have hstart : Settles take ResolvesAlike Named ⟨registered signals, [], {}⟩ {} :=
    ⟨rfl, named_registered signals hids hcount⟩
  have hstep (c : LocalSignals) (r : RemoteSignals) (i : Act) (hnamed : Named c r)
      (hok : Resolving (c, r) i) :
      ∃ r', Carries take ResolvesAlike r (send c i).2 r' ∧ Named (send c i).1 r' :=
    hnamed.act i hok
  obtain ⟨⟨w, -, hrun, -⟩, hlaw⟩ := Fifo.settles_run hstep moves _ _ hstart h
  exact ⟨⟨w, hrun⟩, hlaw⟩

/-- The law on a run in which a value signal and its domain are subscribed,
unsubscribed and subscribed again. -/
theorem domains_resolve_resubscribed :
    MeetsOpt (Fifo.lockstep send take) Resolving
        (registered [LocalSignals.timeSignal 0, LocalSignals.valueSignal 1], {})
        (Fifo.inputs [.send (.announce ["time", "value"]), .send (.request (.subscribe "value")),
          .deliver, .deliver, .send (.request (.unsubscribe "value")), .deliver, .deliver,
          .send (.request (.subscribe "value")), .deliver, .deliver]) ∧
      (∃ w, ([.send (.announce ["time", "value"]), .send (.request (.subscribe "value")),
          .deliver, .deliver, .send (.request (.unsubscribe "value")), .deliver, .deliver,
          .send (.request (.subscribe "value")), .deliver, .deliver] : List (Move Act)).foldlM
            (Fifo.step send take)
              ⟨registered [LocalSignals.timeSignal 0, LocalSignals.valueSignal 1], [], {}⟩ =
                some w) := by
  have hresolving : MeetsOpt (Fifo.lockstep send take) Resolving
      (registered [LocalSignals.timeSignal 0, LocalSignals.valueSignal 1], {})
      (Fifo.inputs [.send (.announce ["time", "value"]), .send (.request (.subscribe "value")),
        .deliver, .deliver, .send (.request (.unsubscribe "value")), .deliver, .deliver,
        .send (.request (.subscribe "value")), .deliver, .deliver]) := by
    decide +kernel
  exact ⟨hresolving, (domains_resolve_of_resolving _ (by decide +kernel) (by decide +kernel) _
    hresolving).1⟩

/-- A linear-rule domain signal whose metadata name no table. -/
def untabledSignal (address : Nat) : LocalSignal :=
  ⟨address, "time", MetadataBuilder.build (MetadataBuilder.new "time") [.linearRule 0 1]⟩

/-- A message that is about to be taken, what its sender's signal is called,
names and is bound to, what another of its signals is called and owns, and what
the peer has bound once it has taken the message. -/
structure Binding where
  message : Message
  id : String
  names : Option String
  aim : Option Nat
  domain : String
  table : Option Nat
  bound : Option Nat
deriving DecidableEq

/-- What the next message binds, of the signals under two numbers. -/
def nextBinding (w : Channel LocalSignals Sent RemoteSignals) (k j : UInt32) : Option Binding :=
  w.queue.head?.bind fun m =>
    (OrderedMap.find? m.sender.signals k).bind fun e =>
      (OrderedMap.find? m.sender.signals j).bind fun d =>
        (take w.receiver m).bind fun r =>
          (r.seen e.signal.id).map fun s =>
            ⟨m.message, e.signal.id, e.signal.domainId?, e.domainTable, d.signal.id,
              d.table.map TablePtr.address, s.domainSignal⟩

/-- The two sides do not find the same signal in every run: the publisher goes
by the id of the domain, and the peer by the name of its table. -/
theorem untabled_domain_unresolved :
    ¬ MeetsOpt (Fifo.step send take) (Fifo.Delivers ResolvesAlike)
      ⟨registered [untabledSignal 0, LocalSignals.valueSignal 1], [], {}⟩
      [.send (.request (.subscribe "value")), .deliver, .deliver, .deliver, .deliver] := by
  intro hmeets
  have hnext : (([.send (.request (.subscribe "value")), .deliver, .deliver, .deliver] :
      List (Move Act)).foldlM (Fifo.step send take)
        ⟨registered [untabledSignal 0, LocalSignals.valueSignal 1], [], {}⟩).bind
          (nextBinding · 2 1) =
      some ⟨.ofMetadata 2 "signal" ((LocalSignals.valueSignal 1).metadata.withValueIndex 0),
        "value", some "time", some 0, "time", some 0, none⟩ := by
    decide +kernel
  obtain ⟨w, hrun, hw⟩ := Option.bind_eq_some_iff.mp hnext
  obtain ⟨m, hm, hw⟩ := Option.bind_eq_some_iff.mp hw
  obtain ⟨e, he, hw⟩ := Option.bind_eq_some_iff.mp hw
  obtain ⟨d, hd, hw⟩ := Option.bind_eq_some_iff.mp hw
  obtain ⟨r, hr, hw⟩ := Option.bind_eq_some_iff.mp hw
  obtain ⟨s, hs, hw⟩ := Option.map_eq_some_iff.mp hw
  injection hw with hmessage hid hnames haim hdomain htable hnone
  obtain ⟨t, ht, haddress⟩ := Option.map_eq_some_iff.mp htable
  have hlaw : ResolvesAlike w.receiver m := MeetsOpt.last _ hmeets hrun m hm
  obtain ⟨r', s', a, -, htake, hs', -, hbound, -⟩ :=
    hlaw _ _ hmessage e he 1 d t hd (by rw [hnames, hdomain]) ht (by rw [haim, haddress])
  rw [hr] at htake
  rw [← Option.some.inj htake, hs] at hs'
  rw [← Option.some.inj hs', hnone] at hbound
  cases hbound

end Publishing

end WsStreaming.Ports
