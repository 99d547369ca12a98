import WsStreaming.Ports.DomainBindings
import WsStreaming.Ports.LocalDeeds

/-!
# A fixed set of registered signals

What holds of the entries of a connection while its signals stay registered:
each is kept under its own number, the ids differ, a linear-rule signal owns a
table that nobody else owns, and whatever a signal is bound to, the number it
remembers is the number of the table's owner.

## Main results

* `Registered.doDeed` — a deed keeps this.
* `registered_registered` — it holds of signals that were just registered.
-/

namespace WsStreaming.Ports

open WsStreaming.Verified
open WsStreaming.Verified.OrderedMap (OMap Distinct)
open WsStreaming.Verified.Run (Meets)
open WsStreaming.Verified.Wire (Bytes)

namespace LocalSignals

/-- The entries of a fixed set of signals. -/
structure Registered (c : LocalSignals) : Prop where
  distinct : Distinct c.signals
  signo : ∀ k e, OrderedMap.find? c.signals k = some e → e.signo = k ∧ k ≠ 0
  ids : ∀ k e j d, OrderedMap.find? c.signals k = some e → OrderedMap.find? c.signals j = some d →
    e.signal.id = d.signal.id → k = j
  slots : ∀ k e, OrderedMap.find? c.signals k = some e → e.onMetadataChanged = e.onDataPublished
  inSync : ∀ k e, OrderedMap.find? c.signals k = some e → e.InSync
  tables : ∀ k e t, OrderedMap.find? c.signals k = some e → e.table = some t →
    t.address < c.nextTable ∧ ∀ j d u, OrderedMap.find? c.signals j = some d →
      d.table = some u → u.address = t.address → j = k
  aims : ∀ k e a, OrderedMap.find? c.signals k = some e → e.domainTable = some a →
    a < c.nextTable ∧ ∀ j d t, OrderedMap.find? c.signals j = some d →
      d.table = some t → t.address = a → j = e.domainSigno

/-- Whether a deed changes metadata while nobody is told. -/
def Deed.isDescribing : Deed → Bool
  | .describes _ _ _ => true
  | _ => false

section Registered

variable {c : LocalSignals} {k : UInt32} {e : RegisteredLocalSignal}

/-- What a domain is. -/
theorem entry_of_domainOf (hd : Distinct c.signals) {j : UInt32} {d : RegisteredLocalSignal}
    (h : c.domainOf e = some (j, d)) :
    OrderedMap.find? c.signals j = some d ∧ e.signal.domainId? = some d.signal.id ∧
      d.signal.id ≠ e.signal.id := by
  obtain ⟨tableId, htable, hfind⟩ := Option.bind_eq_some_iff.mp h
  have hid : d.signal.id = tableId := id_of_findById hfind
  refine ⟨find?_of_findById hd hfind, ?_, ?_⟩
  · rw [htable, hid]
  · rw [hid]
    exact (ne_of_domainId? htable).symm

/-- The entry under a number and the others. -/
theorem find?_put {n : Nat} {new : RegisteredLocalSignal}
    (hk : OrderedMap.find? c.signals k = some e)
    (j : UInt32) :
    OrderedMap.find? ((c.withNextTable n).update k fun _ => new).signals j =
      if k = j then some new else OrderedMap.find? c.signals j := by
  rw [find?_update]
  change (if k = j then (OrderedMap.find? c.signals j).map _ else OrderedMap.find? c.signals j) = _
  by_cases hj : k = j
  · rw [if_pos hj, if_pos hj, ← hj, hk]
    rfl
  · rw [if_neg hj, if_neg hj]

/-- **Another entry for a signal.**  Its table is the same or new, and it is
bound as it was or to the table of another entry. -/
theorem Registered.put (h : c.Registered) (hk : OrderedMap.find? c.signals k = some e) {n : Nat}
    {new : RegisteredLocalSignal} (hnext : c.nextTable ≤ n) (hid : new.signal.id = e.signal.id)
    (hsigno : new.signo = e.signo) (hslots : new.onMetadataChanged = new.onDataPublished)
    (hsync : new.InSync)
    (htable : ∀ t, new.table = some t →
      (∃ u, e.table = some u ∧ u.address = t.address) ∨ t.address = c.nextTable ∧ c.nextTable < n)
    (haim : ∀ a, new.domainTable = some a →
      e.domainTable = some a ∧ new.domainSigno = e.domainSigno ∨
        ∃ d t, new.domainSigno ≠ k ∧ OrderedMap.find? c.signals new.domainSigno = some d ∧
          d.table = some t ∧ t.address = a) :
    ((c.withNextTable n).update k fun _ => new).Registered := by
  have hcases (j : UInt32) (d : RegisteredLocalSignal)
      (hj : OrderedMap.find? ((c.withNextTable n).update k fun _ => new).signals j = some d) :
      k = j ∧ d = new ∨ k ≠ j ∧ OrderedMap.find? c.signals j = some d := by
    rw [find?_put hk] at hj
    by_cases hkj : k = j
    · rw [if_pos hkj] at hj
      exact .inl ⟨hkj, (Option.some.inj hj).symm⟩
    · rw [if_neg hkj] at hj
      exact .inr ⟨hkj, hj⟩
  -- Whoever owns a table now owned it, or it is the new one.
  have howner (j : UInt32) (d : RegisteredLocalSignal) (t : TablePtr)
      (hj : OrderedMap.find? ((c.withNextTable n).update k fun _ => new).signals j = some d)
      (ht : d.table = some t) :
      (∃ d' u, OrderedMap.find? c.signals j = some d' ∧ d'.table = some u ∧
        u.address = t.address) ∨ j = k ∧ t.address = c.nextTable ∧ c.nextTable < n := by
    rcases hcases j d hj with ⟨rfl, rfl⟩ | ⟨-, hj⟩
    · rcases htable t ht with ⟨u, hu, haddress⟩ | hfresh
      · exact .inl ⟨e, u, hk, hu, haddress⟩
      · exact .inr ⟨rfl, hfresh⟩
    · exact .inl ⟨d, t, hj, ht, rfl⟩
  constructor
  · exact distinct_update (c := c.withNextTable n) h.distinct k _
  · intro j d hj
    rcases hcases j d hj with ⟨rfl, rfl⟩ | ⟨-, hj⟩
    · rw [hsigno]
      exact h.signo k e hk
    · exact h.signo j d hj
  · intro i d j d' hi hj heq
    rcases hcases i d hi with ⟨rfl, rfl⟩ | ⟨-, hi'⟩
    · rcases hcases j d' hj with ⟨rfl, rfl⟩ | ⟨-, hj'⟩
      · rfl
      · rw [hid] at heq
        exact h.ids k e j d' hk hj' heq
    · rcases hcases j d' hj with ⟨rfl, rfl⟩ | ⟨-, hj'⟩
      · rw [hid] at heq
        exact h.ids i d k e hi' hk heq
      · exact h.ids i d j d' hi' hj' heq
  · intro j d hj
    rcases hcases j d hj with ⟨-, rfl⟩ | ⟨-, hj⟩
    · exact hslots
    · exact h.slots j d hj
  · intro j d hj
    rcases hcases j d hj with ⟨-, rfl⟩ | ⟨-, hj⟩
    · exact hsync
    · exact h.inSync j d hj
  · intro j d t hj ht
    change t.address < n ∧ _
    rcases howner j d t hj ht with ⟨d', u, hj', hu, haddress⟩ | ⟨rfl, hfresh, hlt⟩
    · obtain ⟨hless, hunique⟩ := h.tables j d' u hj' hu
      refine ⟨by omega, ?_⟩
      intro i f v hi hv heq
      rcases howner i f v hi hv with ⟨f', w, hi', hw, haddress'⟩ | ⟨-, hfresh, -⟩
      · exact hunique i f' w hi' hw (by rw [haddress', heq, haddress])
      · omega
    · refine ⟨by omega, ?_⟩
      intro i f v hi hv heq
      rcases howner i f v hi hv with ⟨f', w, hi', hw, haddress'⟩ | ⟨rfl, -⟩
      · have hless := (h.tables i f' w hi' hw).1
        omega
      · rfl
  · intro j d a hj ha
    change a < n ∧ _
    -- What the entry aims at, and whose it was.
    obtain ⟨hless, howned⟩ : a < c.nextTable ∧ ∀ i f t, OrderedMap.find? c.signals i = some f →
        f.table = some t → t.address = a → i = d.domainSigno := by
      rcases hcases j d hj with ⟨-, rfl⟩ | ⟨-, hj⟩
      · rcases haim a ha with ⟨hsame, hnumber⟩ | ⟨f, t, -, hf, ht, haddress⟩
        · rw [hnumber]
          exact h.aims k e a hk hsame
        · obtain ⟨hless, hunique⟩ := h.tables _ f t hf ht
          refine ⟨by omega, ?_⟩
          intro i f' t' hi ht' heq
          exact hunique i f' t' hi ht' (heq.trans haddress.symm)
      · exact h.aims j d a hj ha
    refine ⟨by omega, ?_⟩
    intro i f t hi ht heq
    rcases howner i f t hi ht with ⟨f', u, hi', hu, haddress⟩ | ⟨-, hfresh, -⟩
    · exact howned i f' u hi' hu (haddress.trans heq)
    · omega

/-- **Another value of a table.** -/
theorem Registered.modifyTable (h : c.Registered) (a : Nat) (f : LinearTable → LinearTable) :
    (c.modifyTable a f).Registered := by
  have hcases (j : UInt32) (d : RegisteredLocalSignal)
      (hj : OrderedMap.find? (c.modifyTable a f).signals j = some d) :
      ∃ d', OrderedMap.find? c.signals j = some d' ∧ d = d'.modifyTable a f := by
    rw [find?_modifyTable] at hj
    obtain ⟨d', hd', rfl⟩ := Option.map_eq_some_iff.mp hj
    exact ⟨d', hd', rfl⟩
  have htable (d : RegisteredLocalSignal) (t : TablePtr) (ht : (d.modifyTable a f).table = some t) :
      ∃ u, d.table = some u ∧ u.address = t.address := by
    obtain ⟨u, hu, rfl⟩ := Option.map_eq_some_iff.mp ht
    refine ⟨u, hu, ?_⟩
    split <;> rfl
  constructor
  · exact distinct_modifyTable h.distinct a f
  · intro j d hj
    obtain ⟨d', hd', rfl⟩ := hcases j d hj
    exact h.signo j d' hd'
  · intro i d j d' hi hj heq
    obtain ⟨e, he, rfl⟩ := hcases i d hi
    obtain ⟨e', he', rfl⟩ := hcases j d' hj
    exact h.ids i e j e' he he' heq
  · intro j d hj
    obtain ⟨d', hd', rfl⟩ := hcases j d hj
    exact h.slots j d' hd'
  · intro j d hj
    obtain ⟨d', hd', rfl⟩ := hcases j d hj
    have hsync : d'.table.isSome = d'.signal.metadata.isLinear := h.inSync j d' hd'
    unfold RegisteredLocalSignal.InSync RegisteredLocalSignal.modifyTable
    rw [Option.isSome_map]
    exact hsync
  · intro j d t hj ht
    obtain ⟨d', hd', rfl⟩ := hcases j d hj
    obtain ⟨u, hu, haddress⟩ := htable d' t ht
    obtain ⟨hless, hunique⟩ := h.tables j d' u hd' hu
    rw [← haddress]
    refine ⟨hless, ?_⟩
    intro i f' v hi hv heq
    obtain ⟨f'', hf'', rfl⟩ := hcases i f' hi
    obtain ⟨w, hw, haddress'⟩ := htable f'' v hv
    exact hunique i f'' w hf'' hw (haddress'.trans heq)
  · intro j d b hj hb
    obtain ⟨d', hd', rfl⟩ := hcases j d hj
    obtain ⟨hless, howned⟩ := h.aims j d' b hd' hb
    refine ⟨hless, ?_⟩
    intro i f' t hi ht heq
    obtain ⟨f'', hf'', rfl⟩ := hcases i f' hi
    obtain ⟨w, hw, haddress⟩ := htable f'' t ht
    exact howned i f'' w hf'' hw (haddress.trans heq)

theorem Registered.drive (h : c.Registered) (table : Option Nat) (index : Int64) :
    (c.drive table index).Registered := by
  cases table with
  | none => exact h
  | some a => exact h.modifyTable a _

/-- The table of an entry that is refreshed. -/
theorem refreshedTable_cases {fresh : Nat} {t : TablePtr} (ht : e.refreshedTable fresh = some t) :
    (∃ u, e.table = some u ∧ u.address = t.address) ∨ t.address = fresh := by
  unfold RegisteredLocalSignal.refreshedTable at ht
  split at ht
  · cases hu : e.table with
    | some u =>
        rw [hu] at ht
        rw [← Option.some.inj ht]
        exact .inl ⟨u, rfl, rfl⟩
    | none =>
        rw [hu] at ht
        rw [← Option.some.inj ht]
        exact .inr rfl
  · cases ht

theorem isSome_refreshedTable (fresh : Nat) :
    (e.refreshedTable fresh).isSome = e.signal.metadata.isLinear := by
  unfold RegisteredLocalSignal.refreshedTable Metadata.isLinear
  by_cases hrule : e.signal.metadata.rule = linearRule
  · rw [if_pos hrule, decide_eq_true hrule]
    rfl
  · rw [if_neg hrule, decide_eq_false hrule]
    rfl

/-- A refresh: the table is refreshed, and the signal is bound to its domain. -/
theorem Registered.refresh (h : c.Registered) (hk : OrderedMap.find? c.signals k = some e)
    (e' : RegisteredLocalSignal) {new : RegisteredLocalSignal}
    (hid : e'.signal.id = e.signal.id) (htable : e'.table = e.table)
    (hsignal : new.signal = e'.signal) (hsigno : new.signo = e.signo)
    (hslots : new.onMetadataChanged = new.onDataPublished)
    (hnew : new.table = e'.refreshedTable c.nextTable)
    (hnumber : new.domainSigno = (((c.domainOf e').map Prod.snd).map
      RegisteredLocalSignal.signo).getD 0)
    (haim : new.domainTable = ((c.domainOf e').map Prod.snd).bind fun d =>
      d.table.map TablePtr.address) :
    ((c.withNextTable (c.nextTable + 1)).update k fun _ => new).Registered := by
  apply h.put hk
  · exact Nat.le_succ _
  · rw [hsignal]
    exact hid
  · exact hsigno
  · exact hslots
  · unfold RegisteredLocalSignal.InSync
    rw [hnew, isSome_refreshedTable, hsignal]
  · intro t ht
    rw [hnew] at ht
    rcases refreshedTable_cases ht with hold | hfresh
    · rw [htable] at hold
      exact .inl hold
    · exact .inr ⟨hfresh, Nat.lt_succ_self _⟩
  · intro a ha
    rw [haim] at ha
    obtain ⟨d, hd, ha⟩ := Option.bind_eq_some_iff.mp ha
    obtain ⟨t, ht, rfl⟩ := Option.map_eq_some_iff.mp ha
    obtain ⟨⟨j, d'⟩, hdomain, rfl⟩ := Option.map_eq_some_iff.mp hd
    obtain ⟨hj, -, hne⟩ := entry_of_domainOf h.distinct hdomain
    have hnumber' : new.domainSigno = j := by
      rw [hnumber, hdomain]
      exact (h.signo j d' hj).1
    rw [hnumber']
    refine .inr ⟨d', t, ?_, hj, ht, rfl⟩
    rintro rfl
    rw [hk] at hj
    rw [← Option.some.inj hj, hid] at hne
    exact hne rfl

/-- **A deed.** -/
theorem Registered.doDeed (h : c.Registered) (deed : Deed) (hfits : c.FitsDeed deed)
    (hdescribing : deed.isDescribing = false) : (c.doDeed deed).Registered := by
  have hsame {k : UInt32} {e : RegisteredLocalSignal} (hk : OrderedMap.find? c.signals k = some e)
      (new : RegisteredLocalSignal) (hsignal : new.signal = e.signal) (hsigno : new.signo = e.signo)
      (hslots : new.onMetadataChanged = new.onDataPublished) (htable : new.table = e.table)
      (haim : new.domainTable = e.domainTable) (hnumber : new.domainSigno = e.domainSigno) :
      (c.update k fun _ => new).Registered := by
    apply h.put (n := c.nextTable) hk
    · exact Nat.le_refl _
    · rw [hsignal]
    · exact hsigno
    · exact hslots
    · unfold RegisteredLocalSignal.InSync
      rw [htable, hsignal]
      exact h.inSync k e hk
    · intro t ht
      rw [htable] at ht
      exact .inl ⟨t, ht, rfl⟩
    · intro a ha
      rw [haim] at ha
      exact .inl ⟨ha, hnumber⟩
  cases deed with
  | announce ids => exact h
  | book k e isExplicit count => exact hsame hfits _ rfl rfl (h.slots k e hfits) rfl rfl rfl
  | opens k e isExplicit =>
      have hopened : (c.opened e isExplicit).signal = e.signal ∧
          (c.opened e isExplicit).signo = e.signo := by
        cases isExplicit <;> exact ⟨rfl, rfl⟩
      exact h.refresh hfits e rfl rfl hopened.1 hopened.2 rfl rfl rfl rfl
  | closes k e isExplicit count => exact hsame hfits _ rfl rfl rfl rfl rfl rfl
  | describes k e metadata => cases hdescribing
  | changes k e metadata =>
      exact h.refresh hfits.1 (e.described metadata) rfl rfl rfl rfl
        (h.slots k e hfits.1) rfl rfl rfl
  | sets e a p => exact h.modifyTable a _
  | emits k e sampleCount data =>
      have hindex : (c.update k fun _ => e.withValueIndex (e.valueIndex +
          Int64.ofNat sampleCount)).Registered :=
        hsame hfits.1 _ rfl rfl (h.slots k e hfits.1) rfl rfl rfl
      exact hindex.drive _ _

end Registered

/-! ## Registration -/

/-- A signal that was just registered. -/
structure Untouched (e : RegisteredLocalSignal) : Prop where
  slot : e.onDataPublished = false
  valueIndex : e.valueIndex = 0
  table : e.table.map TablePtr.table =
    if e.signal.metadata.rule = linearRule then some (.new e.signal.metadata) else none

section Add

variable {c : LocalSignals}

/-- **Registration** of a signal with another id. -/
theorem Registered.add (h : c.Registered) {signal : LocalSignal}
    (hlast : ∀ e ∈ c.signals, e.1 < c.nextSigno) (hzero : c.nextSigno ≠ 0)
    (hid : ∀ k e, OrderedMap.find? c.signals k = some e → e.signal.id ≠ signal.id) :
    (c.addLocalSignal signal).1.Registered ∧
      ∀ j d, OrderedMap.find? (c.addLocalSignal signal).1.signals j = some d →
        OrderedMap.find? c.signals j = some d ∨
          j = c.nextSigno ∧ Untouched d ∧ d.signal = signal := by
  cases hfind : c.findByAddress signal.address with
  | some e =>
      rw [addLocalSignal_of_some hfind]
      exact ⟨h, fun _ _ hj => .inl hj⟩
  | none =>
      obtain ⟨new, hsignals, hnext, hsignal, hsigno, hindex, htable, hslot, hslot', hdomain⟩ :=
        addLocalSignal_entry hfind hlast
      have hcases (j : UInt32) (d : RegisteredLocalSignal)
          (hj : OrderedMap.find? (c.addLocalSignal signal).1.signals j = some d) :
          OrderedMap.find? c.signals j = some d ∨ j = c.nextSigno ∧ d = new := by
        have hmem := OrderedMap.mem_of_find?_eq_some hj
        rw [hsignals] at hmem
        rcases List.mem_append.mp hmem with hmem | hmem
        · exact .inl ((OrderedMap.find?_eq_some_iff h.distinct).mpr hmem)
        · exact .inr (Prod.mk.inj (List.mem_singleton.mp hmem))
      have hold (j : UInt32) (d : RegisteredLocalSignal)
          (hj : OrderedMap.find? c.signals j = some d) : j < c.nextSigno :=
        hlast (j, d) (OrderedMap.mem_of_find?_eq_some hj)
      have hfresh (t : TablePtr) (ht : new.table = some t) : t.address = c.nextTable := by
        rw [htable] at ht
        split at ht
        · rw [← Option.some.inj ht]
        · cases ht
      refine ⟨?_, ?_⟩
      · constructor
        · unfold Distinct
          rw [hsignals, List.map_append, List.nodup_append]
          refine ⟨h.distinct, List.nodup_singleton _, ?_⟩
          intro j hj i hi
          obtain ⟨e, he, rfl⟩ := List.mem_map.mp hj
          rw [List.mem_singleton.mp hi]
          have hlt := hlast e he
          rintro heq
          rw [heq] at hlt
          exact UInt32.lt_irrefl _ hlt
        · intro j d hj
          rcases hcases j d hj with hj | ⟨rfl, rfl⟩
          · exact h.signo j d hj
          · exact ⟨hsigno, hzero⟩
        · intro i d j d' hi hj heq
          rcases hcases i d hi with hi | ⟨rfl, rfl⟩
          · rcases hcases j d' hj with hj | ⟨rfl, rfl⟩
            · exact h.ids i d j d' hi hj heq
            · rw [hsignal] at heq
              exact absurd heq (hid i d hi)
          · rcases hcases j d' hj with hj | ⟨rfl, rfl⟩
            · rw [hsignal] at heq
              exact absurd heq.symm (hid j d' hj)
            · rfl
        · intro j d hj
          rcases hcases j d hj with hj | ⟨rfl, rfl⟩
          · exact h.slots j d hj
          · exact hslot'.trans hslot.symm
        · intro j d hj
          rcases hcases j d hj with hj | ⟨rfl, rfl⟩
          · exact h.inSync j d hj
          · unfold RegisteredLocalSignal.InSync Metadata.isLinear
            rw [htable, hsignal]
            split
            · rename_i hrule
              exact (decide_eq_true hrule).symm
            · rename_i hrule
              exact (decide_eq_false hrule).symm
        · intro j d t hj ht
          rw [hnext]
          rcases hcases j d hj with hj | ⟨rfl, rfl⟩
          · obtain ⟨hless, hunique⟩ := h.tables j d t hj ht
            refine ⟨by omega, ?_⟩
            intro i f u hi hu heq
            rcases hcases i f hi with hi | ⟨rfl, rfl⟩
            · exact hunique i f u hi hu heq
            · have haddress := hfresh u hu
              omega
          · have haddress := hfresh t ht
            refine ⟨by omega, ?_⟩
            intro i f u hi hu heq
            rcases hcases i f hi with hi | ⟨rfl, rfl⟩
            · have hless := (h.tables i f u hi hu).1
              omega
            · rfl
        · intro j d a hj ha
          rw [hnext]
          obtain ⟨hless, howned⟩ : a < c.nextTable ∧ ∀ i f t,
              OrderedMap.find? c.signals i = some f → f.table = some t → t.address = a →
                i = d.domainSigno := by
            rcases hcases j d hj with hj | ⟨rfl, rfl⟩
            · exact h.aims j d a hj ha
            · rcases hdomain with hnone | ⟨p, hp, haim, hnumber⟩
              · rw [hnone] at ha
                cases ha
              · rw [haim] at ha
                obtain ⟨t, ht, rfl⟩ := Option.map_eq_some_iff.mp ha
                have hfind := (OrderedMap.find?_eq_some_iff h.distinct).mpr
                  (show (p.1, p.2) ∈ c.signals from hp)
                obtain ⟨hless, hunique⟩ := h.tables p.1 p.2 t hfind ht
                refine ⟨hless, ?_⟩
                intro i f u hi hu heq
                rw [hnumber, (h.signo p.1 p.2 hfind).1]
                exact hunique i f u hi hu heq
          refine ⟨by omega, ?_⟩
          intro i f t hi ht heq
          rcases hcases i f hi with hi | ⟨rfl, rfl⟩
          · exact howned i f t hi ht heq
          · have haddress := hfresh t ht
            omega
      · intro j d hj
        rcases hcases j d hj with hj | ⟨rfl, rfl⟩
        · exact .inl hj
        · refine .inr ⟨rfl, ⟨hslot, hindex, ?_⟩, hsignal⟩
          rw [htable, hsignal]
          split <;> rfl

/-- **Registered signals**, fewer than there are numbers, with unique ids. -/
theorem registered_registered (signals : List LocalSignal)
    (hids : (signals.map LocalSignal.id).Nodup) (hcount : signals.length + 1 < 2 ^ 32) :
    (registered signals).Registered ∧
      ∀ k e, OrderedMap.find? (registered signals).signals k = some e →
        Untouched e ∧ e.signal ∈ signals := by
  have hall (rest : List LocalSignal) : ∀ c : LocalSignals, c.Registered →
      (∀ e ∈ c.signals, e.1 < c.nextSigno) → c.nextSigno ≠ 0 →
      c.nextSigno.toNat + rest.length < 2 ^ 32 → (rest.map LocalSignal.id).Nodup →
      (∀ k e, OrderedMap.find? c.signals k = some e → ∀ s ∈ rest, e.signal.id ≠ s.id) →
      (∀ k e, OrderedMap.find? c.signals k = some e → Untouched e ∧ e.signal ∈ signals) →
      (∀ s ∈ rest, s ∈ signals) →
      (rest.foldl (fun c signal => (c.addLocalSignal signal).1) c).Registered ∧
        ∀ k e, OrderedMap.find? (rest.foldl (fun c signal =>
          (c.addLocalSignal signal).1) c).signals k = some e →
            Untouched e ∧ e.signal ∈ signals := by
    induction rest with
    | nil => exact fun c hc _ _ _ _ _ huntouched _ => ⟨hc, huntouched⟩
    | cons signal rest ih =>
        intro c hc hlast hzero hroom hnodup hother huntouched hmem
        rw [List.map_cons, List.nodup_cons] at hnodup
        rw [List.length_cons] at hroom
        obtain ⟨hadded, hcases⟩ := hc.add hlast hzero fun k e hk =>
          hother k e hk signal List.mem_cons_self
        -- The next number is the same or one more.
        obtain ⟨hlast', hzero', hroom'⟩ : (∀ e ∈ (c.addLocalSignal signal).1.signals,
            e.1 < (c.addLocalSignal signal).1.nextSigno) ∧
              (c.addLocalSignal signal).1.nextSigno ≠ 0 ∧
                (c.addLocalSignal signal).1.nextSigno.toNat + rest.length < 2 ^ 32 := by
          cases hfind : c.findByAddress signal.address with
          | some e =>
              rw [addLocalSignal_of_some hfind]
              refine ⟨hlast, hzero, ?_⟩
              change c.nextSigno.toNat + rest.length < 2 ^ 32
              omega
          | none =>
              have hnext := (numbers_addLocalSignal hfind).2
              have hword : (c.nextSigno + 1).toNat = c.nextSigno.toNat + 1 := by
                rw [UInt32.toNat_add]
                change (c.nextSigno.toNat + 1) % 2 ^ 32 = _
                omega
              rw [hnext]
              refine ⟨?_, ?_, by omega⟩
              · intro e he
                have hk := (OrderedMap.find?_eq_some_iff hadded.distinct).mpr
                  (show (e.1, e.2) ∈ (c.addLocalSignal signal).1.signals from he)
                rw [UInt32.lt_iff_toNat_lt, hword]
                rcases hcases e.1 e.2 hk with hk | ⟨heq, -⟩
                · have hlt := hlast _ (OrderedMap.mem_of_find?_eq_some hk)
                  rw [UInt32.lt_iff_toNat_lt] at hlt
                  exact Nat.lt_succ_of_lt hlt
                · rw [heq]
                  exact Nat.lt_succ_self _
              · intro heq
                rw [heq] at hword
                exact absurd hword (by simp)
        apply ih _ hadded hlast' hzero' hroom' hnodup.2
        · intro k e hk s hs
          rcases hcases k e hk with hk | ⟨-, -, hsignal⟩
          · exact hother k e hk s (List.mem_cons_of_mem _ hs)
          · rw [hsignal]
            intro heq
            apply hnodup.1
            rw [heq]
            exact List.mem_map_of_mem hs
        · intro k e hk
          rcases hcases k e hk with hk | ⟨-, hnew, hsignal⟩
          · exact huntouched k e hk
          · rw [hsignal]
            exact ⟨hnew, hmem signal List.mem_cons_self⟩
        · exact fun s hs => hmem s (List.mem_cons_of_mem _ hs)
  apply hall signals {}
  · constructor
    · exact List.nodup_nil
    all_goals exact fun _ _ => nofun
  · exact fun _ he => nomatch he
  · decide
  · change 1 + signals.length < 2 ^ 32
    omega
  · exact hids
  · exact fun _ _ => nofun
  · exact fun _ _ => nofun
  · exact fun _ hs => hs

end Add

end LocalSignals

end WsStreaming.Ports
