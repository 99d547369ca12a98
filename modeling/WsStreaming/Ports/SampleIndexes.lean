import WsStreaming.Ports.Publishing

/-!
# Sample indexes across signal messages

A `signal` message describes a signal to the peer: when a subscription begins,
with the value index that the publisher has, and when the metadata change,
without it.  Each end then updates its counter and its linear table by rules of
its own, in which a field that is missing keeps an old value.

The two ends agree about the sample index after every such message as long as
the metadata of a linear-rule signal put its table where the value index is
when its subscription begins, metadata that change say that the index is zero
again, and nothing moves a table of which the peer is not told.

## Main results

* `sample_indexes_agree_of_resuming` — the law over all interleavings of what
  the publisher does with deliveries.
* `unstated_index_disagrees` — metadata without a value index.
-/

namespace WsStreaming.Ports

open WsStreaming.Verified
open WsStreaming.Verified.OrderedMap (OMap Distinct)
open WsStreaming.Verified.Run (Meets MeetsOpt)
open WsStreaming.Verified.Fifo (Carries Channel Move Settles)
open WsStreaming.Verified.Wire (Bytes)

/-- The own table of a signal, or the one that it gets. -/
def RegisteredLocalSignal.ownTable (e : RegisteredLocalSignal) : LinearTable :=
  (e.table.map TablePtr.table).getD {}

/-- The own table of a remote signal, or the one that it gets. -/
def RemoteSignal.ownTable (s : RemoteSignal) : LinearTable :=
  (s.table.map TablePtr.table).getD {}

namespace Publishing

open LocalSignals (Act Deed FitsDeed registered)
open RemoteSignals (Changes Extends)

/-! ## What is to hold -/

/-- The peer's index of a signal is the publisher's, and so is its table if it
is a linear-rule signal. -/
structure IndexAgrees (e : RegisteredLocalSignal) (s : RemoteSignal) : Prop where
  valueIndex : s.valueIndex = e.valueIndex
  table : e.signal.metadata.isLinear = true → ∃ t u, e.table = some t ∧ s.table = some u ∧
    u.table.index = t.table.index ∧ u.table.value = t.table.value ∧
    u.table.delta = t.table.delta ∧ u.table.drivenIndex = t.table.drivenIndex

/-- If a message is the `signal` message of a signal with an id, the peer knows
its number, and once it has taken the message, its index of the signal is the
publisher's when the message was sent. -/
def SignalAgrees (r : RemoteSignals) (m : Sent) : Prop :=
  ∀ k params, m.message = .ofMetadata k "signal" params →
    ∀ e, OrderedMap.find? m.sender.signals k = some e → e.signal.id ≠ "" →
      r.numbered k = some e.signal.id ∧
        ∃ r' s, take r m = some r' ∧ r'.seen e.signal.id = some s ∧ IndexAgrees e s

/-- When the subscription of a linear-rule signal begins, its metadata, or its
table if they do not say, count from the value index. -/
def Resumes (e : RegisteredLocalSignal) : Prop :=
  e.signal.metadata.isLinear = true →
    e.signal.metadata.valueIndex.getD e.ownTable.index = e.valueIndex ∧
    e.signal.metadata.valueIndex.getD e.ownTable.drivenIndex = e.valueIndex

/-- The part of it that is about the line of the table. -/
def ResumesIndex (e : RegisteredLocalSignal) : Prop :=
  e.signal.metadata.isLinear = true →
    e.signal.metadata.valueIndex.getD e.ownTable.index = e.valueIndex

/-- Metadata that change say that the index is zero again, or the peer has
counted nothing; and if they do not say, the tables are driven to the same
index. -/
def Restarts (e : RegisteredLocalSignal) (m : Metadata) (s : RemoteSignal) : Prop :=
  m.valueIndex.getD s.valueIndex = 0 ∧
    (m.isLinear = true → m.valueIndex = none →
      s.ownTable.drivenIndex = e.ownTable.drivenIndex)

/-- Before something happens, with what the peer will have when it has taken
everything: whatever is described counts as its metadata say, metadata change
only while the signal is subscribed, a table is set only while its owner is,
and what is published on a linear-rule signal is too short for a payload. -/
def Resuming (w : LocalSignals × RemoteSignals) : Act → Prop
  | .announce _ => True
  | .request (.subscribe id) =>
      ∀ p ∈ w.1.findById id, p.2.isSubscribed = false →
        Resumes p.2 ∧ ∀ d ∈ w.1.domainOf p.2, d.2.isSubscribed = false → Resumes d.2
  | .request (.unsubscribe _) => True
  | .setMetadata address m =>
      ∀ p ∈ w.1.findByAddress address, p.2.onMetadataChanged = true ∧
        ∀ s ∈ w.2.seen p.2.signal.id, p.2.signal.id ≠ "" → Restarts p.2 m s
  | .publish address domainValue _ data =>
      ∀ p ∈ w.1.findByAddress address, p.2.onDataPublished = true →
        (p.2.signal.metadata.isLinear = true → data.length < 16) ∧
        ∀ u ∈ w.1.domainUpdate p.2 domainValue, ∀ d ∈ w.1.signals,
          d.2.table.map TablePtr.address = some u.1 → d.2.onDataPublished = true

instance (e : RegisteredLocalSignal) : Decidable (Resumes e) :=
  inferInstanceAs (Decidable (e.signal.metadata.isLinear = true → _ ∧ _))

instance (e : RegisteredLocalSignal) : Decidable (ResumesIndex e) :=
  inferInstanceAs (Decidable (e.signal.metadata.isLinear = true → _))

instance (e : RegisteredLocalSignal) (m : Metadata) (s : RemoteSignal) :
    Decidable (Restarts e m s) :=
  inferInstanceAs (Decidable (_ ∧ (m.isLinear = true → m.valueIndex = none → _)))

instance (w : LocalSignals × RemoteSignals) (i : Act) : Decidable (Resuming w i) :=
  match i with
  | .announce _ => isTrue trivial
  | .request (.subscribe id) =>
      inferInstanceAs (Decidable (∀ p ∈ w.1.findById id, p.2.isSubscribed = false →
        Resumes p.2 ∧ ∀ d ∈ w.1.domainOf p.2, d.2.isSubscribed = false → Resumes d.2))
  | .request (.unsubscribe _) => isTrue trivial
  | .setMetadata address m =>
      inferInstanceAs (Decidable (∀ p ∈ w.1.findByAddress address, p.2.onMetadataChanged = true ∧
        ∀ s ∈ w.2.seen p.2.signal.id, p.2.signal.id ≠ "" → Restarts p.2 m s))
  | .publish address domainValue _ data =>
      inferInstanceAs (Decidable (∀ p ∈ w.1.findByAddress address, p.2.onDataPublished = true →
        (p.2.signal.metadata.isLinear = true → data.length < 16) ∧
        ∀ u ∈ w.1.domainUpdate p.2 domainValue, ∀ d ∈ w.1.signals,
          d.2.table.map TablePtr.address = some u.1 → d.2.onDataPublished = true))

/-! ## Tables of the two sides -/

/-- What a table extrapolates from. -/
def line (t : TablePtr) : Int64 × Int64 × Int64 := (t.table.index, t.table.value, t.table.delta)

/-- The line of a signal. -/
def ownLine (e : RegisteredLocalSignal) : Option (Int64 × Int64 × Int64) := e.table.map line

/-- The peer's line of a signal. -/
def peerLine (s : Option RemoteSignal) : Option (Int64 × Int64 × Int64) :=
  (s.bind RemoteSignal.table).map line

/-- The peer has the line of a signal, or the signal has never been described
to it and has the line that its metadata give. -/
def TablesAgree (e : RegisteredLocalSignal) (s : Option RemoteSignal) : Prop :=
  peerLine s = ownLine e ∨ e.onDataPublished = false ∧ peerLine s = none ∧
    ownLine e = some (line ⟨0, .new e.signal.metadata⟩)

/-- Both sides, when everything that was sent is taken. -/
structure Agreed (c : LocalSignals) (r : RemoteSignals) : Prop where
  joined : Joined c r
  tables : ∀ k e, OrderedMap.find? c.signals k = some e → e.signal.id ≠ "" →
    TablesAgree e (r.seen e.signal.id)

section Tables

variable {c : LocalSignals} {r r' : RemoteSignals} {k : UInt32} {e : RegisteredLocalSignal}

theorem TablesAgree.of_eq {new : RegisteredLocalSignal} {s s' : Option RemoteSignal}
    (h : TablesAgree e s) (hslot : new.onDataPublished = e.onDataPublished)
    (hmetadata : new.signal.metadata = e.signal.metadata) (hown : ownLine new = ownLine e)
    (hpeer : peerLine s' = peerLine s) : TablesAgree new s' := by
  unfold TablesAgree
  rw [hslot, hmetadata, hown, hpeer]
  exact h

/-- The tables of all signals after a change of one. -/
theorem Agreed.put (h : Agreed c r) (hk : OrderedMap.find? c.signals k = some e) {n : Nat}
    {new : RegisteredLocalSignal} (hjoined : Joined ((c.withNextTable n).update k fun _ => new) r')
    (hid : new.signal.id = e.signal.id)
    (hother : ∀ j, e.signal.id ≠ j → peerLine (r'.seen j) = peerLine (r.seen j))
    (hnew : e.signal.id ≠ "" → TablesAgree new (r'.seen e.signal.id)) :
    Agreed ((c.withNextTable n).update k fun _ => new) r' := by
  refine ⟨hjoined, ?_⟩
  intro j d hj hne
  rw [LocalSignals.find?_put hk] at hj
  by_cases hkj : k = j
  · rw [if_pos hkj] at hj
    rw [← Option.some.inj hj] at hne ⊢
    rw [hid] at hne ⊢
    exact hnew hne
  · rw [if_neg hkj] at hj
    have hdifferent : e.signal.id ≠ d.signal.id := fun heq =>
      hkj (h.joined.registered.ids k e j d hk hj heq)
    exact (h.tables j d hj hne).of_eq rfl rfl rfl (hother _ hdifferent)

theorem ownLine_modifyTable (e : RegisteredLocalSignal) (a : Nat) {f : LinearTable → LinearTable}
    (hf : ∀ t : TablePtr, line { t with table := f t.table } = line t) :
    ownLine (e.modifyTable a f) = ownLine e := by
  unfold ownLine RegisteredLocalSignal.modifyTable
  rw [Option.map_map]
  congr 1
  funext t
  rw [Function.comp_apply]
  split
  · exact hf t
  · rfl

theorem peerLine_modifyTable (s : Option RemoteSignal) (a : Nat) {f : LinearTable → LinearTable}
    (hf : ∀ t : TablePtr, line { t with table := f t.table } = line t) :
    peerLine (s.map fun s => s.modifyTable a f) = peerLine s := by
  cases s with
  | none => rfl
  | some s =>
      change (s.table.map _).map line = s.table.map line
      rw [Option.map_map]
      congr 1
      funext t
      rw [Function.comp_apply]
      split
      · exact hf t
      · rfl

/-- Driving a table leaves its line. -/
theorem line_driveTo (index : Int64) (t : TablePtr) :
    line { t with table := t.table.driveTo index } = line t := rfl

theorem Agreed.drive (h : Agreed c r) (table : Option Nat) (index : Int64) :
    Agreed (c.drive table index) r := by
  cases table with
  | none => exact h
  | some a =>
      refine ⟨h.joined.modifyLocal a _, ?_⟩
      intro j d hj hne
      rw [LocalSignals.drive_of_some, LocalSignals.find?_modifyTable] at hj
      obtain ⟨d', hd', rfl⟩ := Option.map_eq_some_iff.mp hj
      exact (h.tables j d' hd' hne).of_eq rfl rfl
        (ownLine_modifyTable d' a (line_driveTo index)) rfl

/-- What the peer does to its lines does not matter if it leaves them. -/
theorem Agreed.peer (h : Agreed c r) (hjoined : Joined c r')
    (hpeer : ∀ j, peerLine (r'.seen j) = peerLine (r.seen j)) : Agreed c r' := by
  refine ⟨hjoined, ?_⟩
  intro j d hj hne
  exact (h.tables j d hj hne).of_eq rfl rfl rfl (hpeer _)

end Tables

/-! ## Descriptions -/

section Descriptions

variable {c : LocalSignals} {e new : RegisteredLocalSignal} {s s' : RemoteSignal} {m : Metadata}

/-- The table of a linear-rule signal after a refresh. -/
theorem refreshedTable_of_linear (hlinear : e.signal.metadata.isLinear = true) (fresh : Nat) :
    ∃ t, e.refreshedTable fresh = some t ∧ t.table = e.ownTable.update e.signal.metadata := by
  unfold RegisteredLocalSignal.refreshedTable RegisteredLocalSignal.ownTable
  rw [if_pos (of_decide_eq_true hlinear)]
  cases e.table with
  | some t => exact ⟨_, rfl, rfl⟩
  | none => exact ⟨_, rfl, rfl⟩

/-- The table of a linear-rule signal after a description. -/
theorem Described.table_of_linear (h : Described s m s') (hlinear : m.isLinear = true) :
    ∃ u, s'.table = some u ∧ u.table = s.ownTable.update m := by
  have htable := h.table
  rw [if_pos (of_decide_eq_true hlinear)] at htable
  exact Option.map_eq_some_iff.mp htable

/-- A refreshed table and a described one have the same line if they agreed about
what the metadata leave open. -/
theorem lines_of_described (h : Described s m s') (hlinear : new.signal.metadata.isLinear = true)
    (hnew : new.table = e.refreshedTable c.nextTable) (hsignal : new.signal = e.signal)
    (hrule : m.isLinear = e.signal.metadata.isLinear)
    (hstart : m.linearStartDelta = e.signal.metadata.linearStartDelta)
    (hindex : m.valueIndex.getD s.ownTable.index =
      e.signal.metadata.valueIndex.getD e.ownTable.index)
    (hvalue : e.signal.metadata.linearStartDelta.1.getD s.ownTable.value =
      e.signal.metadata.linearStartDelta.1.getD e.ownTable.value)
    (hdelta : e.signal.metadata.linearStartDelta.2.getD s.ownTable.delta =
      e.signal.metadata.linearStartDelta.2.getD e.ownTable.delta) :
    ∃ t u, new.table = some t ∧ s'.table = some u ∧ line u = line t ∧
      t.table = e.ownTable.update e.signal.metadata ∧ u.table = s.ownTable.update m := by
  rw [hsignal] at hlinear
  obtain ⟨t, ht, htable⟩ := refreshedTable_of_linear hlinear c.nextTable
  obtain ⟨u, hu, htable'⟩ := h.table_of_linear (hrule.trans hlinear)
  refine ⟨t, u, hnew.trans ht, hu, ?_, htable, htable'⟩
  unfold line
  rw [htable, htable', LinearTable.index_update, LinearTable.index_update, hindex,
    LinearTable.value_update, LinearTable.value_update, hstart, hvalue,
    LinearTable.delta_update, LinearTable.delta_update, hstart, hdelta]

/-- The indexes agree if the lines and the driven indexes do. -/
theorem IndexAgrees.of_lines (hvalueIndex : s'.valueIndex = new.valueIndex)
    (h : new.signal.metadata.isLinear = true → ∃ t u, new.table = some t ∧ s'.table = some u ∧
      line u = line t ∧ u.table.drivenIndex = t.table.drivenIndex) : IndexAgrees new s' := by
  refine ⟨hvalueIndex, ?_⟩
  intro hlinear
  obtain ⟨t, u, ht, hu, hline, hdriven⟩ := h hlinear
  obtain ⟨hindex, hrest⟩ := Prod.mk.inj hline
  obtain ⟨hvalue, hdelta⟩ := Prod.mk.inj hrest
  exact ⟨t, u, ht, hu, hindex, hvalue, hdelta, hdriven⟩

theorem IndexAgrees.lines (h : IndexAgrees new s')
    (hlinear : new.signal.metadata.isLinear = true) :
    ∃ t u, new.table = some t ∧ s'.table = some u ∧ line u = line t := by
  obtain ⟨t, u, ht, hu, hindex, hvalue, hdelta, -⟩ := h.table hlinear
  refine ⟨t, u, ht, hu, ?_⟩
  rw [line, line, hindex, hvalue, hdelta]

/-- Where the lines agree, so do the tables. -/
theorem tablesAgree_of_lines (hshown : Shown new s') (hsync : new.InSync)
    (h : new.signal.metadata.isLinear = true → ∃ t u, new.table = some t ∧ s'.table = some u ∧
      line u = line t) : TablesAgree new (some s') := by
  refine .inl ?_
  change s'.table.map line = new.table.map line
  by_cases hlinear : new.signal.metadata.isLinear = true
  · obtain ⟨t, u, ht, hu, hline⟩ := h hlinear
    rw [ht, hu, Option.map_some, Option.map_some, hline]
  · have hnone : new.table.isSome = false := by
      rw [show new.table.isSome = _ from hsync]
      exact Bool.eq_false_iff.mpr hlinear
    have hnone' := hshown.table.trans hnone
    rw [Option.isSome_eq_false_iff, Option.isNone_iff_eq_none] at hnone hnone'
    rw [hnone, hnone']

/-- Lines that agree, of tables that are there or not. -/
theorem ownTable_of_lines (h : peerLine (some s) = ownLine e) :
    s.ownTable.index = e.ownTable.index ∧ s.ownTable.value = e.ownTable.value ∧
      s.ownTable.delta = e.ownTable.delta := by
  change s.table.map line = e.table.map line at h
  unfold RemoteSignal.ownTable RegisteredLocalSignal.ownTable
  cases ht : e.table with
  | none =>
      rw [ht, Option.map_none, Option.map_eq_none_iff] at h
      rw [h]
      exact ⟨rfl, rfl, rfl⟩
  | some t =>
      rw [ht, Option.map_some] at h
      obtain ⟨u, hu, heq⟩ := Option.map_eq_some_iff.mp h
      rw [hu]
      obtain ⟨hindex, hrest⟩ := Prod.mk.inj heq
      obtain ⟨hvalue, hdelta⟩ := Prod.mk.inj hrest
      exact ⟨hindex, hvalue, hdelta⟩

theorem Resumes.index (h : Resumes e) : ResumesIndex e := fun hlinear => (h hlinear).1

/-- Where the indexes agree, so do the tables. -/
theorem IndexAgrees.tablesAgree (h : IndexAgrees new s') (hshown : Shown new s')
    (hsync : new.InSync) : TablesAgree new (some s') :=
  tablesAgree_of_lines hshown hsync h.lines

/-- What a signal has whose subscription begins. -/
theorem opened_eq (c : LocalSignals) (e : RegisteredLocalSignal) (isExplicit : Bool) :
    (c.opened e isExplicit).signal = e.signal ∧
      (c.opened e isExplicit).isExplicit = decide (e.signal.metadata.rule = explicitRule) ∧
        (c.opened e isExplicit).valueIndex = e.valueIndex ∧
          (c.opened e isExplicit).table = e.refreshedTable c.nextTable := by
  cases isExplicit <;> exact ⟨rfl, rfl, rfl, rfl⟩

section Openings

variable {r : RemoteSignals} {signo : UInt32}
  (hdescribed : Described (admitted r e.signal.id signo)
    (.ofJson (e.signal.metadata.withValueIndex e.valueIndex)) s')

include hdescribed

/-- The peer counts from the index that is sent. -/
theorem valueIndex_opened (isExplicit : Bool) :
    s'.valueIndex = (c.opened e isExplicit).valueIndex := by
  obtain ⟨-, -, hindex, -⟩ := opened_eq c e isExplicit
  rw [hdescribed.valueIndex, hindex, Metadata.valueIndex_withValueIndex]
  rfl

/-- **The lines when a subscription begins.**  The peer's table is driven to the
index that is sent, and the publisher's to the one that its metadata say. -/
theorem lines_opened (isExplicit : Bool) (hagree : TablesAgree e (r.seen e.signal.id))
    (hresumes : ResumesIndex e)
    (hlinear : (c.opened e isExplicit).signal.metadata.isLinear = true) :
    ∃ t u, (c.opened e isExplicit).table = some t ∧ s'.table = some u ∧ line u = line t ∧
      t.table.drivenIndex = e.signal.metadata.valueIndex.getD e.ownTable.drivenIndex ∧
      u.table.drivenIndex = e.valueIndex := by
  obtain ⟨hsignal, -, -, htable⟩ := opened_eq c e isExplicit
  have hpeer : peerLine (some (admitted r e.signal.id signo)) =
      peerLine (r.seen e.signal.id) := by
    change (admitted r e.signal.id signo).table.map line = _
    rw [table_admitted]
    rfl
  -- What the metadata leave open is the same, or is what they said before.
  have hopen : e.signal.metadata.linearStartDelta.1.getD
        (admitted r e.signal.id signo).ownTable.value =
          e.signal.metadata.linearStartDelta.1.getD e.ownTable.value ∧
      e.signal.metadata.linearStartDelta.2.getD
        (admitted r e.signal.id signo).ownTable.delta =
          e.signal.metadata.linearStartDelta.2.getD e.ownTable.delta := by
    rcases hagree with heq | ⟨-, hnone, hfresh⟩
    · obtain ⟨-, hvalue, hdelta⟩ := ownTable_of_lines (hpeer.trans heq)
      rw [hvalue, hdelta]
      exact ⟨rfl, rfl⟩
    · rw [← hpeer] at hnone
      have hnone' : (admitted r e.signal.id signo).table = none := Option.map_eq_none_iff.mp hnone
      obtain ⟨t, ht, heq⟩ := Option.map_eq_some_iff.mp hfresh
      obtain ⟨-, hrest⟩ := Prod.mk.inj heq
      obtain ⟨hvalue, hdelta⟩ := Prod.mk.inj hrest
      unfold RemoteSignal.ownTable RegisteredLocalSignal.ownTable
      rw [hnone', ht]
      change _ = Option.getD _ t.table.value ∧ _ = Option.getD _ t.table.delta
      rw [hvalue, hdelta]
      unfold LinearTable.new
      rw [LinearTable.value_update, LinearTable.delta_update]
      constructor
      · cases e.signal.metadata.linearStartDelta.1 <;> rfl
      · cases e.signal.metadata.linearStartDelta.2 <;> rfl
  have hrule : (Metadata.ofJson (e.signal.metadata.withValueIndex e.valueIndex)).isLinear =
      e.signal.metadata.isLinear := by
    unfold Metadata.isLinear
    rw [Metadata.rule_withValueIndex]
  obtain ⟨t, u, ht, hu, hline, hlocal, hremote⟩ := lines_of_described (c := c) hdescribed hlinear
    htable hsignal hrule (Metadata.linearStartDelta_withValueIndex _ _) (by
      rw [Metadata.valueIndex_withValueIndex, hresumes (hsignal ▸ hlinear)]
      rfl) hopen.1 hopen.2
  refine ⟨t, u, ht, hu, hline, ?_, ?_⟩
  · rw [hlocal, LinearTable.drivenIndex_update]
  · rw [hremote, LinearTable.drivenIndex_update, Metadata.valueIndex_withValueIndex]
    rfl

/-- **The beginning of a subscription.** -/
theorem indexAgrees_opened (isExplicit : Bool) (hagree : TablesAgree e (r.seen e.signal.id))
    (hresumes : Resumes e) : IndexAgrees (c.opened e isExplicit) s' := by
  obtain ⟨hsignal, -⟩ := opened_eq c e isExplicit
  apply IndexAgrees.of_lines (valueIndex_opened hdescribed isExplicit)
  intro hlinear
  obtain ⟨t, u, ht, hu, hline, hlocal, hremote⟩ :=
    lines_opened hdescribed isExplicit hagree hresumes.index hlinear
  refine ⟨t, u, ht, hu, hline, ?_⟩
  rw [hlocal, hremote]
  exact (hresumes (hsignal ▸ hlinear)).2.symm

end Openings

/-- **A change of metadata.** -/
theorem indexAgrees_changed (hagree : peerLine (some s) = ownLine e) (hrestarts : Restarts e m s)
    (h : Described s m s') : IndexAgrees (c.changed e m) s' := by
  apply IndexAgrees.of_lines
  · rw [h.valueIndex]
    exact hrestarts.1
  · intro hlinear
    obtain ⟨hindex, hvalue, hdelta⟩ := ownTable_of_lines hagree
    have hown : (e.described m).ownTable = e.ownTable := rfl
    obtain ⟨t, u, ht, hu, hline, hlocal, hremote⟩ :=
      lines_of_described (c := c) (e := e.described m) h hlinear rfl rfl rfl rfl
        (by rw [hown, hindex]; rfl) (by rw [hown, hvalue]) (by rw [hown, hdelta])
    refine ⟨t, u, ht, hu, hline, ?_⟩
    rw [hlocal, hremote, LinearTable.drivenIndex_update, LinearTable.drivenIndex_update, hown]
    change m.valueIndex.getD _ = m.valueIndex.getD _
    cases hm : m.valueIndex with
    | none => exact congrArg _ (hrestarts.2 hlinear hm)
    | some i => rfl

end Descriptions

/-! ## Deeds -/

/-- The condition on what happens, deed by deed. -/
def ResumingDeed (c : LocalSignals) (r : RemoteSignals) : Deed → Prop
  | .opens _ e _ => Resumes e
  | .describes _ _ _ => False
  | .changes _ e m => ∀ s ∈ r.seen e.signal.id, e.signal.id ≠ "" → Restarts e m s
  | .sets _ a _ => ∀ d ∈ c.signals, d.2.table.map TablePtr.address = some a →
      d.2.onDataPublished = true
  | .emits _ e _ data => e.signal.metadata.isLinear = true → data.length < 16
  | _ => True

section Deeds

variable {c : LocalSignals} {r : RemoteSignals}

/-- Any other message says nothing about an index. -/
theorem signalAgrees_of_ne {m : Sent} (h : ∀ k params, m.message ≠ .ofMetadata k "signal" params) :
    SignalAgrees r m :=
  fun k params hm => absurd hm (h k params)

theorem signalAgrees_metadata {m : Sent} {signo : UInt32} {method : String} {params : Json}
    (hm : m.message = .ofMetadata signo method params) (hmethod : method ≠ "signal") :
    SignalAgrees r m := by
  apply signalAgrees_of_ne
  rw [hm]
  exact fun k params' => ofMetadata_ne_signal hmethod signo k params params'

theorem signalAgrees_data {m : Sent} {signo : UInt32} {data : Bytes}
    (hm : m.message = .data signo data) : SignalAgrees r m := by
  apply signalAgrees_of_ne
  rw [hm]
  exact fun k params => data_ne_signal signo k data params

/-- A `signal` message that leaves the indexes agreeing. -/
theorem signalAgrees_signal {m : Sent} {k : UInt32} {params : Json}
    (hm : m.message = .ofMetadata k "signal" params) {new : RegisteredLocalSignal}
    (hfind : OrderedMap.find? m.sender.signals k = some new)
    (h : new.signal.id ≠ "" → r.numbered k = some new.signal.id ∧
      ∃ r' s, take r m = some r' ∧ r'.seen new.signal.id = some s ∧ IndexAgrees new s) :
    SignalAgrees r m := by
  intro k' params' heq e he hne
  rw [← signo_of_signal (hm.symm.trans heq)] at he ⊢
  rw [hfind] at he
  rw [← Option.some.inj he] at hne ⊢
  exact h hne

theorem peerLine_extends {r' : RemoteSignals} (h : Extends r r') (j : String) :
    peerLine (r'.seen j) = peerLine (r.seen j) := by
  rcases h.seen j with hsame | ⟨hnone, hnew⟩
  · rw [hsame]
  · rw [hnone, hnew]
    rfl

/-- **A subscription begins**, and the peer, if the signal has an id, is told of
the signal as it is by then. -/
theorem Agreed.opened (h : Agreed c r) {k : UInt32} {e : RegisteredLocalSignal}
    (hk : OrderedMap.find? c.signals k = some e) (isExplicit : Bool) (hresumes : ResumesIndex e)
    {r' : RemoteSignals} (hjoined : Joined (c.doDeed (.opens k e isExplicit)) r')
    (hother : ∀ j, e.signal.id ≠ j → r'.seen j = r.seen j)
    (hself : e.signal.id ≠ "" → ∃ s, r'.seen e.signal.id = some s ∧
      Described (admitted r e.signal.id k)
        (.ofJson (e.signal.metadata.withValueIndex e.valueIndex)) s) :
    Agreed (c.doDeed (.opens k e isExplicit)) r' := by
  obtain ⟨hsignal, -⟩ := opened_eq c e isExplicit
  have hfind : OrderedMap.find? (c.doDeed (.opens k e isExplicit)).signals k =
      some (c.opened e isExplicit) := by
    change OrderedMap.find? ((c.withNextTable _).update k _).signals k = _
    rw [LocalSignals.find?_put hk, if_pos rfl]
  apply h.put hk hjoined (congrArg LocalSignal.id hsignal)
  · intro j hj
    rw [hother j hj]
  · intro hid
    obtain ⟨s, hs, hdescribed⟩ := hself hid
    obtain ⟨s', hs', hshown⟩ := hjoined.shown k _ hfind rfl (by rw [hsignal]; exact hid)
    rw [hsignal, hs] at hs'
    rw [← Option.some.inj hs'] at hshown
    rw [hs]
    apply tablesAgree_of_lines hshown (hjoined.registered.inSync k _ hfind)
    intro hlinear
    obtain ⟨t, u, ht, hu, hline, -⟩ :=
      lines_opened hdescribed isExplicit (h.tables k e hk hid) hresumes hlinear
    exact ⟨t, u, ht, hu, hline⟩

/-- **A deed**, whose messages are taken: all of them lawfully, and the two
sides agree again. -/
theorem Agreed.deed (h : Agreed c r) {deed : Deed} (hfits : c.FitsDeed deed)
    (hok : ResumingDeed c r deed) (i : Act) (sender : LocalSignals)
    (hframed : Framed sender c deed) :
    ∃ r', Carries take SignalAgrees r (deed.messages.map fun m => ⟨m, i, sender⟩) r' ∧
      Agreed (c.doDeed deed) r' := by
  cases deed with
  | announce ids =>
      obtain ⟨r', events, hstep, hextends, hjoined⟩ := h.joined.announce ids
      refine ⟨r', Carries.single ?_ (take_of_step hstep), h.peer hjoined ?_⟩
      · exact signalAgrees_metadata rfl (by decide)
      · exact peerLine_extends hextends
  | book k e isExplicit count =>
      refine ⟨r, rfl, ?_⟩
      apply h.put (n := c.nextTable) hfits (h.joined.book hfits isExplicit count) rfl
      · exact fun _ _ => rfl
      · exact fun hne => (h.tables k e hfits hne).of_eq rfl rfl rfl rfl
  | opens k e isExplicit =>
      obtain ⟨hopened, -⟩ := opened_eq c e isExplicit
      have hfind : OrderedMap.find? (c.doDeed (.opens k e isExplicit)).signals k =
          some (c.opened e isExplicit) := by
        change OrderedMap.find? ((c.withNextTable _).update k _).signals k = _
        rw [LocalSignals.find?_put hfits, if_pos rfl]
      have hsent := (hframed k rfl).trans hfind
      have hsigno := (h.joined.registered.signo k e hfits).1
      have hmessage : e.signalMessage = .ofMetadata k "signal"
          (e.signal.metadata.withValueIndex e.valueIndex) := by
        unfold RegisteredLocalSignal.signalMessage
        rw [hsigno]
      by_cases hid : e.signal.id = ""
      · obtain ⟨hfirst, hsecond, hjoined⟩ := h.joined.opens_unnamed hfits isExplicit hid
        refine ⟨r, Carries.cons ?_ (take_of_step hfirst)
          (Carries.single ?_ (take_of_step hsecond)), ?_⟩
        · exact signalAgrees_metadata rfl (by decide)
        · apply signalAgrees_signal hmessage hsent
          intro hne
          rw [hopened] at hne
          exact absurd hid hne
        · exact h.opened hfits isExplicit hok.index hjoined (fun _ _ => rfl)
            fun hne => absurd hid hne
      · obtain ⟨r₁, r', s', events₁, events, hfirst, hsecond, hknown, hchanges, -, hdescribed,
          hjoined⟩ := h.joined.opens hfits isExplicit hid
        have hindex := indexAgrees_opened (c := c) hdescribed isExplicit
          (h.tables k e hfits hid) hok
        refine ⟨r', Carries.cons ?_ (take_of_step hfirst)
          (Carries.single ?_ (take_of_step hsecond)), ?_⟩
        · exact signalAgrees_metadata rfl (by decide)
        · apply signalAgrees_signal hmessage hsent
          intro _
          rw [hopened]
          exact ⟨hknown, r', s', take_of_step hsecond, hchanges.self, hindex⟩
        · exact h.opened hfits isExplicit hok.index hjoined (fun _ hj => hchanges.other hj)
            fun _ => ⟨s', hchanges.self, hdescribed⟩
  | closes k e isExplicit count =>
      obtain ⟨r', events, hstep, hseen, hjoined⟩ := h.joined.closes hfits isExplicit count
      have hpeer (j : String) : peerLine (r'.seen j) = peerLine (r.seen j) := by
        rcases hseen j with hsame | ⟨-, s, hs, hs'⟩
        · rw [hsame]
        · rw [hs, hs']
          rfl
      refine ⟨r', Carries.single ?_ (take_of_step hstep), ?_⟩
      · exact signalAgrees_metadata rfl (by decide)
      · apply h.put (n := c.nextTable) hfits hjoined rfl
        · exact fun j _ => hpeer j
        · intro hne
          have hagree : TablesAgree e (r'.seen e.signal.id) :=
            (h.tables k e hfits hne).of_eq rfl rfl rfl (hpeer _)
          rcases hagree with heq | ⟨-, hrest⟩
          · exact .inl heq
          · exact .inr ⟨rfl, hrest⟩
  | describes k e metadata => cases hok
  | changes k e m =>
      have hfind : OrderedMap.find? (c.doDeed (.changes k e m)).signals k =
          some (c.changed e m) := by
        change OrderedMap.find? ((c.withNextTable _).update k _).signals k = _
        rw [LocalSignals.find?_put hfits.1, if_pos rfl]
      have hsent := (hframed k rfl).trans hfind
      have hsigno := (h.joined.registered.signo k e hfits.1).1
      have hslot : e.onDataPublished = true :=
        (h.joined.registered.slots k e hfits.1).symm.trans hfits.2
      have hmessage : Message.ofMetadata e.signo "signal" m.json =
          .ofMetadata k "signal" m.json := by
        rw [hsigno]
      by_cases hid : e.signal.id = ""
      · obtain ⟨hstep, hjoined⟩ := h.joined.changes_unnamed hfits hid
        refine ⟨r, Carries.single ?_ (take_of_step hstep), ?_⟩
        · apply signalAgrees_signal hmessage hsent
          exact fun hne => absurd hid hne
        · apply h.put hfits.1 hjoined rfl
          · exact fun _ _ => rfl
          · exact fun hne => absurd hid hne
      · obtain ⟨r', s, s', events, hstep, hknown, hs, hshown, hchanges, hdescribed, hjoined⟩ :=
          h.joined.changes hfits hid
        have hagree : peerLine (some s) = ownLine e := by
          rcases h.tables k e hfits.1 hid with heq | ⟨hclosed, -⟩
          · rw [← hs]
            exact heq
          · rw [hslot] at hclosed
            cases hclosed
        have hindex := indexAgrees_changed (c := c) hagree (hok s hs hid) hdescribed
        obtain ⟨s'', hs'', hshown'⟩ := hjoined.shown k _ hfind hslot hid
        change r'.seen e.signal.id = some s'' at hs''
        rw [hchanges.self] at hs''
        rw [← Option.some.inj hs''] at hshown'
        refine ⟨r', Carries.single ?_ (take_of_step hstep), ?_⟩
        · apply signalAgrees_signal hmessage hsent
          exact fun _ => ⟨hknown, r', s', take_of_step hstep, hchanges.self, hindex⟩
        · apply h.put hfits.1 hjoined rfl
          · intro j hj
            rw [hchanges.other hj]
          · intro _
            rw [hchanges.self]
            exact hindex.tablesAgree hshown' (hjoined.registered.inSync k _ hfind)
  | sets e a p =>
      obtain ⟨f, t, r', events, hf, ht, haddress, hstep, hjoined, hnamed, hunnamed⟩ :=
        h.joined.sets hfits
      have hconnected : f.onDataPublished = true := by
        apply hok (e.domainSigno, f) (OrderedMap.mem_of_find?_eq_some hf)
        rw [ht, Option.map_some, haddress]
      refine ⟨r', Carries.single (signalAgrees_data rfl) (take_of_step hstep), hjoined, ?_⟩
      intro j d hj hne
      change OrderedMap.find? (c.modifyTable a _).signals j = some d at hj
      rw [LocalSignals.find?_modifyTable] at hj
      obtain ⟨d, hd, rfl⟩ := Option.map_eq_some_iff.mp hj
      change TablesAgree _ (r'.seen d.signal.id)
      by_cases hown : j = e.domainSigno
      · -- The owner of the table.
        rw [hown, hf] at hd
        obtain rfl := Option.some.inj hd
        obtain ⟨s, u, hs, hu, hchanges⟩ := hnamed ⟨hconnected, hne⟩
        have hagree : peerLine (some s) = ownLine f := by
          rcases h.tables _ f hf hne with heq | ⟨hclosed, -⟩
          · rw [← hs]
            exact heq
          · rw [hconnected] at hclosed
            cases hclosed
        change s.table.map line = f.table.map line at hagree
        rw [ht, hu] at hagree
        obtain ⟨-, hrest⟩ := Prod.mk.inj (Option.some.inj hagree)
        obtain ⟨-, hdelta⟩ := Prod.mk.inj hrest
        refine .inl ?_
        rw [hchanges.self]
        change some (line _) = (f.table.map _).map line
        rw [ht, Option.map_some, Option.map_some, if_pos haddress]
        unfold line LinearTable.updatePayload
        rw [hdelta]
      · have hother : ownLine (d.modifyTable a fun t => t.updatePayload p) = ownLine d := by
          change (d.table.map _).map line = d.table.map line
          cases hu : d.table with
          | none => rfl
          | some u =>
              have hnot : u.address ≠ a := by
                intro heq
                apply hown
                exact (h.joined.registered.tables _ f t hf ht).2 j d u hd hu
                  (heq.trans haddress.symm)
              rw [Option.map_some, if_neg hnot]
        have hpeer : r'.seen d.signal.id = r.seen d.signal.id := by
          by_cases hshown : f.onDataPublished = true ∧ f.signal.id ≠ ""
          · obtain ⟨s, u, -, -, hchanges⟩ := hnamed hshown
            apply hchanges.other
            intro heq
            exact hown (h.joined.registered.ids _ f j d hf hd heq).symm
          · rw [hunnamed hshown]
        exact (h.tables j d hd hne).of_eq rfl rfl hother (congrArg peerLine hpeer)
  | emits k e sampleCount data =>
      obtain ⟨hk, hslot⟩ := hfits
      obtain ⟨index, hindex⟩ : ∃ index, index = e.valueIndex + Int64.ofNat sampleCount := ⟨_, rfl⟩
      have hindexed : Agreed (c.update k fun _ => e.withValueIndex index) r := by
        apply h.put (n := c.nextTable) hk (h.joined.indexed hk index) rfl
        · exact fun _ _ => rfl
        · exact fun hne => (h.tables k e hk hne).of_eq rfl rfl rfl rfl
      have hcounted : Agreed (c.doDeed (.emits k e sampleCount data)) r := by
        have hdrive := hindexed.drive (LocalSignals.drivenTable e) index
        rw [hindex] at hdrive
        exact hdrive
      by_cases hid : e.signal.id = ""
      · have hstep := h.joined.emits_unnamed hk hid data
        exact ⟨r, Carries.single (signalAgrees_data rfl) (take_of_step hstep), hcounted⟩
      · obtain ⟨hknown, s, hs, hshown, hclean⟩ := h.joined.seen_of_connected hk hslot hid
        cases htable : s.table with
        | some u =>
            have hlinear : e.signal.metadata.isLinear = true := by
              rw [← show e.table.isSome = _ from h.joined.registered.inSync k e hk, ← hshown.table,
                htable]
              rfl
            obtain ⟨events, hstep⟩ := RemoteSignals.take_data_short h.joined.reliable hknown hs
              hshown.isSubscribed hclean htable (hok hlinear)
            exact ⟨r, Carries.single (signalAgrees_data rfl) (take_of_step hstep), hcounted⟩
        | none =>
            by_cases hexplicit : s.isExplicit = true
            · obtain ⟨r₁, address, hstep, -, hchanges, hnumbered⟩ := RemoteSignals.take_explicit
                h.joined.reliable hknown hs hshown.isSubscribed hclean htable hexplicit data rfl
              refine ⟨_, Carries.single (signalAgrees_data rfl) (take_of_step hstep),
                hcounted.peer (hcounted.joined.drives hs hchanges hnumbered _) ?_⟩
              intro j
              have hfirst : peerLine (r₁.seen j) = peerLine (r.seen j) := by
                by_cases hj : e.signal.id = j
                · rw [← hj, hchanges.self, hs]
                  rfl
                · rw [hchanges.other hj]
              rw [← hfirst]
              cases r.lockedTable s with
              | none => rfl
              | some found =>
                  change peerLine ((r₁.modifyTable found.1 _).seen j) = _
                  rw [RemoteSignals.seen_modifyTable]
                  exact peerLine_modifyTable _ _ (line_driveTo _)
            · obtain ⟨address, hstep, -⟩ := RemoteSignals.take_implicit h.joined.reliable hknown hs
                hshown.isSubscribed hclean htable (Bool.eq_false_iff.mpr hexplicit) data
              exact ⟨r, Carries.single (signalAgrees_data rfl) (take_of_step hstep), hcounted⟩

end Deeds

/-! ## Acts -/

section Acts

variable {c : LocalSignals} {r : RemoteSignals}

/-- Deeds whose condition does not depend on the peer. -/
theorem Agreed.deeds (h : Agreed c r) (i : Act) (sender : LocalSignals) {deeds : List Deed}
    (hmeets : Meets LocalSignals.doDeed (fun c d =>
      FitsDeed c d ∧ Framed sender c d ∧ ∀ r, ResumingDeed c r d) c deeds) :
    ∃ r', Carries take SignalAgrees r
        ((deeds.flatMap Deed.messages).map fun m => ⟨m, i, sender⟩) r' ∧
      Agreed (deeds.foldl LocalSignals.doDeed c) r' := by
  refine carries_deeds ?_ deeds c r h hmeets
  intro c r deed h hfits hframed hok
  exact h.deed hfits (hok r) i sender hframed

/-- **What happens on the publishing side**, whose messages are taken. -/
theorem Agreed.act (h : Agreed c r) (i : Act) (hok : Resuming (c, r) i) :
    ∃ r', Carries take SignalAgrees r (send c i).2 r' ∧ Agreed (send c i).1 r' := by
  obtain ⟨deeds, hdoes, hact, hmeets⟩ := LocalSignals.deeds_of_act h.joined.registered.distinct i
  rw [send_of_act hact]
  have hsingle (deed : Deed) (hfits : c.FitsDeed deed) (hdeed : ResumingDeed c r deed) :
      ∃ r', Carries take SignalAgrees r
          (([deed].flatMap Deed.messages).map fun m => ⟨m, i, c.doDeed deed⟩) r' ∧
        Agreed (c.doDeed deed) r' := by
    have hcarried := h.deed hfits hdeed i (c.doDeed deed) (framed_single c deed)
    rw [List.flatMap_cons, List.flatMap_nil, List.append_nil]
    exact hcarried
  cases hdoes with
  | announce ids => exact hsingle (.announce ids) trivial trivial
  | unknown hfind => exact ⟨r, rfl, h⟩
  | again hfind hsub => exact hsingle _ hmeets.1 trivial
  | @alone id k e hfind hsub hdomain =>
      exact hsingle _ hmeets.1 (hok (k, e) hfind (Bool.eq_false_iff.mpr hsub)).1
  | @joins id k d e domain hfind hsub hdomain hsub' =>
      obtain ⟨hfirst, hsecond, -⟩ := hmeets
      have hresumes := (hok (k, e) hfind (Bool.eq_false_iff.mpr hsub)).1
      apply h.deeds
      refine ⟨⟨hfirst, ?_, fun _ => trivial⟩, ⟨hsecond, ?_, fun _ => hresumes⟩, trivial⟩
      · exact fun _ hk => nomatch hk
      · exact framed_single _ _
  | @both id k d e domain hfind hsub hdomain hsub' =>
      obtain ⟨hfirst, hsecond, -⟩ := hmeets
      obtain ⟨hresumes, hresumes'⟩ := hok (k, e) hfind (Bool.eq_false_iff.mpr hsub)
      have hdomain' := hresumes' (d, domain) hdomain (Bool.eq_false_iff.mpr hsub')
      have hne : k ≠ d := by
        have hk := LocalSignals.find?_of_findById h.joined.registered.distinct hfind
        exact (LocalSignals.ne_of_domainOf h.joined.registered.distinct hk hdomain).symm
      apply h.deeds
      refine ⟨⟨hfirst, ?_, fun _ => hdomain'⟩, ⟨hsecond, ?_, fun _ => hresumes⟩, trivial⟩
      · intro j hj
        rw [← Option.some.inj hj]
        change OrderedMap.find? ((LocalSignals.withNextTable _ _).update k _).signals d = _
        rw [LocalSignals.find?_put hsecond, if_neg hne]
      · exact framed_single _ _
  | ends hends =>
      refine h.deeds _ _ (meets_ending ?_ deeds c hends hmeets)
      intro c d hd r
      cases d with
      | book k e isExplicit count => trivial
      | closes k e isExplicit count => trivial
      | announce ids => cases hd
      | opens k e isExplicit => cases hd
      | describes k e m => cases hd
      | changes k e m => cases hd
      | sets e a p => cases hd
      | emits k e sampleCount data => cases hd
  | unregistered hfind => exact ⟨r, rfl, h⟩
  | unheard hfind hslot => exact absurd (hok _ hfind).1 hslot
  | changes hfind hslot => exact hsingle _ hmeets.1 (hok _ hfind).2
  | dropped hfind => exact ⟨r, rfl, h⟩
  | @emits address domainValue sampleCount data k e hfind hslot hset =>
      exact hsingle _ hmeets.1 (hok (k, e) hfind hslot).1
  | @sets address domainValue sampleCount data k e e' a p hfind hslot hset he' =>
      obtain ⟨hfirst, hsecond, -⟩ := hmeets
      obtain ⟨hshort, howner⟩ := hok (k, e) hfind hslot
      have hshort' : ∀ r, ResumingDeed (c.doDeed (.sets e a p)) r
          (.emits k e' sampleCount data) := by
        rw [he']
        exact fun _ => hshort
      apply h.deeds
      refine ⟨⟨hfirst, ?_, fun _ => howner (a, p) hset⟩, ⟨hsecond, ?_, hshort'⟩, trivial⟩
      · exact fun _ hk => nomatch hk
      · exact fun _ hk => nomatch hk

end Acts

/-! ## Runs -/

/-- Nothing has been described. -/
theorem agreed_registered (signals : List LocalSignal) (hids : (signals.map LocalSignal.id).Nodup)
    (hcount : signals.length + 1 < 2 ^ 32) : Agreed (registered signals) {} := by
  obtain ⟨hregistered, huntouched⟩ := LocalSignals.registered_registered signals hids hcount
  refine ⟨joined_registered hregistered fun k e hk => (huntouched k e hk).1.slot, ?_⟩
  intro k e hk _
  obtain ⟨⟨hslot, -, htable⟩, -⟩ := huntouched k e hk
  change TablesAgree e none
  by_cases hrule : e.signal.metadata.rule = linearRule
  · rw [if_pos hrule] at htable
    obtain ⟨t, ht, heq⟩ := Option.map_eq_some_iff.mp htable
    refine .inr ⟨hslot, rfl, ?_⟩
    change e.table.map line = _
    rw [ht, Option.map_some, line, line, heq]
  · rw [if_neg hrule, Option.map_eq_none_iff] at htable
    refine .inl ?_
    change none = e.table.map line
    rw [htable]
    rfl

/-- **Sample indexes agree.**  Take any fixed set of signals with unique ids
and any metadata, and any interleaving of what the publishing side does with
deliveries.  If whatever is described counts as its metadata say, metadata
change only while the signal is subscribed, a table is set only while its owner
is, and what is published on a linear-rule signal is too short for a payload,
then every `signal` message that is taken leaves the receiving side with the
index, and with the table of a linear-rule signal, that the publishing side had
when it sent the message. -/
theorem sample_indexes_agree_of_resuming (signals : List LocalSignal)
    (hids : (signals.map LocalSignal.id).Nodup) (hcount : signals.length + 1 < 2 ^ 32)
    (moves : List (Move Act))
    (h : MeetsOpt (Fifo.lockstep send take) Resuming (registered signals, {})
      (Fifo.inputs moves)) :
    (∃ w, moves.foldlM (Fifo.step send take) ⟨registered signals, [], {}⟩ = some w) ∧
      MeetsOpt (Fifo.step send take) (Fifo.Delivers SignalAgrees) ⟨registered signals, [], {}⟩
        moves := by
  have hstart : Settles take SignalAgrees Agreed ⟨registered signals, [], {}⟩ {} :=
    ⟨rfl, agreed_registered signals hids hcount⟩
  have hstep (c : LocalSignals) (r : RemoteSignals) (i : Act) (hagreed : Agreed c r)
      (hok : Resuming (c, r) i) :
      ∃ r', Carries take SignalAgrees r (send c i).2 r' ∧ Agreed (send c i).1 r' :=
    hagreed.act i hok
  obtain ⟨⟨w, -, hrun, -⟩, hlaw⟩ := Fifo.settles_run hstep moves _ _ hstart h
  exact ⟨⟨w, hrun⟩, hlaw⟩

/-- The law on a run in which a value signal and its domain are subscribed,
described again, unsubscribed and subscribed once more. -/
theorem sample_indexes_agree_resubscribed :
    MeetsOpt (Fifo.lockstep send take) Resuming
        (registered [LocalSignals.timeSignal 0, LocalSignals.valueSignal 1], {})
        (Fifo.inputs [.send (.request (.subscribe "value")), .deliver, .deliver,
          .send (.publish 1 5 1 [0, 0, 0, 0, 0, 0, 0, 0]), .deliver, .deliver,
          .send (.setMetadata 1 (LocalSignals.valueSignal 1).metadata),
          .send (.request (.unsubscribe "value")), .deliver, .deliver,
          .send (.request (.subscribe "value")), .deliver, .deliver, .deliver]) ∧
      (∃ w, ([.send (.request (.subscribe "value")), .deliver, .deliver,
          .send (.publish 1 5 1 [0, 0, 0, 0, 0, 0, 0, 0]), .deliver, .deliver,
          .send (.setMetadata 1 (LocalSignals.valueSignal 1).metadata),
          .send (.request (.unsubscribe "value")), .deliver, .deliver,
          .send (.request (.subscribe "value")), .deliver, .deliver, .deliver] :
            List (Move Act)).foldlM (Fifo.step send take)
              ⟨registered [LocalSignals.timeSignal 0, LocalSignals.valueSignal 1], [], {}⟩ =
                some w) := by
  have hresuming : MeetsOpt (Fifo.lockstep send take) Resuming
      (registered [LocalSignals.timeSignal 0, LocalSignals.valueSignal 1], {})
      (Fifo.inputs [.send (.request (.subscribe "value")), .deliver, .deliver,
        .send (.publish 1 5 1 [0, 0, 0, 0, 0, 0, 0, 0]), .deliver, .deliver,
        .send (.setMetadata 1 (LocalSignals.valueSignal 1).metadata),
        .send (.request (.unsubscribe "value")), .deliver, .deliver,
        .send (.request (.subscribe "value")), .deliver, .deliver, .deliver]) := by
    decide +kernel
  exact ⟨hresuming, (sample_indexes_agree_of_resuming _ (by decide +kernel) (by decide +kernel) _
    hresuming).1⟩

/-- A value signal whose metadata say nothing about its index. -/
def plainSignal (address : Nat) : LocalSignal :=
  ⟨address, "plain", MetadataBuilder.build (MetadataBuilder.fromJson .null) [.dataType "real64"]⟩

/-- The next message, the id and the index of its sender's signal under a
number, and the index that the peer has once it has taken the message. -/
def plainIndexes (w : Channel LocalSignals Sent RemoteSignals) (k : UInt32) :
    Option (Message × Option (String × Int64) × Option Int64) :=
  w.queue.head?.map fun m =>
    (m.message, (OrderedMap.find? m.sender.signals k).map fun e => (e.signal.id, e.valueIndex),
      ((take w.receiver m).bind fun r => r.seen "plain").map RemoteSignal.valueIndex)

/-- The indexes do not agree in every run: after one sample the same metadata
are set again, the publisher counts from zero, and the peer goes on. -/
theorem unstated_index_disagrees :
    ¬ MeetsOpt (Fifo.step send take) (Fifo.Delivers SignalAgrees)
      ⟨registered [plainSignal 0], [], {}⟩
      [.send (.request (.subscribe "plain")), .deliver, .deliver,
        .send (.publish 0 0 1 [0, 0, 0, 0, 0, 0, 0, 0]), .deliver,
        .send (.setMetadata 0 (plainSignal 0).metadata), .deliver] := by
  intro hmeets
  have hindexes : (([.send (.request (.subscribe "plain")), .deliver, .deliver,
      .send (.publish 0 0 1 [0, 0, 0, 0, 0, 0, 0, 0]), .deliver,
      .send (.setMetadata 0 (plainSignal 0).metadata)] : List (Move Act)).foldlM
        (Fifo.step send take) ⟨registered [plainSignal 0], [], {}⟩).map (plainIndexes · 1) =
      some (some (.ofMetadata 1 "signal" (plainSignal 0).metadata.json,
        some ("plain", 0), some 1)) := by
    decide +kernel
  obtain ⟨w, hrun, hw⟩ := Option.map_eq_some_iff.mp hindexes
  obtain ⟨m, hm, hw⟩ := Option.map_eq_some_iff.mp hw
  obtain ⟨hmessage, hw⟩ := Prod.mk.inj hw
  obtain ⟨hsender, hpeer⟩ := Prod.mk.inj hw
  obtain ⟨e, he, hentry⟩ := Option.map_eq_some_iff.mp hsender
  obtain ⟨hid, hown⟩ := Prod.mk.inj hentry
  have hlaw : SignalAgrees w.receiver m := MeetsOpt.last _ hmeets hrun m hm
  obtain ⟨-, r', s, htake, hs, hagrees⟩ := hlaw _ _ hmessage e he (by rw [hid]; decide)
  rw [hid] at hs
  rw [htake, Option.bind_some, hs, Option.map_some] at hpeer
  have hone : s.valueIndex = 1 := Option.some.inj hpeer
  rw [hagrees.valueIndex, hown] at hone
  exact absurd hone (by decide)

end Publishing

end WsStreaming.Ports
