import WsStreaming.Ports.DomainResolution
import WsStreaming.Ports.SampleIndexes
import WsStreaming.Ports.TableSubscriptions

/-!
# Domain values on both sides

The domain value of published data is not sent with the data.  The publishing
side compares it with what the linear table of the domain signal says, and
sends an update of the table only if that differs.  The receiving side reads it
off its own table, at its own index of the value signal, or at the index that
the table was driven to.

The two ends agree as long as their tables start at the same index whenever the
subscription of a domain signal begins, and nothing moves the publisher's table
that the peer is not told of.

## Main results

* `domain_values_agree_of_steady` — the law over all interleavings of requests,
  published data and deliveries.
* `resumed_domain_disagrees` — a domain signal whose metadata do not say where
  its table starts.
-/

namespace WsStreaming.Ports

open WsStreaming.Verified
open WsStreaming.Verified.OrderedMap (OMap Distinct)
open WsStreaming.Verified.Run (Meets MeetsOpt)
open WsStreaming.Verified.Fifo (Carries Channel Move Settles)
open WsStreaming.Verified.Wire (Bytes)

namespace Publishing

open LocalSignals (Act Deed FitsDeed registered)
open RemoteSignals (Changes Extends)

/-! ## What is to hold -/

/-- If a message is the data packet that was published on a signal with an id,
the peer hands it over with the domain value that was published with it, and
if the signal has an explicit rule, all of it and with the same count. -/
def DomainAgrees (r : RemoteSignals) (m : Sent) : Prop :=
  ∀ address domainValue sampleCount data,
    m.act = .publish address domainValue sampleCount data →
      ∀ k e, m.sender.findByAddress address = some (k, e) → m.message = .data k data →
        e.signal.id ≠ "" →
          ∃ r' a n received, r.addressOf e.signal.id = some a ∧
            r.step (.message m.message) =
              some (r', [.signal a (.dataReceived domainValue n received)]) ∧
            (e.signal.metadata.rule = explicitRule → n = sampleCount ∧ received = data)

/-- A linear-rule signal whose table is its own. -/
def IsDomain (signal : LocalSignal) : Prop :=
  signal.metadata.isLinear = true ∧ signal.metadata.tableId = signal.id

/-- Each registered signal is a domain signal, or has another rule and names
the table of one. -/
def Arrangement (c : LocalSignals) : Prop :=
  ∀ p ∈ c.signals, IsDomain p.2.signal ∨
    p.2.signal.metadata.isLinear = false ∧
      ∃ d ∈ c.signals, IsDomain d.2.signal ∧ p.2.signal.metadata.tableId = d.2.signal.id

/-- The count of samples in data of an explicit-rule signal. -/
def Counts (m : Metadata) (sampleCount size : Nat) : Prop :=
  m.rule = explicitRule → 0 < m.sampleSize ∧ sampleCount = size / m.sampleSize ∨
    m.dataType = "binary" ∧ sampleCount = 1

/-- Metadata do not change, a value signal is unsubscribed only while it is
explicitly subscribed, and data are published on value signals alone, with the
count of their samples. -/
def Orderly (c : LocalSignals) : Act → Prop
  | .announce _ => True
  | .request (.subscribe _) => True
  | .request (.unsubscribe id) =>
      ∀ p ∈ c.findById id, p.2.signal.domainId? ≠ none → p.2.isExplicitlySubscribed = true
  | .setMetadata _ _ => False
  | .publish address _ sampleCount data =>
      ∀ p ∈ c.findByAddress address, p.2.signal.metadata.isLinear = false ∧
        Counts p.2.signal.metadata sampleCount data.length

/-- A registered signal without an explicit rule, whose data have the value to
which the table of the signal with an id was driven. -/
def ReadsDriven (c : LocalSignals) (id : String) : Prop :=
  ∃ p ∈ c.signals, p.2.signal.domainId? = some id ∧ p.2.signal.metadata.rule ≠ explicitRule

/-- A linear-rule signal whose subscription begins counts as its metadata say,
and so does what its table was driven to, if that is read. -/
structure ResumesFor (c : LocalSignals) (e : RegisteredLocalSignal) : Prop where
  index : ResumesIndex e
  driven : ReadsDriven c e.signal.id → Resumes e

/-- A domain signal whose subscription begins counts as its metadata say, and
data are published on a signal with a domain, and with an id if it has an
explicit rule. -/
def Steady (c : LocalSignals) : Act → Prop
  | .announce _ => True
  | .request (.subscribe id) =>
      ∀ p ∈ c.findById id, p.2.isSubscribed = false →
        ResumesFor c p.2 ∧ ∀ d ∈ c.domainOf p.2, d.2.isSubscribed = false → ResumesFor c d.2
  | .request (.unsubscribe _) => True
  | .setMetadata _ _ => True
  | .publish address _ _ _ =>
      ∀ p ∈ c.findByAddress address, p.2.onDataPublished = true →
        p.2.signal.metadata.tableId ≠ "" ∧
          (p.2.signal.metadata.rule = explicitRule → p.2.signal.id ≠ "")

instance (signal : LocalSignal) : Decidable (IsDomain signal) :=
  inferInstanceAs (Decidable (_ ∧ _))

instance (c : LocalSignals) : Decidable (Arrangement c) :=
  inferInstanceAs (Decidable (∀ p ∈ c.signals, _ ∨ _))

instance (m : Metadata) (sampleCount size : Nat) : Decidable (Counts m sampleCount size) :=
  inferInstanceAs (Decidable (_ → _))

instance (c : LocalSignals) (i : Act) : Decidable (Orderly c i) :=
  match i with
  | .announce _ => isTrue trivial
  | .request (.subscribe _) => isTrue trivial
  | .request (.unsubscribe id) =>
      inferInstanceAs (Decidable (∀ p ∈ c.findById id, p.2.signal.domainId? ≠ none →
        p.2.isExplicitlySubscribed = true))
  | .setMetadata _ _ => isFalse id
  | .publish address _ sampleCount data =>
      inferInstanceAs (Decidable (∀ p ∈ c.findByAddress address,
        p.2.signal.metadata.isLinear = false ∧
          Counts p.2.signal.metadata sampleCount data.length))

instance (c : LocalSignals) (id : String) : Decidable (ReadsDriven c id) :=
  inferInstanceAs (Decidable (∃ p ∈ c.signals, _ ∧ _))

instance (c : LocalSignals) (e : RegisteredLocalSignal) : Decidable (ResumesFor c e) :=
  decidable_of_iff (ResumesIndex e ∧ (ReadsDriven c e.signal.id → Resumes e))
    ⟨fun h => ⟨h.1, h.2⟩, fun h => ⟨h.index, h.driven⟩⟩

instance (c : LocalSignals) (i : Act) : Decidable (Steady c i) :=
  match i with
  | .announce _ => isTrue trivial
  | .request (.subscribe id) =>
      inferInstanceAs (Decidable (∀ p ∈ c.findById id, p.2.isSubscribed = false →
        ResumesFor c p.2 ∧ ∀ d ∈ c.domainOf p.2, d.2.isSubscribed = false → ResumesFor c d.2))
  | .request (.unsubscribe _) => isTrue trivial
  | .setMetadata _ _ => isTrue trivial
  | .publish address _ _ _ =>
      inferInstanceAs (Decidable (∀ p ∈ c.findByAddress address, p.2.onDataPublished = true →
        p.2.signal.metadata.tableId ≠ "" ∧
          (p.2.signal.metadata.rule = explicitRule → p.2.signal.id ≠ "")))

/-! ## Subscriptions of the publishing side -/

/-- The slots of a signal are connected while it is subscribed. -/
def Connected (c : LocalSignals) : Prop :=
  ∀ k e, OrderedMap.find? c.signals k = some e → e.onDataPublished = e.isSubscribed

/-- Subscriptions follow the signals that name a domain, and so do the slots. -/
structure Followed (c : LocalSignals) : Prop where
  follows : c.subscriptions.Follows
  connected : Connected c

section Followed

variable {c : LocalSignals} {k : UInt32} {e : RegisteredLocalSignal}

theorem Followed.distinct (h : Followed c) : Distinct c.signals :=
  LocalSignals.distinct_subscriptions.mp h.follows.distinct

theorem Connected.put (h : Connected c) (hk : OrderedMap.find? c.signals k = some e) {n : Nat}
    {new : RegisteredLocalSignal} (hnew : new.onDataPublished = new.isSubscribed) :
    Connected ((c.withNextTable n).update k fun _ => new) := by
  intro j d hj
  rw [LocalSignals.find?_put hk] at hj
  by_cases hkj : k = j
  · rw [if_pos hkj] at hj
    rw [← Option.some.inj hj]
    exact hnew
  · rw [if_neg hkj] at hj
    exact h j d hj

theorem Connected.modifyTable (h : Connected c) (a : Nat) (f : LinearTable → LinearTable) :
    Connected (c.modifyTable a f) := by
  intro j d hj
  rw [LocalSignals.find?_modifyTable] at hj
  obtain ⟨d', hd', rfl⟩ := Option.map_eq_some_iff.mp hj
  exact h j d' hd'

/-- What a subscribed signal names is subscribed. -/
theorem Followed.domain (h : Followed c) (hk : OrderedMap.find? c.signals k = some e)
    (hsub : e.isSubscribed = true) {j : UInt32} {d : RegisteredLocalSignal}
    (hj : OrderedMap.find? c.signals j = some d) (hnames : e.signal.domainId? = some d.signal.id) :
    d.isSubscribed = true := by
  have hmem := OrderedMap.mem_of_find?_eq_some hj
  apply (LocalSignals.tablesFollow_of_follows h.follows (j, d) hmem).mpr
  exact .inr ⟨(k, e), OrderedMap.mem_of_find?_eq_some hk, hsub, hnames⟩

/-- An entry that keeps its slot, and is subscribed before and after. -/
theorem Connected.book (h : Connected c) (hk : OrderedMap.find? c.signals k = some e)
    {new : RegisteredLocalSignal} (hslot : new.onDataPublished = e.onDataPublished)
    (hsub : e.isSubscribed = true) (hnew : new.isSubscribed = true) :
    Connected (c.update k fun _ => new) := by
  apply h.put (n := c.nextTable) hk
  rw [hslot, h k e hk, hsub, hnew]

/-- A subscribed signal, and the signal that it names, whose slots are
connected. -/
theorem Connected.named (h : Connected c) {c' : LocalSignals} (hfollows : c'.subscriptions.Follows)
    {d : UInt32} {new named : RegisteredLocalSignal}
    (hfind : ∀ j, OrderedMap.find? c'.signals j =
      if k = j then some new else if d = j then some named else OrderedMap.find? c.signals j)
    (hslot : new.onDataPublished = true) (hsub : new.isSubscribed = true)
    (hnames : new.signal.domainId? = some named.signal.id)
    (hslot' : named.onDataPublished = true) : Connected c' := by
  intro j f hj
  have hfound := (hfind j).symm.trans hj
  by_cases hkj : k = j
  · rw [if_pos hkj] at hfound
    rw [← Option.some.inj hfound, hslot, hsub]
  · rw [if_neg hkj] at hfound
    by_cases hdj : d = j
    · rw [if_pos hdj] at hfound
      have hnew := OrderedMap.mem_of_find?_eq_some ((hfind k).trans (if_pos rfl))
      rw [← Option.some.inj hfound] at hj ⊢
      rw [hslot']
      symm
      apply (LocalSignals.tablesFollow_of_follows hfollows (j, named)
        (OrderedMap.mem_of_find?_eq_some hj)).mpr
      exact .inr ⟨(k, new), hnew, hsub, hnames⟩
    · rw [if_neg hdj] at hfound
      exact h j f hfound

/-- **A subscribe request.** -/
theorem Followed.subscribe (h : Followed c) (id : String) :
    Connected (c.act (.request (.subscribe id))).1 := by
  have hfollows := LocalSignals.follows_next h.follows (.request (.subscribe id))
    ⟨trivial, trivial⟩
  obtain ⟨deeds, hdoes, hact, hmeets⟩ :=
    LocalSignals.deeds_of_act h.distinct (.request (.subscribe id))
  have hleft : c.next (.request (.subscribe id)) = deeds.foldl LocalSignals.doDeed c :=
    congrArg Prod.fst hact
  rw [hleft] at hfollows
  rw [hact]
  cases hdoes with
  | unknown hfind => exact h.connected
  | again hfind hsub => exact h.connected.book hmeets.1 rfl hsub rfl
  | alone hfind hsub hdomain => exact h.connected.put hmeets.1 rfl
  | @joins _ k d e domain hfind hsub hdomain hsub' =>
      obtain ⟨hfirst, hsecond, -⟩ := hmeets
      apply h.connected.named hfollows (k := k) (d := d)
      · intro j
        exact (LocalSignals.find?_put hsecond j).trans
          (if_congr Iff.rfl rfl (LocalSignals.find?_put (n := c.nextTable) hfirst j))
      · rfl
      · rfl
      · exact LocalSignals.named_of_domainOf hdomain
      · exact (h.connected d domain hfirst).trans hsub'
  | @both _ k d e domain hfind hsub hdomain hsub' =>
      obtain ⟨hfirst, hsecond, -⟩ := hmeets
      apply h.connected.named hfollows (k := k) (d := d)
      · intro j
        exact (LocalSignals.find?_put hsecond j).trans
          (if_congr Iff.rfl rfl (LocalSignals.find?_put hfirst j))
      · rfl
      · rfl
      · exact LocalSignals.named_of_domainOf hdomain
      · rfl

theorem Connected.disconnect (h : Connected c) (hk : OrderedMap.find? c.signals k = some e)
    {isExplicit : Bool} (hsub : ¬ (e.dropSubscription isExplicit).isSubscribed = true) :
    Connected (c.update k fun _ => (e.dropSubscription isExplicit).disconnect) :=
  h.put (n := c.nextTable) hk (Bool.eq_false_iff.mpr hsub).symm

/-- The domain of a signal whose subscription ends: its own ends with the last
one that names it. -/
theorem Connected.release (h : Connected c) (hd : Distinct c.signals) (id : String)
    (hdomain : ∀ k e, c.findById id = some (k, e) →
      e.isSubscribed = true ∧ e.signal.domainId? = none) :
    Connected (c.unsubscribe id false).1 := by
  cases hfind : c.findById id with
  | none =>
      rw [LocalSignals.unsubscribe_of_none hfind]
      exact h
  | some found =>
      obtain ⟨k, e⟩ := found
      have hk := LocalSignals.find?_of_findById hd hfind
      obtain ⟨hsub, hnone⟩ := hdomain k e hfind
      by_cases hleft : (e.dropSubscription false).isSubscribed = true
      · rw [LocalSignals.unsubscribe_of_subscribed hfind hleft]
        exact h.book hk rfl hsub hleft
      · rw [LocalSignals.unsubscribe_of_ended hfind hleft, hnone]
        exact h.disconnect hk hleft

/-- **An unsubscribe request.** -/
theorem Followed.unsubscribe (h : Followed c) (id : String)
    (hok : Orderly c (.request (.unsubscribe id))) :
    Connected (c.act (.request (.unsubscribe id))).1 := by
  change Connected (c.unsubscribe id true).1
  cases hfind : c.findById id with
  | none =>
      rw [LocalSignals.unsubscribe_of_none hfind]
      exact h.connected
  | some found =>
      obtain ⟨k, e⟩ := found
      have hk := LocalSignals.find?_of_findById h.distinct hfind
      by_cases hleft : (e.dropSubscription true).isSubscribed = true
      · have hcount : 0 < e.implicitSubscribeCount := of_decide_eq_true hleft
        have hsub : e.isSubscribed = true := by
          unfold RegisteredLocalSignal.isSubscribed
          rw [decide_eq_true hcount, Bool.or_true]
        rw [LocalSignals.unsubscribe_of_subscribed hfind hleft]
        exact h.connected.book hk rfl hsub hleft
      · rw [LocalSignals.unsubscribe_of_ended hfind hleft]
        have hclosed := h.connected.disconnect hk hleft
        cases htable : e.signal.domainId? with
        | none => exact hclosed
        | some tableId =>
            have hexplicit := hok (k, e) hfind (by rw [htable]; exact Option.some_ne_none _)
            have hsub : e.isSubscribed = true := by
              unfold RegisteredLocalSignal.isSubscribed
              rw [hexplicit, Bool.true_or]
            apply hclosed.release (LocalSignals.distinct_update h.distinct k _)
            -- The domain is another signal, which is as it was.
            intro j d hj
            have hid : d.signal.id = tableId := LocalSignals.id_of_findById hj
            have hj' := (LocalSignals.find?_put (n := c.nextTable) hk j).symm.trans
              (LocalSignals.find?_of_findById (LocalSignals.distinct_update h.distinct k _) hj)
            have hne : k ≠ j := by
              rintro rfl
              rw [if_pos rfl] at hj'
              rw [← Option.some.inj hj'] at hid
              exact LocalSignals.ne_of_domainId? htable hid
            rw [if_neg hne] at hj'
            have hnames : e.signal.domainId? = some d.signal.id := by
              rw [htable, hid]
            refine ⟨h.domain hk hsub hj' hnames, ?_⟩
            exact h.follows.tables (k, e.subscription)
              (List.mem_map.mpr ⟨(k, e), OrderedMap.mem_of_find?_eq_some hk, rfl⟩)
              (j, d.subscription)
              (List.mem_map.mpr ⟨(j, d), OrderedMap.mem_of_find?_eq_some hj', rfl⟩) hnames

/-- **What happens on the publishing side.** -/
theorem Followed.act (h : Followed c) (i : Act) (hok : Orderly c i) : Followed (c.act i).1 := by
  cases i with
  | announce ids => exact h
  | request r =>
      cases r with
      | subscribe id =>
          exact ⟨LocalSignals.follows_next h.follows (.request (.subscribe id)) ⟨trivial, trivial⟩,
            h.subscribe id⟩
      | unsubscribe id =>
          exact ⟨LocalSignals.follows_next h.follows (.request (.unsubscribe id)) ⟨hok, trivial⟩,
            h.unsubscribe id hok⟩
  | setMetadata address m => cases hok
  | publish address domainValue sampleCount data =>
      refine ⟨LocalSignals.follows_next h.follows (.publish address domainValue sampleCount data)
        ⟨trivial, trivial⟩, ?_⟩
      obtain ⟨deeds, hdoes, hact, hmeets⟩ :=
        LocalSignals.deeds_of_act h.distinct (.publish address domainValue sampleCount data)
      rw [hact]
      have hemits {c : LocalSignals} (hc : Connected c) {k : UInt32} {e : RegisteredLocalSignal}
          (hk : OrderedMap.find? c.signals k = some e) :
          Connected (c.doDeed (.emits k e sampleCount data)) := by
        have hindexed : Connected (c.update k fun _ =>
            e.withValueIndex (e.valueIndex + Int64.ofNat sampleCount)) :=
          hc.put (n := c.nextTable) hk (hc k e hk)
        change Connected (LocalSignals.drive _ _ _)
        cases LocalSignals.drivenTable e with
        | none => exact hindexed
        | some a => exact hindexed.modifyTable a _
      cases hdoes with
      | dropped hfind => exact h.connected
      | emits hfind hslot hset => exact hemits h.connected hmeets.1.1
      | @sets _ _ _ _ k e e' a p hfind hslot hset he' =>
          exact hemits (h.connected.modifyTable a fun t => t.updatePayload p) hmeets.2.1.1

end Followed

/-! ## What is agreed -/

/-- The index that a table was driven to, if it is read, and the counter of an
explicit-rule signal are the same on both sides. -/
structure Matches (isRead : Prop) (e : RegisteredLocalSignal) (s : RemoteSignal) : Prop where
  driven : isRead → ∀ t u, e.table = some t → s.table = some u →
    u.table.drivenIndex = t.table.drivenIndex
  counted : e.isExplicit = true → s.valueIndex = e.valueIndex

/-- A signal is bound to the table of the registered signal with an id. -/
def AimedAt (c : LocalSignals) (e : RegisteredLocalSignal) (id : String) : Prop :=
  ∃ j d t, OrderedMap.find? c.signals j = some d ∧ d.signal.id = id ∧ d.table = some t ∧
    e.domainTable = some t.address ∧ e.domainSigno = j

/-- A remote signal is bound to the table of the remote signal with an id. -/
def BoundTo (r : RemoteSignals) (s : RemoteSignal) (id : String) : Prop :=
  ∃ u, r.tableOf id = some u ∧ s.domainTable = some u.address

/-- What holds of a connected signal. -/
structure Right (c : LocalSignals) (r : RemoteSignals) (e : RegisteredLocalSignal) : Prop where
  ruled : e.isExplicit = decide (e.signal.metadata.rule = explicitRule)
  aimed : ∀ id, e.signal.domainId? = some id → AimedAt c e id
  peer : e.signal.id ≠ "" → ∀ s, r.seen e.signal.id = some s →
    Matches (ReadsDriven c e.signal.id) e s ∧
      ∀ id, e.signal.domainId? = some id → BoundTo r s id

/-- Both sides, when everything that was sent is taken. -/
structure Values (c : LocalSignals) (r : RemoteSignals) : Prop where
  agreed : Agreed c r
  named : Named c r
  arranged : Arrangement c
  right : ∀ k e, OrderedMap.find? c.signals k = some e → e.onDataPublished = true → Right c r e

/-- The tables of the registered signals are where they were. -/
def KeepsTables (c c' : LocalSignals) : Prop :=
  ∀ j d t, OrderedMap.find? c.signals j = some d → d.table = some t →
    ∃ d' t', OrderedMap.find? c'.signals j = some d' ∧ d'.signal.id = d.signal.id ∧
      d'.table = some t' ∧ t'.address = t.address

/-- So are those of the remote signals. -/
def KeepsPeerTables (r r' : RemoteSignals) : Prop :=
  ∀ i u, r.tableOf i = some u → ∃ u', r'.tableOf i = some u' ∧ u'.address = u.address

/-- A connected signal that stays connected, and what the peer has of it. -/
structure Continues (r r' : RemoteSignals) (e e' : RegisteredLocalSignal) : Prop where
  signal : e'.signal = e.signal
  isExplicit : e'.isExplicit = e.isExplicit
  domainTable : e'.domainTable = e.domainTable
  domainSigno : e'.domainSigno = e.domainSigno
  peer : e.signal.id ≠ "" → ∀ s', r'.seen e.signal.id = some s' →
    ∃ s, r.seen e.signal.id = some s ∧ s'.domainTable = s.domainTable ∧
      ∀ isRead, Matches isRead e s → Matches isRead e' s'

section Right

variable {c c' : LocalSignals} {r r' : RemoteSignals} {k : UInt32} {e e' : RegisteredLocalSignal}

theorem Matches.of_imp {isRead isRead' : Prop} {s : RemoteSignal} (h : Matches isRead e s)
    (hread : isRead' → isRead) : Matches isRead' e s :=
  ⟨fun hr => h.driven (hread hr), h.counted⟩

/-- Nothing is read that was not read before. -/
theorem ReadsDriven.of_same {id : String} (h : ReadsDriven c' id) (hd : Distinct c'.signals)
    (hsame : SameSignals c c') : ReadsDriven c id := by
  obtain ⟨p, hp, hreads⟩ := h
  obtain ⟨d, hfind, hsignal⟩ := hsame.find ((OrderedMap.find?_eq_some_iff hd).mpr hp)
  rw [← hsignal] at hreads
  exact ⟨(p.1, d), OrderedMap.mem_of_find?_eq_some hfind, hreads⟩

theorem ResumesFor.of_same (h : ResumesFor c e) (hd : Distinct c'.signals)
    (hsame : SameSignals c c') : ResumesFor c' e :=
  ⟨h.index, fun hread => h.driven (hread.of_same hd hsame)⟩

theorem Right.continues (h : Right c r e) (hd : Distinct c'.signals) (hsame : SameSignals c c')
    (hlocal : KeepsTables c c') (hpeer : KeepsPeerTables r r') (hc : Continues r r' e e') :
    Right c' r' e' := by
  constructor
  · rw [hc.isExplicit, hc.signal]
    exact h.ruled
  · intro id hid
    rw [hc.signal] at hid
    obtain ⟨j, d, t, hj, hname, ht, haim, hsigno⟩ := h.aimed id hid
    obtain ⟨d', t', hj', hname', ht', haddress⟩ := hlocal j d t hj ht
    refine ⟨j, d', t', hj', hname'.trans hname, ht', ?_, ?_⟩
    · rw [hc.domainTable, haim, haddress]
    · rw [hc.domainSigno, hsigno]
  · rw [hc.signal]
    intro hid s' hs'
    obtain ⟨s, hs, htable, hmatches⟩ := hc.peer hid s' hs'
    obtain ⟨hmatch, hbound⟩ := h.peer hid s hs
    refine ⟨(hmatches _ hmatch).of_imp fun hr => hr.of_same hd hsame, ?_⟩
    intro id hdomain
    obtain ⟨u, hu, haddress⟩ := hbound id hdomain
    obtain ⟨u', hu', haddress'⟩ := hpeer id u hu
    exact ⟨u', hu', by rw [htable, haddress, haddress']⟩

/-- The peer has the same of a signal that is as it was. -/
theorem Continues.same (hseen : e.signal.id ≠ "" → r'.seen e.signal.id = r.seen e.signal.id) :
    Continues r r' e e := by
  refine ⟨rfl, rfl, rfl, rfl, ?_⟩
  intro hid s' hs'
  rw [hseen hid] at hs'
  exact ⟨s', hs', rfl, fun _ h => h⟩

theorem KeepsTables.refl (c : LocalSignals) : KeepsTables c c :=
  fun _ d t hj ht => ⟨d, t, hj, rfl, ht, rfl⟩

theorem keepsTables_put (hk : OrderedMap.find? c.signals k = some e) {n : Nat}
    {new : RegisteredLocalSignal} (hid : new.signal.id = e.signal.id)
    (htable : ∀ t, e.table = some t → ∃ t', new.table = some t' ∧ t'.address = t.address) :
    KeepsTables c ((c.withNextTable n).update k fun _ => new) := by
  intro j d t hj ht
  by_cases hkj : k = j
  · obtain rfl := hkj
    rw [hk] at hj
    rw [← Option.some.inj hj] at ht ⊢
    obtain ⟨t', ht', haddress⟩ := htable t ht
    refine ⟨new, t', ?_, hid, ht', haddress⟩
    rw [LocalSignals.find?_put hk, if_pos rfl]
  · refine ⟨d, t, ?_, rfl, ht, rfl⟩
    rw [LocalSignals.find?_put hk, if_neg hkj]
    exact hj

theorem keepsTables_modifyTable (c : LocalSignals) (a : Nat) (f : LinearTable → LinearTable) :
    KeepsTables c (c.modifyTable a f) := by
  intro j d t hj ht
  refine ⟨d.modifyTable a f, if t.address = a then { t with table := f t.table } else t, ?_, rfl,
    ?_, ?_⟩
  · rw [LocalSignals.find?_modifyTable, hj]
    rfl
  · change d.table.map _ = _
    rw [ht]
    rfl
  · split <;> rfl

theorem KeepsPeerTables.refl (r : RemoteSignals) : KeepsPeerTables r r := fun _ u hu => ⟨u, hu, rfl⟩

/-- A change of one remote signal that leaves its table where it is. -/
theorem keepsPeerTables_changes {id : String} {s' : RemoteSignal} (h : Changes r r' id s')
    (htable : ∀ u, r.tableOf id = some u → ∃ u', s'.table = some u' ∧ u'.address = u.address) :
    KeepsPeerTables r r' := by
  intro i u hu
  by_cases hi : id = i
  · obtain rfl := hi
    obtain ⟨u', hu', haddress⟩ := htable u hu
    refine ⟨u', ?_, haddress⟩
    unfold RemoteSignals.tableOf
    rw [h.self]
    exact hu'
  · refine ⟨u, ?_, rfl⟩
    unfold RemoteSignals.tableOf at hu ⊢
    rw [h.other hi]
    exact hu

end Right

section Arrangement

variable {c c' : LocalSignals} {r r' : RemoteSignals} {k : UInt32} {e : RegisteredLocalSignal}

theorem Arrangement.of_same (h : Arrangement c) (hd : Distinct c.signals)
    (hd' : Distinct c'.signals) (hsame : SameSignals c c') : Arrangement c' := by
  intro p' hp'
  obtain ⟨p, hp, hsignal⟩ := hsame.find ((OrderedMap.find?_eq_some_iff hd').mpr hp')
  rw [← hsignal]
  rcases h (p'.1, p) (OrderedMap.mem_of_find?_eq_some hp) with hdomain | ⟨hrule, d, hmem, hd₁, hd₂⟩
  · exact .inl hdomain
  · obtain ⟨d', hfind', hsignal'⟩ :=
      hsame.symm.find ((OrderedMap.find?_eq_some_iff hd).mpr hmem)
    refine .inr ⟨hrule, (d.1, d'), OrderedMap.mem_of_find?_eq_some hfind', ?_⟩
    rw [hsignal']
    exact ⟨hd₁, hd₂⟩

/-- What a signal names is a domain signal. -/
theorem Arrangement.domain (h : Arrangement c) (hk : OrderedMap.find? c.signals k = some e)
    (hd : Distinct c.signals) {id : String} (hnames : e.signal.domainId? = some id) :
    e.signal.metadata.isLinear = false ∧
      ∃ j d, OrderedMap.find? c.signals j = some d ∧ d.signal.id = id ∧ IsDomain d.signal := by
  have hid : e.signal.metadata.tableId = id ∧ e.signal.metadata.tableId ≠ e.signal.id := by
    unfold LocalSignal.domainId? at hnames
    split at hnames
    · rename_i hne
      exact ⟨Option.some.inj hnames, hne.2⟩
    · cases hnames
  rcases h (k, e) (OrderedMap.mem_of_find?_eq_some hk) with hdomain | ⟨hrule, d, hmem, hd₁, hd₂⟩
  · exact absurd hdomain.2 hid.2
  · exact ⟨hrule, d.1, d.2, (OrderedMap.find?_eq_some_iff hd).mpr hmem, hd₂.symm.trans hid.1, hd₁⟩

/-- A registered signal that a signal names is its domain. -/
theorem domainOf_of_find (h : c.Registered) {j : UInt32} {d : RegisteredLocalSignal}
    (hj : OrderedMap.find? c.signals j = some d) (hnames : e.signal.domainId? = some d.signal.id) :
    c.domainOf e = some (j, d) := by
  unfold LocalSignals.domainOf
  rw [hnames]
  change c.findById d.signal.id = some (j, d)
  cases hfind : c.findById d.signal.id with
  | none =>
      have hnone := List.find?_eq_none.mp hfind (j, d) (OrderedMap.mem_of_find?_eq_some hj)
      exact absurd (decide_eq_true rfl) hnone
  | some found =>
      obtain ⟨i, f⟩ := found
      have hi := LocalSignals.find?_of_findById h.distinct hfind
      obtain rfl := h.ids i f j d hi hj (LocalSignals.id_of_findById hfind)
      rw [hi] at hj
      rw [Option.some.inj hj]

/-- The peer finds the table of a domain signal that it has been told of. -/
theorem Named.sought (h : Named c r) (harranged : Arrangement c) {j : UInt32}
    {d : RegisteredLocalSignal} (hj : OrderedMap.find? c.signals j = some d)
    (hdomain : IsDomain d.signal) (hsome : (r.tableOf d.signal.id).isSome = true) :
    r.hasTable d.signal.id d.signal.id = true ∧
      r.tableSought d.signal.id = some d.signal.id := by
  have hhas := h.hasTable hj hdomain.2 hsome
  refine ⟨hhas, RemoteSignals.tableSought_of_least h.sorted hhas ?_⟩
  intro i hi
  -- Whoever has a table of this name has this name.
  obtain ⟨t, ht, -, hname⟩ := RemoteSignals.hasTable_iff.mp hi
  obtain ⟨jx, x, hjx, hid, -, hlinear, hnamex⟩ := h.owned i t ht
  rcases harranged (jx, x) (OrderedMap.mem_of_find?_eq_some hjx) with hx | ⟨hrule, -⟩
  · rw [← hid, ← hx.2, ← hnamex, hname]
    exact lt_irrefl _
  · rw [hlinear] at hrule
    cases hrule

end Arrangement

/-! ## Requests -/

/-- What is left when messages are taken one after another. -/
def takeAll (r : RemoteSignals) (ms : List Message) : Option RemoteSignals :=
  ms.foldlM (fun r m => (r.step (.message m)).map Prod.fst) r

theorem takeAll_cons {r r' : RemoteSignals} {m : Message} {events : List RemoteEvent}
    (h : r.step (.message m) = some (r', events)) (ms : List Message) :
    takeAll r (m :: ms) = takeAll r' ms := by
  unfold takeAll
  rw [List.foldlM_cons, h]
  rfl

theorem takeAll_append {r r' : RemoteSignals} {ms ms' : List Message}
    (h : takeAll r ms = some r') : takeAll r (ms ++ ms') = takeAll r' ms' := by
  unfold takeAll at h ⊢
  rw [List.foldlM_append, h]
  rfl

theorem takeAll_of_carries {law : RemoteSignals → Sent → Prop} {r r' : RemoteSignals} {i : Act}
    {sender : LocalSignals} {ms : List Message}
    (h : Carries take law r (ms.map fun m => ⟨m, i, sender⟩) r') : takeAll r ms = some r' := by
  have hfold := h.foldlM
  rw [List.foldlM_map] at hfold
  exact hfold

/-- Messages that are lawful whoever takes them. -/
theorem carries_of_takeAll {law : RemoteSignals → Sent → Prop} {i : Act} {sender : LocalSignals}
    (ms : List Message) : ∀ {r r' : RemoteSignals}, takeAll r ms = some r' →
      (∀ m ∈ ms, ∀ r, law r ⟨m, i, sender⟩) →
        Carries take law r (ms.map fun m => ⟨m, i, sender⟩) r' := by
  induction ms with
  | nil => exact fun h _ => (Option.some.inj h).symm
  | cons m ms ih =>
      intro r r' h hlaw
      unfold takeAll at h
      rw [List.foldlM_cons] at h
      obtain ⟨r₁, htake, hrest⟩ := Option.bind_eq_some_iff.mp h
      exact ⟨hlaw m List.mem_cons_self r, r₁, htake,
        ih hrest fun m hm => hlaw m (List.mem_cons_of_mem _ hm)⟩

/-- A message that is lawful for who takes it. -/
theorem carries_of_take {law : RemoteSignals → Sent → Prop} {r r' : RemoteSignals} {i : Act}
    {sender : LocalSignals} {m : Message} (h : takeAll r [m] = some r')
    (hlaw : law r ⟨m, i, sender⟩) : Carries take law r [⟨m, i, sender⟩] r' := by
  unfold takeAll at h
  rw [List.foldlM_cons] at h
  obtain ⟨r₁, htake, hrest⟩ := Option.bind_eq_some_iff.mp h
  rw [← show r₁ = r' from Option.some.inj hrest]
  exact Carries.single hlaw htake

/-- Nothing is said of what is not published. -/
theorem domainAgrees_of_act {r : RemoteSignals} {m : Sent}
    (h : ∀ address domainValue sampleCount data,
      m.act ≠ .publish address domainValue sampleCount data) : DomainAgrees r m :=
  fun address domainValue sampleCount data hact =>
    absurd hact (h address domainValue sampleCount data)

section Requests

variable {c : LocalSignals} {r : RemoteSignals} {k : UInt32} {e : RegisteredLocalSignal}

/-- What is left after a deed, as each of the two relations says. -/
theorem Values.agrees (h : Values c r) (deed : Deed) (hfits : c.FitsDeed deed)
    (hok : ResumingDeed c r deed) {r' : RemoteSignals}
    (htake : takeAll r deed.messages = some r') : Agreed (c.doDeed deed) r' := by
  obtain ⟨r'', hcarries, hagreed⟩ :=
    h.agreed.deed hfits hok (.announce []) (c.doDeed deed) (framed_single c deed)
  rw [takeAll_of_carries hcarries] at htake
  rw [← Option.some.inj htake]
  exact hagreed

/-- Ids are announced. -/
theorem Values.announce (h : Values c r) (ids : List String) :
    ∃ r', takeAll r (Deed.announce ids).messages = some r' ∧ Values c r' := by
  obtain ⟨r', hcarries, hnamed⟩ := h.named.announce ids (.announce ids) c
  have htake := takeAll_of_carries hcarries
  obtain ⟨r'', events, hstep, hextends, -⟩ := h.agreed.joined.announce ids
  have htake' : takeAll r (Deed.announce ids).messages = some r'' := takeAll_cons hstep []
  rw [htake] at htake'
  rw [← Option.some.inj htake'] at hextends
  refine ⟨r', htake, h.agrees (.announce ids) trivial trivial htake, hnamed, h.arranged, ?_⟩
  intro j d hj hslot
  apply (h.right j d hj hslot).continues h.agreed.joined.registered.distinct (.refl c) (.refl c)
  · intro i u hu
    refine ⟨u, ?_, rfl⟩
    unfold RemoteSignals.tableOf at hu ⊢
    rcases hextends.seen i with hsame | ⟨hnone, -⟩
    · rw [hsame]
      exact hu
    · rw [hnone] at hu
      cases hu
  · apply Continues.same
    intro hid
    obtain ⟨s, hs, -⟩ := h.agreed.joined.shown j d hj hslot hid
    rcases hextends.seen d.signal.id with hsame | ⟨hnone, -⟩
    · exact hsame
    · rw [hs] at hnone
      cases hnone

theorem distinct_put (h : Values c r) (k : UInt32) {n : Nat} {new : RegisteredLocalSignal} :
    Distinct ((c.withNextTable n).update k fun _ => new).signals :=
  LocalSignals.distinct_update (c := c.withNextTable n) h.agreed.joined.registered.distinct k _

/-- Another entry of one signal. -/
theorem Values.right_put (h : Values c r) {r' : RemoteSignals}
    (hk : OrderedMap.find? c.signals k = some e) {n : Nat} {new : RegisteredLocalSignal}
    (hlocal : KeepsTables c ((c.withNextTable n).update k fun _ => new))
    (hpeer : KeepsPeerTables r r') (hsignal : new.signal = e.signal)
    (hnew : new.onDataPublished = true →
      Right ((c.withNextTable n).update k fun _ => new) r' new)
    (hother : ∀ j, e.signal.id ≠ j → r'.seen j = r.seen j) :
    ∀ j d, OrderedMap.find? ((c.withNextTable n).update k fun _ => new).signals j = some d →
      d.onDataPublished = true → Right ((c.withNextTable n).update k fun _ => new) r' d := by
  intro j d hj hslot
  rw [LocalSignals.find?_put hk] at hj
  by_cases hkj : k = j
  · rw [if_pos hkj] at hj
    rw [← Option.some.inj hj] at hslot ⊢
    exact hnew hslot
  · rw [if_neg hkj] at hj
    apply (h.right j d hj hslot).continues (distinct_put h k) (sameSignals_put hk hsignal) hlocal
      hpeer
    apply Continues.same
    intro _
    apply hother
    exact fun heq => hkj (h.agreed.joined.registered.ids k e j d hk hj heq)

/-- One that goes on as it was. -/
theorem Values.right_kept (h : Values c r) {r' : RemoteSignals}
    (hk : OrderedMap.find? c.signals k = some e) {n : Nat} {new : RegisteredLocalSignal}
    (hlocal : KeepsTables c ((c.withNextTable n).update k fun _ => new))
    (hpeer : KeepsPeerTables r r') (hslot : new.onDataPublished = e.onDataPublished)
    (hnew : Continues r r' e new)
    (hother : ∀ j, e.signal.id ≠ j → r'.seen j = r.seen j) :
    ∀ j d, OrderedMap.find? ((c.withNextTable n).update k fun _ => new).signals j = some d →
      d.onDataPublished = true → Right ((c.withNextTable n).update k fun _ => new) r' d := by
  apply h.right_put hk hlocal hpeer hnew.signal ?_ hother
  intro hconnected
  rw [hslot] at hconnected
  exact (h.right k e hk hconnected).continues (distinct_put h k) (sameSignals_put hk hnew.signal)
    hlocal hpeer hnew

/-- **Bookkeeping.** -/
theorem Values.book (h : Values c r) (hk : OrderedMap.find? c.signals k = some e)
    (isExplicit : Bool) (count : UInt32) : Values (c.doDeed (.book k e isExplicit count)) r := by
  have hlocal : KeepsTables c (c.doDeed (.book k e isExplicit count)) :=
    keepsTables_put (n := c.nextTable) hk rfl fun t ht => ⟨t, ht, rfl⟩
  have hregistered := h.agreed.joined.registered
  refine ⟨h.agrees (.book k e isExplicit count) hk trivial rfl,
    h.named.book hk isExplicit count, ?_, ?_⟩
  · exact h.arranged.of_same hregistered.distinct
      (hregistered.doDeed (.book k e isExplicit count) hk rfl).distinct
      (sameSignals_doDeed (.book k e isExplicit count) hk rfl)
  · apply h.right_kept (n := c.nextTable) hk hlocal (.refl r) rfl
    · refine ⟨rfl, rfl, rfl, rfl, ?_⟩
      exact fun _ s' hs' => ⟨s', hs', rfl, fun _ hm => ⟨hm.driven, hm.counted⟩⟩
    · exact fun _ _ => rfl

/-- **A subscription ends.** -/
theorem Values.closes (h : Values c r) (hk : OrderedMap.find? c.signals k = some e)
    (isExplicit : Bool) (count : UInt32) :
    ∃ r', takeAll r (Deed.closes k e isExplicit count).messages = some r' ∧
      Values (c.doDeed (.closes k e isExplicit count)) r' := by
  have hregistered := h.agreed.joined.registered
  obtain ⟨r', events, hstep, hseen, -⟩ := h.agreed.joined.closes hk isExplicit count
  have htake : takeAll r (Deed.closes k e isExplicit count).messages = some r' :=
    takeAll_cons hstep []
  obtain ⟨r'', hcarries, hnamed⟩ := h.named.ending (.closes k e isExplicit count) hk rfl
    (.announce []) c
  have hsame : r'' = r' := Option.some.inj ((takeAll_of_carries hcarries).symm.trans htake)
  rw [hsame] at hnamed
  refine ⟨r', htake, h.agrees (.closes k e isExplicit count) hk trivial htake, hnamed,
    ?_, ?_⟩
  · exact h.arranged.of_same hregistered.distinct
      (hregistered.doDeed (.closes k e isExplicit count) hk rfl).distinct
      (sameSignals_doDeed (.closes k e isExplicit count) hk rfl)
  · refine h.right_put (n := c.nextTable) hk ?_ ?_ rfl ?_ ?_
    · exact keepsTables_put (n := c.nextTable) hk rfl fun t ht => ⟨t, ht, rfl⟩
    · intro i u hu
      refine ⟨u, ?_, rfl⟩
      unfold RemoteSignals.tableOf at hu ⊢
      rcases hseen i with heq | ⟨-, s, hs, hs'⟩
      · rw [heq]
        exact hu
      · rw [hs] at hu
        rw [hs']
        exact hu
    · exact fun hslot => nomatch hslot
    · intro j hj
      rcases hseen j with heq | ⟨hid, -⟩
      · exact heq
      · exact absurd hid.symm hj

/-- The signal whose subscription begins is bound to the table of its domain. -/
theorem aimedAt_opened (h : Values c r) (hk : OrderedMap.find? c.signals k = some e)
    (isExplicit : Bool) {id : String} (hnames : e.signal.domainId? = some id) :
    AimedAt (c.doDeed (.opens k e isExplicit)) (c.opened e isExplicit) id := by
  have hregistered := h.agreed.joined.registered
  obtain ⟨-, j, d, hj, hid, hdomain⟩ := h.arranged.domain hk hregistered.distinct hnames
  rw [← hid] at hnames
  have hsome : d.table.isSome = true := (hregistered.inSync j d hj).trans hdomain.1
  obtain ⟨t, ht⟩ := Option.isSome_iff_exists.mp hsome
  have hfound := domainOf_of_find hregistered hj hnames
  have haim : (c.opened e isExplicit).domainTable =
      ((c.domainOf e).map Prod.snd).bind fun d => d.table.map TablePtr.address := by
    cases isExplicit <;> rfl
  have hsigno : (c.opened e isExplicit).domainSigno =
      (((c.domainOf e).map Prod.snd).map RegisteredLocalSignal.signo).getD 0 := by
    cases isExplicit <;> rfl
  refine ⟨j, d, t, ?_, hid, ht, ?_, ?_⟩
  · have hne : k ≠ j := by
      rintro rfl
      rw [hk] at hj
      rw [Option.some.inj hj] at hnames
      exact LocalSignals.ne_of_domainId? hnames rfl
    change OrderedMap.find? ((c.withNextTable _).update k _).signals j = some d
    rw [LocalSignals.find?_put hk, if_neg hne]
    exact hj
  · rw [haim, hfound]
    change d.table.map TablePtr.address = _
    rw [ht]
    rfl
  · rw [hsigno, hfound]
    exact (hregistered.signo j d hj).1

theorem keepsTables_opened (h : Values c r) (hk : OrderedMap.find? c.signals k = some e)
    (isExplicit : Bool) : KeepsTables c (c.doDeed (.opens k e isExplicit)) := by
  obtain ⟨hsignal, -, -, htable⟩ := opened_eq c e isExplicit
  apply keepsTables_put hk
  · rw [hsignal]
  · intro t ht
    have hsync : e.table.isSome = e.signal.metadata.isLinear :=
      h.agreed.joined.registered.inSync k e hk
    rw [ht] at hsync
    rw [htable]
    unfold RegisteredLocalSignal.refreshedTable
    rw [if_pos (of_decide_eq_true hsync.symm), ht]
    exact ⟨_, rfl, rfl⟩

/-- **A subscription begins**, when the domain is connected. -/
theorem Values.opens (h : Values c r) (hk : OrderedMap.find? c.signals k = some e)
    (isExplicit : Bool) (hresumes : ResumesFor c e)
    (hdomains : ∀ j d, OrderedMap.find? c.signals j = some d →
      e.signal.domainId? = some d.signal.id → d.onDataPublished = true) :
    ∃ r', takeAll r (Deed.opens k e isExplicit).messages = some r' ∧
      Values (c.doDeed (.opens k e isExplicit)) r' := by
  have hregistered := h.agreed.joined.registered
  have hregistered' := hregistered.doDeed (.opens k e isExplicit) hk rfl
  have hsame := sameSignals_doDeed (.opens k e isExplicit) hk rfl
  have harranged := h.arranged.of_same hregistered.distinct hregistered'.distinct hsame
  have hlocal := keepsTables_opened h hk isExplicit
  obtain ⟨hsignal, hexplicit, -, htable⟩ := opened_eq c e isExplicit
  have hruled : (c.opened e isExplicit).isExplicit =
      decide ((c.opened e isExplicit).signal.metadata.rule = explicitRule) := by
    rw [hexplicit, hsignal]
  have haimed : ∀ id, (c.opened e isExplicit).signal.domainId? = some id →
      AimedAt (c.doDeed (.opens k e isExplicit)) (c.opened e isExplicit) id := by
    rw [hsignal]
    exact fun id hnames => aimedAt_opened h hk isExplicit hnames
  by_cases hid : e.signal.id = ""
  · obtain ⟨hfirst, hsecond, hjoined⟩ := h.agreed.joined.opens_unnamed hk isExplicit hid
    have htake : takeAll r (Deed.opens k e isExplicit).messages = some r :=
      (takeAll_cons hfirst _).trans (takeAll_cons hsecond [])
    have hagreed := h.agreed.opened hk isExplicit hresumes.index hjoined (fun _ _ => rfl)
      fun hne => absurd hid hne
    refine ⟨r, htake, hagreed,
      h.named.of_names hjoined hsame h.named.sorted fun _ t ht => ⟨t, ht, rfl⟩, harranged, ?_⟩
    apply h.right_put hk hlocal (.refl r) hsignal
    · intro _
      refine ⟨hruled, haimed, ?_⟩
      rw [hsignal]
      exact fun hne => absurd hid hne
    · exact fun _ _ => rfl
  · obtain ⟨r₁, r', s', hfirst, hsecond, hchanges, hbound, hdescribed, hnamed⟩ :=
      h.named.opens hk isExplicit hid (.announce []) c
    have hcarries : Carries take (fun _ _ => True) r
        ((Deed.opens k e isExplicit).messages.map fun m => ⟨m, .announce [], c⟩) r' :=
      Carries.cons trivial hfirst (Carries.single trivial hsecond)
    have htake := takeAll_of_carries hcarries
    have hagreed := h.agreed.opened hk isExplicit hresumes.index hnamed.joined
      (fun _ hj => hchanges.other hj) fun _ => ⟨s', hchanges.self, hdescribed⟩
    refine ⟨r', htake, hagreed, hnamed, harranged, ?_⟩
    refine h.right_put hk hlocal ?_ hsignal ?_ ?_
    · apply keepsPeerTables_changes hchanges
      intro u hu
      have hold := table_admitted r e.signal.id k
      obtain ⟨j, d, hj, hd, -, hlinear, -⟩ := h.named.owned _ u hu
      obtain rfl := hregistered.ids k e j d hk hj hd.symm
      rw [hk] at hj
      rw [← Option.some.inj hj] at hlinear
      have htable' := hdescribed.table
      rw [hold, hu, Option.map_some, if_pos] at htable'
      · obtain ⟨u', hu', -⟩ := Option.map_eq_some_iff.mp htable'
        exact ⟨u', hu', hdescribed.address u u' (hold.trans hu) hu'⟩
      · rw [Metadata.rule_withValueIndex]
        exact of_decide_eq_true hlinear
    · intro _
      refine ⟨hruled, haimed, ?_⟩
      rw [hsignal]
      intro _ s hs
      rw [hchanges.self] at hs
      rw [← Option.some.inj hs]
      refine ⟨⟨?_, fun _ => valueIndex_opened hdescribed isExplicit⟩, ?_⟩
      · intro hread t u ht hu
        have hlinear : (c.opened e isExplicit).signal.metadata.isLinear = true := by
          rw [hsignal, ← LocalSignals.isSome_refreshedTable c.nextTable, ← htable, ht]
          rfl
        have hresumes' :=
          hresumes.driven (hread.of_same hregistered'.distinct hsame)
        obtain ⟨t', u', ht', hu', -, -, -, hdriven⟩ := (indexAgrees_opened hdescribed isExplicit
          (h.agreed.tables k e hk hid) hresumes').table hlinear
        rw [ht] at ht'
        rw [hu] at hu'
        rw [Option.some.inj ht', Option.some.inj hu']
        exact hdriven
      · intro id hnames
        obtain ⟨-, j, d, hj, rfl, hdomain⟩ := h.arranged.domain hk hregistered.distinct hnames
        have hne : e.signal.id ≠ d.signal.id := LocalSignals.ne_of_domainId? hnames
        -- The peer has the table of the domain, which is connected.
        obtain ⟨s₀, hs₀, hshown⟩ := h.agreed.joined.shown j d hj (hdomains j d hj hnames)
          (ne_empty_of_domainId? hnames)
        have hsome : (r'.tableOf d.signal.id).isSome = true := by
          unfold RemoteSignals.tableOf
          rw [hchanges.other hne, hs₀, Option.bind_some, hshown.table]
          exact (hregistered.inSync j d hj).trans hdomain.1
        obtain ⟨d', hj', hsignal'⟩ := hsame.symm.find hj
        rw [← hsignal'] at hsome hdomain hne hnames ⊢
        obtain ⟨hhas, hfound⟩ := hnamed.sought harranged hj' hdomain hsome
        have hself : s'.id = e.signal.id :=
          RemoteSignals.id_of_seen hnamed.joined.reliable.wellFormed hchanges.self
        obtain ⟨a, u, -, -, hu, haddress⟩ := bound_of_sought hbound
          ((soughtId?_described hdescribed hself).trans hnames) (by rw [hself]; exact hne.symm)
          hfound hhas
        exact ⟨u, hu, haddress⟩
    · exact fun j hj => hchanges.other hj

/-- Deeds that end subscriptions. -/
theorem Values.ending (deeds : List Deed) : ∀ {c : LocalSignals} {r : RemoteSignals}, Values c r →
    (∀ d ∈ deeds, Deed.isEnding d = true) → Meets LocalSignals.doDeed FitsDeed c deeds →
      ∃ r', takeAll r (deeds.flatMap Deed.messages) = some r' ∧
        Values (deeds.foldl LocalSignals.doDeed c) r' := by
  induction deeds with
  | nil => exact fun h _ _ => ⟨_, rfl, h⟩
  | cons deed deeds ih =>
      intro c r h hending hmeets
      obtain ⟨r₁, htake, hvalues⟩ : ∃ r₁, takeAll r deed.messages = some r₁ ∧
          Values (c.doDeed deed) r₁ := by
        have hdeed := hending deed List.mem_cons_self
        have hfits := hmeets.1
        cases deed with
        | book k e isExplicit count => exact ⟨r, rfl, h.book hfits isExplicit count⟩
        | closes k e isExplicit count => exact h.closes hfits isExplicit count
        | announce ids => cases hdeed
        | opens k e isExplicit => cases hdeed
        | describes k e m => cases hdeed
        | changes k e m => cases hdeed
        | sets e a p => cases hdeed
        | emits k e sampleCount data => cases hdeed
      obtain ⟨r', htake', hvalues'⟩ :=
        ih hvalues (fun d hd => hending d (List.mem_cons_of_mem _ hd)) hmeets.2
      refine ⟨r', ?_, hvalues'⟩
      rw [List.flatMap_cons, takeAll_append htake]
      exact htake'

/-- **A request of the peer.** -/
theorem Values.request (h : Values c r) (hc : Followed c) (q : LocalSignals.Request)
    (hok : Steady c (.request q)) :
    ∃ r', takeAll r (c.act (.request q)).2 = some r' ∧ Values (c.act (.request q)).1 r' := by
  have hregistered := h.agreed.joined.registered
  obtain ⟨deeds, hdoes, hact, hmeets⟩ := LocalSignals.deeds_of_act hc.distinct (.request q)
  rw [hact]
  -- Nothing that a signal without a domain names is registered.
  have hnone {k : UInt32} {e : RegisteredLocalSignal} (hdomain : c.domainOf e = none)
      (j : UInt32) (d : RegisteredLocalSignal) (hj : OrderedMap.find? c.signals j = some d)
      (hnames : e.signal.domainId? = some d.signal.id) : d.onDataPublished = true := by
    rw [domainOf_of_find hregistered hj hnames] at hdomain
    cases hdomain
  -- What it names is the domain, which is connected by then.
  have hnamed {c' : LocalSignals} {r' : RemoteSignals} (h' : Values c' r') {d : UInt32}
      {e domain new : RegisteredLocalSignal} (hdomain : c.domainOf e = some (d, domain))
      (hd : OrderedMap.find? c'.signals d = some new) (hid : new.signal.id = domain.signal.id)
      (hslot : new.onDataPublished = true) (j : UInt32) (f : RegisteredLocalSignal)
      (hj : OrderedMap.find? c'.signals j = some f)
      (hnames : e.signal.domainId? = some f.signal.id) : f.onDataPublished = true := by
    rw [LocalSignals.named_of_domainOf hdomain, ← hid] at hnames
    obtain rfl := h'.agreed.joined.registered.ids d new j f hd hj (Option.some.inj hnames)
    rw [hd] at hj
    rw [← Option.some.inj hj]
    exact hslot
  cases hdoes with
  | unknown hfind => exact ⟨r, rfl, h⟩
  | again hfind hsub => exact ⟨r, rfl, h.book hmeets.1 true _⟩
  | @alone id k e hfind hsub hdomain =>
      obtain ⟨hresumes, -⟩ := hok (k, e) hfind (Bool.eq_false_iff.mpr hsub)
      obtain ⟨r', htake, hvalues⟩ := h.opens hmeets.1 true hresumes (hnone (k := k) hdomain)
      exact ⟨r', htake, hvalues⟩
  | @joins id k d e domain hfind hsub hdomain hsub' =>
      obtain ⟨hfirst, hsecond, -⟩ := hmeets
      obtain ⟨hresumes, -⟩ := hok (k, e) hfind (Bool.eq_false_iff.mpr hsub)
      have hbooked :=
        h.book hfirst domain.isExplicitlySubscribed (domain.implicitSubscribeCount + 1)
      have hbook : OrderedMap.find? (c.doDeed (.book d domain domain.isExplicitlySubscribed
          (domain.implicitSubscribeCount + 1))).signals d =
            some (LocalSignals.booked domain domain.isExplicitlySubscribed
              (domain.implicitSubscribeCount + 1)) :=
        (LocalSignals.find?_put (n := c.nextTable) hfirst d).trans (if_pos rfl)
      have hresumes' := hresumes.of_same hbooked.agreed.joined.registered.distinct
        (sameSignals_doDeed (.book d domain _ _) hfirst rfl)
      obtain ⟨r', htake, hvalues⟩ := hbooked.opens hsecond true hresumes' (hnamed hbooked hdomain
        hbook rfl ((hc.connected d domain hfirst).trans hsub'))
      exact ⟨r', htake, hvalues⟩
  | @both id k d e domain hfind hsub hdomain hsub' =>
      obtain ⟨hfirst, hsecond, -⟩ := hmeets
      obtain ⟨hresumes, hresumes'⟩ := hok (k, e) hfind (Bool.eq_false_iff.mpr hsub)
      have hk := LocalSignals.find?_of_findById hc.distinct hfind
      have hnames := LocalSignals.named_of_domainOf hdomain
      -- A domain has no domain.
      have hlast : domain.signal.domainId? = none :=
        hc.follows.tables (k, e.subscription)
          (List.mem_map.mpr ⟨(k, e), OrderedMap.mem_of_find?_eq_some hk, rfl⟩)
          (d, domain.subscription)
          (List.mem_map.mpr ⟨(d, domain), OrderedMap.mem_of_find?_eq_some hfirst, rfl⟩) hnames
      obtain ⟨r₁, htake₁, hopened⟩ := h.opens hfirst false
        (hresumes' (d, domain) hdomain (Bool.eq_false_iff.mpr hsub')) (by
          intro j f _ hnone
          rw [hlast] at hnone
          cases hnone)
      have hopen : OrderedMap.find? (c.doDeed (.opens d domain false)).signals d =
          some (c.opened domain false) :=
        (LocalSignals.find?_put hfirst d).trans (if_pos rfl)
      have hresumes'' := hresumes.of_same hopened.agreed.joined.registered.distinct
        (sameSignals_doDeed (.opens d domain false) hfirst rfl)
      obtain ⟨r', htake, hvalues⟩ := hopened.opens hsecond true hresumes''
        (hnamed hopened hdomain hopen rfl rfl)
      exact ⟨r', (takeAll_append htake₁).trans htake, hvalues⟩
  | ends hends => exact Values.ending deeds h hends hmeets

end Requests

/-! ## Published data -/

section Tables

variable {c : LocalSignals} {r r' : RemoteSignals} {k j : UInt32} {e d : RegisteredLocalSignal}

/-- The table of a registered signal is locked by its address. -/
theorem lock_of_table (h : c.Registered) (hk : OrderedMap.find? c.signals k = some e)
    {t : TablePtr} (ht : e.table = some t) : c.lock t.address = some t.table := by
  have hsome : (c.lock t.address).isSome = true := by
    apply List.findSome?_isSome_iff.mpr
    refine ⟨(k, e), OrderedMap.mem_of_find?_eq_some hk, ?_⟩
    rw [ht, Option.filter_some, if_pos (decide_eq_true rfl)]
    rfl
  obtain ⟨j, f, t', hj, ht', haddress, hlock⟩ := owner_of_lock h hsome
  obtain rfl := (h.tables k e t hk ht).2 j f t' hj ht' haddress
  rw [hk] at hj
  rw [← Option.some.inj hj, ht] at ht'
  rw [hlock, Option.some.inj ht']

/-- So is that of a remote signal. -/
theorem lockedTable_of_bound (h : r.Reliable) {s : RemoteSignal} {id : String} {u : TablePtr}
    (hu : r.tableOf id = some u) (hbound : s.domainTable = some u.address) :
    r.lockedTable s = some (u.address, u.table) := by
  obtain ⟨s', hs', htable⟩ := Option.bind_eq_some_iff.mp hu
  obtain ⟨x, -, hobject, -⟩ := RemoteSignals.entry_of_seen h.wellFormed hs'
  have hlock : r.lock u.address = some u.table := by
    have hsome : (r.lock u.address).isSome = true := by
      apply List.findSome?_isSome_iff.mpr
      refine ⟨s', List.mem_of_getElem? hobject, ?_⟩
      rw [htable, Option.filter_some, if_pos (decide_eq_true rfl)]
      rfl
    obtain ⟨table, hlocked⟩ := Option.isSome_iff_exists.mp hsome
    obtain ⟨f, hf, hfound⟩ := List.exists_of_findSome?_eq_some hlocked
    obtain ⟨u', hu', rfl⟩ := Option.map_eq_some_iff.mp hfound
    obtain ⟨hu', haddress⟩ := Option.filter_eq_some_iff.mp hu'
    obtain ⟨b, hb⟩ := List.getElem?_of_mem hf
    obtain rfl := (h.ownTables _ s' u hobject htable).2 b f u' hb hu' (of_decide_eq_true haddress)
    rw [hobject] at hb
    rw [← Option.some.inj hb, htable] at hu'
    rw [hlocked, Option.some.inj hu']
  unfold RemoteSignals.lockedTable
  rw [hbound, Option.bind_some, hlock]
  rfl

/-- The tables of a connected signal give the same values, and are driven to the
same index if it is read. -/
theorem Values.tables (h : Values c r) (hk : OrderedMap.find? c.signals k = some e)
    (hslot : e.onDataPublished = true) (hid : e.signal.id ≠ "") {t : TablePtr}
    (ht : e.table = some t) :
    ∃ u, r.tableOf e.signal.id = some u ∧ (∀ i, u.table.valueAt i = t.table.valueAt i) ∧
      (ReadsDriven c e.signal.id → u.table.drivenIndex = t.table.drivenIndex) := by
  obtain ⟨s, hs, hshown⟩ := h.agreed.joined.shown k e hk hslot hid
  have hsome : s.table.isSome = true := by
    rw [hshown.table, ht]
    rfl
  obtain ⟨u, hu⟩ := Option.isSome_iff_exists.mp hsome
  have hlines : line u = line t := by
    rcases h.agreed.tables k e hk hid with hagree | ⟨hclosed, -⟩
    · unfold peerLine ownLine at hagree
      rw [hs, Option.bind_some, hu, ht] at hagree
      exact Option.some.inj hagree
    · rw [hslot] at hclosed
      cases hclosed
  obtain ⟨hindex, hrest⟩ := Prod.mk.inj hlines
  obtain ⟨hvalue, hdelta⟩ := Prod.mk.inj hrest
  refine ⟨u, ?_, ?_, fun hread =>
    ((h.right k e hk hslot).peer hid s hs).1.driven hread t u ht hu⟩
  · unfold RemoteSignals.tableOf
    rw [hs]
    exact hu
  · intro i
    unfold LinearTable.valueAt
    rw [hindex, hvalue, hdelta]

/-- **A table moves on both sides**, in the same way. -/
theorem right_moved (hregistered : c.Registered)
    (hright : ∀ k e, OrderedMap.find? c.signals k = some e → e.onDataPublished = true → Right c r e)
    {t : TablePtr} (hk : OrderedMap.find? c.signals k = some e) (ht : e.table = some t)
    {s : RemoteSignal} {u : TablePtr} (hs : r.seen e.signal.id = some s) (hu : s.table = some u)
    {g : LinearTable → LinearTable} (hg : ∀ x y, (g x).drivenIndex = (g y).drivenIndex)
    (hseen : ∀ i, r'.seen i = if e.signal.id = i then
      some { s with table := some { u with table := g u.table } } else r.seen i) :
    ∀ j d, OrderedMap.find? (c.modifyTable t.address g).signals j = some d →
      d.onDataPublished = true → Right (c.modifyTable t.address g) r' d := by
  intro j d' hj hslot
  rw [LocalSignals.find?_modifyTable] at hj
  obtain ⟨d, hd, rfl⟩ := Option.map_eq_some_iff.mp hj
  apply (hright j d hd hslot).continues (hregistered.modifyTable t.address g).distinct
    (sameSignals_modifyTable c t.address g) (keepsTables_modifyTable c t.address g)
  · intro i v hv
    unfold RemoteSignals.tableOf at hv ⊢
    rw [hseen]
    by_cases hi : e.signal.id = i
    · rw [if_pos hi]
      rw [← hi, hs, Option.bind_some, hu] at hv
      rw [← Option.some.inj hv]
      exact ⟨_, rfl, rfl⟩
    · rw [if_neg hi]
      exact ⟨v, hv, rfl⟩
  · refine ⟨rfl, rfl, rfl, rfl, ?_⟩
    intro hid s' hs'
    rw [hseen] at hs'
    by_cases hi : e.signal.id = d.signal.id
    -- The owner.
    · obtain rfl := hregistered.ids k e j d hk hd hi
      rw [hk] at hd
      obtain rfl := Option.some.inj hd
      rw [if_pos rfl] at hs'
      rw [← Option.some.inj hs']
      refine ⟨s, hs, rfl, fun _ hm => ⟨?_, hm.counted⟩⟩
      intro _ t' u' ht' hu'
      rw [show (e.modifyTable t.address g).table = some { t with table := g t.table } by
        change e.table.map _ = _
        rw [ht, Option.map_some, if_pos rfl]] at ht'
      rw [← Option.some.inj ht', ← Option.some.inj hu']
      exact hg _ _
    · rw [if_neg hi] at hs'
      refine ⟨s', hs', rfl, fun _ hm => ⟨?_, hm.counted⟩⟩
      intro hread t' u' ht' hu'
      obtain ⟨v, hv, heq⟩ := Option.map_eq_some_iff.mp (show d.table.map _ = some t' from ht')
      have hne : v.address ≠ t.address := by
        intro haddress
        obtain rfl := (hregistered.tables k e t hk ht).2 j d v hd hv haddress
        rw [hk] at hd
        exact hi (congrArg (fun e : RegisteredLocalSignal => e.signal.id) (Option.some.inj hd))
      rw [if_neg hne] at heq
      rw [← heq]
      exact hm.driven hread v u' hv hu'

/-- **A table is set.** -/
theorem Values.sets (h : Values c r) {a : Nat} {p : LinearPayload}
    (hfits : c.FitsDeed (.sets e a p)) {j : UInt32} {d : RegisteredLocalSignal} {t : TablePtr}
    (hj : OrderedMap.find? c.signals j = some d) (ht : d.table = some t) (haddress : t.address = a)
    (hslot : d.onDataPublished = true) (hid : d.signal.id ≠ "") :
    ∃ r', takeAll r (Deed.sets e a p).messages = some r' ∧ Values (c.doDeed (.sets e a p)) r' := by
  have hregistered := h.agreed.joined.registered
  obtain ⟨f, t', r', events, hf, ht', haddress', hstep, hjoined, hnamed, -⟩ :=
    h.agreed.joined.sets hfits
  have htake : takeAll r (Deed.sets e a p).messages = some r' := takeAll_cons hstep []
  have howner : j = e.domainSigno :=
    (hregistered.tables _ f t' hf ht').2 j d t hj ht (haddress.trans haddress'.symm)
  rw [howner, hf] at hj
  obtain rfl := Option.some.inj hj
  obtain ⟨s, u, hs, hu, hchanges⟩ := hnamed ⟨hslot, hid⟩
  have hsame : SameSignals c (c.doDeed (.sets e a p)) := sameSignals_modifyTable c a _
  refine ⟨r', htake, h.agrees _ hfits ?_ htake, ?_, ?_, ?_⟩
  · intro x hx hown
    have hxk := (OrderedMap.find?_eq_some_iff hregistered.distinct).mpr
      (show (x.1, x.2) ∈ c.signals from hx)
    obtain ⟨v, hv, hva⟩ := Option.map_eq_some_iff.mp hown
    have hkey := (hregistered.tables _ f t' hf ht').2 x.1 x.2 v hxk hv
      (hva.trans haddress'.symm)
    rw [hkey, hf] at hxk
    rw [← Option.some.inj hxk]
    exact hslot
  · apply h.named.of_names hjoined hsame (RemoteSignals.sorted_step h.named.sorted hstep)
    intro i v hv
    unfold RemoteSignals.tableOf at hv ⊢
    rw [hchanges.seen] at hv
    by_cases hi : f.signal.id = i
    · rw [if_pos hi] at hv
      rw [← hi, hs]
      exact ⟨u, hu, by rw [← Option.some.inj hv]; rfl⟩
    · rw [if_neg hi] at hv
      exact ⟨v, hv, rfl⟩
  · exact h.arranged.of_same hregistered.distinct hjoined.registered.distinct hsame
  · have hright := right_moved hregistered h.right hf ht hs hu
      (g := fun t => t.updatePayload p) (fun _ _ => rfl) hchanges.seen
    rw [haddress] at hright
    exact hright

/-- The peer counts the samples that were published. -/
theorem explicitCount_of_counts {s : RemoteSignal} (h : Shown e s) {sampleCount size : Nat}
    (hcounts : Counts e.signal.metadata sampleCount size)
    (hrule : e.signal.metadata.rule = explicitRule) : s.explicitCount size = sampleCount := by
  unfold RemoteSignal.explicitCount
  rw [h.sampleSize, h.dataType]
  rcases hcounts hrule with ⟨hpos, hcount⟩ | ⟨hbinary, hcount⟩
  · rw [if_pos (by omega), hcount]
  · have hzero : e.signal.metadata.sampleSize = 0 := by
      unfold Metadata.sampleSize
      rw [hbinary, if_neg (by decide)]
      decide
    rw [hzero, if_neg (by omega), if_pos hbinary, hcount]

/-- What the peer has of a connected signal whose domain is connected. -/
structure Receives (r : RemoteSignals) (e d : RegisteredLocalSignal) (t : TablePtr)
    (s : RemoteSignal) (u : TablePtr) : Prop where
  numbered : r.numbered e.signo = some e.signal.id
  seen : r.seen e.signal.id = some s
  shown : Shown e s
  clean : s.tcpDelta = 0
  table : s.table = none
  counted : e.isExplicit = true → s.valueIndex = e.valueIndex
  domain : r.tableOf d.signal.id = some u
  locked : r.lockedTable s = some (u.address, u.table)
  valueAt : ∀ i, u.table.valueAt i = t.table.valueAt i
  driven : e.signal.metadata.rule ≠ explicitRule → u.table.drivenIndex = t.table.drivenIndex

theorem Values.receives (h : Values c r) (hk : OrderedMap.find? c.signals k = some e)
    (hslot : e.onDataPublished = true) (hlinear : e.signal.metadata.isLinear = false)
    (hid : e.signal.id ≠ "") {t : TablePtr}
    (hj : OrderedMap.find? c.signals j = some d) (ht : d.table = some t)
    (hnames : e.signal.domainId? = some d.signal.id) (hslot' : d.onDataPublished = true) :
    ∃ s u, Receives r e d t s u := by
  obtain ⟨hnumbered, s, hs, hshown, hclean⟩ := h.agreed.joined.seen_of_connected hk hslot hid
  obtain ⟨u, hu, hvalueAt, hdriven⟩ := h.tables hj hslot' (ne_empty_of_domainId? hnames) ht
  obtain ⟨hmatches, hbound⟩ := (h.right k e hk hslot).peer hid s hs
  obtain ⟨u', hu', haim⟩ := hbound d.signal.id hnames
  rw [hu] at hu'
  rw [← Option.some.inj hu'] at haim
  have htable : s.table = none := by
    have hsync : e.table.isSome = false := (h.agreed.joined.registered.inSync k e hk).trans hlinear
    rw [← hshown.table] at hsync
    exact Option.isSome_eq_false_iff.mp hsync |> Option.isNone_iff_eq_none.mp
  have hread (hrule : e.signal.metadata.rule ≠ explicitRule) : ReadsDriven c d.signal.id :=
    ⟨(k, e), OrderedMap.mem_of_find?_eq_some hk, hnames, hrule⟩
  exact ⟨s, u, hnumbered, hs, hshown, hclean, htable, hmatches.counted, hu,
    lockedTable_of_bound h.agreed.joined.reliable hu haim, hvalueAt,
    fun hrule => hdriven (hread hrule)⟩

/-- The counter of a signal whose data change nothing else. -/
theorem Values.counts (h : Values c r) (hk : OrderedMap.find? c.signals k = some e)
    (hslot : e.onDataPublished = true) (hlinear : e.signal.metadata.isLinear = false)
    (hrule : e.signal.metadata.rule ≠ explicitRule) (sampleCount : Nat) {data : Bytes}
    {events : List RemoteEvent}
    (hstep : r.step (.message (.data e.signo data)) = some (r, events)) :
    takeAll r (Deed.emits k e sampleCount data).messages = some r ∧
      Values (c.doDeed (.emits k e sampleCount data)) r := by
  have hregistered := h.agreed.joined.registered
  have hfits : c.FitsDeed (.emits k e sampleCount data) := ⟨hk, hslot⟩
  have hsame := sameSignals_doDeed (.emits k e sampleCount data) hfits rfl
  have hruled : e.isExplicit = false := (h.right k e hk hslot).ruled.trans (decide_eq_false hrule)
  have hleft : c.doDeed (.emits k e sampleCount data) = c.update k fun _ =>
      e.withValueIndex (e.valueIndex + Int64.ofNat sampleCount) := by
    have hnone : LocalSignals.drivenTable e = none := by
      unfold LocalSignals.drivenTable
      rw [hruled, if_neg Bool.false_ne_true]
    change LocalSignals.drive _ (LocalSignals.drivenTable e) _ = _
    rw [hnone]
    rfl
  have hlocal : KeepsTables c (c.update k fun _ =>
      e.withValueIndex (e.valueIndex + Int64.ofNat sampleCount)) :=
    keepsTables_put (n := c.nextTable) hk rfl fun t ht => ⟨t, ht, rfl⟩
  have htake : takeAll r (Deed.emits k e sampleCount data).messages = some r :=
    takeAll_cons hstep []
  have hresuming : ResumingDeed c r (.emits k e sampleCount data) :=
    fun hl => absurd (hlinear.symm.trans hl) Bool.false_ne_true
  have hagreed := h.agrees _ hfits hresuming htake
  refine ⟨htake, hagreed, ?_, ?_, ?_⟩
  · exact h.named.of_names hagreed.joined hsame h.named.sorted fun _ t ht => ⟨t, ht, rfl⟩
  · exact h.arranged.of_same hregistered.distinct hagreed.joined.registered.distinct hsame
  · rw [hleft]
    apply h.right_kept (n := c.nextTable) hk hlocal (.refl r) rfl
    · refine ⟨rfl, rfl, rfl, rfl, ?_⟩
      intro _ s hs
      refine ⟨s, hs, rfl, fun _ hm => ⟨hm.driven, ?_⟩⟩
      exact fun hx => absurd (hruled.symm.trans hx) Bool.false_ne_true
    · exact fun _ _ => rfl

/-- A signal is bound to the table that it is aimed at. -/
theorem AimedAt.domainTable (h : AimedAt c e d.signal.id) (hregistered : c.Registered)
    (hj : OrderedMap.find? c.signals j = some d) {t : TablePtr} (ht : d.table = some t) :
    e.domainTable = some t.address ∧ e.domainSigno = j := by
  obtain ⟨j', d', t', hj', hid, ht', haim, hsigno⟩ := h
  obtain rfl := hregistered.ids j' d' j d hj' hj hid
  rw [hj] at hj'
  obtain rfl := Option.some.inj hj'
  rw [ht] at ht'
  rw [haim, Option.some.inj ht']
  exact ⟨rfl, hsigno⟩

/-- **Data of an explicit-rule signal** move its counter, and drive the table of
its domain, on both sides. -/
theorem Values.drives (h : Values c r) (hk : OrderedMap.find? c.signals k = some e)
    (hslot : e.onDataPublished = true) (hlinear : e.signal.metadata.isLinear = false)
    (hrule : e.signal.metadata.rule = explicitRule)
    (hj : OrderedMap.find? c.signals j = some d) {t : TablePtr} (ht : d.table = some t)
    (hnames : e.signal.domainId? = some d.signal.id) {s : RemoteSignal} {u : TablePtr}
    (hreceives : Receives r e d t s u) {sampleCount : Nat} {data : Bytes}
    (hcounts : Counts e.signal.metadata sampleCount data.length) :
    ∃ r' a, takeAll r (Deed.emits k e sampleCount data).messages = some r' ∧
      Values (c.doDeed (.emits k e sampleCount data)) r' ∧
      r.addressOf e.signal.id = some a ∧
      r.step (.message (.data e.signo data)) =
        some (r', [.signal a (.dataReceived (u.table.valueAt s.valueIndex) sampleCount data)]) := by
  have hregistered := h.agreed.joined.registered
  have hfits : c.FitsDeed (.emits k e sampleCount data) := ⟨hk, hslot⟩
  have hsame := sameSignals_doDeed (.emits k e sampleCount data) hfits rfl
  have hright := h.right k e hk hslot
  have hruled : e.isExplicit = true := hright.ruled.trans (decide_eq_true hrule)
  have hcount := explicitCount_of_counts hreceives.shown hcounts hrule
  have hindex : e.valueIndex + Int64.ofNat sampleCount =
      s.valueIndex + Int64.ofNat (s.explicitCount data.length) := by
    rw [hcount, hreceives.counted hruled]
  obtain ⟨r₁, a, hstep, haddress, hchanges, -⟩ := RemoteSignals.take_explicit
    h.agreed.joined.reliable hreceives.numbered hreceives.seen hreceives.shown.isSubscribed
    hreceives.clean hreceives.table (hreceives.shown.isExplicit.trans hruled) data hindex
  rw [hreceives.locked, hcount] at hstep
  generalize hi : e.valueIndex + Int64.ofNat sampleCount = i at hstep hchanges
  -- The counters.
  have hlocal : KeepsTables c (c.update k fun _ => e.withValueIndex i) :=
    keepsTables_put (n := c.nextTable) hk rfl fun t ht => ⟨t, ht, rfl⟩
  have hpeer : KeepsPeerTables r r₁ := by
    apply keepsPeerTables_changes hchanges
    intro v hv
    unfold RemoteSignals.tableOf at hv
    rw [hreceives.seen] at hv
    exact ⟨v, hv, rfl⟩
  have hcontinues : Continues r r₁ e (e.withValueIndex i) := by
    refine ⟨rfl, rfl, rfl, rfl, ?_⟩
    intro _ s' hs'
    rw [hchanges.self] at hs'
    rw [← Option.some.inj hs']
    exact ⟨s, hreceives.seen, rfl, fun _ hm => ⟨hm.driven, fun _ => rfl⟩⟩
  have hcounted := h.right_kept (n := c.nextTable) hk hlocal hpeer rfl hcontinues fun _ hne =>
    hchanges.other hne
  -- The table.
  have hne : e.signal.id ≠ d.signal.id := LocalSignals.ne_of_domainId? hnames
  have hj₁ : OrderedMap.find? (c.update k fun _ => e.withValueIndex i).signals j = some d := by
    refine (LocalSignals.find?_put (n := c.nextTable) hk j).trans ((if_neg ?_).trans hj)
    rintro rfl
    rw [hk] at hj
    exact hne (congrArg (fun e : RegisteredLocalSignal => e.signal.id) (Option.some.inj hj))
  obtain ⟨sd, hsd, hud⟩ := Option.bind_eq_some_iff.mp hreceives.domain
  have hsd₁ : r₁.seen d.signal.id = some sd := (hchanges.other hne).trans hsd
  have hseen := RemoteSignals.seen_modifyTable_own hchanges.reliable hsd₁ hud fun t => t.driveTo i
  have hmoved := right_moved (h.agreed.joined.indexed hk i).registered hcounted hj₁ ht hsd₁ hud
    (g := fun t => t.driveTo i) (fun _ _ => rfl) hseen
  have hleft : c.doDeed (.emits k e sampleCount data) =
      (c.update k fun _ => e.withValueIndex i).modifyTable t.address fun t => t.driveTo i := by
    have hdriven : LocalSignals.drivenTable e = some t.address := by
      unfold LocalSignals.drivenTable
      rw [hruled, if_pos rfl]
      exact ((hright.aimed d.signal.id hnames).domainTable hregistered hj ht).1
    change LocalSignals.drive _ (LocalSignals.drivenTable e) _ = _
    rw [hdriven, hi]
    rfl
  have htake : takeAll r (Deed.emits k e sampleCount data).messages =
      some (r₁.modifyTable u.address fun t => t.driveTo i) := takeAll_cons hstep []
  have hresuming : ResumingDeed c r (.emits k e sampleCount data) :=
    fun hl => absurd (hlinear.symm.trans hl) Bool.false_ne_true
  have hagreed := h.agrees _ hfits hresuming htake
  refine ⟨_, a, htake, ⟨hagreed, ?_, ?_, ?_⟩, haddress, hstep⟩
  · apply h.named.of_names hagreed.joined hsame (RemoteSignals.sorted_step h.named.sorted hstep)
    intro x v hv
    unfold RemoteSignals.tableOf at hv ⊢
    rw [hseen] at hv
    by_cases hx : d.signal.id = x
    · rw [if_pos hx] at hv
      rw [← hx, hsd]
      exact ⟨u, hud, by rw [← Option.some.inj hv]; rfl⟩
    · rw [if_neg hx] at hv
      by_cases hx' : e.signal.id = x
      · rw [← hx', hchanges.self] at hv
        rw [← hx', hreceives.seen]
        exact ⟨v, hv, rfl⟩
      · rw [hchanges.other hx'] at hv
        exact ⟨v, hv, rfl⟩
  · exact h.arranged.of_same hregistered.distinct hagreed.joined.registered.distinct hsame
  · rw [hleft]
    exact hmoved

/-- **Data are published** on a signal whose domain is connected, with the value
that the table of the domain has for them. -/
theorem Values.emits (h : Values c r) (hk : OrderedMap.find? c.signals k = some e)
    (hslot : e.onDataPublished = true) (hlinear : e.signal.metadata.isLinear = false)
    (hj : OrderedMap.find? c.signals j = some d) {t : TablePtr} (ht : d.table = some t)
    (hnames : e.signal.domainId? = some d.signal.id) (hslot' : d.onDataPublished = true)
    (hid : e.signal.metadata.rule = explicitRule → e.signal.id ≠ "") {sampleCount : Nat}
    {data : Bytes} (hcounts : Counts e.signal.metadata sampleCount data.length)
    {domainValue : Int64}
    (hvalue : t.table.valueAt (if e.isExplicit then e.valueIndex else t.table.drivenIndex) =
      domainValue) :
    ∃ r', takeAll r (Deed.emits k e sampleCount data).messages = some r' ∧
      Values (c.doDeed (.emits k e sampleCount data)) r' ∧
      (e.signal.id ≠ "" → ∃ a n received, r.addressOf e.signal.id = some a ∧
        r.step (.message (.data e.signo data)) =
          some (r', [.signal a (.dataReceived domainValue n received)]) ∧
        (e.signal.metadata.rule = explicitRule → n = sampleCount ∧ received = data)) := by
  have hright := h.right k e hk hslot
  by_cases hrule : e.signal.metadata.rule = explicitRule
  · obtain ⟨s, u, hreceives⟩ := h.receives hk hslot hlinear (hid hrule) hj ht hnames hslot'
    obtain ⟨r', a, htake, hvalues, haddress, hstep⟩ :=
      h.drives hk hslot hlinear hrule hj ht hnames hreceives hcounts
    have hruled : e.isExplicit = true := hright.ruled.trans (decide_eq_true hrule)
    rw [hruled, if_pos rfl] at hvalue
    rw [hreceives.counted hruled, hreceives.valueAt, hvalue] at hstep
    refine ⟨r', htake, hvalues, fun _ => ⟨a, sampleCount, data, haddress, hstep, ?_⟩⟩
    exact fun _ => ⟨rfl, rfl⟩
  · have hruled : e.isExplicit = false := hright.ruled.trans (decide_eq_false hrule)
    rw [hruled, if_neg Bool.false_ne_true] at hvalue
    by_cases hempty : e.signal.id = ""
    · obtain ⟨htake, hvalues⟩ :=
        h.counts hk hslot hlinear hrule sampleCount
          (h.agreed.joined.emits_unnamed hk hempty data)
      exact ⟨r, htake, hvalues, fun hne => absurd hempty hne⟩
    · obtain ⟨s, u, hreceives⟩ := h.receives hk hslot hlinear hempty hj ht hnames hslot'
      obtain ⟨a, hstep, haddress⟩ := RemoteSignals.take_implicit h.agreed.joined.reliable
        hreceives.numbered hreceives.seen hreceives.shown.isSubscribed hreceives.clean
        hreceives.table (hreceives.shown.isExplicit.trans hruled) data
      have hdriven : u.table.drivenValue = domainValue := by
        rw [LinearTable.drivenValue_eq, hreceives.valueAt, hreceives.driven hrule, hvalue]
      rw [hreceives.locked, Option.map_some, Option.getD_some, hdriven] at hstep
      obtain ⟨htake, hvalues⟩ := h.counts hk hslot hlinear hrule sampleCount hstep
      exact ⟨r, htake, hvalues, fun _ => ⟨a, _, _, haddress, hstep, fun hx => absurd hx hrule⟩⟩

end Tables

/-! ## Acts -/

/-- A signal is the one with an address. -/
def Addressed (c : LocalSignals) (address : Nat) (k : UInt32) (signal : LocalSignal) : Prop :=
  ∃ e, c.findByAddress address = some (k, e) ∧ e.signal = signal

section Acts

variable {c : LocalSignals} {r : RemoteSignals} {k : UInt32} {e : RegisteredLocalSignal}

theorem Addressed.modifyTable {address : Nat} {signal : LocalSignal}
    (h : Addressed c address k signal) (a : Nat) (f : LinearTable → LinearTable) :
    Addressed (c.modifyTable a f) address k signal := by
  obtain ⟨e, he, hsignal⟩ := h
  refine ⟨e.modifyTable a f, ?_, hsignal⟩
  unfold LocalSignals.findByAddress LocalSignals.modifyTable
  rw [List.find?_map]
  unfold LocalSignals.findByAddress at he
  exact congrArg (Option.map fun e => (e.1, RegisteredLocalSignal.modifyTable e.2 a f)) he

theorem Addressed.emits {address : Nat} {signal : LocalSignal}
    (h : Addressed c address k signal) (hd : Distinct c.signals)
    (hk : OrderedMap.find? c.signals k = some e) (sampleCount : Nat) (data : Bytes) :
    Addressed (c.doDeed (.emits k e sampleCount data)) address k signal := by
  obtain ⟨e', he', hsignal⟩ := h
  have hcounted : Addressed (c.update k fun _ =>
      e.withValueIndex (e.valueIndex + Int64.ofNat sampleCount)) address k signal := by
    refine ⟨e.withValueIndex (e.valueIndex + Int64.ofNat sampleCount),
      (LocalSignals.findByAddress_update hd hk rfl address).trans ?_, ?_⟩
    · rw [he', Option.map_some, if_pos rfl]
    · have hfound := LocalSignals.find?_of_findByAddress hd he'
      rw [hk] at hfound
      rw [← hsignal, ← Option.some.inj hfound]
      rfl
  change Addressed (LocalSignals.drive _ _ _) address k signal
  cases LocalSignals.drivenTable e with
  | none => exact hcounted
  | some a => exact hcounted.modifyTable a _

/-- What is said of a message that is not the data of the signal. -/
theorem domainAgrees_of_ne {r : RemoteSignals} {sender : LocalSignals} {m : Message}
    {address : Nat} {domainValue : Int64} {sampleCount : Nat} {data : Bytes} {signal : LocalSignal}
    (h : Addressed sender address k signal) (hm : m ≠ .data k data) :
    DomainAgrees r ⟨m, .publish address domainValue sampleCount data, sender⟩ := by
  intro a v n d hact j f hfind hmessage
  injection hact with haddress _ _ hdata
  obtain ⟨e, he, -⟩ := h
  rw [← haddress, he] at hfind
  rw [← (Prod.mk.inj (Option.some.inj hfind)).1, ← hdata] at hmessage
  exact absurd hmessage hm

/-- What is said of the data of the signal. -/
theorem domainAgrees_of_data {r r' : RemoteSignals} {sender : LocalSignals} {address : Nat}
    {domainValue : Int64} {sampleCount : Nat} {data : Bytes} {signal : LocalSignal}
    (h : Addressed sender address k signal)
    (hdata : signal.id ≠ "" → ∃ a n received, r.addressOf signal.id = some a ∧
      r.step (.message (.data k data)) =
        some (r', [.signal a (.dataReceived domainValue n received)]) ∧
      (signal.metadata.rule = explicitRule → n = sampleCount ∧ received = data)) :
    DomainAgrees r ⟨.data k data, .publish address domainValue sampleCount data, sender⟩ := by
  intro a v n d hact j f hfind hmessage hne
  injection hact with haddress hvalue hcount hpublished
  obtain ⟨e, he, hsignal⟩ := h
  rw [← haddress, he] at hfind
  rw [← (Prod.mk.inj (Option.some.inj hfind)).2, hsignal] at hne ⊢
  obtain ⟨b, m, received, hb, hstep, hexplicit⟩ := hdata hne
  rw [← hvalue, ← hcount, ← hpublished]
  exact ⟨r', b, m, received, hb, hstep, hexplicit⟩

/-- The domain of a connected signal is connected. -/
theorem Values.connectedDomain (h : Values c r) (hc : Followed c)
    (hk : OrderedMap.find? c.signals k = some e) (hslot : e.onDataPublished = true)
    (hlinear : e.signal.metadata.isLinear = false) (htable : e.signal.metadata.tableId ≠ "") :
    ∃ j d t, OrderedMap.find? c.signals j = some d ∧ d.table = some t ∧
      e.signal.domainId? = some d.signal.id ∧ d.onDataPublished = true ∧
        e.domainTable = some t.address ∧ e.domainSigno = j ∧ j ≠ k := by
  have hregistered := h.agreed.joined.registered
  rcases h.arranged (k, e) (OrderedMap.mem_of_find?_eq_some hk) with
    hdomain | ⟨-, ⟨j, d⟩, hmem, hdomain, hid⟩
  · rw [hdomain.1] at hlinear
    cases hlinear
  · dsimp only at hid hdomain
    have hj := (OrderedMap.find?_eq_some_iff hregistered.distinct).mpr hmem
    have hne : j ≠ k := by
      rintro rfl
      rw [hk] at hj
      rw [Option.some.inj hj, hdomain.1] at hlinear
      cases hlinear
    have hnames : e.signal.domainId? = some d.signal.id := by
      unfold LocalSignal.domainId?
      rw [if_pos, hid]
      refine ⟨htable, ?_⟩
      intro heq
      exact hne (hregistered.ids j d k e hj hk (hid.symm.trans heq))
    have hslot' : d.onDataPublished = true := by
      rw [hc.connected k e hk] at hslot
      exact (hc.connected j d hj).trans (hc.domain hk hslot hj hnames)
    have hsome : d.table.isSome = true := (hregistered.inSync j d hj).trans hdomain.1
    obtain ⟨t, ht⟩ := Option.isSome_iff_exists.mp hsome
    obtain ⟨haim, hsigno⟩ :=
      ((h.right k e hk hslot).aimed d.signal.id hnames).domainTable hregistered hj ht
    exact ⟨j, d, t, hj, ht, hnames, hslot', haim, hsigno, hne⟩

/-- The table of a domain is set if it does not have the value that is
published. -/
theorem domainUpdate_of_table (h : c.Registered) {j : UInt32} {d : RegisteredLocalSignal}
    {t : TablePtr} (hj : OrderedMap.find? c.signals j = some d) (ht : d.table = some t)
    (haim : e.domainTable = some t.address) (domainValue : Int64) {index : Int64}
    (hindex : (if e.isExplicit then e.valueIndex else t.table.drivenIndex) = index) :
    c.domainUpdate e domainValue =
      if domainValue ≠ t.table.valueAt index then some (t.address, ⟨index, domainValue⟩)
      else none := by
  unfold LocalSignals.domainUpdate
  rw [haim, Option.bind_some, lock_of_table h hj ht, ← hindex]
  rfl

/-- **Data are published.** -/
theorem Values.publish (h : Values c r) (hc : Followed c) (address : Nat) (domainValue : Int64)
    (sampleCount : Nat) (data : Bytes)
    (horderly : Orderly c (.publish address domainValue sampleCount data))
    (hok : Steady c (.publish address domainValue sampleCount data)) :
    ∃ r', Carries take DomainAgrees r
        (send c (.publish address domainValue sampleCount data)).2 r' ∧
      Values (send c (.publish address domainValue sampleCount data)).1 r' := by
  have hregistered := h.agreed.joined.registered
  obtain ⟨deeds, hdoes, hact, hmeets⟩ :=
    LocalSignals.deeds_of_act hregistered.distinct (.publish address domainValue sampleCount data)
  rw [send_of_act hact]
  cases hdoes with
  | dropped hfind => exact ⟨r, rfl, h⟩
  | @emits _ _ _ _ k e hfind hslot hset =>
      have hk := hmeets.1.1
      obtain ⟨hlinear, hcounts⟩ := horderly (k, e) hfind
      obtain ⟨htable, hid⟩ := hok (k, e) hfind hslot
      obtain ⟨j, d, t, hj, ht, hnames, hslot', haim, hsigno, hne⟩ :=
        h.connectedDomain hc hk hslot hlinear htable
      have hvalue : t.table.valueAt (if e.isExplicit then e.valueIndex else t.table.drivenIndex) =
          domainValue := by
        rw [domainUpdate_of_table hregistered hj ht haim domainValue rfl] at hset
        by_contra hother
        rw [if_pos fun heq => hother heq.symm] at hset
        cases hset
      obtain ⟨r', htake, hvalues, hdata⟩ :=
        h.emits hk hslot hlinear hj ht hnames hslot' hid hcounts hvalue
      have haddressed := Addressed.emits ⟨e, hfind, rfl⟩ hregistered.distinct hk sampleCount data
      have hsent : (Deed.emits k e sampleCount data).messages = [.data k data] := by
        rw [← (hregistered.signo k e hk).1]
        rfl
      rw [(hregistered.signo k e hk).1] at hdata
      rw [hsent] at htake
      refine ⟨r', ?_, hvalues⟩
      rw [List.flatMap_cons, List.flatMap_nil, List.append_nil, hsent]
      exact carries_of_take htake (domainAgrees_of_data haddressed hdata)
  | @sets _ _ _ _ k e e' a p hfind hslot hset he' =>
      obtain ⟨hfits, ⟨hk', -⟩, -⟩ := hmeets
      have hk := LocalSignals.find?_of_findByAddress hregistered.distinct hfind
      obtain ⟨hlinear, hcounts⟩ := horderly (k, e) hfind
      obtain ⟨htable, hid⟩ := hok (k, e) hfind hslot
      obtain ⟨j, d, t, hj, ht, hnames, hslot', haim, hsigno, hne⟩ :=
        h.connectedDomain hc hk hslot hlinear htable
      obtain ⟨index, hindex⟩ : ∃ index, index =
        if e.isExplicit then e.valueIndex else t.table.drivenIndex := ⟨_, rfl⟩
      rw [domainUpdate_of_table hregistered hj ht haim domainValue hindex.symm] at hset
      by_cases hsame : domainValue ≠ t.table.valueAt index
      · rw [if_pos hsame] at hset
        obtain ⟨rfl, rfl⟩ := Prod.mk.inj (Option.some.inj hset)
        obtain ⟨r₁, htake₁, hmoved⟩ :=
          h.sets hfits hj ht rfl hslot' (ne_empty_of_domainId? hnames)
        -- The domain, whose table is set.
        have hj' : OrderedMap.find? (c.doDeed (.sets e t.address ⟨index, domainValue⟩)).signals j =
            some (d.modifyTable t.address fun t => t.updatePayload ⟨index, domainValue⟩) := by
          change OrderedMap.find? (c.modifyTable t.address _).signals j = _
          rw [LocalSignals.find?_modifyTable, hj]
          rfl
        have ht' : (d.modifyTable t.address fun t =>
            t.updatePayload ⟨index, domainValue⟩).table =
              some { t with table := t.table.set index domainValue } := by
          change d.table.map _ = _
          rw [ht, Option.map_some, if_pos rfl]
          rfl
        have hexplicit : e'.isExplicit = e.isExplicit ∧ e'.valueIndex = e.valueIndex := by
          rw [he']
          exact ⟨rfl, rfl⟩
        have hvalue : (t.table.set index domainValue).valueAt
            (if e'.isExplicit then e'.valueIndex
              else (t.table.set index domainValue).drivenIndex) = domainValue := by
          have hset : (if e'.isExplicit then e'.valueIndex
              else (t.table.set index domainValue).drivenIndex) = index := by
            rw [hexplicit.1, hexplicit.2]
            by_cases hx : e.isExplicit = true
            · rw [if_pos hx] at hindex ⊢
              exact hindex.symm
            · rw [if_neg hx]
              rfl
          rw [hset]
          exact LinearTable.valueAt_set t.table index domainValue
        have hsignal : e'.signal = e.signal := by
          rw [he']
          rfl
        rw [← hsignal] at hlinear hcounts hid hnames
        have hslot'' : e'.onDataPublished = true := by
          rw [he']
          exact hslot
        obtain ⟨r', htake, hvalues, hdata⟩ :=
          hmoved.emits hk' hslot'' hlinear hj' ht' hnames hslot' hid hcounts hvalue
        have hregistered' := hmoved.agreed.joined.registered
        have haddressed := Addressed.emits
          (Addressed.modifyTable ⟨e, hfind, rfl⟩ t.address fun t =>
            t.updatePayload ⟨index, domainValue⟩) hregistered'.distinct hk' sampleCount data
        have hsent : (Deed.emits k e' sampleCount data).messages = [.data k data] := by
          rw [← (hregistered'.signo k e' hk').1]
          rfl
        rw [(hregistered'.signo k e' hk').1, hsignal] at hdata
        rw [hsent] at htake
        refine ⟨r', ?_, hvalues⟩
        rw [List.flatMap_cons, List.flatMap_cons, List.flatMap_nil, List.append_nil, hsent,
          List.map_append]
        have hfirst : DomainAgrees r ⟨.data e.domainSigno
            (LinearPayload.bytes ⟨index, domainValue⟩),
              .publish address domainValue sampleCount data,
              (c.doDeed (.sets e t.address ⟨index, domainValue⟩)).doDeed
                (.emits k e' sampleCount data)⟩ := by
          apply domainAgrees_of_ne haddressed
          intro hm
          injection hm with hnumber
          exact hne (hsigno.symm.trans hnumber)
        exact (carries_of_take htake₁ hfirst).append
          (carries_of_take htake (domainAgrees_of_data haddressed hdata))
      · rw [if_neg hsame] at hset
        cases hset

/-- **What happens on the publishing side**, whose messages are taken. -/
theorem Values.act (h : Values c r) (hc : Followed c) (i : Act) (horderly : Orderly c i)
    (hok : Steady c i) :
    ∃ r', Carries take DomainAgrees r (send c i).2 r' ∧ Values (send c i).1 r' := by
  cases i with
  | announce ids =>
      obtain ⟨r', htake, hvalues⟩ := h.announce ids
      refine ⟨r', carries_of_takeAll _ htake ?_, hvalues⟩
      exact fun _ _ _ => domainAgrees_of_act fun _ _ _ _ hact => nomatch hact
  | request q =>
      obtain ⟨r', htake, hvalues⟩ := h.request hc q hok
      refine ⟨r', carries_of_takeAll _ htake ?_, hvalues⟩
      exact fun _ _ _ => domainAgrees_of_act fun _ _ _ _ hact => nomatch hact
  | setMetadata address m => cases horderly
  | publish address domainValue sampleCount data =>
      exact h.publish hc address domainValue sampleCount data horderly hok

end Acts

/-! ## Runs -/

/-- Nobody is subscribed to signals that were just registered. -/
theorem unsubscribed_registered (signals : List LocalSignal) :
    ∀ p ∈ (registered signals).subscriptions, p.2.isExplicit = false ∧ p.2.count = 0 := by
  have hstep (c : LocalSignals) (signal : LocalSignal)
      (h : ∀ p ∈ c.subscriptions, p.2.isExplicit = false ∧ p.2.count = 0) :
      ∀ p ∈ (c.addLocalSignal signal).1.subscriptions, p.2.isExplicit = false ∧ p.2.count = 0 := by
    cases hfind : c.findByAddress signal.address with
    | some e =>
        rw [LocalSignals.addLocalSignal_of_some hfind]
        exact h
    | none =>
        rw [LocalSignals.subscriptions_addLocalSignal hfind, OrderedMap.emplace]
        split
        · exact h
        · intro p hp
          rcases OrderedMap.mem_insertBefore.mp hp with rfl | hp
          · exact ⟨rfl, rfl⟩
          · exact h p hp
  exact Run.foldl_invariant hstep signals {} fun _ hp => absurd hp List.not_mem_nil

theorem followed_registered (signals : List LocalSignal) (hids : (signals.map LocalSignal.id).Nodup)
    (hcount : signals.length + 1 < 2 ^ 32) (harranged : Arrangement (registered signals)) :
    Followed (registered signals) := by
  obtain ⟨hregistered, huntouched⟩ := LocalSignals.registered_registered signals hids hcount
  have hnobody := unsubscribed_registered signals
  rw [LocalSignals.forall_subscriptions] at hnobody
  have hinactive : ∀ p ∈ (registered signals).signals, p.2.isSubscribed = false := by
    intro p hp
    obtain ⟨hexplicit, hzero⟩ := hnobody p hp
    unfold RegisteredLocalSignal.isSubscribed
    rw [show p.2.isExplicitlySubscribed = false from hexplicit,
      show p.2.implicitSubscribeCount = 0 from hzero]
    rfl
  have hfound {p : UInt32 × RegisteredLocalSignal} (hp : p ∈ (registered signals).signals) :=
    (OrderedMap.find?_eq_some_iff hregistered.distinct).mpr
      (show (p.1, p.2) ∈ (registered signals).signals from hp)
  refine ⟨⟨⟨LocalSignals.distinct_subscriptions.mpr hregistered.distinct, ?_, ?_, ?_⟩, ?_⟩, ?_⟩
  · rw [LocalSignals.forall_subscriptions]
    intro p hp
    rw [LocalSignals.forall_subscriptions]
    intro q hq hid
    have hkey := hregistered.ids p.1 p.2 q.1 q.2 (hfound hp) (hfound hq) hid
    have hentry := hfound hp
    rw [hkey, hfound hq] at hentry
    rw [hkey, Option.some.inj hentry]
  · unfold Subscriptions.Proper
    rw [LocalSignals.forall_subscriptions]
    exact fun p _ heq => LocalSignals.ne_of_domainId? heq rfl
  · rw [LocalSignals.forall_subscriptions]
    intro p hp
    rw [LocalSignals.forall_subscriptions]
    intro q hq hnames
    obtain ⟨-, j, d, hj, hid, hdomain⟩ := harranged.domain (hfound hp) hregistered.distinct hnames
    obtain rfl := hregistered.ids j d q.1 q.2 hj (hfound hq) hid
    rw [hfound hq] at hj
    change q.2.signal.domainId? = none
    rw [Option.some.inj hj]
    unfold LocalSignal.domainId?
    exact if_neg fun hne => hne.2 hdomain.2
  · rw [LocalSignals.forall_subscriptions]
    intro p hp
    have hnone : (registered signals).subscriptions.namers p.2.signal.id = 0 := by
      unfold Subscriptions.namers
      rw [List.countP_eq_zero, LocalSignals.forall_subscriptions]
      intro q hq hnames
      rw [Subscription.names_of_inactive (s := q.2.subscription) (hinactive q hq)] at hnames
      cases hnames
    rw [show p.2.subscription.count = 0 from (hnobody p hp).2]
    exact hnone.symm
  · intro k e hk
    rw [(huntouched k e hk).1.slot, hinactive (k, e) (OrderedMap.mem_of_find?_eq_some hk)]

theorem values_registered (signals : List LocalSignal) (hids : (signals.map LocalSignal.id).Nodup)
    (hcount : signals.length + 1 < 2 ^ 32) (harranged : Arrangement (registered signals)) :
    Values (registered signals) {} := by
  obtain ⟨-, huntouched⟩ := LocalSignals.registered_registered signals hids hcount
  refine ⟨agreed_registered signals hids hcount, named_registered signals hids hcount, harranged,
    ?_⟩
  intro k e hk hslot
  rw [(huntouched k e hk).1.slot] at hslot
  cases hslot

/-- **Domain values agree.**  Take any fixed set of signals with unique ids, of
which each is a linear-rule signal with its own table or has another rule and
names the table of one, and any interleaving of requests and published data
with deliveries, in which metadata do not change, a value signal is
unsubscribed only while it is explicitly subscribed, and data are published on
value signals with the count of their samples.  If each domain signal counts as
its metadata say when its subscription begins, then all data are handed over
with the domain value that was published with them, and those of an
explicit-rule signal as a whole and with the same count. -/
theorem domain_values_agree_of_steady (signals : List LocalSignal)
    (hids : (signals.map LocalSignal.id).Nodup) (hcount : signals.length + 1 < 2 ^ 32)
    (harranged : Arrangement (registered signals)) (moves : List (Move Act))
    (h : MeetsOpt (Fifo.lockstep send take) (fun w i => Orderly w.1 i ∧ Steady w.1 i)
      (registered signals, {}) (Fifo.inputs moves)) :
    (∃ w, moves.foldlM (Fifo.step send take) ⟨registered signals, [], {}⟩ = some w) ∧
      MeetsOpt (Fifo.step send take) (Fifo.Delivers DomainAgrees) ⟨registered signals, [], {}⟩
        moves := by
  have hstart : Settles take DomainAgrees (fun c r => Values c r ∧ Followed c)
      ⟨registered signals, [], {}⟩ {} :=
    ⟨rfl, values_registered signals hids hcount harranged,
      followed_registered signals hids hcount harranged⟩
  have hstep (c : LocalSignals) (r : RemoteSignals) (i : Act) (hinv : Values c r ∧ Followed c)
      (hok : Orderly c i ∧ Steady c i) :
      ∃ r', Carries take DomainAgrees r (send c i).2 r' ∧
        Values (send c i).1 r' ∧ Followed (send c i).1 := by
    obtain ⟨r', hcarries, hvalues⟩ := hinv.1.act hinv.2 i hok.1 hok.2
    exact ⟨r', hcarries, hvalues, hinv.2.act i hok.1⟩
  obtain ⟨⟨w, -, hrun, -⟩, hlaw⟩ := Fifo.settles_run hstep moves _ _ hstart h
  exact ⟨⟨w, hrun⟩, hlaw⟩

/-- The law on a run in which data are published before and after a value
signal is subscribed again. -/
theorem domain_values_agree_resubscribed :
    Arrangement (registered [LocalSignals.timeSignal 0, LocalSignals.valueSignal 1]) ∧
      MeetsOpt (Fifo.lockstep send take) (fun w i => Orderly w.1 i ∧ Steady w.1 i)
        (registered [LocalSignals.timeSignal 0, LocalSignals.valueSignal 1], {})
        (Fifo.inputs [.send (.request (.subscribe "value")), .deliver, .deliver, .deliver,
          .send (.publish 1 5 1 [0, 0, 0, 0, 0, 0, 0, 0]), .deliver, .deliver,
          .send (.request (.unsubscribe "value")), .deliver, .deliver,
          .send (.request (.subscribe "value")), .deliver, .deliver,
          .send (.publish 1 7 1 [0, 0, 0, 0, 0, 0, 0, 0]), .deliver, .deliver, .deliver,
          .deliver]) ∧
      (∃ w, ([.send (.request (.subscribe "value")), .deliver, .deliver, .deliver,
          .send (.publish 1 5 1 [0, 0, 0, 0, 0, 0, 0, 0]), .deliver, .deliver,
          .send (.request (.unsubscribe "value")), .deliver, .deliver,
          .send (.request (.subscribe "value")), .deliver, .deliver,
          .send (.publish 1 7 1 [0, 0, 0, 0, 0, 0, 0, 0]), .deliver, .deliver, .deliver,
          .deliver] : List (Move Act)).foldlM (Fifo.step send take)
            ⟨registered [LocalSignals.timeSignal 0, LocalSignals.valueSignal 1], [], {}⟩ =
              some w) := by
  have harranged :
      Arrangement (registered [LocalSignals.timeSignal 0, LocalSignals.valueSignal 1]) := by
    decide +kernel
  have hsteady : MeetsOpt (Fifo.lockstep send take) (fun w i => Orderly w.1 i ∧ Steady w.1 i)
      (registered [LocalSignals.timeSignal 0, LocalSignals.valueSignal 1], {})
      (Fifo.inputs [.send (.request (.subscribe "value")), .deliver, .deliver, .deliver,
        .send (.publish 1 5 1 [0, 0, 0, 0, 0, 0, 0, 0]), .deliver, .deliver,
        .send (.request (.unsubscribe "value")), .deliver, .deliver,
        .send (.request (.subscribe "value")), .deliver, .deliver,
        .send (.publish 1 7 1 [0, 0, 0, 0, 0, 0, 0, 0]), .deliver, .deliver, .deliver,
        .deliver]) := by
    decide +kernel
  exact ⟨harranged, hsteady, (domain_values_agree_of_steady _ (by decide +kernel)
    (by decide +kernel) harranged _ hsteady).1⟩

/-- A domain signal whose metadata do not say where its table starts. -/
def unindexedSignal (address : Nat) : LocalSignal :=
  ⟨address, "time",
    MetadataBuilder.build (MetadataBuilder.fromJson .null) [.linearRule 0 1, .table "time"]⟩

/-- What was published, if something was. -/
def published? : Act → Option (Nat × Int64 × Nat × Bytes)
  | .publish address domainValue sampleCount data => some (address, domainValue, sampleCount, data)
  | _ => none

theorem eq_publish {i : Act} {address : Nat} {domainValue : Int64} {sampleCount : Nat}
    {data : Bytes} (h : published? i = some (address, domainValue, sampleCount, data)) :
    i = .publish address domainValue sampleCount data := by
  cases i with
  | publish a v n d =>
      injection h with h
      injection h with ha h
      injection h with hv h
      injection h with hn hd
      rw [ha, hv, hn, hd]
  | announce ids => cases h
  | request q => cases h
  | setMetadata a m => cases h

/-- A message that is about to be taken, what was published with it, the number
and the id of its sender's signal, and what the peer raises. -/
structure Arrival where
  message : Message
  published : Option (Nat × Int64 × Nat × Bytes)
  signal : Option (UInt32 × String)
  events : Option (List RemoteEvent)
deriving DecidableEq

/-- What the next message is, for the signal with an address. -/
def nextArrival (w : Channel LocalSignals Sent RemoteSignals) (address : Nat) : Option Arrival :=
  w.queue.head?.map fun m =>
    ⟨m.message, published? m.act,
      (m.sender.findByAddress address).map fun e => (e.1, e.2.signal.id),
      (w.receiver.step (.message m.message)).map Prod.snd⟩

/-- The domain values do not agree in every run: the table was set at the second
sample, and after the subscription has begun again the publisher counts from
there, and the peer from zero. -/
theorem resumed_domain_disagrees :
    Arrangement (registered [unindexedSignal 0, LocalSignals.valueSignal 1]) ∧
      MeetsOpt (Fifo.lockstep send take) (fun w i => Orderly w.1 i)
        (registered [unindexedSignal 0, LocalSignals.valueSignal 1], {})
        (Fifo.inputs [.send (.request (.subscribe "value")), .deliver, .deliver, .deliver,
          .deliver, .send (.publish 1 0 1 [0, 0, 0, 0, 0, 0, 0, 0]), .deliver,
          .send (.publish 1 5 1 [0, 0, 0, 0, 0, 0, 0, 0]), .deliver, .deliver,
          .send (.request (.unsubscribe "value")), .deliver, .deliver,
          .send (.request (.subscribe "value")), .deliver, .deliver, .deliver, .deliver,
          .send (.publish 1 1 1 [0, 0, 0, 0, 0, 0, 0, 0]), .deliver]) ∧
      ¬ MeetsOpt (Fifo.step send take) (Fifo.Delivers DomainAgrees)
        ⟨registered [unindexedSignal 0, LocalSignals.valueSignal 1], [], {}⟩
        [.send (.request (.subscribe "value")), .deliver, .deliver, .deliver, .deliver,
          .send (.publish 1 0 1 [0, 0, 0, 0, 0, 0, 0, 0]), .deliver,
          .send (.publish 1 5 1 [0, 0, 0, 0, 0, 0, 0, 0]), .deliver, .deliver,
          .send (.request (.unsubscribe "value")), .deliver, .deliver,
          .send (.request (.subscribe "value")), .deliver, .deliver, .deliver, .deliver,
          .send (.publish 1 1 1 [0, 0, 0, 0, 0, 0, 0, 0]), .deliver] := by
  refine ⟨by decide +kernel, by decide +kernel, ?_⟩
  intro hmeets
  have hnext : (([.send (.request (.subscribe "value")), .deliver, .deliver, .deliver, .deliver,
      .send (.publish 1 0 1 [0, 0, 0, 0, 0, 0, 0, 0]), .deliver,
      .send (.publish 1 5 1 [0, 0, 0, 0, 0, 0, 0, 0]), .deliver, .deliver,
      .send (.request (.unsubscribe "value")), .deliver, .deliver,
      .send (.request (.subscribe "value")), .deliver, .deliver, .deliver, .deliver,
      .send (.publish 1 1 1 [0, 0, 0, 0, 0, 0, 0, 0])] : List (Move Act)).foldlM
        (Fifo.step send take)
          ⟨registered [unindexedSignal 0, LocalSignals.valueSignal 1], [], {}⟩).bind
            (nextArrival · 1) =
      some ⟨.data 2 [0, 0, 0, 0, 0, 0, 0, 0], some (1, 1, 1, [0, 0, 0, 0, 0, 0, 0, 0]),
        some (2, "value"), some [.signal 1 (.dataReceived 2 1 [0, 0, 0, 0, 0, 0, 0, 0])]⟩ := by
    decide +kernel
  obtain ⟨w, hrun, hw⟩ := Option.bind_eq_some_iff.mp hnext
  obtain ⟨m, hm, hw⟩ := Option.map_eq_some_iff.mp hw
  injection hw with hmessage hact hsender hevents
  obtain ⟨⟨k, e⟩, he, hentry⟩ := Option.map_eq_some_iff.mp hsender
  obtain ⟨hk, hid⟩ := Prod.mk.inj hentry
  dsimp only at hk hid
  have hlaw : DomainAgrees w.receiver m := MeetsOpt.last _ hmeets hrun m hm
  obtain ⟨r', a, n, received, -, hstep, -⟩ := hlaw _ _ _ _ (eq_publish hact) k e he
    (by rw [hmessage, hk]) (by rw [hid]; decide)
  rw [hstep, Option.map_some] at hevents
  injection hevents with hevents
  injection hevents with hevent
  injection hevent with _ hreceived
  injection hreceived with hvalue
  exact absurd hvalue (by decide)

/-- A table that was driven on, and never set, may go on without an index as
long as no value signal reads what it was driven to. -/
example :
    let again : List Act := [.request (.subscribe "value"),
      .publish 1 0 1 [0, 0, 0, 0, 0, 0, 0, 0], .request (.unsubscribe "value"),
      .request (.subscribe "value")]
    let constant : LocalSignal := ⟨2, "constant", MetadataBuilder.build
      (MetadataBuilder.new "constant") [.dataType "real64", .constantRule, .table "time"]⟩
    MeetsOpt (Fifo.lockstep send take) (fun w i => Steady w.1 i)
        (registered [unindexedSignal 0, LocalSignals.valueSignal 1], {}) again ∧
      ¬ MeetsOpt (Fifo.lockstep send take) (fun w i => Steady w.1 i)
        (registered [unindexedSignal 0, LocalSignals.valueSignal 1, constant], {}) again := by
  decide +kernel

end Publishing

end WsStreaming.Ports
