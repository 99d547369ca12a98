import WsStreaming.Ports.Connection
import WsStreaming.Ports.LocalEntries
import WsStreaming.Ports.SubscribeFaces

/-!
# Deeds of a publishing connection

What happens on the publishing side of a connection with a fixed set of
signals: the requests of the peer, changed metadata and published data.  Each
of these comes down to a few deeds, one after another, and a deed changes one
entry or one table and sends at most two messages.

## Main results

* `deeds_of_act` — what happens, as deeds, each of which fits the entries that
  it finds.
-/

namespace WsStreaming.Ports

open WsStreaming.Verified
open WsStreaming.Verified.OrderedMap (OMap Distinct)
open WsStreaming.Verified.Run (Meets)
open WsStreaming.Verified.Wire (Bytes)

namespace LocalSignals

/-- What happens on the publishing side: ids are announced, the peer requests
something, or the application changes metadata or publishes. -/
inductive Act where
  | announce (ids : List String)
  | request (r : Request)
  | setMetadata (address : Nat) (metadata : Metadata)
  | publish (address : Nat) (domainValue : Int64) (sampleCount : Nat) (data : Bytes)

/-- What each of these does, and the messages it sends. -/
def act (c : LocalSignals) : Act → LocalSignals × List Message
  | .announce ids => (c, [Connection.idsMessage "available" ids])
  | .request r => ((c.request r).1, messagesOf (c.request r).2.1)
  | .setMetadata address metadata =>
      ((c.setMetadata address metadata).1, messagesOf (c.setMetadata address metadata).2)
  | .publish address domainValue sampleCount data =>
      ((c.publishData address domainValue sampleCount data).1,
        messagesOf (c.publishData address domainValue sampleCount data).2)

/-- A connection with these signals, before anything else happens. -/
def registered (signals : List LocalSignal) : LocalSignals :=
  signals.foldl (fun c signal => (c.addLocalSignal signal).1) {}

/-- The table that publishing an entry would set, with what it sends. -/
def domainUpdate (c : LocalSignals) (e : RegisteredLocalSignal) (domainValue : Int64) :
    Option (Nat × LinearPayload) :=
  (e.domainTable.bind fun a => (c.lock a).map fun t => (a, t)).bind fun t =>
    let index := if e.isExplicit then e.valueIndex else t.2.drivenIndex
    if domainValue ≠ t.2.valueAt index then some (t.1, ⟨index, domainValue⟩) else none

/-! ## Deeds -/

/-- One thing that is done to an entry or a table. -/
inductive Deed where
  | announce (ids : List String)
  | book (k : UInt32) (e : RegisteredLocalSignal) (isExplicit : Bool) (count : UInt32)
  | opens (k : UInt32) (e : RegisteredLocalSignal) (isExplicit : Bool)
  | closes (k : UInt32) (e : RegisteredLocalSignal) (isExplicit : Bool) (count : UInt32)
  | describes (k : UInt32) (e : RegisteredLocalSignal) (metadata : Metadata)
  | changes (k : UInt32) (e : RegisteredLocalSignal) (metadata : Metadata)
  | sets (e : RegisteredLocalSignal) (address : Nat) (p : LinearPayload)
  | emits (k : UInt32) (e : RegisteredLocalSignal) (sampleCount : Nat) (data : Bytes)

/-- The same entry with other bookkeeping. -/
def booked (e : RegisteredLocalSignal) (isExplicit : Bool) (count : UInt32) :
    RegisteredLocalSignal :=
  { e with isExplicitlySubscribed := isExplicit, implicitSubscribeCount := count }

/-- The table that an explicit-rule signal drives, if a signal owns it. -/
def drivenTable (e : RegisteredLocalSignal) : Option Nat :=
  if e.isExplicit then e.domainTable else none

/-- A table that is driven, if there is one. -/
def drive (c : LocalSignals) (table : Option Nat) (index : Int64) : LocalSignals :=
  match table with
  | some a => c.modifyTable a fun t => t.driveTo index
  | none => c

/-- What a deed leaves. -/
def doDeed (c : LocalSignals) : Deed → LocalSignals
  | .announce _ => c
  | .book k e isExplicit count => c.update k fun _ => booked e isExplicit count
  | .opens k e isExplicit =>
      (c.withNextTable (c.nextTable + 1)).update k fun _ => c.opened e isExplicit
  | .closes k e isExplicit count => c.update k fun _ => (booked e isExplicit count).disconnect
  | .describes k e metadata => c.update k fun _ => e.described metadata
  | .changes k e metadata =>
      (c.withNextTable (c.nextTable + 1)).update k fun _ => c.changed e metadata
  | .sets _ address p => c.modifyTable address fun t => t.updatePayload p
  | .emits k e sampleCount _ =>
      (c.update k fun _ => e.withValueIndex (e.valueIndex + Int64.ofNat sampleCount)).drive
        (drivenTable e) (e.valueIndex + Int64.ofNat sampleCount)

/-- What it sends. -/
def Deed.messages : Deed → List Message
  | .announce ids => [Connection.idsMessage "available" ids]
  | .book _ _ _ _ => []
  | .opens _ e _ => [e.subscribeMessage, e.signalMessage]
  | .closes _ e _ _ => [e.unsubscribeMessage]
  | .describes _ _ _ => []
  | .changes _ e metadata => [.ofMetadata e.signo "signal" metadata.json]
  | .sets e _ p => [.data e.domainSigno p.bytes]
  | .emits _ e _ data => [.data e.signo data]

/-- The entry that a deed is done to is there. -/
def FitsDeed (c : LocalSignals) : Deed → Prop
  | .announce _ => True
  | .book k e _ _ => OrderedMap.find? c.signals k = some e
  | .opens k e _ => OrderedMap.find? c.signals k = some e
  | .closes k e _ _ => OrderedMap.find? c.signals k = some e
  | .describes k e _ => OrderedMap.find? c.signals k = some e
  | .changes k e _ => OrderedMap.find? c.signals k = some e ∧ e.onMetadataChanged = true
  | .sets e address _ =>
      (∃ k, OrderedMap.find? c.signals k = some e) ∧ e.domainTable = some address ∧
        (c.lock address).isSome = true
  | .emits k e _ _ => OrderedMap.find? c.signals k = some e ∧ e.onDataPublished = true

/-- Whether a deed is part of the end of subscriptions. -/
def Deed.isEnding : Deed → Bool
  | .book _ _ _ _ => true
  | .closes _ _ _ _ => true
  | _ => false

/-- The deeds that something comes down to. -/
inductive Does (c : LocalSignals) : Act → List Deed → Prop where
  | announce (ids : List String) : Does c (.announce ids) [.announce ids]
  | unknown {id : String} (hfind : c.findById id = none) : Does c (.request (.subscribe id)) []
  | again {id : String} {k : UInt32} {e : RegisteredLocalSignal}
      (hfind : c.findById id = some (k, e)) (hsub : e.isSubscribed = true) :
      Does c (.request (.subscribe id)) [.book k e true e.implicitSubscribeCount]
  | alone {id : String} {k : UInt32} {e : RegisteredLocalSignal}
      (hfind : c.findById id = some (k, e)) (hsub : ¬ e.isSubscribed = true)
      (hdomain : c.domainOf e = none) : Does c (.request (.subscribe id)) [.opens k e true]
  | joins {id : String} {k d : UInt32} {e domain : RegisteredLocalSignal}
      (hfind : c.findById id = some (k, e)) (hsub : ¬ e.isSubscribed = true)
      (hdomain : c.domainOf e = some (d, domain)) (hsub' : domain.isSubscribed = true) :
      Does c (.request (.subscribe id))
        [.book d domain domain.isExplicitlySubscribed (domain.implicitSubscribeCount + 1),
          .opens k e true]
  | both {id : String} {k d : UInt32} {e domain : RegisteredLocalSignal}
      (hfind : c.findById id = some (k, e)) (hsub : ¬ e.isSubscribed = true)
      (hdomain : c.domainOf e = some (d, domain)) (hsub' : ¬ domain.isSubscribed = true) :
      Does c (.request (.subscribe id)) [.opens d domain false, .opens k e true]
  | ends {id : String} {deeds : List Deed} (h : ∀ d ∈ deeds, d.isEnding = true) :
      Does c (.request (.unsubscribe id)) deeds
  | unregistered {address : Nat} {metadata : Metadata} (hfind : c.findByAddress address = none) :
      Does c (.setMetadata address metadata) []
  | unheard {address : Nat} {metadata : Metadata} {k : UInt32} {e : RegisteredLocalSignal}
      (hfind : c.findByAddress address = some (k, e)) (hslot : ¬ e.onMetadataChanged = true) :
      Does c (.setMetadata address metadata) [.describes k e metadata]
  | changes {address : Nat} {metadata : Metadata} {k : UInt32} {e : RegisteredLocalSignal}
      (hfind : c.findByAddress address = some (k, e)) (hslot : e.onMetadataChanged = true) :
      Does c (.setMetadata address metadata) [.changes k e metadata]
  | dropped {address : Nat} {domainValue : Int64} {sampleCount : Nat} {data : Bytes}
      (hfind : (c.findByAddress address).filter (fun e => e.2.onDataPublished) = none) :
      Does c (.publish address domainValue sampleCount data) []
  | emits {address : Nat} {domainValue : Int64} {sampleCount : Nat} {data : Bytes} {k : UInt32}
      {e : RegisteredLocalSignal} (hfind : c.findByAddress address = some (k, e))
      (hslot : e.onDataPublished = true) (hset : c.domainUpdate e domainValue = none) :
      Does c (.publish address domainValue sampleCount data) [.emits k e sampleCount data]
  | sets {address : Nat} {domainValue : Int64} {sampleCount : Nat} {data : Bytes} {k : UInt32}
      {e e' : RegisteredLocalSignal} {a : Nat} {p : LinearPayload}
      (hfind : c.findByAddress address = some (k, e)) (hslot : e.onDataPublished = true)
      (hset : c.domainUpdate e domainValue = some (a, p))
      (he' : e' = e.modifyTable a fun t => t.updatePayload p) :
      Does c (.publish address domainValue sampleCount data)
        [.sets e a p, .emits k e' sampleCount data]

/-! ## Tables -/

section Tables

variable {c : LocalSignals} {a : Nat}

/-- A table that nobody owns is not there to be changed. -/
theorem modifyTable_of_lock_none (h : c.lock a = none) (f : LinearTable → LinearTable) :
    c.modifyTable a f = c := by
  have hsame : c.signals.map (fun e => (e.1, e.2.modifyTable a f)) = c.signals := by
    conv_rhs => rw [← List.map_id c.signals]
    apply List.map_congr_left
    intro e he
    have hnone := List.findSome?_eq_none_iff.mp h e he
    have htable :
        (e.2.table.map fun t => if t.address = a then { t with table := f t.table } else t) =
        e.2.table := by
      cases ht : e.2.table with
      | none => rfl
      | some t =>
          rw [ht, Option.map_eq_none_iff, Option.filter_eq_none_iff] at hnone
          have hne : t.address ≠ a := by
            intro heq
            exact hnone t rfl (decide_eq_true heq)
          rw [Option.map_some, if_neg hne]
    unfold RegisteredLocalSignal.modifyTable
    rw [htable]
    rfl
  unfold modifyTable
  rw [hsame]

theorem find?_modifyTable (c : LocalSignals) (a : Nat) (f : LinearTable → LinearTable)
    (k : UInt32) :
    OrderedMap.find? (c.modifyTable a f).signals k =
      (OrderedMap.find? c.signals k).map fun e => e.modifyTable a f :=
  OrderedMap.find?_map (fun e : RegisteredLocalSignal => e.modifyTable a f) c.signals k

theorem distinct_modifyTable (hd : Distinct c.signals) (a : Nat) (f : LinearTable → LinearTable) :
    Distinct (c.modifyTable a f).signals := by
  have hkeys : (c.modifyTable a f).signals.map Prod.fst = c.signals.map Prod.fst := by
    unfold modifyTable
    rw [List.map_map]
    rfl
  unfold Distinct
  rw [hkeys]
  exact hd

theorem lock_update {k : UInt32} {f : RegisteredLocalSignal → RegisteredLocalSignal}
    (hf : ∀ e, (f e).table = e.table) (a : Nat) : (c.update k f).lock a = c.lock a := by
  unfold lock update OrderedMap.modify
  rw [List.findSome?_map]
  congr 1
  funext e
  rw [Function.comp_apply]
  split
  · rw [hf]
  · rfl

theorem drive_of_some (c : LocalSignals) (a : Nat) (index : Int64) :
    c.drive (some a) index = c.modifyTable a fun t => t.driveTo index := rfl

end Tables

/-! ## One act -/

section Acts

variable {c : LocalSignals}

/-- What is left of a subscribe request. -/
theorem deeds_of_subscribe (hd : Distinct c.signals) (id : String) :
    ∃ deeds, c.Does (.request (.subscribe id)) deeds ∧
      c.act (.request (.subscribe id)) = (deeds.foldl doDeed c, deeds.flatMap Deed.messages) ∧
        Meets doDeed FitsDeed c deeds := by
  unfold act request
  dsimp only
  cases hfind : c.findById id with
  | none =>
      refine ⟨_, .unknown hfind, ?_, trivial⟩
      rw [subscribe_of_none hfind]
      rfl
  | some found =>
      obtain ⟨k, e⟩ := found
      have hk := find?_of_findById hd hfind
      by_cases hsub : e.isSubscribed = true
      · refine ⟨_, .again hfind hsub, ?_, hk, trivial⟩
        rw [subscribe_of_subscribed hfind hsub]
        rfl
      · cases hdomain : c.domainOf e with
        | none =>
            refine ⟨_, .alone hfind hsub hdomain, ?_, hk, trivial⟩
            rw [subscribe_begins hd hfind hsub hdomain]
            dsimp only
            rw [messagesOf_append, RegisteredLocalSignal.messagesOf_hold]
            rfl
        | some found =>
            obtain ⟨d, domain⟩ := found
            have hne := ne_of_domainOf hd hk hdomain
            obtain ⟨tableId, -, hfound⟩ := Option.bind_eq_some_iff.mp hdomain
            have hdk := find?_of_findById hd hfound
            -- The signal is opened when its domain has been taken.
            have hopened := opened_taken hd hdomain true
            have htaken (c' : LocalSignals) (hc' : c' =
                (c.withNextTable (c.takenTable domain)).update d fun _ => c.taken domain) :
                doDeed c' (.opens k e true) =
                  ((c.withNextTable (c.takenTable domain + 1)).update d fun _ =>
                    c.taken domain).update k
                      fun _ => openedTo e true (c.takenTable domain) (some (c.taken domain)) := by
              rw [hc']
              unfold doDeed
              dsimp only
              rw [hopened]
              rfl
            have hk' (c' : LocalSignals) (hc' : c' =
                (c.withNextTable (c.takenTable domain)).update d fun _ => c.taken domain) :
                OrderedMap.find? c'.signals k = some e := by
              rw [hc', find?_update, if_neg hne]
              exact hk
            by_cases hsub' : domain.isSubscribed = true
            · have hfirst : doDeed c (.book d domain domain.isExplicitlySubscribed
                  (domain.implicitSubscribeCount + 1)) =
                    (c.withNextTable (c.takenTable domain)).update d fun _ => c.taken domain := by
                unfold doDeed takenTable taken
                rw [if_pos hsub', if_pos hsub']
                rfl
              refine ⟨_, .joins hfind hsub hdomain hsub', ?_, hdk, hk' _ hfirst, trivial⟩
              rw [subscribe_begins_with hd hfind hsub hdomain]
              dsimp only
              rw [messagesOf_append, messagesOf_append, RegisteredLocalSignal.messagesOf_hold]
              unfold takenOutputs
              rw [if_pos hsub', List.foldl_cons, List.foldl_cons, htaken _ hfirst]
              rfl
            · have hfirst : doDeed c (.opens d domain false) =
                    (c.withNextTable (c.takenTable domain)).update d fun _ => c.taken domain := by
                unfold doDeed takenTable taken
                rw [if_neg hsub', if_neg hsub']
              refine ⟨_, .both hfind hsub hdomain hsub', ?_, hdk, hk' _ hfirst, trivial⟩
              rw [subscribe_begins_with hd hfind hsub hdomain]
              dsimp only
              rw [messagesOf_append, messagesOf_append, RegisteredLocalSignal.messagesOf_hold]
              unfold takenOutputs
              rw [if_neg hsub', messagesOf_append, RegisteredLocalSignal.messagesOf_hold,
                List.foldl_cons, List.foldl_cons, htaken _ hfirst]
              rfl

/-- What is left of a call of `unsubscribe`. -/
theorem deeds_of_unsubscribe (c : LocalSignals) (id : String) (isExplicit : Bool) :
    Distinct c.signals →
      ∃ deeds, (∀ d ∈ deeds, Deed.isEnding d = true) ∧
        (c.unsubscribe id isExplicit).1 = deeds.foldl doDeed c ∧
        messagesOf (c.unsubscribe id isExplicit).2.1 = deeds.flatMap Deed.messages ∧
          Meets doDeed FitsDeed c deeds := by
  induction c, id, isExplicit using unsubscribe_induction with
  | none c id isExplicit hfind =>
      intro hd
      rw [unsubscribe_of_none hfind]
      refine ⟨[], ?_, rfl, rfl, trivial⟩
      exact fun _ hmem => nomatch hmem
  | subscribed c id isExplicit k entry hfind hsub =>
      intro hd
      have hk := find?_of_findById hd hfind
      rw [unsubscribe_of_subscribed hfind hsub]
      refine ⟨[.book k entry (entry.dropSubscription isExplicit).isExplicitlySubscribed
        (entry.dropSubscription isExplicit).implicitSubscribeCount], ?_, ?_, rfl, hk, trivial⟩
      · intro d hmem
        rw [List.mem_singleton.mp hmem]
        rfl
      · cases isExplicit <;> rfl
  | ended c id isExplicit k entry hfind hsub ih =>
      intro hd
      have hk := find?_of_findById hd hfind
      have hclosed : doDeed c (.closes k entry
          (entry.dropSubscription isExplicit).isExplicitlySubscribed
          (entry.dropSubscription isExplicit).implicitSubscribeCount) =
            c.update k fun _ => (entry.dropSubscription isExplicit).disconnect := by
        cases isExplicit <;> rfl
      rw [unsubscribe_of_ended hfind hsub]
      cases hdomain : entry.signal.domainId? with
      | none =>
          dsimp only
          refine ⟨[.closes k entry (entry.dropSubscription isExplicit).isExplicitlySubscribed
            (entry.dropSubscription isExplicit).implicitSubscribeCount], ?_, hclosed.symm, ?_, hk,
              trivial⟩
          · intro d hmem
            rw [List.mem_singleton.mp hmem]
            rfl
          · exact entry.messagesOf_farewell
      | some tableId =>
          obtain ⟨deeds, hending, hleft, hsent, hmeets⟩ := ih tableId hdomain
            (distinct_update hd k _)
          rw [← hclosed] at hleft hsent hmeets
          dsimp only
          rw [← hclosed]
          refine ⟨.closes k entry (entry.dropSubscription isExplicit).isExplicitlySubscribed
            (entry.dropSubscription isExplicit).implicitSubscribeCount :: deeds, ?_, hleft, ?_,
              hk, hmeets⟩
          · intro d hmem
            rcases List.mem_cons.mp hmem with rfl | hmem
            · rfl
            · exact hending d hmem
          · rw [messagesOf_append, entry.messagesOf_farewell, hsent]
            rfl

/-- Changed metadata. -/
theorem deeds_of_setMetadata (hd : Distinct c.signals) (address : Nat) (metadata : Metadata) :
    ∃ deeds, c.Does (.setMetadata address metadata) deeds ∧
      c.act (.setMetadata address metadata) =
        (deeds.foldl doDeed c, deeds.flatMap Deed.messages) ∧
        Meets doDeed FitsDeed c deeds := by
  unfold act
  dsimp only
  cases hfind : c.findByAddress address with
  | none =>
      refine ⟨_, .unregistered hfind, ?_, trivial⟩
      unfold setMetadata
      rw [hfind]
      rfl
  | some found =>
      obtain ⟨k, e⟩ := found
      have hk := find?_of_findByAddress hd hfind
      rw [setMetadata_of_find hd hfind]
      by_cases hslot : e.onMetadataChanged = true
      · refine ⟨_, .changes hfind hslot, ?_, ⟨hk, hslot⟩, trivial⟩
        rw [if_pos hslot]
        rfl
      · refine ⟨_, .unheard hfind hslot, ?_, hk, trivial⟩
        rw [if_neg hslot]
        rfl

/-- What publishing leaves of the entry and the table that it drives. -/
theorem doDeed_emits (hd : Distinct c.signals) {k : UInt32} {e : RegisteredLocalSignal}
    (hk : OrderedMap.find? c.signals k = some e) (sampleCount : Nat) (data : Bytes) :
    doDeed c (.emits k e sampleCount data) =
      (c.update k fun e' => e'.withValueIndex (e.valueIndex + Int64.ofNat sampleCount)).drive
        (drivenTable e) (e.valueIndex + Int64.ofNat sampleCount) := by
  unfold doDeed
  dsimp only
  congr 1
  exact update_congr hd hk rfl

/-- Published data. -/
theorem deeds_of_publish (hd : Distinct c.signals) (address : Nat) (domainValue : Int64)
    (sampleCount : Nat) (data : Bytes) :
    ∃ deeds, c.Does (.publish address domainValue sampleCount data) deeds ∧
      c.act (.publish address domainValue sampleCount data) =
        (deeds.foldl doDeed c, deeds.flatMap Deed.messages) ∧
        Meets doDeed FitsDeed c deeds := by
  unfold act publishData
  dsimp only
  cases hfind : (c.findByAddress address).filter fun e => e.2.onDataPublished with
  | none => exact ⟨_, .dropped hfind, rfl, trivial⟩
  | some found =>
      obtain ⟨k, e⟩ := found
      obtain ⟨hfound, hslot⟩ := Option.filter_eq_some_iff.mp hfind
      have hk := find?_of_findByAddress hd hfound
      have hindex (c' : LocalSignals) (i : Int64) (a : Nat) :
          (c'.update k fun e' => e'.withValueIndex i).lock a = c'.lock a :=
        lock_update (f := fun e' => e'.withValueIndex i) (fun _ => rfl) a
      dsimp only
      unfold onLocalSignalDataPublished
      dsimp only
      cases hlock : e.domainTable.bind fun a => (c.lock a).map fun t => (a, t) with
      | none =>
          have hset : c.domainUpdate e domainValue = none := by
            unfold domainUpdate
            rw [hlock]
            rfl
          have hdrive : (c.update k fun e' => e'.withValueIndex (e.valueIndex +
              Int64.ofNat sampleCount)).drive (drivenTable e) (e.valueIndex +
                Int64.ofNat sampleCount) = c.update k fun e' => e'.withValueIndex (e.valueIndex +
                  Int64.ofNat sampleCount) := by
            unfold drivenTable
            split
            · cases htable : e.domainTable with
              | none => rfl
              | some a =>
                  rw [htable] at hlock
                  rw [drive_of_some]
                  apply modifyTable_of_lock_none
                  rw [hindex]
                  exact Option.map_eq_none_iff.mp hlock
            · rfl
          refine ⟨_, .emits hfound hslot hset, ?_, ⟨hk, hslot⟩, trivial⟩
          rw [List.foldl_cons, List.foldl_nil, doDeed_emits hd hk, hdrive]
          rfl
      | some found =>
          obtain ⟨a, t⟩ := found
          obtain ⟨a', htable, hlocked⟩ := Option.bind_eq_some_iff.mp hlock
          obtain ⟨t', ht, heq⟩ := Option.map_eq_some_iff.mp hlocked
          obtain ⟨rfl, rfl⟩ := Prod.mk.inj heq
          have hdriven (c' : LocalSignals) (i : Int64) :
              c'.drive (drivenTable e) i =
                if e.isExplicit then c'.modifyTable a' (fun t => t.driveTo i) else c' := by
            unfold drivenTable
            split
            · rw [htable]
              rfl
            · rfl
          dsimp only
          generalize hindexed :
            (if e.isExplicit = true then e.valueIndex else t'.drivenIndex) = index
          have hupdate : c.domainUpdate e domainValue =
              if domainValue ≠ t'.valueAt index then some (a', ⟨index, domainValue⟩) else none := by
            unfold domainUpdate
            rw [hlock, ← hindexed]
            rfl
          by_cases hne : domainValue ≠ t'.valueAt index
          · rw [if_pos hne] at hupdate
            have hk' : OrderedMap.find? (doDeed c (.sets e a' ⟨index, domainValue⟩)).signals k =
                some (e.modifyTable a' fun t => t.updatePayload ⟨index, domainValue⟩) := by
              change OrderedMap.find? (c.modifyTable a' _).signals k = _
              rw [find?_modifyTable, hk]
              rfl
            have hemit := doDeed_emits (c := doDeed c (.sets e a' ⟨index, domainValue⟩))
              (distinct_modifyTable hd a' _) hk' sampleCount data
            refine ⟨_, .sets hfound hslot hupdate rfl, ?_, ⟨⟨k, hk⟩, htable, ?_⟩, ⟨hk', hslot⟩,
              trivial⟩
            · rw [List.foldl_cons, List.foldl_cons, List.foldl_nil, hemit, if_pos hne, ← hdriven]
              rfl
            · rw [ht]
              rfl
          · rw [if_neg hne] at hupdate
            refine ⟨_, .emits hfound hslot hupdate, ?_, ⟨hk, hslot⟩, trivial⟩
            rw [List.foldl_cons, List.foldl_nil, doDeed_emits hd hk, if_neg hne, ← hdriven]
            rfl

/-- **What happens, as deeds.** -/
theorem deeds_of_act (hd : Distinct c.signals) (i : Act) :
    ∃ deeds, c.Does i deeds ∧ c.act i = (deeds.foldl doDeed c, deeds.flatMap Deed.messages) ∧
      Meets doDeed FitsDeed c deeds := by
  cases i with
  | announce ids => exact ⟨_, .announce ids, rfl, trivial, trivial⟩
  | request r =>
      cases r with
      | subscribe id => exact deeds_of_subscribe hd id
      | unsubscribe id =>
          obtain ⟨deeds, hending, hleft, hsent, hmeets⟩ := deeds_of_unsubscribe c id true hd
          exact ⟨deeds, .ends hending, Prod.ext hleft hsent, hmeets⟩
  | setMetadata address metadata => exact deeds_of_setMetadata hd address metadata
  | publish address domainValue sampleCount data =>
      exact deeds_of_publish hd address domainValue sampleCount data

end Acts

end LocalSignals

end WsStreaming.Ports
