import WsStreaming.Ports.LocalSignals

/-!
# Entries under the operations of a connection

What `connection::subscribe` leaves in the registered signals, in closed form:
which entries change, and what they become.  The entries are found again by
their id, address and number, none of which an operation changes.

## Main results

* `subscribe_begins`, `subscribe_begins_with` — a subscription that begins, of
  a signal without a registered domain and of one with.
* `setMetadata_of_find` — changed metadata.
-/

namespace WsStreaming.Ports

open WsStreaming.Verified
open WsStreaming.Verified.OrderedMap (OMap Distinct)
open WsStreaming.Verified.Wire (Bytes)

/-- The own table of an entry after a refresh. -/
def RegisteredLocalSignal.refreshedTable (e : RegisteredLocalSignal) (fresh : Nat) :
    Option TablePtr :=
  if e.signal.metadata.rule = linearRule then
    some (match e.table with
      | some t => { t with table := t.table.update e.signal.metadata }
      | none => ⟨fresh, .new e.signal.metadata⟩)
  else none

/-- Other metadata. -/
def RegisteredLocalSignal.described (e : RegisteredLocalSignal) (metadata : Metadata) :
    RegisteredLocalSignal :=
  { e with signal := { e.signal with metadata := metadata } }

/-- A binding depends on the number and the table of the domain. -/
theorem RegisteredLocalSignal.rebind_congr {e : RegisteredLocalSignal} {table : Option TablePtr}
    {domain domain' : Option RegisteredLocalSignal}
    (hsigno : domain.map RegisteredLocalSignal.signo =
      domain'.map RegisteredLocalSignal.signo)
    (htable : (domain.bind fun d => d.table.map TablePtr.address) =
      domain'.bind fun d => d.table.map TablePtr.address) :
    e.rebind table domain = e.rebind table domain' := by
  unfold rebind
  rw [hsigno, htable]

namespace LocalSignals

/-- A linear-rule domain signal, at an address. -/
def timeSignal (address : Nat) : LocalSignal :=
  ⟨address, "time",
    MetadataBuilder.build (MetadataBuilder.new "time") [.linearRule 0 1, .table "time"]⟩

/-- A value signal of it. -/
def valueSignal (address : Nat) : LocalSignal :=
  ⟨address, "value",
    MetadataBuilder.build (MetadataBuilder.new "value") [.dataType "real64", .table "time"]⟩

/-- What can happen to the local signals of a connection. -/
inductive Operation where
  | add (signal : LocalSignal)
  | remove (signal : LocalSignal)
  | request (r : Request)
  | setMetadata (address : Nat) (metadata : Metadata)
  | publish (address : Nat) (domainValue : Int64) (sampleCount : Nat) (data : Bytes)

/-- What each of these does. -/
def perform (c : LocalSignals) : Operation → LocalSignals × List Output
  | .add signal => ((c.addLocalSignal signal).1, [])
  | .remove signal => ((c.removeLocalSignal signal).1, (c.removeLocalSignal signal).2.1)
  | .request r => ((c.request r).1, (c.request r).2.1)
  | .setMetadata address metadata => c.setMetadata address metadata
  | .publish address domainValue sampleCount data =>
      c.publishData address domainValue sampleCount data

/-- The registered signal that a signal names. -/
def domainOf (c : LocalSignals) (e : RegisteredLocalSignal) :
    Option (UInt32 × RegisteredLocalSignal) :=
  e.signal.domainId?.bind c.findById

/-- The entry of a subscription that has begun, bound to a domain. -/
def openedTo (e : RegisteredLocalSignal) (isExplicit : Bool) (fresh : Nat)
    (domain : Option RegisteredLocalSignal) : RegisteredLocalSignal :=
  ((e.addSubscription isExplicit).engage.rebind (e.refreshedTable fresh) domain).connect

/-- The entry of a subscription that has begun. -/
def opened (c : LocalSignals) (e : RegisteredLocalSignal) (isExplicit : Bool) :
    RegisteredLocalSignal :=
  openedTo e isExplicit c.nextTable ((c.domainOf e).map Prod.snd)

/-- The entry of a subscribed signal whose metadata has changed. -/
def changed (c : LocalSignals) (e : RegisteredLocalSignal) (metadata : Metadata) :
    RegisteredLocalSignal :=
  ((e.described metadata).rebind ((e.described metadata).refreshedTable c.nextTable)
    ((c.domainOf (e.described metadata)).map Prod.snd)).withValueIndex 0

/-- The entry of a domain on which an implicit subscription was taken. -/
def taken (c : LocalSignals) (e : RegisteredLocalSignal) : RegisteredLocalSignal :=
  if e.isSubscribed then e.addSubscription false else c.opened e false

/-- The next address of a table after that. -/
def takenTable (c : LocalSignals) (e : RegisteredLocalSignal) : Nat :=
  if e.isSubscribed then c.nextTable else c.nextTable + 1

/-- What it does outside. -/
def takenOutputs (e : RegisteredLocalSignal) : List Output :=
  if e.isSubscribed then [] else e.hold ++ e.announcement

/-- Another next address of a table. -/
def withNextTable (c : LocalSignals) (n : Nat) : LocalSignals := { c with nextTable := n }

/-! ## Updates -/

section Update

variable {c : LocalSignals} {k : UInt32} {entry : RegisteredLocalSignal}

theorem find?_update (c : LocalSignals) (k : UInt32)
    (f : RegisteredLocalSignal → RegisteredLocalSignal) (j : UInt32) :
    OrderedMap.find? (c.update k f).signals j =
      if k = j then (OrderedMap.find? c.signals j).map f else OrderedMap.find? c.signals j :=
  OrderedMap.find?_modify c.signals k f j

theorem withNextTable_update (c : LocalSignals) (k : UInt32)
    (f : RegisteredLocalSignal → RegisteredLocalSignal) (n : Nat) :
    (c.update k f).withNextTable n = (c.withNextTable n).update k f := rfl

theorem update_update (c : LocalSignals) (k : UInt32)
    (f g : RegisteredLocalSignal → RegisteredLocalSignal) :
    (c.update k f).update k g = c.update k fun e => g (f e) := by
  simp only [update, OrderedMap.modify, List.map_map]
  congr 1
  apply List.map_congr_left
  intro e _
  simp only [Function.comp_apply]
  by_cases hkey : e.1 = k
  · simp only [if_pos hkey]
  · simp only [if_neg hkey]

theorem update_comm (c : LocalSignals) {k d : UInt32} (h : d ≠ k)
    (f g : RegisteredLocalSignal → RegisteredLocalSignal) :
    (c.update k f).update d g = (c.update d g).update k f := by
  simp only [update, OrderedMap.modify, List.map_map]
  congr 1
  apply List.map_congr_left
  intro e _
  simp only [Function.comp_apply]
  by_cases hkey : e.1 = k
  · have hne : ¬ e.1 = d := fun hd => h (hd.symm.trans hkey)
    simp only [if_pos hkey, if_neg hne]
  · simp only [if_neg hkey]
    by_cases hd : e.1 = d
    · simp only [if_pos hd, if_neg hkey]
    · simp only [if_neg hd, if_neg hkey]

theorem update_congr (hd : Distinct c.signals) (hk : OrderedMap.find? c.signals k = some entry)
    {f g : RegisteredLocalSignal → RegisteredLocalSignal} (h : f entry = g entry) :
    c.update k f = c.update k g := by
  simp only [update, OrderedMap.modify]
  congr 1
  apply List.map_congr_left
  intro e he
  split
  · rename_i hkey
    have hfind := (OrderedMap.find?_eq_some_iff hd).mpr (show (e.1, e.2) ∈ c.signals from he)
    rw [hkey, hk] at hfind
    rw [← Option.some.inj hfind, h]
  · rfl

theorem findById_update (hd : Distinct c.signals)
    (hk : OrderedMap.find? c.signals k = some entry)
    {f : RegisteredLocalSignal → RegisteredLocalSignal} (hf : (f entry).signal.id = entry.signal.id)
    (id : String) :
    (c.update k f).findById id =
      (c.findById id).map fun e => if e.1 = k then (k, f entry) else e := by
  apply OrderedMap.find_modify (p := fun e => e.signal.id = id) hd hk
  rw [hf]

theorem findByAddress_update (hd : Distinct c.signals)
    (hk : OrderedMap.find? c.signals k = some entry)
    {f : RegisteredLocalSignal → RegisteredLocalSignal}
    (hf : (f entry).signal.address = entry.signal.address) (address : Nat) :
    (c.update k f).findByAddress address =
      (c.findByAddress address).map fun e => if e.1 = k then (k, f entry) else e := by
  apply OrderedMap.find_modify (p := fun e => e.signal.address = address) hd hk
  rw [hf]

theorem distinct_update (hd : Distinct c.signals) (k : UInt32)
    (f : RegisteredLocalSignal → RegisteredLocalSignal) : Distinct (c.update k f).signals :=
  hd.modify k f

end Update

/-! ## Lookups -/

section Lookup

variable {c : LocalSignals} {k : UInt32} {entry : RegisteredLocalSignal} {id : String}

theorem find?_of_findById (hd : Distinct c.signals) (h : c.findById id = some (k, entry)) :
    OrderedMap.find? c.signals k = some entry :=
  (OrderedMap.find?_eq_some_iff hd).mpr (List.mem_of_find?_eq_some h)

theorem find?_of_findByAddress (hd : Distinct c.signals) {address : Nat}
    (h : c.findByAddress address = some (k, entry)) :
    OrderedMap.find? c.signals k = some entry :=
  (OrderedMap.find?_eq_some_iff hd).mpr (List.mem_of_find?_eq_some h)

theorem id_of_findById {e : UInt32 × RegisteredLocalSignal} (h : c.findById id = some e) :
    e.2.signal.id = id := by
  have hid := List.find?_some h
  simpa using hid

theorem address_of_findByAddress {address : Nat} {e : UInt32 × RegisteredLocalSignal}
    (h : c.findByAddress address = some e) : e.2.signal.address = address := by
  have haddress := List.find?_some h
  simpa using haddress

/-- A signal does not name itself. -/
theorem ne_of_domainId? {signal : LocalSignal} (h : signal.domainId? = some id) :
    signal.id ≠ id := by
  unfold LocalSignal.domainId? at h
  split at h
  · rename_i hnamed
    rw [← Option.some.inj h]
    exact hnamed.2.symm
  · cases h

/-- The domain of a signal is another entry. -/
theorem ne_of_domainOf (hd : Distinct c.signals)
    (hk : OrderedMap.find? c.signals k = some entry) {d : UInt32} {domain : RegisteredLocalSignal}
    (h : c.domainOf entry = some (d, domain)) : d ≠ k := by
  intro heq
  obtain ⟨tableId, htable, hfind⟩ := Option.bind_eq_some_iff.mp h
  have hdomain := find?_of_findById hd hfind
  rw [heq, hk] at hdomain
  apply ne_of_domainId? htable
  rw [Option.some.inj hdomain]
  exact id_of_findById hfind

/-- What the domain of an entry is after a change of the entry. -/
theorem domainOf_update_self (hd : Distinct c.signals)
    (hk : OrderedMap.find? c.signals k = some entry)
    {f : RegisteredLocalSignal → RegisteredLocalSignal}
    (hid : (f entry).signal.id = entry.signal.id) :
    (c.update k f).domainOf entry = c.domainOf entry := by
  cases hdomain : entry.signal.domainId? with
  | none =>
      unfold domainOf
      rw [hdomain]
      rfl
  | some tableId =>
      have hsame : (c.update k f).domainOf entry =
          (c.domainOf entry).map fun e => if e.1 = k then (k, f entry) else e := by
        unfold domainOf
        rw [hdomain]
        exact findById_update hd hk hid tableId
      rw [hsame]
      cases hfound : c.domainOf entry with
      | none => rfl
      | some found =>
          have hne := ne_of_domainOf hd hk
            (show c.domainOf entry = some (found.1, found.2) from hfound)
          rw [Option.map_some, if_neg hne]

end Lookup

/-! ## Refreshing -/

section Refresh

variable {c : LocalSignals} {k : UInt32} {entry : RegisteredLocalSignal}

theorem refreshLocalSignalBindings_of_find (hk : OrderedMap.find? c.signals k = some entry) :
    c.refreshLocalSignalBindings k =
      (c.withNextTable (c.nextTable + 1)).update k fun e =>
        e.rebind (entry.refreshedTable c.nextTable) ((c.domainOf entry).map Prod.snd) := by
  unfold refreshLocalSignalBindings
  rw [hk]
  rfl

/-- A subscription that begins, without a nested call. -/
theorem finish_begin (hd : Distinct c.signals) (hk : OrderedMap.find? c.signals k = some entry)
    (isExplicit : Bool) :
    (c.beginSubscription k entry isExplicit).finishSubscription k =
      (c.withNextTable (c.nextTable + 1)).update k fun _ => c.opened entry isExplicit := by
  have hbegin : c.beginSubscription k entry isExplicit =
      c.update k fun _ => (entry.addSubscription isExplicit).engage := update_update c k _ _
  have hentry : OrderedMap.find? (c.beginSubscription k entry isExplicit).signals k =
      some (entry.addSubscription isExplicit).engage := by
    rw [hbegin, find?_update, if_pos rfl, hk, Option.map_some]
  have hsignal : (entry.addSubscription isExplicit).engage.signal = entry.signal := by
    cases isExplicit <;> rfl
  have hdomain : (c.beginSubscription k entry isExplicit).domainOf
      (entry.addSubscription isExplicit).engage = c.domainOf entry := by
    have hself := domainOf_update_self hd hk
      (f := fun _ => (entry.addSubscription isExplicit).engage) (congrArg LocalSignal.id hsignal)
    rw [← hbegin] at hself
    rw [← hself]
    unfold domainOf
    rw [hsignal]
  have htable : (entry.addSubscription isExplicit).engage.refreshedTable c.nextTable =
      entry.refreshedTable c.nextTable := by
    cases isExplicit <;> rfl
  rw [finishSubscription, refreshLocalSignalBindings_of_find hentry, hdomain, hbegin]
  rw [withNextTable_update, update_update, update_update, opened, openedTo, ← htable]
  rfl

/-- **Changed metadata.** -/
theorem setMetadata_of_find (hd : Distinct c.signals) {address : Nat}
    (hfind : c.findByAddress address = some (k, entry)) (metadata : Metadata) :
    c.setMetadata address metadata =
      if entry.onMetadataChanged then
        ((c.withNextTable (c.nextTable + 1)).update k fun _ => c.changed entry metadata,
          [.send (.ofMetadata entry.signo "signal" metadata.json)])
      else (c.update k fun _ => entry.described metadata, []) := by
  have hk := find?_of_findByAddress hd hfind
  have hk' : OrderedMap.find? (c.update k fun _ => entry.described metadata).signals k =
      some (entry.described metadata) := by
    rw [find?_update, if_pos rfl, hk, Option.map_some]
  have hdomain : (c.update k fun _ => entry.described metadata).domainOf
      (entry.described metadata) = c.domainOf (entry.described metadata) := by
    cases htable : (entry.described metadata).signal.domainId? with
    | none =>
        unfold domainOf
        rw [htable]
        rfl
    | some tableId =>
        have hfound : (c.update k fun _ => entry.described metadata).findById tableId =
            (c.findById tableId).map fun e =>
              if e.1 = k then (k, entry.described metadata) else e :=
          findById_update hd hk rfl tableId
        unfold domainOf
        rw [htable]
        change (c.update k fun _ => entry.described metadata).findById tableId =
          c.findById tableId
        rw [hfound]
        cases hother : c.findById tableId with
        | none => rfl
        | some e =>
            have hne : e.1 ≠ k := by
              intro hkey
              have hentry := find?_of_findById hd
                (show c.findById tableId = some (e.1, e.2) from hother)
              rw [hkey, hk] at hentry
              apply ne_of_domainId? htable
              change entry.signal.id = tableId
              rw [Option.some.inj hentry]
              exact id_of_findById hother
            rw [Option.map_some, if_neg hne]
  unfold setMetadata
  rw [hfind]
  dsimp only
  split
  · unfold onLocalSignalMetadataChanged
    change ((((c.update k fun _ => entry.described metadata).refreshLocalSignalBindings k).update k
      fun e => e.withValueIndex 0), _) = _
    rw [refreshLocalSignalBindings_of_find hk', hdomain, withNextTable_update, update_update,
      update_update]
    rfl
  · rfl

end Refresh

/-! ## Subscriptions that begin -/

section Subscribe

variable {c : LocalSignals} {id : String} {k : UInt32} {entry : RegisteredLocalSignal}

/-- The implicit subscription that is taken on a registered domain. -/
theorem subscribe_false_eq (hd : Distinct c.signals) (hfind : c.findById id = some (k, entry)) :
    (c.subscribe id false).1 =
        (c.withNextTable (c.takenTable entry)).update k (fun _ => c.taken entry) ∧
      (c.subscribe id false).2.1 = takenOutputs entry := by
  unfold takenTable taken takenOutputs
  by_cases hsub : entry.isSubscribed = true
  · rw [subscribe_of_subscribed hfind hsub, if_pos hsub, if_pos hsub, if_pos hsub]
    exact ⟨rfl, rfl⟩
  · rw [subscribe_false hfind hsub, if_neg hsub, if_neg hsub, if_neg hsub]
    exact ⟨finish_begin hd (find?_of_findById hd hfind) false, rfl⟩

/-- **A subscription begins**, implicitly or of a signal without a registered
domain. -/
theorem subscribe_begins (hd : Distinct c.signals) (hfind : c.findById id = some (k, entry))
    (hsub : ¬ entry.isSubscribed = true) (hdomain : c.domainOf entry = none) :
    c.subscribe id true =
      ((c.withNextTable (c.nextTable + 1)).update k fun _ => c.opened entry true,
        entry.hold ++ entry.announcement, true) := by
  have hk := find?_of_findById hd hfind
  rw [subscribe_true hfind hsub]
  cases htable : entry.signal.domainId? with
  | none =>
      dsimp only
      rw [finish_begin hd hk]
  | some tableId =>
      have hnone : c.findById tableId = none := by
        rw [domainOf, htable] at hdomain
        exact hdomain
      have hbegun : (c.beginSubscription k entry true).findById tableId = none := by
        rw [beginSubscription, update_update, findById_update hd hk rfl, hnone]
        rfl
      dsimp only
      rw [subscribe_of_none hbegun, finish_begin hd hk, List.append_nil]

/-- The domain of another entry is bound to all the same. -/
private theorem opened_begin (hd : Distinct c.signals)
    (hk : OrderedMap.find? c.signals k = some entry) (domain : RegisteredLocalSignal)
    (isExplicit : Bool) :
    (c.update k fun _ => (entry.addSubscription true).engage).opened domain isExplicit =
      c.opened domain isExplicit := by
  have hdomain : (c.update k fun _ => (entry.addSubscription true).engage).domainOf domain =
      (c.domainOf domain).map fun e =>
        if e.1 = k then (k, (entry.addSubscription true).engage) else e := by
    unfold domainOf
    cases domain.signal.domainId? with
    | none => rfl
    | some tableId => exact findById_update hd hk rfl tableId
  unfold opened openedTo
  congr 1
  rw [hdomain]
  cases hfound : c.domainOf domain with
  | none => rfl
  | some found =>
      rw [Option.map_some, Option.map_some, Option.map_some]
      by_cases hkey : found.1 = k
      · have hentry : found.2 = entry := by
          obtain ⟨tableId, -, hfind⟩ := Option.bind_eq_some_iff.mp hfound
          have hf := find?_of_findById hd
            (show c.findById tableId = some (found.1, found.2) from hfind)
          rw [hkey, hk] at hf
          exact (Option.some.inj hf).symm
        rw [if_pos hkey, hentry]
        exact RegisteredLocalSignal.rebind_congr rfl rfl
      · rw [if_neg hkey]
        rfl

/-- Once its domain is taken, a signal is opened to what the domain is then. -/
theorem opened_taken (hd : Distinct c.signals) {d : UInt32} {domain : RegisteredLocalSignal}
    (hdomain : c.domainOf entry = some (d, domain)) (isExplicit : Bool) :
    ((c.withNextTable (c.takenTable domain)).update d fun _ => c.taken domain).opened entry
        isExplicit =
      openedTo entry isExplicit (c.takenTable domain) (some (c.taken domain)) := by
  obtain ⟨tableId, htable, hfound⟩ := Option.bind_eq_some_iff.mp hdomain
  have hdd := find?_of_findById hd hfound
  have hid : (c.taken domain).signal.id = domain.signal.id := by
    unfold taken
    split <;> rfl
  have hsome : ((c.withNextTable (c.takenTable domain)).update d fun _ =>
      c.taken domain).domainOf entry = some (d, c.taken domain) := by
    unfold domainOf
    rw [htable]
    change ((c.withNextTable (c.takenTable domain)).update d fun _ =>
      c.taken domain).findById tableId = _
    rw [findById_update (c := c.withNextTable (c.takenTable domain)) (f := fun _ => c.taken domain)
      hd hdd hid]
    change (c.findById tableId).map _ = _
    rw [hfound, Option.map_some, if_pos rfl]
  unfold opened
  rw [hsome]
  rfl

/-- **A subscription begins**, of a signal whose domain is registered: the
domain is taken first. -/
theorem subscribe_begins_with (hd : Distinct c.signals)
    (hfind : c.findById id = some (k, entry)) (hsub : ¬ entry.isSubscribed = true) {d : UInt32}
    {domain : RegisteredLocalSignal} (hdomain : c.domainOf entry = some (d, domain)) :
    c.subscribe id true =
      (((c.withNextTable (c.takenTable domain + 1)).update d fun _ => c.taken domain).update k
          fun _ => openedTo entry true (c.takenTable domain) (some (c.taken domain)),
        entry.hold ++ takenOutputs domain ++ entry.announcement, true) := by
  have hk := find?_of_findById hd hfind
  have hne : d ≠ k := ne_of_domainOf hd hk hdomain
  obtain ⟨tableId, htable, hfound⟩ := Option.bind_eq_some_iff.mp hdomain
  have hbegin : c.beginSubscription k entry true =
      c.update k fun _ => (entry.addSubscription true).engage := update_update c k _ _
  have hbegun : (c.beginSubscription k entry true).findById tableId = some (d, domain) := by
    rw [hbegin, findById_update hd hk rfl, hfound, Option.map_some, if_neg hne]
  have hdist : Distinct (c.beginSubscription k entry true).signals := by
    rw [hbegin]
    exact distinct_update hd _ _
  have htaken : (c.beginSubscription k entry true).taken domain = c.taken domain := by
    unfold taken
    rw [hbegin, opened_begin hd hk]
  have hfresh : (c.beginSubscription k entry true).takenTable domain = c.takenTable domain := rfl
  have hnested := subscribe_false_eq hdist hbegun
  rw [htaken, hfresh] at hnested
  -- The entry and its domain before the bindings of the entry are refreshed.
  have hnest : ((c.beginSubscription k entry true).subscribe tableId false).1 =
      ((c.withNextTable (c.takenTable domain)).update d fun _ => c.taken domain).update k
        fun _ => (entry.addSubscription true).engage := by
    rw [hnested.1, hbegin, withNextTable_update, update_comm _ hne]
  have hdtaken : Distinct (((c.withNextTable (c.takenTable domain)).update d fun _ =>
      c.taken domain)).signals := distinct_update hd _ _
  have hktaken : OrderedMap.find? ((c.withNextTable (c.takenTable domain)).update d fun _ =>
      c.taken domain).signals k = some entry := by
    rw [find?_update, if_neg hne]
    exact hk
  have hrest := finish_begin hdtaken hktaken true
  rw [opened_taken hd hdomain] at hrest
  rw [subscribe_true hfind hsub, htable]
  dsimp only
  rw [hnest, hnested.2]
  rw [beginSubscription, update_update] at hrest
  rw [hrest]
  rfl

end Subscribe

end LocalSignals

end WsStreaming.Ports
