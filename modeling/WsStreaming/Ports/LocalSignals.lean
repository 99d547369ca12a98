import WsStreaming.Ports.LinearTable
import WsStreaming.Ports.Subscriptions

/-!
# Local signals of a connection

`local_signal_container` and the part of `connection` that works on it: the
signals an application has registered, their subscriptions by the peer, and
the data published on them.

A registered signal is reached through its place in the map (a pair of the key
and the entry), as the source reaches it through a shared pointer.  A table has
one owner, the entry it was made for; another entry holds its address (the
weak pointer `domain_table`), which is locked by looking for the owner.

Every function returns its outputs, in order: what the connection sends, and
how the holders change the subscribe counts of the signal objects.
-/

namespace WsStreaming.Ports

open WsStreaming.Verified
open WsStreaming.Verified.OrderedMap (OMap Distinct)
open WsStreaming.Verified.Wire (Bytes)

/-- What an operation does outside of the connection: a packet that is sent, or
a `subscribe_holder` that begins or stops to track a signal object. -/
inductive Output where
  | send (message : Message)
  | increment (address : Nat)
  | decrement (address : Nat)
deriving DecidableEq, Repr

/-- The message of an output. -/
def Output.message? : Output → Option Message
  | .send message => some message
  | _ => none

/-- What an operation sends. -/
def messagesOf (outputs : List Output) : List Message := outputs.filterMap Output.message?

theorem messagesOf_append (outputs more : List Output) :
    messagesOf (outputs ++ more) = messagesOf outputs ++ messagesOf more :=
  List.filterMap_append

/-- `wss::local_signal`; the address stands for the object. -/
structure LocalSignal where
  address : Nat
  id : String
  metadata : Metadata
deriving DecidableEq, Repr

/-- The table a signal names, unless it is none or the signal itself. -/
def LocalSignal.domainId? (s : LocalSignal) : Option String :=
  if s.metadata.tableId ≠ "" ∧ s.metadata.tableId ≠ s.id then some s.metadata.tableId else none

/-- `registered_local_signal`.  The connections of the two slots and the
subscribe holder are there or not. -/
structure RegisteredLocalSignal where
  signal : LocalSignal
  signo : UInt32
  isExplicitlySubscribed : Bool := false
  implicitSubscribeCount : UInt32 := 0
  onMetadataChanged : Bool := false
  onDataPublished : Bool := false
  holder : Bool := false
  table : Option TablePtr := none
  valueIndex : Int64 := 0
  domainSigno : UInt32 := 0
  domainTable : Option Nat := none
  isExplicit : Bool := false
deriving DecidableEq, Repr

namespace RegisteredLocalSignal

/-- Whether the peer is subscribed, explicitly or implicitly. -/
def isSubscribed (e : RegisteredLocalSignal) : Bool :=
  e.isExplicitlySubscribed || decide (0 < e.implicitSubscribeCount)

/-- The bookkeeping of `connection::subscribe`. -/
def addSubscription (e : RegisteredLocalSignal) (isExplicit : Bool) : RegisteredLocalSignal :=
  if isExplicit then { e with isExplicitlySubscribed := true }
  else { e with implicitSubscribeCount := e.implicitSubscribeCount + 1 }

/-- The bookkeeping of `connection::unsubscribe`. -/
def dropSubscription (e : RegisteredLocalSignal) (isExplicit : Bool) : RegisteredLocalSignal :=
  if isExplicit then { e with isExplicitlySubscribed := false }
  else { e with implicitSubscribeCount := e.implicitSubscribeCount - 1 }

/-- `holder = signal.increment_subscribe_count()`. -/
def engage (e : RegisteredLocalSignal) : RegisteredLocalSignal := { e with holder := true }

/-- `holder.close()`, as the signal object sees it. -/
def release (e : RegisteredLocalSignal) : List Output :=
  if e.holder then [.decrement e.signal.address] else []

/-- The slots are connected. -/
def connect (e : RegisteredLocalSignal) : RegisteredLocalSignal :=
  { e with onMetadataChanged := true, onDataPublished := true }

/-- The slots are disconnected and the holder is closed. -/
def disconnect (e : RegisteredLocalSignal) : RegisteredLocalSignal :=
  { e with onMetadataChanged := false, onDataPublished := false, holder := false }

/-- The message that a subscription begins. -/
def subscribeMessage (e : RegisteredLocalSignal) : Message :=
  .ofMetadata e.signo "subscribe" (.object [("signalId", .string e.signal.id)])

/-- The description sent when a subscription begins. -/
def signalMessage (e : RegisteredLocalSignal) : Message :=
  .ofMetadata e.signo "signal" (e.signal.metadata.withValueIndex e.valueIndex)

/-- What is sent when a subscription begins. -/
def announcement (e : RegisteredLocalSignal) : List Output :=
  [.send e.subscribeMessage, .send e.signalMessage]

/-- `holder = signal.increment_subscribe_count()`, as the signal object sees
it: what the holder tracked before is released after the new holder is made. -/
def hold (e : RegisteredLocalSignal) : List Output :=
  .increment e.signal.address :: e.release

/-- The message that a subscription ends. -/
def unsubscribeMessage (e : RegisteredLocalSignal) : Message :=
  .ofMetadata e.signo "unsubscribe" (.object [("signalId", .string e.signal.id)])

/-- What happens outside when a subscription ends. -/
def farewell (e : RegisteredLocalSignal) : List Output :=
  e.release ++ [.send e.unsubscribeMessage]

/-- What `connection::add_local_signal` derives from the rule. -/
def setRule (e : RegisteredLocalSignal) (metadata : Metadata) (fresh : Nat) :
    RegisteredLocalSignal :=
  { e with
    isExplicit := metadata.rule = explicitRule
    table := if metadata.rule = linearRule then some ⟨fresh, .new metadata⟩ else e.table }

/-- The binding to a domain that is registered. -/
def bindTo (e domain : RegisteredLocalSignal) : RegisteredLocalSignal :=
  { e with domainSigno := domain.signo, domainTable := domain.table.map TablePtr.address }

/-- The derived state after a refresh: the rule, the signal's own table and the
domain it is bound to. -/
def rebind (e : RegisteredLocalSignal) (table : Option TablePtr)
    (domain : Option RegisteredLocalSignal) : RegisteredLocalSignal :=
  { e with
    isExplicit := e.signal.metadata.rule = explicitRule
    table := table
    domainSigno := (domain.map signo).getD 0
    domainTable := domain.bind fun d => d.table.map TablePtr.address }

/-- Another value index. -/
def withValueIndex (e : RegisteredLocalSignal) (valueIndex : Int64) : RegisteredLocalSignal :=
  { e with valueIndex := valueIndex }

/-- A change of the table with an address. -/
def modifyTable (e : RegisteredLocalSignal) (address : Nat) (f : LinearTable → LinearTable) :
    RegisteredLocalSignal :=
  { e with table := e.table.map fun t =>
      if t.address = address then { t with table := f t.table } else t }

end RegisteredLocalSignal

/-- What decides about the subscriptions of a registered signal. -/
def RegisteredLocalSignal.subscription (e : RegisteredLocalSignal) : Subscription :=
  { id := e.signal.id
    domain := e.signal.domainId?
    isExplicit := e.isExplicitlySubscribed
    count := e.implicitSubscribeCount }

/-- `local_signal_container`, with the next address of a table. -/
structure LocalSignals where
  signals : OMap UInt32 RegisteredLocalSignal := []
  nextSigno : UInt32 := 1
  nextTable : Nat := 0
deriving DecidableEq, Repr

namespace LocalSignals

/-- `find_local_signal(id)`, with the place of the signal. -/
def findById (c : LocalSignals) (id : String) : Option (UInt32 × RegisteredLocalSignal) :=
  c.signals.find? fun e => e.2.signal.id = id

/-- The place of a registered object. -/
def findByAddress (c : LocalSignals) (address : Nat) :
    Option (UInt32 × RegisteredLocalSignal) :=
  c.signals.find? fun e => e.2.signal.address = address

/-- A change of the entry at a place. -/
def update (c : LocalSignals) (k : UInt32)
    (f : RegisteredLocalSignal → RegisteredLocalSignal) : LocalSignals :=
  { c with signals := OrderedMap.modify c.signals k f }

/-- `domain_table.lock()`. -/
def lock (c : LocalSignals) (address : Nat) : Option LinearTable :=
  c.signals.findSome? fun e =>
    (e.2.table.filter fun t => t.address = address).map TablePtr.table

/-- A change of a table. -/
def modifyTable (c : LocalSignals) (address : Nat) (f : LinearTable → LinearTable) :
    LocalSignals :=
  { c with signals := c.signals.map fun e => (e.1, e.2.modifyTable address f) }

/-! ## Registration -/

/-- `local_signal_container::add_local_signal`: the place of the signal, and
whether it was added.  `emplace` leaves an entry alone that has the number
already. -/
def emplaceSignal (c : LocalSignals) (signal : LocalSignal) : LocalSignals × UInt32 × Bool :=
  match c.findByAddress signal.address with
  | some (k, _) => (c, k, false)
  | none =>
      ({ c with
          signals := OrderedMap.emplace c.signals c.nextSigno
            { signal := signal, signo := c.nextSigno }
          nextSigno := c.nextSigno + 1 }, c.nextSigno, true)

/-- `connection::add_local_signal`, without the message. -/
def addLocalSignal (c : LocalSignals) (signal : LocalSignal) : LocalSignals × Bool :=
  match c.emplaceSignal signal with
  | (c, _, false) => (c, false)
  | (c, k, true) =>
      let c := { c with nextTable := c.nextTable + 1 }.update k fun e =>
        e.setRule signal.metadata c.nextTable
      match signal.domainId?.bind c.findById with
      | some (_, domain) => (c.update k fun e => e.bindTo domain, true)
      | none => (c, true)

/-- `local_signal_container::remove_local_signal`: the number of the signal
that was removed, or zero; the entry's holder is destroyed with it. -/
def removeLocalSignal (c : LocalSignals) (signal : LocalSignal) :
    LocalSignals × List Output × UInt32 :=
  match c.findByAddress signal.address with
  | some (k, entry) => ({ c with signals := OrderedMap.erase c.signals k }, entry.release, k)
  | none => (c, [], 0)

/-- `local_signal_container::clear_local_signals`. -/
def clearLocalSignals (c : LocalSignals) : LocalSignals × List Output :=
  ({ c with signals := [] }, c.signals.flatMap fun e => e.2.release)

/-! ## Subscriptions -/

/-- `connection::refresh_local_signal_bindings`. -/
def refreshLocalSignalBindings (c : LocalSignals) (k : UInt32) : LocalSignals :=
  match OrderedMap.find? c.signals k with
  | none => c
  | some entry =>
      let metadata := entry.signal.metadata
      let table :=
        if metadata.rule = linearRule then
          some (match entry.table with
            | some t => { t with table := t.table.update metadata }
            | none => ⟨c.nextTable, .new metadata⟩)
        else none
      -- The domain is another entry, so its table is the one before the refresh.
      let domain := (entry.signal.domainId?.bind c.findById).map Prod.snd
      { c with nextTable := c.nextTable + 1 }.update k fun e => e.rebind table domain

/-- The beginning of a subscription: the bookkeeping and the holder. -/
def beginSubscription (c : LocalSignals) (k : UInt32) (entry : RegisteredLocalSignal)
    (isExplicit : Bool) : LocalSignals :=
  (c.update k fun _ => entry.addSubscription isExplicit).update k RegisteredLocalSignal.engage

/-- Its end: the bindings and the slots. -/
def finishSubscription (c : LocalSignals) (k : UInt32) : LocalSignals :=
  (c.refreshLocalSignalBindings k).update k RegisteredLocalSignal.connect

/-- `connection::subscribe`; `nested` is the call for the table, which only
an explicit subscription makes. -/
def subscribeWith (nested : LocalSignals → String → LocalSignals × List Output × Bool)
    (c : LocalSignals) (id : String) (isExplicit : Bool) :
    LocalSignals × List Output × Bool :=
  match c.findById id with
  | none => (c, [], false)
  | some (k, entry) =>
      if entry.isSubscribed then
        (c.update k fun _ => entry.addSubscription isExplicit, [], false)
      else
        let begun := c.beginSubscription k entry isExplicit
        let (c, tableOutputs, _) :=
          match entry.signal.domainId?.filter fun _ => isExplicit with
          | some tableId => nested begun tableId
          | none => (begun, [], false)
        (c.finishSubscription k, entry.hold ++ tableOutputs ++ entry.announcement, true)

/-- `connection::subscribe` with `is_explicit` false. -/
def subscribeImplicitly (c : LocalSignals) (id : String) : LocalSignals × List Output × Bool :=
  c.subscribeWith (fun c _ => (c, [], false)) id false

/-- `connection::subscribe`. -/
def subscribe (c : LocalSignals) (id : String) : Bool → LocalSignals × List Output × Bool
  | false => c.subscribeImplicitly id
  | true => c.subscribeWith subscribeImplicitly id true

section Subscribe

variable {c : LocalSignals} {id : String} {k : UInt32} {entry : RegisteredLocalSignal}

theorem subscribe_of_none (hfind : c.findById id = none) (isExplicit : Bool) :
    c.subscribe id isExplicit = (c, [], false) := by
  cases isExplicit with
  | true => simp only [subscribe, subscribeWith, hfind]
  | false => simp only [subscribe, subscribeImplicitly, subscribeWith, hfind]

theorem subscribe_of_subscribed (hfind : c.findById id = some (k, entry))
    (hsub : entry.isSubscribed = true) (isExplicit : Bool) :
    c.subscribe id isExplicit =
      (c.update k fun _ => entry.addSubscription isExplicit, [], false) := by
  cases isExplicit with
  | true => simp only [subscribe, subscribeWith, hfind, if_pos hsub]
  | false => simp only [subscribe, subscribeImplicitly, subscribeWith, hfind, if_pos hsub]

/-- An implicit subscription that begins. -/
theorem subscribe_false (hfind : c.findById id = some (k, entry))
    (hsub : ¬ entry.isSubscribed = true) :
    c.subscribe id false =
      ((c.beginSubscription k entry false).finishSubscription k,
        entry.hold ++ entry.announcement, true) := by
  have hfilter : (entry.signal.domainId?.filter fun _ => false) = none := by
    cases entry.signal.domainId? <;> rfl
  simp only [subscribe, subscribeImplicitly, subscribeWith, hfind, if_neg hsub, hfilter,
    List.append_nil]

/-- An explicit subscription that begins subscribes the table first. -/
theorem subscribe_true (hfind : c.findById id = some (k, entry))
    (hsub : ¬ entry.isSubscribed = true) :
    c.subscribe id true =
      match entry.signal.domainId? with
      | none =>
          ((c.beginSubscription k entry true).finishSubscription k,
            entry.hold ++ entry.announcement, true)
      | some tableId =>
          (((c.beginSubscription k entry true).subscribe tableId false).1.finishSubscription k,
            entry.hold ++ ((c.beginSubscription k entry true).subscribe tableId false).2.1 ++
              entry.announcement, true) := by
  have hfilter : (entry.signal.domainId?.filter fun _ => true) = entry.signal.domainId? := by
    cases entry.signal.domainId? <;> rfl
  simp only [subscribe, subscribeWith, hfind, if_neg hsub, hfilter]
  cases entry.signal.domainId? with
  | none => simp only [List.append_nil]
  | some tableId => rfl

end Subscribe

/-! ## Bookkeeping -/

/-- The subscription bookkeeping of a connection. -/
def subscriptions (c : LocalSignals) : Subscriptions :=
  c.signals.map fun e => (e.1, e.2.subscription)

theorem map_fst_subscriptions (c : LocalSignals) :
    c.subscriptions.map Prod.fst = c.signals.map Prod.fst := by
  rw [subscriptions, List.map_map]
  rfl

theorem distinct_subscriptions {c : LocalSignals} :
    Distinct c.subscriptions ↔ Distinct c.signals := by
  rw [Distinct, map_fst_subscriptions, Distinct]

theorem find?_subscriptions (c : LocalSignals) (k : UInt32) :
    OrderedMap.find? c.subscriptions k =
      (OrderedMap.find? c.signals k).map RegisteredLocalSignal.subscription :=
  OrderedMap.find?_map RegisteredLocalSignal.subscription c.signals k

theorem findById_subscriptions (c : LocalSignals) (id : String) :
    c.subscriptions.findById id = (c.findById id).map fun e => (e.1, e.2.subscription) := by
  rw [Subscriptions.findById, findById, subscriptions, List.find?_map]
  rfl

theorem domainOf_subscriptions (c : LocalSignals) (e : RegisteredLocalSignal) :
    c.subscriptions.domainOf e.subscription =
      (e.signal.domainId?.bind c.findById).map fun e => (e.1, e.2.subscription) := by
  rw [Subscriptions.domainOf]
  change e.signal.domainId?.bind c.subscriptions.findById = _
  cases e.signal.domainId? with
  | none => rfl
  | some d => exact findById_subscriptions c d

theorem isActive_subscription (e : RegisteredLocalSignal) :
    e.subscription.isActive = e.isSubscribed := rfl

theorem subscription_dropSubscription (e : RegisteredLocalSignal) (isExplicit : Bool) :
    (e.dropSubscription isExplicit).subscription = e.subscription.drop isExplicit := by
  cases isExplicit <;> rfl

theorem subscriptions_update_const (c : LocalSignals) (k : UInt32)
    (new : RegisteredLocalSignal) :
    (c.update k fun _ => new).subscriptions = c.subscriptions.put k new.subscription := by
  simp only [subscriptions, update, Subscriptions.put, OrderedMap.modify, List.map_map]
  refine List.map_congr_left fun e _ => ?_
  simp only [Function.comp_apply]
  split <;> rfl

theorem subscriptions_update_of_eq (c : LocalSignals) (k : UInt32)
    {f : RegisteredLocalSignal → RegisteredLocalSignal}
    (hf : ∀ e, (f e).subscription = e.subscription) :
    (c.update k f).subscriptions = c.subscriptions := by
  simp only [subscriptions, update, OrderedMap.modify, List.map_map]
  refine List.map_congr_left fun e _ => ?_
  simp only [Function.comp_apply]
  split
  · rw [hf]
  · rfl

/-- `connection::unsubscribe`. -/
def unsubscribe (c : LocalSignals) (id : String) (isExplicit : Bool) :
    LocalSignals × List Output × Bool :=
  match _hfind : c.findById id with
  | none => (c, [], false)
  | some (k, entry) =>
      let dropped := entry.dropSubscription isExplicit
      if _hsub : dropped.isSubscribed then (c.update k fun _ => dropped, [], false)
      else
        match entry.signal.domainId? with
        | none => (c.update k fun _ => dropped.disconnect, entry.farewell, true)
        | some tableId =>
            let (c, outputs, _) :=
              (c.update k fun _ => dropped.disconnect).unsubscribe tableId false
            (c, entry.farewell ++ outputs, true)
termination_by 2 * c.subscriptions.total + isExplicit.toNat
decreasing_by
  have hmem : (k, entry.subscription) ∈ c.subscriptions :=
    List.mem_map.mpr ⟨(k, entry), List.mem_of_find?_eq_some _hfind, rfl⟩
  have hactive : (entry.subscription.drop isExplicit).isActive = false := by
    rw [← subscription_dropSubscription]
    exact Bool.eq_false_iff.mpr _hsub
  have hlt := Subscriptions.measure_drop_lt hmem hactive
  rw [← subscription_dropSubscription] at hlt
  rw [subscriptions_update_const]
  exact hlt

/-- Induction along the nested calls. -/
@[elab_as_elim]
theorem unsubscribe_induction {motive : LocalSignals → String → Bool → Prop}
    (none : ∀ c id isExplicit, c.findById id = none → motive c id isExplicit)
    (subscribed : ∀ c id isExplicit k entry, c.findById id = some (k, entry) →
      (entry.dropSubscription isExplicit).isSubscribed = true → motive c id isExplicit)
    (ended : ∀ c id isExplicit k entry, c.findById id = some (k, entry) →
      ¬ (entry.dropSubscription isExplicit).isSubscribed = true →
      (∀ tableId, entry.signal.domainId? = some tableId →
        motive (c.update k fun _ => (entry.dropSubscription isExplicit).disconnect) tableId
          false) → motive c id isExplicit)
    (c : LocalSignals) (id : String) (isExplicit : Bool) : motive c id isExplicit := by
  induction c, id, isExplicit using LocalSignals.unsubscribe.induct with
  | case1 c id isExplicit hfind => exact none c id isExplicit hfind
  | case2 c id isExplicit k entry hfind dropped hsub =>
      exact subscribed c id isExplicit k entry hfind hsub
  | case3 c id isExplicit k entry hfind dropped hsub hdomain =>
      apply ended c id isExplicit k entry hfind hsub
      intro tableId htable
      rw [hdomain] at htable
      cases htable
  | case4 c id isExplicit k entry hfind dropped hsub tableId hdomain _ _ _ _ ih =>
      apply ended c id isExplicit k entry hfind hsub
      intro tableId' htable
      rw [hdomain] at htable
      obtain rfl := Option.some.inj htable
      exact ih

section Unsubscribe

variable {c : LocalSignals} {id : String} {k : UInt32} {entry : RegisteredLocalSignal}
  {isExplicit : Bool}

theorem unsubscribe_of_none (hfind : c.findById id = none) :
    c.unsubscribe id isExplicit = (c, [], false) := by
  rw [unsubscribe]
  split
  · rfl
  · rename_i hsome
    rw [hfind] at hsome
    cases hsome

theorem unsubscribe_of_subscribed (hfind : c.findById id = some (k, entry))
    (hsub : (entry.dropSubscription isExplicit).isSubscribed = true) :
    c.unsubscribe id isExplicit =
      (c.update k fun _ => entry.dropSubscription isExplicit, [], false) := by
  rw [unsubscribe]
  split
  · rename_i hnone
    rw [hfind] at hnone
    cases hnone
  · rename_i hsome
    rw [hfind] at hsome
    obtain ⟨rfl, rfl⟩ := Prod.mk.inj (Option.some.inj hsome)
    simp only [dif_pos hsub]

/-- A subscription that ends releases the table. -/
theorem unsubscribe_of_ended (hfind : c.findById id = some (k, entry))
    (hsub : ¬ (entry.dropSubscription isExplicit).isSubscribed = true) :
    c.unsubscribe id isExplicit =
      match entry.signal.domainId? with
      | none =>
          (c.update k fun _ => (entry.dropSubscription isExplicit).disconnect,
            entry.farewell, true)
      | some tableId =>
          (((c.update k fun _ => (entry.dropSubscription isExplicit).disconnect).unsubscribe
              tableId false).1,
            entry.farewell ++
              ((c.update k fun _ => (entry.dropSubscription isExplicit).disconnect).unsubscribe
                tableId false).2.1, true) := by
  rw [unsubscribe]
  split
  · rename_i hnone
    rw [hfind] at hnone
    cases hnone
  · rename_i hsome
    rw [hfind] at hsome
    obtain ⟨rfl, rfl⟩ := Prod.mk.inj (Option.some.inj hsome)
    simp only [dif_neg hsub]

end Unsubscribe

/-- The arguments of the nested call that `connection::unsubscribe` makes, if
it makes one; it is made with `is_explicit` false. -/
def unsubscribeNext (c : LocalSignals) (id : String) (isExplicit : Bool) :
    Option (LocalSignals × String) :=
  match c.findById id with
  | none => none
  | some (k, entry) =>
      if (entry.dropSubscription isExplicit).isSubscribed then none
      else
        entry.signal.domainId?.map fun tableId =>
          (c.update k fun _ => (entry.dropSubscription isExplicit).disconnect, tableId)

/-- The calls of `unsubscribe` that a call of it leads to, itself included. -/
inductive Calls : LocalSignals → String → Bool → LocalSignals → String → Bool → Prop where
  | self (c : LocalSignals) (id : String) (isExplicit : Bool) :
      Calls c id isExplicit c id isExplicit
  | nested {c c' c'' : LocalSignals} {id tableId id' : String} {isExplicit isExplicit' : Bool}
      (hnext : c.unsubscribeNext id isExplicit = some (c', tableId))
      (hcalls : Calls c' tableId false c'' id' isExplicit') :
      Calls c id isExplicit c'' id' isExplicit'

/-! ## Commands of the peer -/

/-- `json_rpc_exception`. -/
structure JsonRpcException where
  code : Int
  message : String
deriving DecidableEq, Repr

namespace JsonRpcException

/-- `json_rpc_exception::invalid_request`. -/
def invalidRequest : Int := -32600

/-- `json_rpc_exception::method_not_found`. -/
def methodNotFound : Int := -32601

/-- `json_rpc_exception::invalid_params`. -/
def invalidParams : Int := -32602

/-- `json_rpc_exception::server_error`. -/
def serverError : Int := -32000

/-- `json_rpc_exception::json`. -/
def json (e : JsonRpcException) : Json :=
  .object [("code", .integer e.code), ("message", .string e.message)]

end JsonRpcException

/-- An operation on each string of an array, in order, with the results. -/
def forEachId (operation : LocalSignals → String → LocalSignals × List Output × Bool)
    (c : LocalSignals) : List Json → LocalSignals × List Output × List Json
  | [] => (c, [], [])
  | .string id :: ids =>
      let (c, outputs, done) := operation c id
      let (c, more, results) := forEachId operation c ids
      (c, outputs ++ more, .bool done :: results)
  | _ :: ids =>
      let (c, outputs, results) := forEachId operation c ids
      (c, outputs, .bool false :: results)

/-- `do_command_interface_subscribe` and `do_command_interface_unsubscribe`
differ in the operation and in the text of a failure. -/
def doCommandInterfaceWith
    (operation : LocalSignals → String → LocalSignals × List Output × Bool) (failure : String)
    (c : LocalSignals) :
    Json → LocalSignals × List Output × Except JsonRpcException Json
  | .string id =>
      let (c, outputs, done) := operation c id
      (c, outputs,
        if done then .ok (.bool true) else .error ⟨JsonRpcException.serverError, failure⟩)
  | .array ids =>
      let (c, outputs, results) := forEachId operation c ids
      (c, outputs, .ok (.array results))
  | _ =>
      (c, [], .error ⟨JsonRpcException.invalidParams,
        "params must be a signal ID or an array of signal IDs"⟩)

/-- `connection::do_command_interface_subscribe`. -/
def doCommandInterfaceSubscribe (c : LocalSignals) (params : Json) :
    LocalSignals × List Output × Except JsonRpcException Json :=
  doCommandInterfaceWith (fun c id => c.subscribe id true) "failed to subscribe signal" c params

/-- `connection::do_command_interface_unsubscribe`. -/
def doCommandInterfaceUnsubscribe (c : LocalSignals) (params : Json) :
    LocalSignals × List Output × Except JsonRpcException Json :=
  doCommandInterfaceWith (fun c id => c.unsubscribe id true) "failed to unsubscribe signal" c
    params

/-- A request of the peer for one signal. -/
inductive Request where
  | subscribe (id : String)
  | unsubscribe (id : String)
deriving DecidableEq, Repr

/-- The call that a request makes. -/
def request (c : LocalSignals) : Request → LocalSignals × List Output × Bool
  | .subscribe id => c.subscribe id true
  | .unsubscribe id => c.unsubscribe id true

/-- A command of the peer with its parameters. -/
inductive Command where
  | subscribe (params : Json)
  | unsubscribe (params : Json)
deriving DecidableEq, Repr

/-- What a command does. -/
def command (c : LocalSignals) : Command → LocalSignals × List Output × Except JsonRpcException Json
  | .subscribe params => c.doCommandInterfaceSubscribe params
  | .unsubscribe params => c.doCommandInterfaceUnsubscribe params

/-- The ids in the parameters of a command. -/
def commandIds : Json → List String
  | .string id => [id]
  | .array ids => ids.filterMap Json.string?
  | _ => []

/-- The requests that a command makes, one after another. -/
def Command.requests : Command → List Request
  | .subscribe params => (commandIds params).map .subscribe
  | .unsubscribe params => (commandIds params).map .unsubscribe

theorem forEachId_fst (operation : LocalSignals → String → LocalSignals × List Output × Bool)
    (c : LocalSignals) (ids : List Json) :
    (forEachId operation c ids).1 =
      (ids.filterMap Json.string?).foldl (fun c id => (operation c id).1) c := by
  induction ids generalizing c with
  | nil => rfl
  | cons j ids ih =>
      cases j with
      | string id => exact ih (operation c id).1
      | null => exact ih c
      | bool b => exact ih c
      | integer n => exact ih c
      | float bits => exact ih c
      | array elements => exact ih c
      | object members => exact ih c

theorem doCommandInterfaceWith_fst
    (operation : LocalSignals → String → LocalSignals × List Output × Bool) (failure : String)
    (c : LocalSignals) (params : Json) :
    (doCommandInterfaceWith operation failure c params).1 =
      (commandIds params).foldl (fun c id => (operation c id).1) c := by
  cases params with
  | string id => rfl
  | array ids => exact forEachId_fst operation c ids
  | null => rfl
  | bool b => rfl
  | integer n => rfl
  | float bits => rfl
  | object members => rfl

/-- A command is its requests. -/
theorem command_fst (c : LocalSignals) (command : Command) :
    (c.command command).1 = command.requests.foldl (fun c r => (c.request r).1) c := by
  cases command with
  | subscribe params =>
      rw [Command.requests, List.foldl_map]
      exact doCommandInterfaceWith_fst (fun c id => c.subscribe id true) _ c params
  | unsubscribe params =>
      rw [Command.requests, List.foldl_map]
      exact doCommandInterfaceWith_fst (fun c id => c.unsubscribe id true) _ c params

/-! ## Changed metadata -/

/-- `connection::on_local_signal_metadata_changed`. -/
def onLocalSignalMetadataChanged (c : LocalSignals) (k : UInt32)
    (entry : RegisteredLocalSignal) : LocalSignals × List Output :=
  ((c.refreshLocalSignalBindings k).update k fun e => e.withValueIndex 0,
    [.send (.ofMetadata entry.signo "signal" entry.signal.metadata.json)])

/-- `local_signal::set_metadata` on a registered object: the slot of the
connection is called if it is connected. -/
def setMetadata (c : LocalSignals) (address : Nat) (metadata : Metadata) :
    LocalSignals × List Output :=
  match c.findByAddress address with
  | none => (c, [])
  | some (k, entry) =>
      let entry := { entry with signal := { entry.signal with metadata := metadata } }
      let c := c.update k fun _ => entry
      if entry.onMetadataChanged then c.onLocalSignalMetadataChanged k entry else (c, [])

/-! ## Published data -/

/-- `connection::on_local_signal_data_published`. -/
def onLocalSignalDataPublished (c : LocalSignals) (k : UInt32) (entry : RegisteredLocalSignal)
    (domainValue : Int64) (sampleCount : Nat) (data : Bytes) : LocalSignals × List Output :=
  let valueIndex := entry.valueIndex + Int64.ofNat sampleCount
  match entry.domainTable.bind fun a => (c.lock a).map fun t => (a, t) with
  | none =>
      (c.update k fun e => e.withValueIndex valueIndex, [.send (.data entry.signo data)])
  | some (address, table) =>
      let index := if entry.isExplicit then entry.valueIndex else table.drivenIndex
      let (c, domainOutputs) :=
        if domainValue ≠ table.valueAt index then
          (c.modifyTable address fun t => t.set index domainValue,
            [Output.send (.data entry.domainSigno
              (LinearPayload.bytes { sampleIndex := index, value := domainValue }))])
        else (c, [])
      let c := c.update k fun e => e.withValueIndex valueIndex
      let c := if entry.isExplicit then c.modifyTable address fun t => t.driveTo valueIndex else c
      (c, domainOutputs ++ [.send (.data entry.signo data)])

/-- `local_signal::publish_data` on a registered object: the slot of the
connection is called if it is connected. -/
def publishData (c : LocalSignals) (address : Nat) (domainValue : Int64) (sampleCount : Nat)
    (data : Bytes) : LocalSignals × List Output :=
  match (c.findByAddress address).filter fun e => e.2.onDataPublished with
  | some (k, entry) => c.onLocalSignalDataPublished k entry domainValue sampleCount data
  | none => (c, [])

end LocalSignals

end WsStreaming.Ports
