import WsStreaming.Ports.LinearTable

/-!
# Remote signals of a connection

`remote_signal_impl`, `remote_signal_container` and the part of `connection`
that works on them: what the peer has announced, the signal numbers it uses,
and the data and metadata that arrive under them.

The objects live on a heap, and an address is a place there.  Since the
application may hold an object for as long as it likes, none is ever freed.
The entries of the id map are freed: `_signals_by_signo` holds raw pointers to
them.  An entry is known by the address of its object, and a number that leads
to an address of no entry is a dangling pointer.  Following it is undefined,
so an operation that may follow one returns an `Option`.

Every operation returns the events it raises, in order.
-/

namespace WsStreaming.Ports

open WsStreaming.Verified
open WsStreaming.Verified.OrderedMap (OMap Distinct)
open WsStreaming.Verified.Wire (Bytes)

/-- The events of a `remote_signal`. -/
inductive SignalEvent where
  | subscribed
  | unsubscribed
  | metadataChanged
  | dataReceived (domainValue : Int64) (sampleCount : Nat) (data : Bytes)
  | unavailable
deriving DecidableEq, Repr

/-- `remote_signal_impl`.  The domain signal is a shared pointer, the domain
table a weak one. -/
structure RemoteSignal where
  id : String
  signo : UInt32 := 0
  isSubscribed : Bool := false
  metadata : Metadata := .ofJson (.object [])
  table : Option TablePtr := none
  domainSignal : Option Nat := none
  domainTable : Option Nat := none
  isExplicit : Bool := false
  sampleSize : Nat := 0
  valueIndex : Int64 := 0
  tcpDelta : UInt64 := 0
  tcpTime : UInt64 := 0
deriving DecidableEq, Repr

namespace RemoteSignal

/-- `remote_signal_impl::handle_subscribe`. -/
def handleSubscribe (s : RemoteSignal) : RemoteSignal × List SignalEvent :=
  if s.isSubscribed then (s, []) else ({ s with isSubscribed := true }, [.subscribed])

/-- `remote_signal_impl::handle_unsubscribe`. -/
def handleUnsubscribe (s : RemoteSignal) : RemoteSignal × List SignalEvent :=
  if s.isSubscribed then ({ s with isSubscribed := false }, [.unsubscribed]) else (s, [])

/-- `remote_signal_impl::detach`. -/
def detach (s : RemoteSignal) : RemoteSignal × List SignalEvent :=
  if s.isSubscribed then
    ({ s with isSubscribed := false, signo := 0, domainSignal := none },
      [.unsubscribed, .unavailable])
  else ({ s with domainSignal := none }, [.unavailable])

/-- The setter `remote_signal_impl::signo`. -/
def setSigno (s : RemoteSignal) (signo : UInt32) : RemoteSignal := { s with signo := signo }

/-- A change of the table with an address. -/
def modifyTable (s : RemoteSignal) (address : Nat) (f : LinearTable → LinearTable) :
    RemoteSignal :=
  { s with table := s.table.map fun t =>
      if t.address = address then { t with table := f t.table } else t }

/-- The first part of `remote_signal_impl::handle_signal`: everything but the
domain.  A table that is made gets the address `fresh`. -/
def describe (s : RemoteSignal) (metadata : Metadata) (fresh : Nat) : RemoteSignal :=
  { s with
    metadata := metadata
    sampleSize := metadata.sampleSize
    table :=
      if metadata.rule = linearRule then
        some (match s.table with
          | some t => { t with table := t.table.update metadata }
          | none => ⟨fresh, .new metadata⟩)
      else none
    isExplicit := metadata.rule = explicitRule
    valueIndex := metadata.valueIndex.getD s.valueIndex }

/-- The table that a signal seeks, unless it names none or itself. -/
def soughtId? (s : RemoteSignal) : Option String :=
  if s.metadata.tableId ≠ "" ∧ s.metadata.tableId ≠ s.id then some s.metadata.tableId else none

/-- The second part of `remote_signal_impl::handle_signal`: the domain signal
and its table. -/
def bindDomain (s : RemoteSignal) (domain : Option Nat) (table : Option Nat) : RemoteSignal :=
  { s with domainSignal := domain, domainTable := table }

/-- The interval between samples; false if there is none, since an exception
escaped. -/
def setTcpDelta (s : RemoteSignal) : Option UInt64 → RemoteSignal × Bool
  | some delta => ({ s with tcpDelta := delta }, true)
  | none => (s, false)

/-- `remote_signal_impl::handle_signal_rate`; false if an exception escapes,
before the event. -/
def handleSignalRate (s : RemoteSignal) (params : Json) : RemoteSignal × Bool :=
  let s := { s with
    metadata := MetadataBuilder.build (MetadataBuilder.fromJson s.metadata.json)
      [.tcpSignalRate params] }
  s.setTcpDelta (s.metadata.tcpSignalRateTicks 1 1000000000)

/-- `remote_signal_impl::handle_data(params)`. -/
def handleDataFormat (s : RemoteSignal) (params : Json) : RemoteSignal :=
  let valueType := (params.stringAt? "valueType").getD "unknown"
  let endian := (params.stringAt? "endian").getD "unknown"
  let metadata := MetadataBuilder.build (MetadataBuilder.fromJson s.metadata.json)
    [.dataType valueType, .endian endian]
  { s with metadata := metadata, sampleSize := metadata.sampleSize }

/-- Nanoseconds since 1970 of a stamp that counts seconds since 2000 and a
half; the fraction is in units of 2^-32 seconds. -/
def nanoseconds (seconds fraction : UInt32) : UInt64 :=
  UInt64.ofNat
    ((2 ^ 31 + fraction.toNat + (seconds.toNat + 946684800) * 2 ^ 32) * 1000000000 / 2 ^ 32)

/-- `remote_signal_impl::handle_time`; an exception that escapes leaves the
signal as it was. -/
def handleTime (s : RemoteSignal) (params : Json) : RemoteSignal :=
  match params.jsonPtr Json.uint32? ["stamp", "seconds"] 0,
      params.jsonPtr Json.uint32? ["stamp", "fraction"] 0 with
  | some seconds, some fraction => { s with tcpTime := nanoseconds seconds fraction }
  | _, _ => s

/-- The number of samples in a packet of an explicit-rule signal. -/
def explicitCount (s : RemoteSignal) (size : Nat) : Nat :=
  if s.sampleSize ≠ 0 then size / s.sampleSize
  else if s.metadata.dataType = "binary" then 1 else 0

end RemoteSignal

/-- `remote_signal_container::remote_signal_entry`. -/
structure RemoteSignalEntry where
  hidden : Bool
  address : Nat
deriving DecidableEq, Repr

/-- The events that a connection raises about remote signals: those of the
objects, and its own. -/
inductive RemoteEvent where
  | signal (address : Nat) (event : SignalEvent)
  | available (id : String) (address : Nat)
  | unavailable (id : String) (address : Nat)
deriving DecidableEq, Repr

/-- `remote_signal_container`, with the heap. -/
structure RemoteSignals where
  objects : List RemoteSignal := []
  byId : OMap String RemoteSignalEntry := []
  bySigno : OMap UInt32 Nat := []
  nextTable : Nat := 0
deriving DecidableEq, Repr

namespace RemoteSignals

/-- A change of an object. -/
def modifyObject (c : RemoteSignals) (address : Nat) (f : RemoteSignal → RemoteSignal) :
    RemoteSignals :=
  { c with objects := c.objects.modify address f }

/-- The domain table of a signal, if it is still there. -/
def lock (c : RemoteSignals) (address : Nat) : Option LinearTable :=
  c.objects.findSome? fun s =>
    (s.table.filter fun t => t.address = address).map TablePtr.table

/-- A change of a table. -/
def modifyTable (c : RemoteSignals) (address : Nat) (f : LinearTable → LinearTable) :
    RemoteSignals :=
  { c with objects := c.objects.map fun s => s.modifyTable address f }

/-- Whether an entry has this object, so that a pointer to the entry may be
followed. -/
def live (c : RemoteSignals) (address : Nat) : Bool :=
  c.byId.any fun e => e.2.address = address

/-! ## The container -/

/-- `remote_signal_container::add_remote_signal`: whether it was added, and
the entry. -/
def addRemoteSignal (c : RemoteSignals) (id : String) (hidden : Bool) :
    RemoteSignals × Bool × RemoteSignalEntry :=
  match OrderedMap.find? c.byId id with
  | some entry => (c, false, entry)
  | none =>
      let entry : RemoteSignalEntry := ⟨hidden, c.objects.length⟩
      ({ c with
          objects := c.objects ++ [{ id := id }]
          byId := OrderedMap.emplace c.byId id entry }, true, entry)

/-- `remote_signal_container::find_table`, with the address of the signal. -/
def findTable (c : RemoteSignals) (tableId : String) : Option Nat :=
  (c.byId.find? fun e =>
    match (c.objects[e.2.address]?).bind RemoteSignal.table with
    | some t => t.table.id ≠ "" ∧ t.table.id = tableId
    | none => false).map fun e => e.2.address

/-- `remote_signal_container::forget_remote_signo`. -/
def forgetRemoteSigno (c : RemoteSignals) (signo : UInt32) : RemoteSignals :=
  { c with bySigno := OrderedMap.erase c.bySigno signo }

/-- `remote_signal_container::set_remote_signal_signo`. -/
def setRemoteSignalSigno (c : RemoteSignals) (address : Nat) (signo : UInt32) : RemoteSignals :=
  { c with bySigno := OrderedMap.set c.bySigno signo address }.modifyObject address
    fun s => s.setSigno signo

/-- The number that an object remembers. -/
def signoOf (c : RemoteSignals) (address : Nat) : UInt32 :=
  ((c.objects[address]?).map RemoteSignal.signo).getD 0

/-- `remote_signal_container::remove_remote_signal`: the entry that was
removed. -/
def removeRemoteSignal (c : RemoteSignals) (id : String) :
    RemoteSignals × Option RemoteSignalEntry :=
  match OrderedMap.find? c.byId id with
  | none => (c, none)
  | some entry =>
      ({ c with
          byId := OrderedMap.erase c.byId id
          bySigno := OrderedMap.erase c.bySigno (c.signoOf entry.address) }, some entry)

/-! ## Messages for one signal -/

/-- A handler of `remote_signal_impl` that needs nothing but the object. -/
def onObject (c : RemoteSignals) (address : Nat)
    (handler : RemoteSignal → RemoteSignal × List SignalEvent) :
    RemoteSignals × List RemoteEvent :=
  match c.objects[address]? with
  | none => (c, [])
  | some s =>
      (c.modifyObject address fun s => (handler s).1, (handler s).2.map (.signal address))

/-- `remote_signal_impl::handle_signal`. -/
def handleSignal (c : RemoteSignals) (address : Nat) (params : Json) :
    RemoteSignals × List RemoteEvent :=
  let c := { c with nextTable := c.nextTable + 1 }.modifyObject address fun s =>
    s.describe (.ofJson params) c.nextTable
  -- A signal that resolves to itself counts as having no domain.
  let domain := (((c.objects[address]?).bind RemoteSignal.soughtId?).bind c.findTable).filter
    fun d => d ≠ address
  let table := (domain.bind fun d => c.objects[d]?).bind fun d => d.table.map TablePtr.address
  (c.modifyObject address fun s => s.bindDomain domain table,
    [.signal address .metadataChanged])

/-- `remote_signal_impl::handle_metadata`. -/
def handleMetadata (c : RemoteSignals) (address : Nat) (method : String) (params : Json) :
    RemoteSignals × List RemoteEvent :=
  if method = "subscribe" then c.onObject address RemoteSignal.handleSubscribe
  else if method = "unsubscribe" then c.onObject address RemoteSignal.handleUnsubscribe
  else if method = "signal" then c.handleSignal address params
  else if method = "signalRate" then
    c.onObject address fun s =>
      ((s.handleSignalRate params).1,
        if (s.handleSignalRate params).2 then [.metadataChanged] else [])
  else if method = "data" then
    c.onObject address fun s => (s.handleDataFormat params, [.metadataChanged])
  else if method = "time" then c.onObject address fun s => (s.handleTime params, [])
  else (c, [])

/-- `remote_signal_impl::handle_data(data, size)`. -/
def handleData (c : RemoteSignals) (address : Nat) (data : Bytes) :
    RemoteSignals × List RemoteEvent :=
  match (c.objects[address]?).filter RemoteSignal.isSubscribed with
  | none => (c, [])
  | some s =>
      let received (domainValue : Int64) (sampleCount : Nat) (data : Bytes) : List RemoteEvent :=
        [.signal address (.dataReceived domainValue sampleCount data)]
      if s.tcpDelta ≠ 0 then
        let sampleCount := if s.sampleSize ≠ 0 then data.length / s.sampleSize else 0
        (c.modifyObject address fun s =>
            { s with tcpTime := s.tcpTime + s.tcpDelta * UInt64.ofNat sampleCount },
          received s.tcpTime.toInt64 sampleCount data)
      else
        match s.table with
        | some t =>
            (match LinearPayload.ofBytes? data with
              | some payload => c.modifyTable t.address fun t => t.updatePayload payload
              | none => c,
              received 0 0 data)
        | none =>
            let domain := s.domainTable.bind fun a => (c.lock a).map fun t => (a, t)
            if s.isExplicit then
              let sampleCount := s.explicitCount data.length
              let valueIndex := s.valueIndex + Int64.ofNat sampleCount
              let c := c.modifyObject address fun s => { s with valueIndex := valueIndex }
              (match domain with
                | some (a, _) => c.modifyTable a fun t => t.driveTo valueIndex
                | none => c,
                received ((domain.map fun t => t.2.valueAt s.valueIndex).getD 0) sampleCount data)
            else
              (c, received ((domain.map fun t => t.2.drivenValue).getD 0)
                (if s.sampleSize ≤ data.length then 1 else 0)
                (if s.sampleSize ≤ data.length then data.take s.sampleSize else data))

/-! ## Messages to the connection -/

/-- The ids in the parameters of an `available` or `unavailable` message. -/
def signalIds (params : Json) : List String :=
  match ((params.find? "signalIds").bind Json.array?).or params.array? with
  | some ids => ids.filterMap Json.string?
  | none => []

/-- The assignment `signal.hidden = false` of `connection::handle_available`. -/
def unhide (c : RemoteSignals) (id : String) : RemoteSignals :=
  { c with byId := OrderedMap.modify c.byId id fun e => { e with hidden := false } }

/-- One id of `connection::handle_available`. -/
def announce (c : RemoteSignals) (id : String) : RemoteSignals × List RemoteEvent :=
  match c.addRemoteSignal id false with
  | (c, added, entry) =>
      if !added && !entry.hidden then (c, [])
      else (c.unhide id, [.available id entry.address])

/-- One id of `connection::handle_unavailable`. -/
def withdraw (c : RemoteSignals) (id : String) : RemoteSignals × List RemoteEvent :=
  match c.removeRemoteSignal id with
  | (c, none) => (c, [])
  | (c, some entry) =>
      let (c, events) := c.onObject entry.address RemoteSignal.detach
      (c, events ++ if entry.hidden then [] else [.unavailable id entry.address])

/-- A loop over ids. -/
def forEach (f : RemoteSignals → String → RemoteSignals × List RemoteEvent) (c : RemoteSignals) :
    List String → RemoteSignals × List RemoteEvent
  | [] => (c, [])
  | id :: ids =>
      let (c, events) := f c id
      let (c, more) := forEach f c ids
      (c, events ++ more)

/-- `connection::handle_available`. -/
def handleAvailable (c : RemoteSignals) (params : Json) : RemoteSignals × List RemoteEvent :=
  forEach announce c (signalIds params)

/-- `connection::handle_unavailable`. -/
def handleUnavailable (c : RemoteSignals) (params : Json) : RemoteSignals × List RemoteEvent :=
  forEach withdraw c (signalIds params)

/-- The id in the parameters of a `subscribe` message, or the empty one. -/
def subscribedId (params : Json) : String :=
  match params.stringAt? "signalId" with
  | some id => id
  | none => (((params.array?).bind List.head?).bind Json.string?).getD ""

/-- `connection::handle_subscribe`. -/
def handleSubscribe (c : RemoteSignals) (signo : UInt32) (params : Json) :
    RemoteSignals × List RemoteEvent :=
  if subscribedId params = "" then (c, [])
  else
    match c.addRemoteSignal (subscribedId params) true with
    | (c, _, entry) =>
        (c.setRemoteSignalSigno entry.address signo).handleMetadata entry.address "subscribe"
          params

/-- The entry under a signal number: none if there is none, and no result at
all if the pointer dangles. -/
def follow (c : RemoteSignals) (signo : UInt32) : Option (Option Nat) :=
  match OrderedMap.find? c.bySigno signo with
  | none => some none
  | some address => if c.live address then some (some address) else none

/-- A handler for the signal under a number, if there is one. -/
def dispatch (c : RemoteSignals) (signo : UInt32)
    (handler : Nat → RemoteSignals × List RemoteEvent) :
    Option (RemoteSignals × List RemoteEvent) :=
  (c.follow signo).map fun
    | none => (c, [])
    | some address => handler address

/-- `connection::dispatch_metadata`. -/
def dispatchMetadata (c : RemoteSignals) (signo : UInt32) (method : String) (params : Json) :
    Option (RemoteSignals × List RemoteEvent) :=
  c.dispatch signo fun address => c.handleMetadata address method params

/-- `connection::on_peer_data_received`. -/
def onPeerDataReceived (c : RemoteSignals) (signo : UInt32) (data : Bytes) :
    Option (RemoteSignals × List RemoteEvent) :=
  c.dispatch signo fun address => c.handleData address data

/-- `connection::handle_unsubscribe`. -/
def handleUnsubscribe (c : RemoteSignals) (signo : UInt32) (params : Json) :
    Option (RemoteSignals × List RemoteEvent) :=
  (c.dispatchMetadata signo "unsubscribe" params).map fun r => (r.1.forgetRemoteSigno signo, r.2)

/-- The part of `connection::on_peer_metadata_received` that concerns remote
signals; the other methods leave them alone. -/
def onPeerMetadataReceived (c : RemoteSignals) (m : MetadataMessage) :
    Option (RemoteSignals × List RemoteEvent) :=
  if m.method = "subscribe" then some (c.handleSubscribe m.signo m.params)
  else if m.method = "unsubscribe" then c.handleUnsubscribe m.signo m.params
  else if m.signo ≠ 0 then c.dispatchMetadata m.signo m.method m.params
  else if m.method = "available" then some (c.handleAvailable m.params)
  else if m.method = "unavailable" then some (c.handleUnavailable m.params)
  else some (c, [])

/-- Detaching the objects of entries. -/
def detachAll (c : RemoteSignals) : List (String × RemoteSignalEntry) →
    RemoteSignals × List RemoteEvent
  | [] => (c, [])
  | e :: entries =>
      let (c, events) := c.onObject e.2.address RemoteSignal.detach
      let (c, more) := detachAll c entries
      (c, events ++ more)

/-- `remote_signal_container::clear_remote_signals`, as
`connection::on_peer_closed` calls it. -/
def clearRemoteSignals (c : RemoteSignals) : RemoteSignals × List RemoteEvent :=
  let old := c.byId
  let (c, events) := { c with byId := [], bySigno := [] }.detachAll old
  (c, events ++
    (old.filter fun e => !e.2.hidden).map fun e => .unavailable e.1 e.2.address)

/-- What can happen to the remote signals of a connection. -/
inductive Input where
  | message (m : Message)
  | close
deriving DecidableEq, Repr

/-- One of these. -/
def step (c : RemoteSignals) : Input → Option (RemoteSignals × List RemoteEvent)
  | .message (.metadata m) => c.onPeerMetadataReceived m
  | .message (.data signo data) => c.onPeerDataReceived signo data
  | .close => some c.clearRemoteSignals

end RemoteSignals

end WsStreaming.Ports
