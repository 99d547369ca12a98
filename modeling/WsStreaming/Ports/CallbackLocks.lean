import WsStreaming.Verified.Locks
import WsStreaming.Ports.Connection
import WsStreaming.Ports.SubscribeFaces

/-!
# Locks and callbacks

`local_signal_container` and `remote_signal_container` have a mutex each, which
is not recursive.  Here the operations of a connection are code of one thread
that takes and gives back these mutexes, raises events, and sends packets; in a
handler of an event the application may enter the connection again.

An entry of the local container lives on a heap, since an operation that is
under way may be the last owner of an entry that was removed meanwhile.  What an
entry derives from metadata, its table and its domain, and what the packets say
play no part in this and are left out.  Handlers return; they do not throw, as
the documentation of the events asks.

## Main results

* `checked_connection` — under a condition on two kinds of work, all the code
  of a connection is well locked.
* `callbacks_run_unlocked` — the law over all runs that meet the condition.
* `callback_under_lock` — a run that does not, and where it comes to a halt.
-/

namespace WsStreaming.Ports

open WsStreaming.Verified
open WsStreaming.Verified.Locks
open WsStreaming.Verified.OrderedMap (OMap)
open WsStreaming.Verified.Run (MeetsOpt)

/-- The `_mutex` of each of the containers. -/
inductive Mutex where
  | localSignals
  | remoteSignals
deriving DecidableEq, Repr

/-- What a connection calls that may come back to it: the peer, which closes the
connection if a packet cannot be sent, and the handlers of events. -/
inductive Callee where
  | peer
  | remote (event : RemoteEvent)
  | subscription (event : SubscribeEvent)
  | metadataChanged (address : Nat)
  | dataPublished (address : Nat)
  | disconnected
deriving DecidableEq, Repr

/-- A connection, with the entries of its local signals on a heap.  The map
holds their places, and `pins` the owners of an entry other than the map.
`isOpen` says whether the slots of the peer are connected; the counts are those
of the signal objects. -/
structure ConnectionHeap where
  isClient : Bool := false
  localStreamId : String := ""
  apiVersion : Semver := {}
  helloSent : Bool := false
  isOpen : Bool := true
  remotes : RemoteSignals := {}
  entries : List RegisteredLocalSignal := []
  signals : OMap UInt32 Nat := []
  nextSigno : UInt32 := 1
  pins : List Nat := []
  counts : OMap Nat UInt32 := []
deriving DecidableEq, Repr

/-- The steps of the operations, between one instruction on a mutex or a call
and the next.  Those with a mutex are made with it held, or with none. -/
inductive Work where
  | emplace (signal : LocalSignal)
  | erase (signal : LocalSignal)
  | increment (address : Nat)
  | decrement (mutex : Option Mutex) (address : Nat)
  | close (mutex : Option Mutex) (entry : Nat)
  | closed (mutex : Option Mutex) (entry : Nat)
  | findToSubscribe (id : String) (isExplicit : Bool)
  | beginSubscription (entry : Nat) (isExplicit : Bool)
  | engage (entry : Nat)
  | subscribeTable (entry : Nat) (isExplicit : Bool)
  | refresh (entry : Nat)
  | connect (entry : Nat)
  | findToUnsubscribe (id : String) (isExplicit : Bool)
  | endSubscription (entry : Nat) (isExplicit : Bool)
  | unsubscribeTable (entry : Nat)
  | unpin (entry : Nat)
  | setMetadata (address : Nat) (metadata : Metadata)
  | onLocalSignalMetadataChanged (entry : Nat)
  | publishData (address : Nat)
  | onLocalSignalDataPublished (entry : Nat)
  | run
  | advertise
  | helloSent
  | receive (message : Message)
  | doCommandInterface (method : String) (params : Json)
  | addRemoteSignal (signo : UInt32) (params : Json)
  | setRemoteSignalSigno (address : Nat) (signo : UInt32) (params : Json)
  | findForMetadata (signo : UInt32) (method : String) (params : Json)
  | handleMetadata (address : Nat) (method : String) (params : Json)
  | findForData (signo : UInt32) (data : Wire.Bytes)
  | handleData (address : Nat) (data : Wire.Bytes)
  | forgetRemoteSigno (signo : UInt32)
  | announce (id : String)
  | withdraw (id : String)
  | onPeerClosed
  | clearRemoteSignals
  | clearLocalSignals
  | clearEntry (entry : Nat)
  | dropLocalSignals (mutex : Option Mutex)
  | destroy
deriving DecidableEq, Repr

/-- Code of a connection. -/
abbrev Code : Type := List (Instr Mutex Callee Work)

namespace ConnectionHeap

/-! ## The heap -/

/-- A change of an entry. -/
def modify (c : ConnectionHeap) (entry : Nat)
    (f : RegisteredLocalSignal → RegisteredLocalSignal) : ConnectionHeap :=
  { c with entries := c.entries.modify entry f }

/-- A copy of the shared pointer to an entry. -/
def pin (c : ConnectionHeap) (entry : Nat) : ConnectionHeap := { c with pins := entry :: c.pins }

/-- Whether an entry has an owner. -/
def owned (c : ConnectionHeap) (entry : Nat) : Bool :=
  c.pins.contains entry || c.signals.any fun p => p.2 = entry

/-- The place of the first entry in the map that has a property. -/
def findIf (c : ConnectionHeap) (p : LocalSignal → Bool) : Option (UInt32 × Nat) :=
  c.signals.find? fun q => ((c.entries[q.2]?).map fun e => p e.signal).getD false

/-- `_subscribe_count` of a signal object. -/
def count (c : ConnectionHeap) (address : Nat) : UInt32 :=
  (OrderedMap.find? c.counts address).getD 0

/-- Another count. -/
def setCount (c : ConnectionHeap) (address : Nat) (n : UInt32) : ConnectionHeap :=
  { c with counts := OrderedMap.set c.counts address n }

/-- The slots of an entry are disconnected. -/
def disconnectSlots (e : RegisteredLocalSignal) : RegisteredLocalSignal :=
  { e with onMetadataChanged := false, onDataPublished := false }

/-- A call of `find_local_signal` that finds the domain of a signal. -/
def findDomain (signal : LocalSignal) : Code :=
  if signal.domainId?.isSome then [.acquire .localSignals, .release .localSignals] else []

/-- The destructor of an entry, after it has lost an owner. -/
def dropped (c : ConnectionHeap) (mutex : Option Mutex) (entry : Nat) : Code :=
  if c.owned entry then [] else [.work (.close mutex entry)]

/-- The end of the scope of a shared pointer. -/
def unpin (c : ConnectionHeap) (entry : Nat) : ConnectionHeap × Code :=
  let c := { c with pins := c.pins.erase entry }
  (c, c.dropped none entry)

/-! ## Subscribe holders -/

/-- The constructor of a `subscribe_holder`. -/
def increment (c : ConnectionHeap) (address : Nat) : ConnectionHeap × Code :=
  (c.setCount address (c.count address + 1),
    if c.count address = 0 then [.call (.subscription (.subscribed address))] else [])

/-- `--_signal->_subscribe_count`, and the event. -/
def decrement (c : ConnectionHeap) (address : Nat) : ConnectionHeap × Code :=
  (c.setCount address (c.count address - 1),
    if c.count address - 1 = 0 then [.call (.subscription (.unsubscribed address))] else [])

/-- `subscribe_holder::close` of the holder of an entry. -/
def close (c : ConnectionHeap) (mutex : Option Mutex) (entry : Nat) : ConnectionHeap × Code :=
  match (c.entries[entry]?).filter RegisteredLocalSignal.holder with
  | some e => (c, [.work (.decrement mutex e.signal.address), .work (.closed mutex entry)])
  | none => (c, [])

/-! ## Registration -/

/-- `local_signal_container::add_local_signal`, and what
`connection::add_local_signal` does after it. -/
def emplace (c : ConnectionHeap) (signal : LocalSignal) : ConnectionHeap × Code :=
  match c.findIf fun s => s.address = signal.address with
  | some (_, entry) => (c.pin entry, [.release .localSignals, .work (.unpin entry)])
  | none =>
      let signals := OrderedMap.emplace c.signals c.nextSigno c.entries.length
      let entry := (OrderedMap.find? signals c.nextSigno).getD c.entries.length
      (pin { c with
          entries := c.entries ++ [{ signal := signal, signo := c.nextSigno }]
          signals := signals
          nextSigno := c.nextSigno + 1 } entry,
        .release .localSignals :: findDomain signal ++
          (if c.helloSent then [.call .peer] else []) ++ [.work (.unpin entry)])

/-- `local_signal_container::remove_local_signal`, and what
`connection::remove_local_signal` does after it. -/
def erase (c : ConnectionHeap) (signal : LocalSignal) : ConnectionHeap × Code :=
  match c.findIf fun s => s.address = signal.address with
  | some (signo, entry) =>
      let c := { c with signals := OrderedMap.erase c.signals signo }
      (c, c.dropped (some .localSignals) entry ++ .release .localSignals ::
        if signo ≠ 0 then [.call .peer] else [])
  | none => (c, [.release .localSignals])

/-! ## Subscriptions -/

/-- `connection::subscribe`. -/
def subscribe (isExplicit : Bool) (id : String) : Code :=
  [.acquire .localSignals, .work (.findToSubscribe id isExplicit)]

/-- `connection::unsubscribe`. -/
def unsubscribe (isExplicit : Bool) (id : String) : Code :=
  [.acquire .localSignals, .work (.findToUnsubscribe id isExplicit)]

/-- `find_local_signal` at the beginning of an operation, which goes on with the
entry. -/
def findThen (c : ConnectionHeap) (id : String) (next : Nat → Work) : ConnectionHeap × Code :=
  match c.findIf fun s => s.id = id with
  | some (_, entry) => (c.pin entry, [.release .localSignals, .work (next entry)])
  | none => (c, [.release .localSignals])

/-- `connection::subscribe`, once the entry was found. -/
def beginSubscription (c : ConnectionHeap) (entry : Nat) (isExplicit : Bool) :
    ConnectionHeap × Code :=
  match c.entries[entry]? with
  | none => (c, [])
  | some e =>
      let c := c.modify entry fun e => e.addSubscription isExplicit
      if e.isSubscribed then (c, [.work (.unpin entry)])
      else
        -- The holder that is made replaces the one that the entry has, if any.
        (c, [.work (.increment e.signal.address), .work (.close none entry),
          .work (.engage entry), .work (.subscribeTable entry isExplicit), .call .peer,
          .work (.refresh entry), .call .peer, .work (.connect entry), .work (.unpin entry)])

/-- `connection::unsubscribe`, once the entry was found. -/
def endSubscription (c : ConnectionHeap) (entry : Nat) (isExplicit : Bool) :
    ConnectionHeap × Code :=
  match c.entries[entry]? with
  | none => (c, [])
  | some e =>
      let c := c.modify entry fun e => e.dropSubscription isExplicit
      if (e.dropSubscription isExplicit).isSubscribed then (c, [.work (.unpin entry)])
      else
        (c.modify entry disconnectSlots, [.work (.close none entry), .call .peer,
          .work (.unsubscribeTable entry), .work (.unpin entry)])

/-- Something that is done for the domain of an entry. -/
def forDomain (c : ConnectionHeap) (entry : Nat) (code : String → Code) : Code :=
  match (c.entries[entry]?).bind fun e => e.signal.domainId? with
  | some id => code id
  | none => []

/-- `connection::refresh_local_signal_bindings`. -/
def refreshLocalSignalBindings (c : ConnectionHeap) (entry : Nat) : Code :=
  match c.entries[entry]? with
  | some e => findDomain e.signal
  | none => []

/-! ## Signal objects -/

/-- The handlers of an event of a signal object: those of the application, which
may be connected before or after, and the slots of the entries. -/
def raise (c : ConnectionHeap) (event : Callee) (address : Nat) (slot : Nat → Work) : Code :=
  .call event :: ((List.range c.entries.length).filter fun entry =>
      (c.entries[entry]?).any fun e => e.signal.address = address).map (fun e => .work (slot e)) ++
    [.call event]

/-- A slot of an entry, which does nothing unless it is connected and the entry
is there. -/
def slot (c : ConnectionHeap) (entry : Nat) (connected : RegisteredLocalSignal → Bool)
    (code : Code) : ConnectionHeap × Code :=
  if (c.entries[entry]?).any connected && c.owned entry then
    (c.pin entry, code ++ [.work (.unpin entry)])
  else (c, [])

/-- `local_signal::set_metadata`. -/
def setMetadata (c : ConnectionHeap) (address : Nat) (metadata : Metadata) :
    ConnectionHeap × Code :=
  let c := { c with entries := c.entries.map fun e =>
    if e.signal.address = address then { e with signal := { e.signal with metadata := metadata } }
    else e }
  (c, c.raise (.metadataChanged address) address .onLocalSignalMetadataChanged)

/-- `connection::on_local_signal_metadata_changed`. -/
def onLocalSignalMetadataChanged (c : ConnectionHeap) (entry : Nat) : ConnectionHeap × Code :=
  c.slot entry RegisteredLocalSignal.onMetadataChanged
    (c.refreshLocalSignalBindings entry ++ [.call .peer])

/-- `connection::on_local_signal_data_published`.  The packet for the domain is
not always sent; a call of the peer in which nothing happens stands for that. -/
def onLocalSignalDataPublished (c : ConnectionHeap) (entry : Nat) : ConnectionHeap × Code :=
  c.slot entry RegisteredLocalSignal.onDataPublished [.call .peer, .call .peer]

/-! ## Messages -/

/-- `connection::do_hello`. -/
def doHello : Code := [.call .peer, .call .peer, .work .advertise]

/-- The advertisement in it. -/
def advertise (c : ConnectionHeap) : Code :=
  (if c.signals = [] then [] else [.call .peer]) ++ [.work .helloSent]

/-- `connection::handle_api_version`. -/
def handleApiVersion (c : ConnectionHeap) (params : Json) : ConnectionHeap :=
  match params.stringAt? "version" with
  | some version => { c with apiVersion := (Semver.tryParse version).getD {} }
  | none => c

/-- `connection::handle_init`. -/
def handleInit (c : ConnectionHeap) (params : Json) : Code :=
  if params.isObject && (c.isClient && c.apiVersion.atLeast ⟨2, 0, 0⟩) then doHello else []

/-- `connection::do_command_interface`. -/
def doCommandInterface (c : ConnectionHeap) (method : String) (params : Json) : Code :=
  if method = c.localStreamId ++ ".subscribe" then
    (LocalSignals.commandIds params).flatMap (subscribe true)
  else if method = c.localStreamId ++ ".unsubscribe" then
    (LocalSignals.commandIds params).flatMap (unsubscribe true)
  else []

/-- `connection::handle_command_interface_request`.  The exception for a request
that is no object escapes. -/
def handleCommandInterfaceRequest (c : ConnectionHeap) (params : Json) : Code :=
  if params.isObject then
    (match params.stringAt? "method" with
      | some method => c.doCommandInterface method ((params.find? "params").getD .null)
      | none => []) ++ [.call .peer]
  else []

/-- `connection::handle_subscribe`. -/
def handleSubscribe (signo : UInt32) (params : Json) : Code :=
  if RemoteSignals.subscribedId params = "" then []
  else [.acquire .remoteSignals, .work (.addRemoteSignal signo params)]

/-- `connection::dispatch_metadata`. -/
def dispatchMetadata (signo : UInt32) (method : String) (params : Json) : Code :=
  [.acquire .remoteSignals, .work (.findForMetadata signo method params)]

/-- `connection::handle_unsubscribe`. -/
def handleUnsubscribe (signo : UInt32) (params : Json) : Code :=
  dispatchMetadata signo "unsubscribe" params ++
    [.acquire .remoteSignals, .work (.forgetRemoteSigno signo)]

/-- `connection::handle_available`. -/
def handleAvailable (params : Json) : Code :=
  (RemoteSignals.signalIds params).flatMap fun id =>
    [.acquire .remoteSignals, .work (.announce id)]

/-- `connection::handle_unavailable`. -/
def handleUnavailable (params : Json) : Code :=
  (RemoteSignals.signalIds params).flatMap fun id =>
    [.acquire .remoteSignals, .release .remoteSignals, .acquire .remoteSignals,
      .work (.withdraw id)]

/-- `connection::on_peer_metadata_received`; a response calls nothing. -/
def onPeerMetadataReceived (c : ConnectionHeap) (m : MetadataMessage) : ConnectionHeap × Code :=
  if m.method = "subscribe" then (c, handleSubscribe m.signo m.params)
  else if m.method = "unsubscribe" then (c, handleUnsubscribe m.signo m.params)
  else if m.signo ≠ 0 then (c, dispatchMetadata m.signo m.method m.params)
  else if m.method = "apiVersion" then (c.handleApiVersion m.params, [])
  else if m.method = "init" then (c, c.handleInit m.params)
  else if m.method = "available" then (c, handleAvailable m.params)
  else if m.method = "unavailable" then (c, handleUnavailable m.params)
  else if m.method = "request" then (c, c.handleCommandInterfaceRequest m.params)
  else (c, [])

/-- A message that arrives; the slots of a connection that was closed are
disconnected. -/
def receive (c : ConnectionHeap) (message : Message) : ConnectionHeap × Code :=
  if c.isOpen then
    match message with
    | .metadata m => c.onPeerMetadataReceived m
    | .data signo data => (c, [.acquire .remoteSignals, .work (.findForData signo data)])
  else (c, [])

/-! ## Remote signals -/

/-- Other remote signals, and the events that were raised. -/
def withRemotes (c : ConnectionHeap) (r : RemoteSignals × List RemoteEvent) :
    ConnectionHeap × Code :=
  ({ c with remotes := r.1 }, r.2.map fun event => .call (.remote event))

/-- An operation of the container, with the events that are raised after it. -/
def underLock (c : ConnectionHeap) (r : RemoteSignals × List RemoteEvent) :
    ConnectionHeap × Code :=
  ((c.withRemotes r).1, .release .remoteSignals :: (c.withRemotes r).2)

/-- `add_remote_signal` in `connection::handle_subscribe`. -/
def addRemoteSignal (c : ConnectionHeap) (signo : UInt32) (params : Json) :
    ConnectionHeap × Code :=
  match c.remotes.addRemoteSignal (RemoteSignals.subscribedId params) true with
  | (remotes, _, entry) =>
      ({ c with remotes := remotes }, [.release .remoteSignals, .acquire .remoteSignals,
        .work (.setRemoteSignalSigno entry.address signo params)])

/-- `find_remote_signal` of a number, which goes on with the object.  It has no
result if the pointer dangles. -/
def follow (c : ConnectionHeap) (signo : UInt32) (next : Nat → Work) :
    Option (ConnectionHeap × Code) :=
  (c.remotes.follow signo).map fun
    | none => (c, [.release .remoteSignals])
    | some address => (c, [.release .remoteSignals, .work (next address)])

/-- `remote_signal_impl::handle_metadata`, which seeks the table of a signal that
is described. -/
def handleMetadata (c : ConnectionHeap) (address : Nat) (method : String) (params : Json) :
    ConnectionHeap × Code :=
  let r := c.remotes.handleMetadata address method params
  let seeks := method = "signal" ∧ ((r.1.objects[address]?).bind RemoteSignal.soughtId?).isSome
  ((c.withRemotes r).1,
    (if seeks then [.acquire .remoteSignals, .release .remoteSignals] else []) ++
      (c.withRemotes r).2)

/-! ## The end of a connection -/

/-- `connection::on_peer_closed`. -/
def onPeerClosed (c : ConnectionHeap) : ConnectionHeap × Code :=
  if c.isOpen then
    ({ c with isOpen := false }, [.acquire .remoteSignals, .work .clearRemoteSignals,
      .acquire .localSignals, .work .clearLocalSignals, .call .disconnected])
  else (c, [])

/-- `remote_signal_container::clear_remote_signals`.  All events are raised with
the mutex held. -/
def clearRemoteSignals (c : ConnectionHeap) : ConnectionHeap × Code :=
  ((c.withRemotes c.remotes.clearRemoteSignals).1,
    (c.withRemotes c.remotes.clearRemoteSignals).2 ++ [.release .remoteSignals])

/-- `local_signal_container::clear_local_signals`. -/
def clearLocalSignals (c : ConnectionHeap) : Code :=
  c.signals.map (fun p => .work (.clearEntry p.2)) ++
    [.work (.dropLocalSignals (some .localSignals)), .release .localSignals]

/-- One entry of it. -/
def clearEntry (c : ConnectionHeap) (entry : Nat) : ConnectionHeap × Code :=
  (c.modify entry disconnectSlots, [.work (.close (some .localSignals) entry)])

/-- `_signals.clear()`. -/
def dropLocalSignals (c : ConnectionHeap) (mutex : Option Mutex) : ConnectionHeap × Code :=
  let places := c.signals.map Prod.snd
  let c := { c with signals := [] }
  (c, places.flatMap fun entry => c.dropped mutex entry)

/-! ## The program -/

/-- What each piece of work does. -/
def exec (w : Work) (c : ConnectionHeap) : Option (ConnectionHeap × Code) :=
  match w with
  | .emplace signal => some (c.emplace signal)
  | .erase signal => some (c.erase signal)
  | .increment address => some (c.increment address)
  | .decrement _ address => some (c.decrement address)
  | .close mutex entry => some (c.close mutex entry)
  | .closed _ entry => some (c.modify entry fun e => { e with holder := false }, [])
  | .findToSubscribe id isExplicit => some (c.findThen id fun e => .beginSubscription e isExplicit)
  | .beginSubscription entry isExplicit => some (c.beginSubscription entry isExplicit)
  | .engage entry => some (c.modify entry RegisteredLocalSignal.engage, [])
  | .subscribeTable entry isExplicit =>
      some (c, if isExplicit then c.forDomain entry (subscribe false) else [])
  | .refresh entry => some (c, c.refreshLocalSignalBindings entry)
  | .connect entry => some (c.modify entry RegisteredLocalSignal.connect, [])
  | .findToUnsubscribe id isExplicit => some (c.findThen id fun e => .endSubscription e isExplicit)
  | .endSubscription entry isExplicit => some (c.endSubscription entry isExplicit)
  | .unsubscribeTable entry => some (c, c.forDomain entry (unsubscribe false))
  | .unpin entry => some (c.unpin entry)
  | .setMetadata address metadata => some (c.setMetadata address metadata)
  | .onLocalSignalMetadataChanged entry => some (c.onLocalSignalMetadataChanged entry)
  | .publishData address =>
      some (c, c.raise (.dataPublished address) address .onLocalSignalDataPublished)
  | .onLocalSignalDataPublished entry => some (c.onLocalSignalDataPublished entry)
  | .run => some (c, if c.isClient then [] else doHello)
  | .advertise => some (c, c.advertise)
  | .helloSent => some ({ c with helloSent := true }, [])
  | .receive message => some (c.receive message)
  | .doCommandInterface method params => some (c, c.doCommandInterface method params)
  | .addRemoteSignal signo params => some (c.addRemoteSignal signo params)
  | .setRemoteSignalSigno address signo params =>
      some ({ c with remotes := c.remotes.setRemoteSignalSigno address signo },
        [.release .remoteSignals, .work (.handleMetadata address "subscribe" params)])
  | .findForMetadata signo method params => c.follow signo fun a => .handleMetadata a method params
  | .handleMetadata address method params => some (c.handleMetadata address method params)
  | .findForData signo data => c.follow signo fun a => .handleData a data
  | .handleData address data => some (c.withRemotes (c.remotes.handleData address data))
  | .forgetRemoteSigno signo => some (c.underLock (c.remotes.forgetRemoteSigno signo, []))
  | .announce id => some (c.underLock (c.remotes.announce id))
  | .withdraw id => some (c.underLock (c.remotes.withdraw id))
  | .onPeerClosed => some c.onPeerClosed
  | .clearRemoteSignals => some c.clearRemoteSignals
  | .clearLocalSignals => some (c, c.clearLocalSignals)
  | .clearEntry entry => some (c.clearEntry entry)
  | .dropLocalSignals mutex => some (c.dropLocalSignals mutex)
  | .destroy => some ({ c with isOpen := false }, [.work (.dropLocalSignals none)])

/-- What a thread may do with a connection: the functions that are public, the
slots of the peer, what happens to a signal object elsewhere, and what the
`subscribe` and `unsubscribe` of a remote signal ask the peer for. -/
inductive Operation where
  | addLocalSignal (signal : LocalSignal)
  | removeLocalSignal (signal : LocalSignal)
  | findRemoteSignal (id : String)
  | doCommandInterface (method : String) (params : Json)
  | run
  | setMetadata (address : Nat) (metadata : Metadata)
  | publishData (address : Nat)
  | subscribeElsewhere (address : Nat)
  | unsubscribeElsewhere (address : Nat)
  | requestSubscription (id : String)
  | receive (message : Message)
  | onPeerClosed
  | destroy
deriving DecidableEq, Repr

/-- The code of an operation. -/
def body : Operation → Code
  | .addLocalSignal signal => [.acquire .localSignals, .work (.emplace signal)]
  | .removeLocalSignal signal => [.acquire .localSignals, .work (.erase signal)]
  | .findRemoteSignal _ => [.acquire .remoteSignals, .release .remoteSignals]
  | .doCommandInterface method params => [.work (.doCommandInterface method params)]
  | .run => [.work .run]
  | .setMetadata address metadata => [.work (.setMetadata address metadata)]
  | .publishData address => [.work (.publishData address)]
  | .subscribeElsewhere address => [.work (.increment address)]
  | .unsubscribeElsewhere address => [.work (.decrement none address)]
  | .requestSubscription _ => [.call .peer]
  | .receive message => [.work (.receive message)]
  | .onPeerClosed => [.work .onPeerClosed]
  | .destroy => [.work .destroy]

/-- What may be entered: the peer only closes the connection, and no handler
destroys it, since whoever is inside an operation owns it. -/
def allowed : Callee → Operation → Bool
  | .peer, .onPeerClosed => true
  | .peer, _ => false
  | _, .destroy => false
  | _, _ => true

/-- A connection as a program. -/
def program : Program Mutex Callee Work Operation ConnectionHeap := ⟨exec, body, allowed⟩

/-- A thread outside of a new connection. -/
def start (isClient : Bool) (localStreamId : String) : Thread Mutex Callee Work ConnectionHeap :=
  ⟨{ isClient := isClient, localStreamId := localStreamId }, [], []⟩

/-! ## Types -/

/-- The mutex that is held before some work, and after the code it leads to. -/
def lockType : Work → Option Mutex × Option Mutex
  | .emplace _ | .erase _ | .findToSubscribe _ _ | .findToUnsubscribe _ _ | .clearLocalSignals =>
      (some .localSignals, none)
  | .addRemoteSignal _ _ | .setRemoteSignalSigno _ _ _ | .findForMetadata _ _ _
  | .findForData _ _ | .forgetRemoteSigno _ | .announce _ | .withdraw _ | .clearRemoteSignals =>
      (some .remoteSignals, none)
  | .decrement mutex _ | .close mutex _ | .closed mutex _ | .dropLocalSignals mutex =>
      (mutex, mutex)
  | .clearEntry _ => (some .localSignals, some .localSignals)
  | _ => (none, none)

/-- Before some work: no remote signal is known when they are cleared, and a
holder that is closed with a mutex held is not the last one of its object. -/
def Harmless : Work → ConnectionHeap → Prop
  | .clearRemoteSignals, c => c.remotes.byId = []
  | .decrement (some _) address, c => c.count address ≠ 1
  | _, _ => True

instance (w : Work) (c : ConnectionHeap) : Decidable (Harmless w c) := by
  unfold Harmless
  split <;> infer_instance

/-! ### Each function keeps to its type -/

section Types

variable (c : ConnectionHeap)

theorem check_findDomain (signal : LocalSignal) :
    check lockType none (findDomain signal) = some none :=
  check_ite rfl

theorem check_dropped (mutex : Option Mutex) (entry : Nat) :
    check lockType mutex (c.dropped mutex entry) = some mutex := by
  unfold dropped
  split
  · rfl
  · exact check_work.mpr ⟨rfl, rfl⟩

theorem check_unpin (entry : Nat) : check lockType none (c.unpin entry).2 = some none :=
  check_dropped _ none entry

theorem check_increment (address : Nat) :
    check lockType none (c.increment address).2 = some none :=
  check_ite rfl

/-- The event is raised with whatever mutex the holder is closed under. -/
theorem check_decrement {mutex : Option Mutex} {address : Nat}
    (h : Harmless (.decrement mutex address) c) :
    check lockType mutex (c.decrement address).2 = some mutex := by
  cases mutex with
  | none => exact check_ite rfl
  | some m =>
      have hcount : ¬ c.count address - 1 = 0 := by
        intro hzero
        have hone : c.count address ≠ 1 := h
        grind
      unfold decrement
      rw [if_neg hcount]
      rfl

theorem check_close (mutex : Option Mutex) (entry : Nat) :
    check lockType mutex (c.close mutex entry).2 = some mutex := by
  unfold close
  split
  · exact check_work.mpr ⟨rfl, check_work.mpr ⟨rfl, rfl⟩⟩
  · rfl

theorem check_emplace (signal : LocalSignal) :
    check lockType (some .localSignals) (c.emplace signal).2 = some none := by
  unfold emplace
  split
  · rfl
  · have hdomain := check_findDomain signal
    have hpeer : check lockType none
        (if c.helloSent then [.call Callee.peer] else []) = some none := check_ite rfl
    exact check_release.mpr ⟨rfl, check_append (check_append hdomain hpeer) rfl⟩

theorem check_erase (signal : LocalSignal) :
    check lockType (some .localSignals) (c.erase signal).2 = some none := by
  unfold erase
  split
  · refine check_append (check_dropped _ _ _) ?_
    rw [check_release]
    exact ⟨rfl, check_ite rfl⟩
  · simp

theorem check_subscribe (isExplicit : Bool) (id : String) :
    check lockType none (subscribe isExplicit id) = some none :=
  rfl

theorem check_unsubscribe (isExplicit : Bool) (id : String) :
    check lockType none (unsubscribe isExplicit id) = some none :=
  rfl

theorem check_findThen {next : Nat → Work} (hnext : ∀ entry, lockType (next entry) = (none, none))
    (id : String) : check lockType (some .localSignals) (c.findThen id next).2 = some none := by
  unfold findThen
  split
  · simp [hnext]
  · simp

theorem check_beginSubscription (entry : Nat) (isExplicit : Bool) :
    check lockType none (c.beginSubscription entry isExplicit).2 = some none := by
  unfold beginSubscription
  split
  · rfl
  · dsimp only
    split <;> rfl

theorem check_endSubscription (entry : Nat) (isExplicit : Bool) :
    check lockType none (c.endSubscription entry isExplicit).2 = some none := by
  unfold endSubscription
  split
  · rfl
  · dsimp only
    split <;> rfl

theorem check_forDomain (entry : Nat) {code : String → Code}
    (hcode : ∀ id, check lockType none (code id) = some none) :
    check lockType none (c.forDomain entry code) = some none := by
  unfold forDomain
  split
  · exact hcode _
  · rfl

theorem check_refreshLocalSignalBindings (entry : Nat) :
    check lockType none (c.refreshLocalSignalBindings entry) = some none := by
  unfold refreshLocalSignalBindings
  split
  · exact check_findDomain _
  · rfl

theorem check_raise (event : Callee) (address : Nat) {slot : Nat → Work}
    (hslot : ∀ entry, lockType (slot entry) = (none, none)) :
    check lockType none (c.raise event address slot) = some none := by
  unfold raise
  rw [List.cons_append, check_call]
  refine ⟨rfl, check_append (check_map _ ?_) (by simp)⟩
  intro entry _
  simp [hslot]

theorem check_slot (entry : Nat) (connected : RegisteredLocalSignal → Bool) {code : Code}
    (hcode : check lockType none code = some none) :
    check lockType none (c.slot entry connected code).2 = some none := by
  unfold slot
  split
  · exact check_append hcode rfl
  · rfl

theorem check_onLocalSignalMetadataChanged (entry : Nat) :
    check lockType none (c.onLocalSignalMetadataChanged entry).2 = some none :=
  check_slot c entry _ (check_append (check_refreshLocalSignalBindings c entry) (by simp))

theorem check_setMetadata (address : Nat) (metadata : Metadata) :
    check lockType none (c.setMetadata address metadata).2 = some none :=
  check_raise _ _ address fun _ => rfl

theorem check_advertise : check lockType none c.advertise = some none := by
  unfold advertise
  split <;> rfl

theorem check_doHello : check lockType none doHello = some none := rfl

theorem check_doCommandInterface (method : String) (params : Json) :
    check lockType none (c.doCommandInterface method params) = some none := by
  unfold doCommandInterface
  split
  · exact check_flatMap _ fun id _ => check_subscribe true id
  · split
    · exact check_flatMap _ fun id _ => check_unsubscribe true id
    · rfl

theorem check_handleCommandInterfaceRequest (params : Json) :
    check lockType none (c.handleCommandInterfaceRequest params) = some none := by
  have hpeer : check lockType none [.call Callee.peer] = some none := by simp
  unfold handleCommandInterfaceRequest
  refine check_ite (check_append ?_ hpeer)
  split
  · exact check_doCommandInterface c _ _
  · rfl

theorem check_dispatchMetadata (signo : UInt32) (method : String) (params : Json) :
    check lockType none (dispatchMetadata signo method params) = some none :=
  rfl

theorem check_onPeerMetadataReceived (m : MetadataMessage) :
    check lockType none (c.onPeerMetadataReceived m).2 = some none := by
  have hdispatch := check_dispatchMetadata m.signo
  unfold onPeerMetadataReceived
  repeat' split
  · unfold handleSubscribe
    split <;> rfl
  · exact check_append (hdispatch _ _) rfl
  · exact hdispatch _ _
  · rfl
  · exact check_ite check_doHello
  · exact check_flatMap _ fun _ _ => rfl
  · exact check_flatMap _ fun _ _ => rfl
  · exact check_handleCommandInterfaceRequest c _
  · rfl

theorem check_receive (message : Message) :
    check lockType none (c.receive message).2 = some none := by
  unfold receive
  split
  · cases message with
    | metadata m => exact check_onPeerMetadataReceived c m
    | data signo data => rfl
  · rfl

theorem check_withRemotes (r : RemoteSignals × List RemoteEvent) :
    check lockType none (c.withRemotes r).2 = some none := by
  refine check_map _ ?_
  simp

theorem check_underLock (r : RemoteSignals × List RemoteEvent) :
    check lockType (some .remoteSignals) (c.underLock r).2 = some none :=
  check_release.mpr ⟨rfl, check_withRemotes c r⟩

theorem check_follow {signo : UInt32} {next : Nat → Work}
    (hnext : ∀ address, lockType (next address) = (none, none)) {r : ConnectionHeap × Code}
    (hr : c.follow signo next = some r) : check lockType (some .remoteSignals) r.2 = some none := by
  obtain ⟨found, -, rfl⟩ := Option.map_eq_some_iff.mp hr
  cases found with
  | none => simp
  | some address => simp [hnext]

theorem check_handleMetadata (address : Nat) (method : String) (params : Json) :
    check lockType none (c.handleMetadata address method params).2 = some none :=
  check_append (check_ite rfl) (check_withRemotes c _)

theorem check_onPeerClosed : check lockType none c.onPeerClosed.2 = some none := by
  unfold onPeerClosed
  split <;> rfl

/-- The events are raised with the mutex held, so there may be none. -/
theorem check_clearRemoteSignals (h : Harmless .clearRemoteSignals c) :
    check lockType (some .remoteSignals) c.clearRemoteSignals.2 = some none := by
  have hnone : c.remotes.clearRemoteSignals.2 = [] := by
    have hempty : c.remotes.byId = [] := h
    unfold RemoteSignals.clearRemoteSignals
    rw [hempty]
    rfl
  unfold clearRemoteSignals withRemotes
  rw [hnone]
  simp

theorem check_clearLocalSignals :
    check lockType (some .localSignals) c.clearLocalSignals = some none :=
  check_append (check_map _ fun _ _ => rfl) rfl

theorem check_dropLocalSignals (mutex : Option Mutex) :
    check lockType mutex (c.dropLocalSignals mutex).2 = some mutex :=
  check_flatMap _ fun entry _ => check_dropped _ mutex entry

end Types

/-- Work that has a result in every state. -/
theorem check_of_result {h : Option Mutex} {r r' : ConnectionHeap × Code}
    {h' : Option (Option Mutex)} (hcheck : check lockType h r.2 = h') (hr : some r = some r') :
    check lockType h r'.2 = h' := by
  rw [← Option.some.inj hr]
  exact hcheck

/-- **A connection is well locked** as far as its work meets the condition. -/
theorem checked_connection : Checked program lockType Harmless where
  body operation := by cases operation <;> rfl
  exec w c r hok hexec := by
    have hcode {h h' : Option Mutex} (code : Code) (hcheck : check lockType h code = some h')
        (state : ConnectionHeap) (hr : some (state, code) = some r) :
        check lockType h r.2 = some h' := check_of_result hcheck hr
    cases w with
    | emplace signal => exact check_of_result (check_emplace c signal) hexec
    | erase signal => exact check_of_result (check_erase c signal) hexec
    | increment address => exact check_of_result (check_increment c address) hexec
    | decrement mutex address => exact check_of_result (check_decrement c hok) hexec
    | close mutex entry => exact check_of_result (check_close c mutex entry) hexec
    | closed mutex entry => exact hcode [] rfl _ hexec
    | findToSubscribe id isExplicit =>
        exact check_of_result (check_findThen c (fun _ => rfl) id) hexec
    | beginSubscription entry isExplicit =>
        exact check_of_result (check_beginSubscription c entry isExplicit) hexec
    | engage entry => exact hcode [] rfl _ hexec
    | subscribeTable entry isExplicit =>
        exact hcode _ (check_ite (check_forDomain c entry (check_subscribe false))) _ hexec
    | refresh entry => exact hcode _ (check_refreshLocalSignalBindings c entry) _ hexec
    | connect entry => exact hcode [] rfl _ hexec
    | findToUnsubscribe id isExplicit =>
        exact check_of_result (check_findThen c (fun _ => rfl) id) hexec
    | endSubscription entry isExplicit =>
        exact check_of_result (check_endSubscription c entry isExplicit) hexec
    | unsubscribeTable entry =>
        exact hcode _ (check_forDomain c entry (check_unsubscribe false)) _ hexec
    | unpin entry => exact check_of_result (check_unpin c entry) hexec
    | setMetadata address metadata =>
        exact check_of_result (check_setMetadata c address metadata) hexec
    | onLocalSignalMetadataChanged entry =>
        exact check_of_result (check_onLocalSignalMetadataChanged c entry) hexec
    | publishData address => exact hcode _ (check_raise c _ address fun _ => rfl) _ hexec
    | onLocalSignalDataPublished entry =>
        exact check_of_result (check_slot c entry _ (by simp)) hexec
    | run => exact hcode _ (by split <;> rfl) _ hexec
    | advertise => exact hcode _ (check_advertise c) _ hexec
    | helloSent => exact hcode [] rfl _ hexec
    | receive message => exact check_of_result (check_receive c message) hexec
    | doCommandInterface method params =>
        exact hcode _ (check_doCommandInterface c method params) _ hexec
    | addRemoteSignal signo params => exact check_of_result rfl hexec
    | setRemoteSignalSigno address signo params => exact check_of_result rfl hexec
    | findForMetadata signo method params => exact check_follow c (fun _ => rfl) hexec
    | handleMetadata address method params =>
        exact check_of_result (check_handleMetadata c address method params) hexec
    | findForData signo data => exact check_follow c (fun _ => rfl) hexec
    | handleData address data => exact check_of_result (check_withRemotes c _) hexec
    | forgetRemoteSigno signo => exact check_of_result (check_underLock c _) hexec
    | announce id => exact check_of_result (check_underLock c _) hexec
    | withdraw id => exact check_of_result (check_underLock c _) hexec
    | onPeerClosed => exact check_of_result (check_onPeerClosed c) hexec
    | clearRemoteSignals => exact check_of_result (check_clearRemoteSignals c hok) hexec
    | clearLocalSignals => exact hcode _ (check_clearLocalSignals c) _ hexec
    | clearEntry entry => exact check_of_result rfl hexec
    | dropLocalSignals mutex => exact check_of_result (check_dropLocalSignals c mutex) hexec
    | destroy => exact check_of_result rfl hexec

/-- **Callbacks run unlocked.**  In every run whose work meets the condition, no
handler and no peer is called with a mutex held, whatever is entered from there,
and no mutex that is taken is held already. -/
theorem callbacks_run_unlocked (isClient : Bool) (localStreamId : String)
    (inputs : List (List Operation)) (t : Thread Mutex Callee Work ConnectionHeap)
    (hmeets : MeetsOpt program.step (fun t _ => t.Meets Harmless) (start isClient localStreamId)
      inputs)
    (hrun : inputs.foldlM program.step (start isClient localStreamId) = some t) : t.Free :=
  checked_connection.run _ inputs hmeets hrun

/-- A signal without a domain. -/
def plainSignal : LocalSignal := ⟨7, "a", .ofJson (.object [])⟩

/-- The peer subscribes a signal that its handler of `on_subscribed` removes. -/
def removedInHandler : List (List Operation) :=
  let request : Json := .object [("method", .string "s.subscribe"), ("params", .string "a")]
  [.addLocalSignal plainSignal, .receive (.ofMetadata 0 "request" request)] ::
    List.replicate 10 [] ++ [.removeLocalSignal plainSignal] :: List.replicate 14 []

/-- The entry is destroyed at the end of the request, and its holder closed. -/
theorem callbacks_run_unlocked_removed :
    ∃ t, removedInHandler.foldlM program.step (start false "s") = some t ∧
      t.code.head? = some (.call (.subscription (.unsubscribed 7))) ∧ t.Free := by
  have hmeets : MeetsOpt program.step (fun t _ => t.Meets Harmless) (start false "s")
      removedInHandler := by decide +kernel
  have hhead : (removedInHandler.foldlM program.step (start false "s")).map
      (fun t => t.code.head?) = some (some (.call (.subscription (.unsubscribed 7)))) := by
    decide +kernel
  obtain ⟨t, hrun, hcall⟩ := Option.map_eq_some_iff.mp hhead
  exact ⟨t, hrun, hcall, callbacks_run_unlocked false "s" removedInHandler t hmeets hrun⟩

/-- The peer advertises a signal, and the connection is closed. -/
def closedWithSignal : List (List Operation) :=
  let available : Json := .object [("signalIds", .array [.string "x"])]
  [.receive (.ofMetadata 0 "available" available)] ::
    List.replicate 5 [] ++ [.onPeerClosed] :: List.replicate 3 []

/-- `on_unavailable` of the signal is raised with the mutex of the remote signals
held, and a handler that looks for a signal waits for it forever. -/
theorem callback_under_lock :
    ∃ t, closedWithSignal.foldlM program.step (start false "s") = some t ∧ ¬ t.Free ∧
      t.code.head? = some (.call (.remote (.signal 0 .unavailable))) ∧
      t.held = [.remoteSignals] ∧
      [[.findRemoteSignal "x"], []].foldlM program.step t = none := by
  have hrun : (closedWithSignal.foldlM program.step (start false "s")).map (fun t =>
      (decide t.Free, t.code.head?, t.held,
        ([[.findRemoteSignal "x"], []].foldlM program.step t).isNone)) =
      some (false, some (.call (.remote (.signal 0 .unavailable))), [.remoteSignals], true) := by
    decide +kernel
  obtain ⟨t, hrun, hstate⟩ := Option.map_eq_some_iff.mp hrun
  simp only [Prod.mk.injEq, decide_eq_false_iff_not, Option.isNone_iff_eq_none] at hstate
  exact ⟨t, hrun, hstate⟩

/-- A signal that the peer has subscribed is removed. -/
def removedSubscribed : List (List Operation) :=
  let request : Json := .object [("method", .string "s.subscribe"), ("params", .string "a")]
  [.addLocalSignal plainSignal, .receive (.ofMetadata 0 "request" request)] ::
    List.replicate 20 [] ++ [.removeLocalSignal plainSignal] :: List.replicate 4 []

/-- The destructor of the entry raises `on_unsubscribed` with the mutex of the
local signals held. -/
example :
    (removedSubscribed.foldlM program.step (start false "s")).map (fun t =>
      (t.code.head?, t.held)) =
    some (some (.call (.subscription (.unsubscribed 7))), [.localSignals]) := by
  decide +kernel

end ConnectionHeap

end WsStreaming.Ports
