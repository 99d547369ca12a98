import WsStreaming.Ports.LocalSignals
import WsStreaming.Ports.RemoteSignals

/-!
# Connections

`wss::connection`: the signals of both sides, the handshake, and the commands
of the peer.  The local signals and the remote signals have modules of their
own; here is what joins them, and what is sent about a registration.

The client of the peer's command interface is not part of the model: a request
that it sends is an input of the connection that receives it.

A message handler returns what the connection sends and the events that it
raises.  It has no result where a dangling pointer is followed (see
`RemoteSignals`), and where an exception escapes to the execution context.
-/

namespace WsStreaming.Ports

open WsStreaming.Verified
open WsStreaming.Verified.Wire (Bytes)
open LocalSignals (JsonRpcException)

/-! ## Versions -/

/-- `detail::semver`. -/
structure Semver where
  major : UInt32 := 0
  minor : UInt32 := 0
  revision : UInt32 := 0
deriving DecidableEq, Repr

namespace Semver

/-- `std::isspace`. -/
def isSpace (c : Char) : Bool := c = ' ' || ('\t' ≤ c && c ≤ '\r')

/-- `std::strtoul` in base ten, with a 64-bit result: the value and what is
left of the string, or none if `errno` is set.  Without a digit nothing is
consumed. -/
def strtoul (s : List Char) : Option (Nat × List Char) :=
  let (negative, digits) :=
    match s.dropWhile isSpace with
    | '-' :: rest => (true, rest)
    | '+' :: rest => (false, rest)
    | rest => (false, rest)
  let number := digits.takeWhile Char.isDigit
  if number = [] then some (0, s)
  else
    let value := number.foldl (fun n c => 10 * n + (c.toNat - '0'.toNat)) 0
    if 2 ^ 64 ≤ value then none
    else
      some (if negative then (2 ^ 64 - value) % 2 ^ 64 else value,
        digits.dropWhile Char.isDigit)

/-- One component of a version; a C string ends at the first NUL. -/
def component (s : List Char) : Option UInt32 :=
  match strtoul (s.takeWhile fun c => c ≠ '\x00') with
  | some (value, []) => if value < 2 ^ 32 then some (UInt32.ofNat value) else none
  | _ => none

/-- `semver::try_parse`. -/
def tryParse (str : String) : Option Semver :=
  match str.toList.span fun c => c ≠ '.' with
  | (_, []) => none
  | (major, _ :: rest) =>
      match rest.span fun c => c ≠ '.' with
      | (_, []) => none
      | (minor, _ :: revision) =>
          (component major).bind fun major =>
            (component minor).bind fun minor =>
              (component revision).map fun revision => ⟨major, minor, revision⟩

/-- `operator<`. -/
def less (a b : Semver) : Bool :=
  if a.major < b.major then true
  else if b.major < a.major then false
  else if a.minor < b.minor then true
  else if b.minor < a.minor then false
  else a.revision < b.revision

/-- `operator>=`, which is `==` or `>`. -/
def atLeast (a b : Semver) : Bool := a = b || (a ≠ b && !a.less b)

end Semver

/-! ## The connection -/

/-- `wss::connection`. -/
structure Connection where
  isClient : Bool := false
  localStreamId : String := ""
  commandInterfaces : Json := .object [("jsonrpc", .object [("httpMethod", .string "")])]
  apiVersion : Semver := {}
  remoteStreamId : String := ""
  helloSent : Bool := false
  locals : LocalSignals := {}
  remotes : RemoteSignals := {}
deriving DecidableEq, Repr

namespace Connection

/-- The version that is sent. -/
def apiVersionMessage : Message :=
  .ofMetadata 0 "apiVersion" (.object [("version", .string "2.0.0")])

/-- The greeting. -/
def initMessage (c : Connection) : Message :=
  .ofMetadata 0 "init" (.object
    [("commandInterfaces", c.commandInterfaces), ("streamId", .string c.localStreamId)])

/-- A message with a list of ids. -/
def idsMessage (method : String) (ids : List String) : Message :=
  .ofMetadata 0 method (.object [("signalIds", .array (ids.map .string))])

/-- The ids of the registered signals, in the order of their numbers. -/
def localIds (c : Connection) : List String := c.locals.signals.map fun e => e.2.signal.id

/-- `connection::do_hello`. -/
def doHello (c : Connection) : Connection × List Output :=
  ({ c with helloSent := true },
    [.send apiVersionMessage, .send c.initMessage] ++
      if c.localIds = [] then [] else [.send (idsMessage "available" c.localIds)])

/-- `connection::add_local_signal`. -/
def addLocalSignal (c : Connection) (signal : LocalSignal) : Connection × List Output :=
  let (locals, added) := c.locals.addLocalSignal signal
  ({ c with locals := locals },
    if added && c.helloSent then [.send (idsMessage "available" [signal.id])] else [])

/-- `connection::remove_local_signal`. -/
def removeLocalSignal (c : Connection) (signal : LocalSignal) : Connection × List Output :=
  let (locals, outputs, signo) := c.locals.removeLocalSignal signal
  ({ c with locals := locals },
    outputs ++ if signo ≠ 0 then [.send (idsMessage "unavailable" [signal.id])] else [])

/-! ## The handshake -/

/-- `connection::handle_api_version`. -/
def handleApiVersion (c : Connection) (params : Json) : Connection :=
  match params.stringAt? "version" with
  | some version => { c with apiVersion := (Semver.tryParse version).getD {} }
  | none => c

/-- `connection::handle_init`, but for the client of the command interface. -/
def handleInit (c : Connection) (params : Json) : Connection × List Output :=
  if params.isObject then
    let c := { c with remoteStreamId := (params.stringAt? "streamId").getD c.remoteStreamId }
    if c.isClient && c.apiVersion.atLeast ⟨2, 0, 0⟩ then c.doHello else (c, [])
  else (c, [])

/-! ## Commands -/

/-- `connection::do_command_interface`. -/
def doCommandInterface (c : Connection) (method : String) (params : Json) :
    Connection × List Output × Except JsonRpcException Json :=
  if method = c.localStreamId ++ ".subscribe" then
    let (locals, outputs, result) := c.locals.doCommandInterfaceSubscribe params
    ({ c with locals := locals }, outputs, result)
  else if method = c.localStreamId ++ ".unsubscribe" then
    let (locals, outputs, result) := c.locals.doCommandInterfaceUnsubscribe params
    ({ c with locals := locals }, outputs, result)
  else (c, [], .error ⟨JsonRpcException.methodNotFound, "method not found"⟩)

/-- The parameters of a response. -/
def response (id : Json) : Except JsonRpcException Json → Json
  | .ok result => .object [("id", id), ("jsonrpc", .string "2.0"), ("result", result)]
  | .error e => .object [("error", e.json), ("id", id), ("jsonrpc", .string "2.0")]

/-- `connection::handle_command_interface_request`.  The id of a request that
is no object is looked up all the same, which throws. -/
def handleCommandInterfaceRequest (c : Connection) (params : Json) :
    Option (Connection × List Output) :=
  if params.isObject then
    let (c, outputs, result) :=
      match params.stringAt? "method" with
      | some method => c.doCommandInterface method ((params.find? "params").getD .null)
      | none => (c, [], .error ⟨JsonRpcException.invalidRequest, "invalid request object"⟩)
    some (c, outputs ++
      [.send (.ofMetadata 0 "response" (response ((params.find? "id").getD .null) result))])
  else none

/-! ## Messages of the peer -/

/-- The messages that concern remote signals. -/
def onRemoteSignals (c : Connection)
    (r : Option (RemoteSignals × List RemoteEvent)) :
    Option (Connection × List Output × List RemoteEvent) :=
  r.map fun r => ({ c with remotes := r.1 }, [], r.2)

/-- `connection::on_peer_metadata_received`. -/
def onPeerMetadataReceived (c : Connection) (m : MetadataMessage) :
    Option (Connection × List Output × List RemoteEvent) :=
  if m.method = "subscribe" ∨ m.method = "unsubscribe" ∨ m.signo ≠ 0 then
    c.onRemoteSignals (c.remotes.onPeerMetadataReceived m)
  else if m.method = "apiVersion" then some (c.handleApiVersion m.params, [], [])
  else if m.method = "init" then
    some ((c.handleInit m.params).1, (c.handleInit m.params).2, [])
  else if m.method = "request" then
    (c.handleCommandInterfaceRequest m.params).map fun r => (r.1, r.2, [])
  else c.onRemoteSignals (c.remotes.onPeerMetadataReceived m)

/-- A message that arrives. -/
def receive (c : Connection) :
    Message → Option (Connection × List Output × List RemoteEvent)
  | .metadata m => c.onPeerMetadataReceived m
  | .data signo data => c.onRemoteSignals (c.remotes.onPeerDataReceived signo data)

/-- `connection::on_peer_closed`. -/
def onPeerClosed (c : Connection) : Connection × List Output × List RemoteEvent :=
  ({ c with locals := c.locals.clearLocalSignals.1, remotes := c.remotes.clearRemoteSignals.1 },
    c.locals.clearLocalSignals.2, c.remotes.clearRemoteSignals.2)

/-! ## What the handlers leave alone -/

section Frames

variable (c : Connection) (params : Json)

theorem handleApiVersion_frame :
    ∃ version, c.handleApiVersion params = { c with apiVersion := version } := by
  unfold handleApiVersion
  split
  · exact ⟨_, rfl⟩
  · exact ⟨c.apiVersion, rfl⟩

theorem handleInit_frame :
    ∃ streamId helloSent,
      (c.handleInit params).1 = { c with remoteStreamId := streamId, helloSent := helloSent } := by
  unfold handleInit
  split
  · dsimp only
    split
    · exact ⟨_, true, rfl⟩
    · exact ⟨_, c.helloSent, rfl⟩
  · exact ⟨c.remoteStreamId, c.helloSent, rfl⟩

theorem doCommandInterface_frame (method : String) :
    ∃ locals, (c.doCommandInterface method params).1 = { c with locals := locals } := by
  unfold doCommandInterface
  split
  · exact ⟨_, rfl⟩
  split
  · exact ⟨_, rfl⟩
  · exact ⟨c.locals, rfl⟩

variable {c params}

theorem handleCommandInterfaceRequest_frame {q : Connection × List Output}
    (hq : c.handleCommandInterfaceRequest params = some q) :
    ∃ locals, q.1 = { c with locals := locals } := by
  unfold handleCommandInterfaceRequest at hq
  split at hq
  · rw [← Option.some.inj hq]
    dsimp only
    split
    · exact c.doCommandInterface_frame _ _
    · exact ⟨c.locals, rfl⟩
  · cases hq

end Frames

/-- A version of this implementation is accepted by this implementation. -/
example : (Semver.tryParse "2.0.0").map (fun v => v.atLeast ⟨2, 0, 0⟩) = some true := by
  decide +kernel

end Connection

end WsStreaming.Ports
