import WsStreaming.Ports.Json

/-!
# HTTP servicers

`wss::detail::basic_http_client_servicer`: the HTTP phase of one accepted
connection.  A servicer has at most one asynchronous operation under way; when
it completes, one of the `finish_…` functions runs, which starts the next one,
closes the connection, or hands the stream over to a WebSocket peer.

The stream closes its socket by itself when its deadline passes.  The operation
under way then completes with `boost::beast::error::timeout`.
-/

namespace WsStreaming.Ports

/-- `boost::beast::http::verb`, as far as it is told apart. -/
inductive Verb where
  | post
  | options
  | other
deriving Repr, DecidableEq

/-- What is read of a request: two headers (empty if they are not there), the
method, whether the connection is to be kept alive, and the body parsed as
JSON or the text of the exception. -/
structure HttpRequest where
  upgrade : String
  secWebsocketKey : String
  method : Verb
  keepAlive : Bool
  body : Except String Json

/-- `boost::beast::http::status`, as far as it is used. -/
inductive Status where
  | switchingProtocols
  | ok
  | noContent
  | badRequest
  | internalServerError
deriving Repr, DecidableEq

/-- A response and the JSON value it is made of. -/
structure HttpResponse where
  status : Status
  keepAlive : Bool
  json : Json

/-- `response_actions`. -/
inductive ResponseAction where
  | close
  | keepalive
  | upgrade
deriving Repr, DecidableEq

/-- The operation under way. -/
inductive Operation where
  | handshake
  | read
  | write (action : ResponseAction)
deriving Repr, DecidableEq

/-- The errors an operation completes with. -/
inductive HttpError where
  | timeout
  | other
deriving Repr, DecidableEq

/-- The signals of a servicer that say what has become of it. -/
inductive Raised where
  | closed
  | websocketUpgrade
deriving Repr, DecidableEq

/-- `on_command_interface_request`: the text of an exception, or the result of
the last slot if there is any. -/
abbrev CommandInterface := String → Json → Except String (Option Json)

namespace HttpRequest

/-- The JSON value of a failure. -/
def failure (message : String) : Json :=
  .object [("code", .integer (-32700)), ("message", .string message)]

/-- The response `finish_read` makes of a request. -/
def respond (req : HttpRequest) (onCommandInterfaceRequest : CommandInterface) :
    HttpResponse :=
  if req.upgrade = "websocket" ∧ req.secWebsocketKey ≠ "" then
    ⟨.switchingProtocols, false, .null⟩
  else
    match req.method with
    | .post =>
        match req.body with
        | .error what => ⟨.internalServerError, req.keepAlive, failure what⟩
        | .ok request =>
            match request.stringAt? "method" with
            | none => ⟨.badRequest, req.keepAlive, failure "Request object is invalid"⟩
            | some method =>
                -- Braces around `nullptr` make an array.
                match onCommandInterfaceRequest method
                    ((request.find? "params").getD (.array [.null])) with
                | .error what => ⟨.internalServerError, req.keepAlive, failure what⟩
                | .ok none => ⟨.internalServerError, req.keepAlive, failure "No connected slot"⟩
                | .ok (some result) => ⟨.ok, req.keepAlive, result⟩
    | .options => ⟨.noContent, req.keepAlive, .null⟩
    | .other => ⟨.badRequest, req.keepAlive, .null⟩

end HttpRequest

/-- What follows a response that is through. -/
def HttpResponse.action (res : HttpResponse) : ResponseAction :=
  if res.status = .switchingProtocols then .upgrade
  else if res.keepAlive then .keepalive
  else .close

/-- `basic_http_client_servicer`: whether its socket is open, the operation
under way, and whether the deadline has passed. -/
structure HttpServicer where
  isTls : Bool
  socketOpen : Bool := true
  pending : Option Operation := none
  timedOut : Bool := false
deriving Repr, DecidableEq

namespace HttpServicer

/-- `do_read`. -/
def doRead (v : HttpServicer) : HttpServicer := { v with pending := some .read }

/-- `do_write`. -/
def doWrite (v : HttpServicer) (action : ResponseAction) : HttpServicer :=
  { v with pending := some (.write action) }

/-- `run`. -/
def run (v : HttpServicer) : HttpServicer :=
  if v.isTls then { v with pending := some .handshake } else v.doRead

/-- `close`. -/
def close (v : HttpServicer) (ec : Option HttpError) : HttpServicer × List Raised :=
  if ec = some .timeout then (v, [.closed])
  else if ¬ v.socketOpen then (v, [])
  else ({ v with socketOpen := false }, [.closed])

/-- `finish_handshake`. -/
def finishHandshake (v : HttpServicer) (ec : Option HttpError) : HttpServicer × List Raised :=
  if ec.isSome then v.close ec else (v.doRead, [])

/-- `finish_read`.  There is no response if an exception escapes. -/
def finishRead (v : HttpServicer) (ec : Option HttpError) (response : Option HttpResponse) :
    HttpServicer × List Raised :=
  if ec.isSome then v.close ec
  else
    match response with
    | none => (v, [])
    | some res => (v.doWrite res.action, [])

/-- `finish_write`.  The stream is released, or moved from by the slot. -/
def finishWrite (v : HttpServicer) (action : ResponseAction) (ec : Option HttpError) :
    HttpServicer × List Raised :=
  if ec.isSome then v.close ec
  else
    match action with
    | .keepalive => (v.doRead, [])
    | .upgrade => ({ v with socketOpen := false }, [.websocketUpgrade])
    | .close => v.close none

/-- How the operation under way ends, but for a deadline. -/
inductive Completion where
  | failed
  /-- It succeeds; what a read has read is a request, and `escapes` says that
  an exception escapes from handling it. -/
  | done (req : HttpRequest) (onCommandInterfaceRequest : CommandInterface) (escapes : Bool)

/-- The error code of a completion. -/
def Completion.error (timedOut : Bool) : Completion → Option HttpError
  | .failed => some (if timedOut then .timeout else .other)
  | .done _ _ _ => if timedOut then some .timeout else none

/-- The response to what was read. -/
def Completion.response : Completion → Option HttpResponse
  | .failed => none
  | .done req onCommandInterfaceRequest escapes =>
      if escapes then none else some (req.respond onCommandInterfaceRequest)

/-- The handler of the operation under way runs. -/
def complete (v : HttpServicer) (completion : Completion) : HttpServicer × List Raised :=
  let ec := completion.error v.timedOut
  match v.pending with
  | none => (v, [])
  | some .handshake => { v with pending := none }.finishHandshake ec
  | some .read => { v with pending := none }.finishRead ec completion.response
  | some (.write action) => { v with pending := none }.finishWrite action ec

/-- The deadline passes while an operation is under way. -/
def expire (v : HttpServicer) : HttpServicer :=
  if v.pending.isSome then { v with socketOpen := false, timedOut := true } else v

/-- The object is destroyed. -/
def destroy (v : HttpServicer) : HttpServicer :=
  { v with socketOpen := false, pending := none }

/-- The HTTP phase is in progress: a handshake, a read or a write is under way,
whose handler is still to run. -/
def InProgress (v : HttpServicer) : Prop := v.pending ≠ none

/-- A deadline that has passed has closed the socket, and nothing else does
that while an operation is under way. -/
structure Sound (v : HttpServicer) : Prop where
  expired : v.timedOut = true → v.socketOpen = false
  closed : v.socketOpen = false → v.pending ≠ none → v.timedOut = true

/-- Whether the next completion hands the stream over. -/
def Upgrades (v : HttpServicer) (completion : Completion) : Prop :=
  v.pending = some (.write .upgrade) ∧ completion.error v.timedOut = none

/-- Whether an exception escapes from the handling of the request that was
read. -/
def Escapes (v : HttpServicer) (completion : Completion) : Prop :=
  v.pending = some .read ∧ completion.error v.timedOut = none ∧ completion.response = none

end HttpServicer

end WsStreaming.Ports
