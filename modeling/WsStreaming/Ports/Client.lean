import Mathlib.Logic.Function.Basic
import WsStreaming.Ports.BasePeer

/-!
# Connection attempts of a client

`wss::client::async_connect` and the `basic_http_client` below it.  There is
one HTTP client for `ws://` and one for `wss://`; either keeps the completion
handler of its request in one place, `_handler`.  A direct TCP attempt carries
its handler along.

Attempts are numbered as they are started.  Beside the state of the objects
there is a record of what has become of them: the handlers that were called,
the attempts that are over, and the stored handlers that were overwritten or
cleared before they were called.

`client::cancel` changes nothing here: the operation under way completes with
an error, which any operation may do anyway.
-/

namespace WsStreaming.Ports

/-- The operation an HTTP request has under way. -/
inductive RequestStage where
  | resolve
  | connect
  | handshake
  | write
  | read
deriving Repr, DecidableEq

/-- The operation a direct TCP attempt has under way. -/
inductive DirectStage where
  | resolve
  | connect
deriving Repr, DecidableEq

/-- What a completion handler is called with. -/
inductive ConnectResult where
  | failed (ec : ErrorCode)
  | badStatus
  | connected
deriving Repr, DecidableEq

/-- How an operation completes; of a read also the status of the response, and
whether the remote endpoint can still be obtained. -/
structure Completed where
  ec : ErrorCode
  status : Nat := 0
  endpoint : Bool := true
deriving Repr, DecidableEq

/-- `basic_http_client`: the attempt whose handler is stored, the attempt whose
request is under way, and whether the stream was moved from. -/
structure HttpClient where
  handler : Option Nat := none
  request : Option (Nat × RequestStage) := none
  streamMoved : Bool := false
deriving Repr, DecidableEq

/-- Nothing is stored or under way. -/
def HttpClient.Idle (c : HttpClient) : Prop := c.handler = none ∧ c.request = none

/-- `wss::client`, with the attempts that were started and what has become of
them.  The HTTP client of `true` is the one with TLS. -/
structure Client where
  http : Bool → HttpClient := fun _ => {}
  direct : List (Nat × DirectStage) := []
  next : Nat := 0
  calls : List (Nat × ConnectResult) := []
  ended : List Nat := []
  lost : List Nat := []
  undefined : Bool := false

/-- The stage behind one that has succeeded. -/
def RequestStage.next (tls : Bool) : RequestStage → RequestStage
  | .resolve => .connect
  | .connect => if tls then .handshake else .write
  | .handshake => .write
  | .write => .read
  | .read => .read

namespace Client

/-- The attempts whose handlers were called. -/
def called (s : Client) : List Nat := s.calls.map Prod.fst

/-- The same with another HTTP client. -/
def setHttp (s : Client) (tls : Bool) (c : HttpClient) : Client :=
  { s with http := Function.update s.http tls c }

/-- A stored handler goes. -/
def lose (s : Client) : Option Nat → Client
  | none => s
  | some k => if k ∈ s.called then s else { s with lost := s.lost ++ [k] }

/-- `basic_http_client::async_request`. -/
def asyncRequest (s : Client) (tls : Bool) (k : Nat) : Client :=
  let s := s.lose (s.http tls).handler
  s.setHttp tls { s.http tls with handler := some k, request := some (k, .resolve) }

/-- The scheme that uses an HTTP client. -/
def schemeOf (tls : Bool) : String := if tls then "wss" else "ws"

/-- `client::async_connect` of a URL with the given scheme. -/
def asyncConnect (s : Client) (scheme : String) : Client :=
  let k := s.next
  let s := { s with next := k + 1 }
  if scheme = schemeOf false then s.asyncRequest false k
  else if scheme = schemeOf true then s.asyncRequest true k
  else { s with direct := s.direct ++ [(k, .resolve)] }

/-- Whether the handler of the last attempt has been entered. -/
def entered (s : Client) : Bool :=
  match s.next with
  | 0 => true
  | k + 1 => k ∈ s.called

/-- The application starts an attempt, if the last one permits it. -/
def start (s : Client) : Option String → Client
  | none => s
  | some scheme => if s.entered then s.asyncConnect scheme else s

/-- The handler of an attempt is called, and starts another one or none. -/
def call (s : Client) (k : Nat) (result : ConnectResult) (reconnect : Option String) :
    Client :=
  { s with calls := s.calls ++ [(k, result)] }.start reconnect

/-- The handler `async_connect` gives to the HTTP client. -/
def respond (s : Client) (tls : Bool) (k : Nat) (o : Completed) (reconnect : Option String) :
    Client :=
  if o.ec ≠ .success then s.call k (.failed o.ec) reconnect
  else if o.status ≠ 101 then s.call k .badStatus reconnect
  else if ¬ o.endpoint then s
  else (s.setHttp tls { s.http tls with streamMoved := tls }).call k .connected reconnect

/-- `basic_http_client::complete`. -/
def complete (s : Client) (tls : Bool) (o : Completed) (reconnect : Option String) : Client :=
  match (s.http tls).handler with
  | none => s
  | some k =>
      let s := s.respond tls k o reconnect
      let s := s.lose (s.http tls).handler
      s.setHttp tls { s.http tls with handler := none }

/-- The last handler of an attempt has run. -/
def finish (s : Client) (k : Nat) : Client := { s with ended := s.ended ++ [k] }

/-- Whether an operation is the last one of its request. -/
def isLast (stage : RequestStage) (o : Completed) : Bool := o.ec ≠ .success || stage = .read

/-- `finish_resolve`, `finish_connect`, `finish_handshake`, `finish_write` and
`finish_read` of an HTTP client.  A handshake on a stream that was moved from
is undefined. -/
def httpStep (s : Client) (tls : Bool) (o : Completed) (reconnect : Option String) : Client :=
  match (s.http tls).request with
  | none => s
  | some (k, stage) =>
      if isLast stage o then
        ((s.setHttp tls { s.http tls with request := none }).complete tls o reconnect).finish k
      else if stage = .connect ∧ tls ∧ (s.http tls).streamMoved then
        { s with undefined := true }
      else s.setHttp tls { s.http tls with request := some (k, stage.next tls) }

/-- The handlers of a direct TCP attempt. -/
def directStep (s : Client) (i : Nat) (o : Completed) (reconnect : Option String) : Client :=
  match s.direct[i]? with
  | none => s
  | some (k, stage) =>
      let rest := { s with direct := s.direct.eraseIdx i }
      if o.ec ≠ .success then (rest.call k (.failed o.ec) reconnect).finish k
      else
        match stage with
        | .resolve => { s with direct := s.direct.set i (k, .connect) }
        | .connect =>
            (if o.endpoint then rest.call k .connected reconnect else rest).finish k

/-- What can happen to a client. -/
inductive Event where
  /-- The application starts an attempt outside of any handler. -/
  | connect (scheme : String)
  /-- The operation of an HTTP client completes; a handler that is called
  starts another attempt, or none. -/
  | http (tls : Bool) (o : Completed) (reconnect : Option String)
  /-- The operation of a direct TCP attempt completes. -/
  | direct (i : Nat) (o : Completed) (reconnect : Option String)
deriving Repr, DecidableEq

/-- One event. -/
def step (s : Client) : Event → Client
  | .connect scheme => s.start (some scheme)
  | .http tls o reconnect => s.httpStep tls o reconnect
  | .direct i o reconnect => s.directStep i o reconnect

end Client

end WsStreaming.Ports
