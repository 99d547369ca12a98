import WsStreaming.Ports.Connection

/-!
# The client of the peer's command interface

`command_interface_client` and what `connection` does with it: it is made when
an `init` message offers an interface, it sends the requests to subscribe and
to unsubscribe, and it takes the responses.

The in-band client keeps a handler for each request under the id that it sent.
A handler is a parameter here, since the client only stores it.  The client
over HTTP takes its responses elsewhere; of it there is no more than that it
is there.
-/

namespace WsStreaming.Ports

open WsStreaming.Verified
open WsStreaming.Verified.OrderedMap (OMap)

/-- `in_band_command_interface_client`. -/
structure InBandClient (Handler : Type) where
  nextId : UInt32 := 1
  requests : OMap UInt32 Handler := []
deriving DecidableEq, Repr

namespace InBandClient

variable {Handler : Type}

/-- `in_band_command_interface_client::async_request`, with the message that is
sent.  `emplace` leaves a handler alone that has the id already. -/
def asyncRequest (c : InBandClient Handler) (method : String) (params : Json)
    (handler : Handler) : InBandClient Handler × MetadataMessage :=
  ({ nextId := c.nextId + 1
     requests := OrderedMap.emplace c.requests c.nextId handler },
    { signo := 0
      method := "request"
      params := .object [("id", .integer c.nextId.toNat), ("jsonrpc", .string "2.0"),
        ("method", .string method), ("params", params)] })

/-- `in_band_command_interface_client::handle_response`: the handler that is
called, with the result.  The id is narrowed to 32 bits. -/
def handleResponse (c : InBandClient Handler) (params : Json) :
    InBandClient Handler × Option (Handler × Json) :=
  match (params.find? "id").bind Json.integer? with
  | none => (c, none)
  | some n =>
      match OrderedMap.find? c.requests (UInt32.ofInt n) with
      | none => (c, none)
      | some handler =>
          ({ c with requests := OrderedMap.erase c.requests (UInt32.ofInt n) },
            some (handler, (params.find? "result").getD .null))

end InBandClient

/-- `command_interface_client`. -/
inductive CommandInterfaceClient (Handler : Type) where
  | inBand (client : InBandClient Handler)
  | http
deriving DecidableEq, Repr

/-- A request on its way to the peer. -/
inductive CommandRequest where
  | inBand (message : MetadataMessage)
  | http (method : String) (params : Json)
deriving DecidableEq, Repr

namespace CommandInterfaceClient

variable {Handler : Type}

/-- The port of an interface over HTTP. -/
def isPort : Json → Bool
  | .string _ => true
  | .integer _ => true
  | _ => false

/-- `command_interface_client_factory::create_client`; `hasEndpoint` says
whether the socket still knows the remote endpoint. -/
def create (interfaces : Json) (hasEndpoint : Bool) :
    Option (CommandInterfaceClient Handler) :=
  if interfaces.contains "jsonrpc" then some (.inBand {})
  else
    match interfaces.find? "jsonrpc-http" with
    | some server =>
        if (server.stringAt? "httpMethod").isSome && (server.stringAt? "httpPath").isSome &&
            (server.stringAt? "httpVersion").isSome && (server.find? "port").any isPort &&
            hasEndpoint then some .http
        else none
    | none => none

/-- `async_request`. -/
def asyncRequest (method : String) (params : Json) (handler : Handler) :
    CommandInterfaceClient Handler → CommandInterfaceClient Handler × CommandRequest
  | .inBand client =>
      let (client, message) := client.asyncRequest method params handler
      (.inBand client, .inBand message)
  | .http => (.http, .http method params)

end CommandInterfaceClient

/-- A connection with its `_command_interface_client`. -/
structure Commander (Handler : Type) where
  connection : Connection := {}
  client : Option (CommandInterfaceClient Handler) := none
deriving DecidableEq, Repr

namespace Commander

variable {Handler : Type}

/-- A command for a signal of the peer; without a client it is dropped. -/
def request (c : Commander Handler) (command signalId : String) (handler : Handler) :
    Commander Handler × Option CommandRequest :=
  match c.client with
  | none => (c, none)
  | some client =>
      let (client, request) := client.asyncRequest
        (c.connection.remoteStreamId ++ command) (.array [.string signalId]) handler
      ({ c with client := some client }, some request)

/-- `connection::on_signal_subscribe_requested`. -/
def onSignalSubscribeRequested (c : Commander Handler) (signalId : String)
    (handler : Handler) : Commander Handler × Option CommandRequest :=
  c.request ".subscribe" signalId handler

/-- `connection::on_signal_unsubscribe_requested`. -/
def onSignalUnsubscribeRequested (c : Commander Handler) (signalId : String)
    (handler : Handler) : Commander Handler × Option CommandRequest :=
  c.request ".unsubscribe" signalId handler

/-- `connection::handle_init`. -/
def handleInit (c : Commander Handler) (params : Json) (hasEndpoint : Bool) :
    Commander Handler × List Output :=
  let (connection, outputs) := c.connection.handleInit params
  ({ connection := connection
     client :=
       match params.find? "commandInterfaces" with
       | some interfaces => CommandInterfaceClient.create interfaces hasEndpoint
       | none => c.client }, outputs)

/-- `connection::handle_command_interface_response`: only the in-band client
takes responses. -/
def handleCommandInterfaceResponse (c : Commander Handler) (params : Json) :
    Commander Handler × Option (Handler × Json) :=
  match c.client with
  | some (.inBand client) =>
      let (client, completion) := client.handleResponse params
      ({ c with client := some (.inBand client) }, completion)
  | _ => (c, none)

end Commander

end WsStreaming.Ports
