import Mathlib.Logic.Function.Basic
import Mathlib.Data.List.Pairwise
import Std.Data.String.ToInt
import WsStreaming.Ports.SubscriptionIntent

/-!
# The client of a command interface over HTTP

`command_interface_client_factory::create_client` with all that it reads, the
`http_command_interface_client` that it makes when a peer offers its commands
over HTTP only, and the requests that the subscriptions of the application make
through it.

The port is offered as a string or as an integer.  An integer is not converted
to its decimal form: what is converted is whether there is one.

## Main results

* `create_erase` — without its data the client is the one of `Commander`.
* `http_requests_iff` — when the requests reach the endpoint that was offered.
-/

namespace WsStreaming.Ports

open WsStreaming.Verified
open LocalSignals (Request)

/-- `http_command_interface_client`. -/
structure HttpCommandInterfaceClient where
  hostname : String
  port : String
  httpMethod : String
  path : String
  version : String
  nextId : UInt32 := 1
deriving DecidableEq, Repr

/-- A request that `http_client::async_request` is given: the host and the port
that it connects to, and what it sends there. -/
structure HttpCommand where
  hostname : String
  port : String
  verb : String
  target : String
  version : Nat
  contentType : String
  host : String
  body : Json
deriving DecidableEq, Repr

namespace HttpCommand

/-- The id of the request. -/
def id? (c : HttpCommand) : Option Int := (c.body.find? "id").bind Json.integer?

/-- The method that is called. -/
def method? (c : HttpCommand) : Option String := c.body.stringAt? "method"

end HttpCommand

/-- `http_command_interface_client::async_request`.  The method and the version
that were offered are not used. -/
def HttpCommandInterfaceClient.asyncRequest (c : HttpCommandInterfaceClient) (method : String)
    (params : Json) : HttpCommandInterfaceClient × HttpCommand :=
  ({ c with nextId := c.nextId + 1 },
    { hostname := c.hostname
      port := c.port
      verb := "POST"
      target := c.path
      version := 11
      contentType := "application/json"
      host := c.hostname
      body := .object [("id", .integer c.nextId.toNat), ("jsonrpc", .string "2.0"),
        ("method", .string method), ("params", params)] })

/-- `command_interface_client`. -/
inductive CommandClient where
  | inBand (client : InBandClient Unit)
  | http (client : HttpCommandInterfaceClient)
deriving DecidableEq, Repr

/-- A request that was sent. -/
inductive SentCommand where
  | inBand (message : MetadataMessage)
  | http (command : HttpCommand)
deriving DecidableEq, Repr

namespace CommandClient

/-- `is_number_integer`. -/
def isNumberInteger (j : Json) : Bool := j.integer?.isSome

/-- The port for `http_command_interface_client`.  What `std::to_string` gets is
the truth value, as an `int`. -/
def portText (port : Json) : Option String :=
  if isNumberInteger port then some (toString (isNumberInteger port).toNat) else port.string?

/-- `command_interface_client_factory::create_client`; the address of the remote
endpoint is known unless the socket throws. -/
def create (interfaces : Json) (remoteAddress : Option String) : Option CommandClient :=
  if interfaces.contains "jsonrpc" then some (.inBand {})
  else do
    let server ← interfaces.find? "jsonrpc-http"
    let httpMethod ← server.stringAt? "httpMethod"
    let path ← server.stringAt? "httpPath"
    let version ← server.stringAt? "httpVersion"
    let port ← (server.find? "port").bind portText
    let hostname ← remoteAddress
    return .http
      { hostname := hostname, port := port, httpMethod := httpMethod, path := path,
        version := version }

/-- `async_request`. -/
def asyncRequest (method : String) (params : Json) : CommandClient → CommandClient × SentCommand
  | .inBand client =>
      let answer := client.asyncRequest method params ()
      (.inBand answer.1, .inBand answer.2)
  | .http client =>
      let answer := client.asyncRequest method params
      (.http answer.1, .http answer.2)

/-- The client without the data of the one over HTTP. -/
def erase : CommandClient → CommandInterfaceClient Unit
  | .inBand client => .inBand client
  | .http _ => .http

theorem isPort_iff (port : Json) :
    CommandInterfaceClient.isPort port = (portText port).isSome := by
  cases port <;> rfl

/-- **The client is the one of `Commander`**, with its data. -/
theorem create_erase (interfaces : Json) (remoteAddress : Option String) :
    (create interfaces remoteAddress).map erase =
      CommandInterfaceClient.create interfaces remoteAddress.isSome := by
  unfold create CommandInterfaceClient.create
  by_cases hoffer : interfaces.contains "jsonrpc" = true
  · rw [if_pos hoffer, if_pos hoffer]
    rfl
  · rw [if_neg hoffer, if_neg hoffer]
    cases hserver : interfaces.find? "jsonrpc-http" with
    | none => rfl
    | some server =>
        have hport : (server.find? "port").any CommandInterfaceClient.isPort =
            ((server.find? "port").bind portText).isSome := by
          cases server.find? "port" with
          | none => rfl
          | some port => exact isPort_iff port
        dsimp only
        rw [hport]
        simp only [Option.bind_eq_bind, Option.bind_some]
        cases server.stringAt? "httpMethod" with
        | none => rfl
        | some httpMethod =>
            cases server.stringAt? "httpPath" with
            | none => rfl
            | some path =>
                cases server.stringAt? "httpVersion" with
                | none => rfl
                | some version =>
                    cases (server.find? "port").bind portText with
                    | none => rfl
                    | some port =>
                        cases remoteAddress with
                        | none => rfl
                        | some hostname => rfl

end CommandClient

/-- A connection with the client of its peer's command interface, and the
counters of the signals that the peer announced. -/
structure Caller where
  connection : Connection := {}
  client : Option CommandClient := none
  counters : String → SubscriptionCounter := fun _ => {}

/-- The id of the signal that a call is for. -/
def signalIdOf : Request → String
  | .subscribe id => id
  | .unsubscribe id => id

/-- The command that a call may make. -/
def commandOf : Request → String
  | .subscribe _ => ".subscribe"
  | .unsubscribe _ => ".unsubscribe"

/-- `remote_signal_impl::subscribe` and `unsubscribe`. -/
def SubscriptionCounter.call (s : SubscriptionCounter) : Request → SubscriptionCounter × Bool
  | .subscribe _ => s.subscribe
  | .unsubscribe _ => s.unsubscribe

/-- The calls for which a signal that was announced asks the connection for a
request. -/
def askedFor (announced : String → Bool) :
    (String → SubscriptionCounter) → List Request → List Request
  | _, [] => []
  | counters, r :: rs =>
      let counted := (counters (signalIdOf r)).call r
      let rest := askedFor announced (Function.update counters (signalIdOf r) counted.1) rs
      if counted.2 && announced (signalIdOf r) then r :: rest else rest

namespace Caller

/-- Whether the peer has announced a signal. -/
def announced (w : Caller) (id : String) : Bool :=
  (OrderedMap.find? w.connection.remotes.byId id).isSome

/-- `connection::handle_init`. -/
def handleInit (w : Caller) (params : Json) (remoteAddress : Option String) :
    Caller × List Output :=
  let (connection, outputs) := w.connection.handleInit params
  ({ w with
      connection := connection
      client :=
        match params.find? "commandInterfaces" with
        | some interfaces => CommandClient.create interfaces remoteAddress
        | none => w.client }, outputs)

/-- `connection::on_signal_subscribe_requested` and
`on_signal_unsubscribe_requested`. -/
def request (w : Caller) (command signalId : String) : Caller × List SentCommand :=
  match w.client with
  | none => (w, [])
  | some client =>
      let (client, sent) := client.asyncRequest (w.connection.remoteStreamId ++ command)
        (.array [.string signalId])
      ({ w with client := some client }, [sent])

/-- The counter of the signal after a call. -/
def count (w : Caller) (r : Request) : Caller :=
  { w with counters :=
      Function.update w.counters (signalIdOf r) ((w.counters (signalIdOf r)).call r).1 }

/-- Whether the signal asks the connection for a request. -/
def asks (w : Caller) (r : Request) : Bool :=
  ((w.counters (signalIdOf r)).call r).2 && w.announced (signalIdOf r)

/-- The application calls `subscribe` or `unsubscribe` on a signal. -/
def call (w : Caller) (r : Request) : Caller × List SentCommand :=
  if w.asks r then (w.count r).request (commandOf r) (signalIdOf r) else (w.count r, [])

/-- Calls one after another, and what they send. -/
def calls (w : Caller) : List Request → Caller × List SentCommand
  | [] => (w, [])
  | r :: rs =>
      let (w, sent) := w.call r
      let (w, more) := w.calls rs
      (w, sent ++ more)

end Caller

/-! ## What is sent -/

/-- An `init` message that offers commands over HTTP, but not in band. -/
structure OffersHttp (params : Json) (path : String) (port : Json) : Prop where
  offered : ∃ interfaces server, params.find? "commandInterfaces" = some interfaces ∧
    interfaces.contains "jsonrpc" = false ∧ interfaces.find? "jsonrpc-http" = some server ∧
    (server.stringAt? "httpMethod").isSome = true ∧ server.stringAt? "httpPath" = some path ∧
    (server.stringAt? "httpVersion").isSome = true ∧ server.find? "port" = some port

/-- The port that is offered: a string, or an integer in decimal form. -/
def advertisedPort (port : Json) : Option String :=
  match port with
  | .string text => some text
  | .integer n => some (toString n)
  | _ => none

namespace SentCommand

/-- The request goes to an endpoint, and calls a method of a stream. -/
def GoesTo (address port path streamId : String) : SentCommand → Prop
  | .inBand _ => False
  | .http c => c.hostname = address ∧ c.port = port ∧ c.target = path ∧
      (c.method? = some (streamId ++ ".subscribe") ∨ c.method? = some (streamId ++ ".unsubscribe"))

instance (address port path streamId : String) :
    ∀ s : SentCommand, Decidable (s.GoesTo address port path streamId)
  | .inBand _ => inferInstanceAs (Decidable False)
  | .http _ => inferInstanceAs (Decidable (_ ∧ _))

/-- The id of a request over HTTP. -/
def id? : SentCommand → Option Int
  | .inBand _ => none
  | .http c => c.id?

end SentCommand

/-- **Requests talk to an endpoint**: they all go there, and their ids
increase. -/
structure TalksTo (address port path streamId : String) (sent : List SentCommand) : Prop where
  goes : ∀ s ∈ sent, s.GoesTo address port path streamId
  increasing : (sent.map SentCommand.id?).Pairwise
    fun earlier later => ∃ m n, earlier = some m ∧ later = some n ∧ m < n

/-- The requests of a client over HTTP for the calls that ask for one. -/
def httpRequests (streamId : String) :
    HttpCommandInterfaceClient → List Request → List SentCommand
  | _, [] => []
  | client, r :: rs =>
      let (client, sent) :=
        client.asyncRequest (streamId ++ commandOf r) (.array [.string (signalIdOf r)])
      .http sent :: httpRequests streamId client rs

section Requests

variable {w : Caller} {client : HttpCommandInterfaceClient} {streamId : String}

theorem call_of_asks (hclient : w.client = some (.http client)) {r : Request}
    (hasks : w.asks r = true) :
    w.call r =
      ({ w.count r with
          client := some (.http (client.asyncRequest
            (w.connection.remoteStreamId ++ commandOf r) (.array [.string (signalIdOf r)])).1) },
        [.http (client.asyncRequest
          (w.connection.remoteStreamId ++ commandOf r) (.array [.string (signalIdOf r)])).2]) := by
  have hcounted : (w.count r).client = some (.http client) := hclient
  rw [Caller.call, if_pos hasks, Caller.request, hcounted]
  rfl

theorem call_of_not_asks {r : Request} (hasks : ¬ w.asks r = true) :
    w.call r = (w.count r, []) := if_neg hasks

/-- **The calls send the requests that are asked for.** -/
theorem calls_eq (rs : List Request) :
    ∀ {w : Caller} {client : HttpCommandInterfaceClient}, w.client = some (.http client) →
      (w.calls rs).2 = httpRequests w.connection.remoteStreamId client
        (askedFor w.announced w.counters rs) := by
  induction rs with
  | nil => exact fun _ => rfl
  | cons r rs ih =>
      intro w client hclient
      have hasked : askedFor w.announced w.counters (r :: rs) =
          if w.asks r then r :: askedFor w.announced (w.count r).counters rs
          else askedFor w.announced (w.count r).counters rs := rfl
      have hcalls : (w.calls (r :: rs)).2 = (w.call r).2 ++ ((w.call r).1.calls rs).2 := rfl
      rw [hasked, hcalls]
      by_cases hasks : w.asks r = true
      · have hcall := call_of_asks hclient hasks
        have hrest := ih (w := (w.call r).1) (by rw [hcall])
        rw [hrest, if_pos hasks, hcall]
        rfl
      · have hcall := call_of_not_asks hasks
        have hrest := @ih (w.call r).1 client (by rw [hcall]; exact hclient)
        rw [hrest, if_neg hasks, hcall]
        rfl

/-- Without a client nothing is sent. -/
theorem calls_of_none (rs : List Request) :
    ∀ {w : Caller}, w.client = none → (w.calls rs).2 = [] := by
  induction rs with
  | nil => exact fun _ => rfl
  | cons r rs ih =>
      intro w hclient
      have hcall : w.call r = (w.count r, []) := by
        by_cases hasks : w.asks r = true
        · have hcounted : (w.count r).client = none := hclient
          rw [Caller.call, if_pos hasks, Caller.request, hcounted]
        · exact call_of_not_asks hasks
      have hcalls : (w.calls (r :: rs)).2 = (w.call r).2 ++ ((w.call r).1.calls rs).2 := rfl
      rw [hcalls, hcall]
      exact ih (w := w.count r) hclient

theorem method?_asyncRequest (client : HttpCommandInterfaceClient) (method : String)
    (params : Json) : (client.asyncRequest method params).2.method? = some method := rfl

/-- Where the requests of a client go. -/
theorem goes_httpRequests_iff (port : String) (rs : List Request) :
    (∀ s ∈ httpRequests streamId client rs,
        s.GoesTo client.hostname port client.path streamId) ↔ rs = [] ∨ client.port = port := by
  induction rs generalizing client with
  | nil => exact iff_of_true (List.forall_mem_nil _) (.inl rfl)
  | cons r rs ih =>
      have hmethod : streamId ++ commandOf r = streamId ++ ".subscribe" ∨
          streamId ++ commandOf r = streamId ++ ".unsubscribe" := by
        cases r with
        | subscribe id => exact .inl rfl
        | unsubscribe id => exact .inr rfl
      have hrest := @ih (client.asyncRequest (streamId ++ commandOf r)
        (.array [.string (signalIdOf r)])).1
      rw [httpRequests]
      dsimp only
      rw [List.forall_mem_cons]
      constructor
      · rintro ⟨hfirst, -⟩
        exact .inr hfirst.2.1
      · rintro (hnil | hport)
        · cases hnil
        · refine ⟨⟨rfl, hport, rfl, ?_⟩, hrest.mpr (.inr hport)⟩
          rw [method?_asyncRequest, Option.some.injEq, Option.some.injEq]
          exact hmethod

/-- The ids of the requests of a client. -/
theorem id?_httpRequests (rs : List Request) :
    (httpRequests streamId client rs).map SentCommand.id? =
      (List.range rs.length).map fun i =>
        some (((client.nextId + UInt32.ofNat i).toNat : Nat) : Int) := by
  induction rs generalizing client with
  | nil => rfl
  | cons r rs ih =>
      rw [httpRequests, List.length_cons, List.range_succ_eq_map]
      simp only [List.map_cons, List.map_map]
      rw [ih]
      congr 1
      · show some ((client.nextId.toNat : Nat) : Int) = _
        rw [show UInt32.ofNat 0 = 0 from rfl, UInt32.add_zero]
      · apply List.map_congr_left
        intro i _
        show some (((client.nextId + 1 + UInt32.ofNat i).toNat : Nat) : Int) =
          some (((client.nextId + UInt32.ofNat (i + 1)).toNat : Nat) : Int)
        have hsucc : UInt32.ofNat (i + 1) = 1 + UInt32.ofNat i := by
          rw [Nat.add_comm, UInt32.ofNat_add]
          rfl
        rw [hsucc, UInt32.add_assoc]

/-- **The ids increase** as long as a new client has fewer than `2 ^ 32`
requests. -/
theorem increasing_httpRequests_iff (hfirst : client.nextId = 1) (rs : List Request) :
    ((httpRequests streamId client rs).map SentCommand.id?).Pairwise
        (fun earlier later => ∃ m n, earlier = some m ∧ later = some n ∧ m < n) ↔
      rs.length < 2 ^ 32 := by
  have hid (i : Nat) : (client.nextId + UInt32.ofNat i).toNat = (1 + i) % 2 ^ 32 := by
    rw [hfirst, UInt32.toNat_add, UInt32.toNat_ofNat']
    show (1 + i % 2 ^ 32) % 2 ^ 32 = _
    omega
  rw [id?_httpRequests, List.pairwise_map]
  constructor
  · intro hpairs
    by_contra hmany
    -- The id after the largest one is zero.
    have hget := List.pairwise_iff_getElem.mp hpairs 0 (2 ^ 32 - 1)
      (by rw [List.length_range]; omega) (by rw [List.length_range]; omega) (by omega)
    rw [List.getElem_range, List.getElem_range] at hget
    obtain ⟨m, n, hm, hn, hlt⟩ := hget
    rw [hid] at hm hn
    rw [← Option.some.inj hm, ← Option.some.inj hn] at hlt
    omega
  · intro hfew
    apply List.pairwise_lt_range.imp_of_mem
    intro i j hi hj hlt
    have hbound := List.mem_range.mp hj
    refine ⟨_, _, rfl, rfl, ?_⟩
    rw [hid, hid, Nat.mod_eq_of_lt (by omega), Nat.mod_eq_of_lt (by omega)]
    omega

end Requests

/-! ## The endpoint -/

/-- **The port of the client** is the one that was offered if that is a string,
or the integer 1. -/
theorem portText_of_advertised {port : Json} {advertised : String}
    (h : advertisedPort port = some advertised) :
    ∃ text, CommandClient.portText port = some text ∧
      (text = advertised ↔ port.string?.isSome = true ∨ port = .integer 1) := by
  cases port with
  | string text =>
      obtain rfl := Option.some.inj h
      exact ⟨text, rfl, iff_of_true rfl (.inl rfl)⟩
  | integer n =>
      obtain rfl := Option.some.inj h
      refine ⟨toString (1 : Nat), rfl, ?_⟩
      constructor
      · intro heq
        have hone : Int.repr 1 = Int.repr n := heq
        exact .inr (congrArg Json.integer (Int.repr_injective hone).symm)
      · rintro (hstring | hone)
        · cases hstring
        · cases hone
          rfl
  | null => cases h
  | bool b => cases h
  | float bits => cases h
  | array elements => cases h
  | object members => cases h

section Endpoint

variable {w : Caller} {params port : Json} {address path : String}

/-- The client that an offer makes. -/
theorem client_of_offer (hoffer : OffersHttp params path port) {text : String}
    (hport : CommandClient.portText port = some text) :
    ∃ client, (w.handleInit params (some address)).1.client = some (.http client) ∧
      client.hostname = address ∧ client.port = text ∧ client.path = path ∧
      client.nextId = 1 := by
  obtain ⟨interfaces, server, hinterfaces, hbare, hserver, hmethod, hpath, hversion, hoffered⟩ :=
    hoffer.offered
  obtain ⟨httpMethod, hmethod⟩ := Option.isSome_iff_exists.mp hmethod
  obtain ⟨version, hversion⟩ := Option.isSome_iff_exists.mp hversion
  unfold Caller.handleInit
  dsimp only
  rw [hinterfaces]
  dsimp only
  unfold CommandClient.create
  rw [if_neg (by rw [hbare]; exact Bool.false_ne_true), hserver]
  simp only [Option.bind_eq_bind, Option.bind_some, hmethod, hpath, hversion, hoffered, hport]
  exact ⟨_, rfl, rfl, rfl, rfl, rfl⟩

/-- If the socket does not know the peer's address, there is no client, and
nothing is sent. -/
theorem nothing_sent_without_address (hoffer : OffersHttp params path port) (rs : List Request) :
    ((w.handleInit params none).1.calls rs).2 = [] := by
  obtain ⟨interfaces, server, hinterfaces, hbare, -⟩ := hoffer.offered
  apply calls_of_none
  unfold Caller.handleInit
  dsimp only
  rw [hinterfaces]
  dsimp only
  unfold CommandClient.create
  rw [if_neg (by rw [hbare]; exact Bool.false_ne_true)]
  simp only [Option.bind_eq_bind, Option.bind_none, Option.bind_fun_none]

/-- What an `init` message leaves alone, and the stream id that it brings. -/
theorem handleInit_connection (hoffer : OffersHttp params path port) :
    (w.handleInit params (some address)).1.connection.remotes = w.connection.remotes ∧
      (w.handleInit params (some address)).1.counters = w.counters ∧
      (w.handleInit params (some address)).1.connection.remoteStreamId =
        (params.stringAt? "streamId").getD w.connection.remoteStreamId := by
  obtain ⟨interfaces, server, hinterfaces, -⟩ := hoffer.offered
  have hobject : params.isObject = true := by
    cases params with
    | object members => rfl
    | null => cases hinterfaces
    | bool b => cases hinterfaces
    | integer n => cases hinterfaces
    | float bits => cases hinterfaces
    | string text => cases hinterfaces
    | array elements => cases hinterfaces
  unfold Caller.handleInit Connection.handleInit
  dsimp only
  rw [if_pos hobject]
  split
  · exact ⟨rfl, rfl, rfl⟩
  · exact ⟨rfl, rfl, rfl⟩

/-- **When the requests reach the endpoint that was offered.**  A peer offers its
commands over HTTP, and then the application calls `subscribe` and `unsubscribe`
on its signals.  All requests go to the peer's address at the port and the path
that were offered, for the stream of the peer and with increasing ids, exactly
if there are none, or the port is a string or the integer 1 and there are fewer
than `2 ^ 32`. -/
theorem http_requests_iff (w : Caller) (hoffer : OffersHttp params path port)
    {advertised : String} (hport : advertisedPort port = some advertised)
    (address : String) (rs : List Request) :
    TalksTo address advertised path
        ((params.stringAt? "streamId").getD w.connection.remoteStreamId)
        ((w.handleInit params (some address)).1.calls rs).2 ↔
      askedFor w.announced w.counters rs = [] ∨
        (port.string?.isSome = true ∨ port = .integer 1) ∧
          (askedFor w.announced w.counters rs).length < 2 ^ 32 := by
  obtain ⟨text, htext, hequal⟩ := portText_of_advertised hport
  obtain ⟨client, hclient, hhost, hclientPort, hpath, hfirst⟩ :=
    @client_of_offer w params port address path hoffer text htext
  obtain ⟨hremotes, hcounters, hstream⟩ :=
    @handleInit_connection w params port address path hoffer
  have hannounced : (w.handleInit params (some address)).1.announced = w.announced := by
    unfold Caller.announced
    rw [hremotes]
  have hsent := calls_eq rs hclient
  rw [hannounced, hcounters, hstream] at hsent
  rw [hsent]
  generalize askedFor w.announced w.counters rs = asked
  generalize (params.stringAt? "streamId").getD w.connection.remoteStreamId = streamId
  have hgoes := @goes_httpRequests_iff client streamId advertised asked
  have hincreasing := @increasing_httpRequests_iff client streamId hfirst asked
  rw [hhost, hpath, hclientPort] at hgoes
  constructor
  · intro h
    rcases hgoes.mp h.goes with hnil | heq
    · exact .inl hnil
    · exact .inr ⟨hequal.mp heq, hincreasing.mp h.increasing⟩
  · rintro (rfl | ⟨hgood, hfew⟩)
    · exact ⟨List.forall_mem_nil _, List.Pairwise.nil⟩
    · exact ⟨hgoes.mpr (.inr (hequal.mpr hgood)), hincreasing.mpr hfew⟩

end Endpoint

/-! ### Two offers -/

/-- An offer of a command interface over HTTP at a port. -/
def httpOffer (port : Json) : Json :=
  .object [
    ("commandInterfaces", .object [("jsonrpc-http", .object [
      ("httpMethod", .string "POST"), ("httpPath", .string "/"), ("httpVersion", .string "1.1"),
      ("port", port)])]),
    ("streamId", .string "server")]

theorem offersHttp_httpOffer (port : Json) : OffersHttp (httpOffer port) "/" port :=
  ⟨_, _, rfl, rfl, rfl, rfl, rfl, rfl, rfl⟩

/-- A connection whose peer has announced a signal. -/
def oneAnnounced : Caller :=
  { connection := { remotes :=
      { objects := [{ id := "signal" }], byId := [("signal", ⟨false, 0⟩)] } } }

/-- A port that is a string is reached. -/
theorem http_requests_iff_string :
    TalksTo "192.0.2.1" "7414" "/" "server"
      ((oneAnnounced.handleInit (httpOffer (.string "7414")) (some "192.0.2.1")).1.calls
        [.subscribe "signal", .unsubscribe "signal"]).2 :=
  (http_requests_iff oneAnnounced (offersHttp_httpOffer (.string "7414")) rfl "192.0.2.1"
    [.subscribe "signal", .unsubscribe "signal"]).mpr (.inr ⟨.inl rfl, by decide⟩)

/-- **A port that is an integer is not**: the request goes to port 1. -/
theorem integer_port_not_reached :
    OffersHttp (httpOffer (.integer 8080)) "/" (.integer 8080) ∧
      advertisedPort (.integer 8080) = some "8080" ∧
      ¬ TalksTo "192.0.2.1" "8080" "/" "server"
        ((oneAnnounced.handleInit (httpOffer (.integer 8080)) (some "192.0.2.1")).1.calls
          [.subscribe "signal"]).2 := by
  refine ⟨offersHttp_httpOffer _, by decide, ?_⟩
  intro h
  have hgoes : ¬ ∀ s ∈ ((oneAnnounced.handleInit (httpOffer (.integer 8080))
      (some "192.0.2.1")).1.calls [.subscribe "signal"]).2,
        s.GoesTo "192.0.2.1" "8080" "/" "server" := by
    decide +kernel
  exact hgoes h.goes

end WsStreaming.Ports
