import Mathlib.Logic.Function.Basic
import WsStreaming.Verified.Calls
import WsStreaming.Ports.CommandResponses
import WsStreaming.Ports.SubscriptionIntent
import WsStreaming.Ports.Streaming

/-!
# Commands between two connections

Two connections as in `Streaming`, now with their clients of the other side's
command interface: the applications call `subscribe` and `unsubscribe` on
remote signals, which become requests in the same channel as everything else;
the other side carries them out and responds; and the responses call the
handlers that the client has kept.

A request is known by its place among those that a side has sent, and this
place is its handler.  `connection::run` is called once, so that a side greets
the other one once and a client is never replaced.

## Main results

* `exchange_answers` — each request is carried out once, in order, and its
  handler is called once, in order, with what came of it.
-/

namespace WsStreaming.Ports.CommandExchange

open WsStreaming.Verified
open WsStreaming.Verified.Run
open WsStreaming.Verified.Calls
open WsStreaming.Verified.OrderedMap (OMap Distinct)
open Advertisement (Side Link)
open Commander.World (toNat_ofInt)
open Mirroring (Dialogue)
open LocalSignals (JsonRpcException Request)

/-- What the handler of a request is given. -/
def outcome : Except JsonRpcException Json → Json
  | .ok result => result
  | .error _ => .null

/-- Two connections and their clients, the counters of the remote signals, the
requests that each side has sent, those that it has carried out with what came
of them, and the handlers that were called. -/
structure World where
  dialogue : Dialogue
  hasEndpoint : Side → Bool := fun _ => true
  client : Side → Option (CommandInterfaceClient Nat) := fun _ => none
  counter : Side → Nat → SubscriptionCounter := fun _ _ => {}
  asked : Side → List MetadataMessage := fun _ => []
  served : Side → List (MetadataMessage × Except JsonRpcException Json) := fun _ => []
  called : Side → List (Nat × Json) := fun _ => []

/-- What can happen. -/
inductive Action where
  /-- What can happen to two connections. -/
  | dialogue (action : Mirroring.Action)
  /-- The application subscribes a remote signal. -/
  | subscribe (side : Side) (address : Nat)
  /-- The application unsubscribes a remote signal. -/
  | unsubscribe (side : Side) (address : Nat)

namespace World

/-- The connection of a side. -/
def connection (w : World) (side : Side) : Connection := (w.dialogue.link.endpoint side).connection

/-- What a side has sent and has not arrived. -/
def outgoing (w : World) (side : Side) : List Message := (w.dialogue.link.endpoint side).outgoing

/-- A connection with its client. -/
def commander (w : World) (side : Side) : Commander Nat := ⟨w.connection side, w.client side⟩

/-- A request that goes in-band joins what is sent. -/
def ask (w : World) (side : Side) : Commander Nat × Option CommandRequest → World
  | (commander, some (.inBand message)) =>
      { w with
        dialogue := { w.dialogue with
          link := w.dialogue.link.tells side (w.connection side, [.send (.metadata message)]) }
        client := Function.update w.client side commander.client
        asked := Function.update w.asked side (w.asked side ++ [message]) }
  | (commander, _) => { w with client := Function.update w.client side commander.client }

/-- Another counter of a remote signal. -/
def count (w : World) (side : Side) (address : Nat) (counter : SubscriptionCounter) : World :=
  { w with counter :=
      Function.update w.counter side (Function.update (w.counter side) address counter) }

/-- `remote_signal::subscribe`.  The slots of the connection are connected as
long as the entry of the signal is there. -/
def subscribe (w : World) (side : Side) (address : Nat) : World :=
  match (w.connection side).remotes.objects[address]? with
  | none => w
  | some s =>
      let (counter, requested) := (w.counter side address).subscribe
      let w := w.count side address counter
      if requested && (w.connection side).remotes.live address then
        w.ask side ((w.commander side).onSignalSubscribeRequested s.id (w.asked side).length)
      else w

/-- `remote_signal::unsubscribe`. -/
def unsubscribe (w : World) (side : Side) (address : Nat) : World :=
  match (w.connection side).remotes.objects[address]? with
  | none => w
  | some s =>
      let (counter, requested) := (w.counter side address).unsubscribe
      let w := w.count side address counter
      if requested && (w.connection side).remotes.live address then
        w.ask side ((w.commander side).onSignalUnsubscribeRequested s.id (w.asked side).length)
      else w

/-- What a message does about commands at the side where it arrives. -/
def hears (w : World) (side : Side) : Message → World
  | .data _ _ => w
  | .metadata m =>
      if m.signo ≠ 0 then w
      else if m.method = "init" then
        let (commander, _) := (w.commander side).handleInit m.params (w.hasEndpoint side)
        { w with client := Function.update w.client side commander.client }
      else if m.method = "request" then
        let result := (w.connection side).commandResult m.params
        { w with served := Function.update w.served side (w.served side ++ [(m, result)]) }
      else if m.method = "response" then
        let (commander, completion) := (w.commander side).handleCommandInterfaceResponse m.params
        { w with
          client := Function.update w.client side commander.client
          called := Function.update w.called side (w.called side ++ completion.toList) }
      else w

/-- What a step of the connections does about commands. -/
def follows (w : World) : Mirroring.Action → World
  | .link (.deliver sender) =>
      match w.outgoing sender with
      | [] => w
      | m :: _ => w.hears sender.other m
  | _ => w

/-- One action. -/
def step (w : World) : Action → Option World
  | .dialogue action =>
      (w.dialogue.step action).map fun dialogue => { w.follows action with dialogue := dialogue }
  | .subscribe side address => some (w.subscribe side address)
  | .unsubscribe side address => some (w.unsubscribe side address)

/-- A new client connection and a new server connection. -/
def new (clientId serverId : String) (clientInterfaces serverInterfaces : Json)
    (hasEndpoint : Side → Bool) : World :=
  { dialogue := .new clientId serverId clientInterfaces serverInterfaces
    hasEndpoint := hasEndpoint }

/-- The requests come from the clients, `connection::run` is called once, and
fewer than `2 ^ 32` requests are open when there is another one. -/
def Admits (w : World) : Action → Prop
  | .dialogue (.link (.request _ _ _ _)) => False
  | .dialogue (.link (.run side)) =>
      (w.connection side).isClient = true ∨ (w.connection side).helloSent = false
  | .dialogue action => w.dialogue.Admits action
  | .subscribe side _ => (w.asked side).length < (w.called side).length + 2 ^ 32
  | .unsubscribe side _ => (w.asked side).length < (w.called side).length + 2 ^ 32

instance (w : World) : (action : Action) → Decidable (w.Admits action)
  | .dialogue (.link (.request _ _ _ _)) => isFalse id
  | .dialogue (.link (.run _)) => inferInstanceAs (Decidable (_ ∨ _))
  | .dialogue (.link (.add side signal)) =>
      inferInstanceAs (Decidable (w.dialogue.Admits (.link (.add side signal))))
  | .dialogue (.link (.remove side signal)) =>
      inferInstanceAs (Decidable (w.dialogue.Admits (.link (.remove side signal))))
  | .dialogue (.link (.command _ _ _)) => isTrue trivial
  | .dialogue (.link (.deliver _)) => isTrue trivial
  | .dialogue (.setMetadata _ _ _) => isTrue trivial
  | .dialogue (.publish _ _ _ _ _) => isTrue trivial
  | .subscribe _ _ => inferInstanceAs (Decidable (_ < _))
  | .unsubscribe _ _ => inferInstanceAs (Decidable (_ < _))

/-- **Requests are answered.**  What a side has asked for is carried out by the
other one in the same order, each request once, and the handlers are called in
this order, each once, with what came of the request.  It is all done once the
messages have arrived. -/
def Answers (w : World) : Prop :=
  ∀ side, (w.served side.other).map Prod.fst <+: w.asked side ∧
    w.called side <+: (numbered (w.served side.other)).map (Prod.map id outcome) ∧
    (w.outgoing side = [] → w.outgoing side.other = [] →
      (w.served side.other).map Prod.fst = w.asked side ∧
        w.called side = (numbered (w.served side.other)).map (Prod.map id outcome))

end World

/-! ## What is sent about commands -/

/-- The methods of the messages about commands. -/
def commandMethods : List String := ["init", "request", "response"]

/-- The messages with a method that concern the connection. -/
def said (method : String) (messages : List Message) : List MetadataMessage :=
  messages.filterMap fun
    | .metadata m => if m.signo = 0 ∧ m.method = method then some m else none
    | .data _ _ => none

/-- These, and the one that withdraws a signal: what happens to a local signal
sends none of them. -/
def quietMethods : List String := "unavailable" :: commandMethods

/-- Nothing is sent with these methods. -/
def Quiet (methods : List String) (messages : List Message) : Prop :=
  ∀ method ∈ methods, said method messages = []

section Said

variable {method : String} {methods : List String} {messages more : List Message}

@[simp] theorem said_nil : said method [] = [] := rfl

@[simp] theorem said_append : said method (messages ++ more) =
    said method messages ++ said method more :=
  List.filterMap_append

theorem said_metadata (m : MetadataMessage) : said method (.metadata m :: messages) =
    if m.signo = 0 ∧ m.method = method then m :: said method messages
    else said method messages := by
  unfold said
  rw [List.filterMap_cons]
  by_cases hm : m.signo = 0 ∧ m.method = method
  · simp only [if_pos hm]
  · simp only [if_neg hm]

theorem quiet_nil : Quiet methods [] := fun _ _ => rfl

theorem Quiet.append (h : Quiet methods messages) (h' : Quiet methods more) :
    Quiet methods (messages ++ more) := by
  intro method hmethod
  rw [said_append, h method hmethod, h' method hmethod]
  rfl

theorem Quiet.commands (h : Quiet quietMethods messages) : Quiet commandMethods messages :=
  fun method hmethod => h method (List.mem_cons_of_mem _ hmethod)

/-- A message with another method. -/
theorem quiet_metadata {m : MetadataMessage} (h : m.method ∉ methods) :
    Quiet methods [.metadata m] := by
  intro method hmethod
  rw [said_metadata, if_neg]
  · rfl
  · rintro ⟨-, rfl⟩
    exact h hmethod

theorem quiet_data (n : UInt32) (data : Wire.Bytes) : Quiet methods [.data n data] :=
  fun _ _ => rfl

theorem quiet_idsMessage (h : method ∉ methods) (ids : List String) :
    Quiet methods [Connection.idsMessage method ids] :=
  quiet_metadata h

theorem quiet_of_onlyNews {outputs : List Output} (h : OnlyNews outputs) :
    Quiet quietMethods (messagesOf outputs) := by
  intro method hmethod
  rw [said, List.filterMap_eq_nil_iff]
  intro m hm
  have hnews := h m hm
  cases m with
  | data n data => rfl
  | metadata m =>
      show (if m.signo = 0 ∧ m.method = method then some m else none) = none
      rw [if_neg]
      rintro ⟨-, rfl⟩
      unfold Message.isNews at hnews
      dsimp only at hnews
      have hcases : m.method = "unavailable" ∨ m.method = "init" ∨ m.method = "request" ∨
          m.method = "response" := by
        simpa [quietMethods, commandMethods] using hmethod
      rcases hcases with hmethod | hmethod | hmethod | hmethod
      · rw [hmethod] at hnews
        exact absurd hnews (by decide)
      · rw [hmethod] at hnews
        exact absurd hnews (by decide)
      · rw [hmethod] at hnews
        exact absurd hnews (by decide)
      · rw [hmethod] at hnews
        exact absurd hnews (by decide)

end Said

/-! ### Local signals -/

section Locals

variable {c : LocalSignals}

theorem onlyNews_request (c : LocalSignals) (r : Request) : OnlyNews (c.request r).2.1 := by
  cases r with
  | subscribe id => exact c.onlyNews_subscribe id true
  | unsubscribe id => exact c.onlyNews_unsubscribe id true

theorem quiet_setMetadata (c : LocalSignals) (address : Nat) (metadata : Metadata) :
    Quiet quietMethods (messagesOf (c.setMetadata address metadata).2) := by
  unfold LocalSignals.setMetadata
  split
  · exact quiet_nil
  · dsimp only
    split
    · unfold LocalSignals.onLocalSignalMetadataChanged
      apply quiet_metadata
      show "signal" ∉ quietMethods
      decide
    · exact quiet_nil

theorem quiet_publishData (c : LocalSignals) (address : Nat) (domainValue : Int64)
    (sampleCount : Nat) (data : Wire.Bytes) :
    Quiet quietMethods (messagesOf (c.publishData address domainValue sampleCount data).2) := by
  unfold LocalSignals.publishData
  split
  · rename_i k entry hentry
    unfold LocalSignals.onLocalSignalDataPublished
    dsimp only
    split
    · exact quiet_data _ _
    · -- The payload of the domain signal comes first.
      rename_i address table htable
      dsimp only
      rw [messagesOf_append]
      refine Quiet.append ?_ (quiet_data _ _)
      generalize (if entry.isExplicit = true then entry.valueIndex else table.drivenIndex) = index
      split
      · exact quiet_data _ _
      · exact quiet_nil
  · exact quiet_nil

/-- **What happens to a local signal** sends nothing about commands. -/
theorem quiet_act (c : LocalSignals) (i : LocalSignals.Act) : Quiet quietMethods (c.act i).2 := by
  cases i with
  | announce ids => exact quiet_idsMessage (by decide) ids
  | request r => exact quiet_of_onlyNews (onlyNews_request c r)
  | setMetadata address metadata => exact quiet_setMetadata c address metadata
  | publish address domainValue sampleCount data =>
      exact quiet_publishData c address domainValue sampleCount data

end Locals

/-! ## One direction -/

/-- The response to the request with a place. -/
def reply (x : Nat × Except JsonRpcException Json) : MetadataMessage :=
  { signo := 0
    method := "response"
    params := Connection.response (.integer (ident x.1).toNat) x.2 }

/-- **The calls of one side are in order**: what is on its way is what has not
been served and what has not been answered, each request carries the id of its
place, and the client knows the places of the open ones. -/
structure InOrder (client : Option (CommandInterfaceClient Nat))
    (asked requests : List MetadataMessage)
    (served : List (MetadataMessage × Except JsonRpcException Json))
    (responses : List MetadataMessage) (called : List (Nat × Json)) : Prop where
  calls : ∃ replies heard, InStep asked requests served replies heard ∧
    responses = replies.map reply ∧ called = heard.map (Prod.map id outcome)
  idents : ∀ (place : Nat) m, asked[place]? = some m →
    m.params.isObject = true ∧ m.params.find? "id" = some (.integer (ident place).toNat)
  room : asked.length ≤ called.length + 2 ^ 32
  knows : ∀ c, client = some (.inBand c) → c.nextId = ident asked.length ∧
    Open (OrderedMap.find? c.requests) called.length asked.length
  silent : (∀ c, client ≠ some (.inBand c)) → asked = []

section InOrder

variable {client : Option (CommandInterfaceClient Nat)} {asked requests : List MetadataMessage}
  {served : List (MetadataMessage × Except JsonRpcException Json)}
  {responses : List MetadataMessage} {called : List (Nat × Json)}

theorem inOrder_nil : InOrder none [] [] [] [] [] := by
  refine ⟨⟨[], [], inStep_nil, rfl, rfl⟩, ?_, ?_, ?_, fun _ => rfl⟩
  · intro place m hm
    cases hm
  · exact Nat.zero_le _
  · intro c hc
    cases hc

theorem InOrder.length_called (h : InOrder client asked requests served responses called) :
    called.length + responses.length = served.length := by
  obtain ⟨replies, heard, hsteps, rfl, rfl⟩ := h.calls
  rw [List.length_map, List.length_map, hsteps.length_served]

theorem InOrder.length_served (h : InOrder client asked requests served responses called) :
    served.length + requests.length = asked.length := by
  obtain ⟨replies, heard, hsteps, -, -⟩ := h.calls
  exact hsteps.length_asked.symm

/-- The next request was asked for. -/
theorem InOrder.next_mem {m : MetadataMessage}
    (h : InOrder client asked (m :: requests) served responses called) : m ∈ asked := by
  obtain ⟨replies, heard, hsteps, -, -⟩ := h.calls
  rw [hsteps.asked]
  exact List.mem_append_right _ List.mem_cons_self

/-- **A client is made** when nothing has been asked. -/
theorem InOrder.begins (h : InOrder client asked requests served responses called)
    (hnone : asked = []) {client' : Option (CommandInterfaceClient Nat)}
    (hfresh : ∀ c, client' = some (.inBand c) → c = {}) :
    InOrder client' asked requests served responses called := by
  refine ⟨h.calls, h.idents, h.room, ?_, fun _ => hnone⟩
  intro c hc
  obtain rfl := hfresh c hc
  have hcalled : called.length = 0 := by
    have hserved := h.length_served
    have hlength := h.length_called
    rw [hnone, List.length_nil] at hserved
    omega
  rw [hcalled, hnone]
  exact ⟨rfl, open_none 0⟩

/-- **The client sends a request.** -/
theorem InOrder.asks {c : InBandClient Nat}
    (h : InOrder (some (.inBand c)) asked requests served responses called)
    (hroom : asked.length < called.length + 2 ^ 32) (method : String) (params : Json) :
    InOrder (some (.inBand (c.asyncRequest method params asked.length).1))
      (asked ++ [(c.asyncRequest method params asked.length).2])
      (requests ++ [(c.asyncRequest method params asked.length).2]) served responses called := by
  obtain ⟨hnext, hopen⟩ := h.knows c rfl
  obtain ⟨replies, heard, hsteps, hresponses, hcalled⟩ := h.calls
  have hle : called.length ≤ asked.length := by
    have hserved := h.length_served
    have hlength := h.length_called
    omega
  obtain ⟨hfree, hopen'⟩ := hopen.asks hle hroom
  refine ⟨⟨replies, heard, hsteps.asks _, hresponses, hcalled⟩, ?_, ?_, ?_, ?_⟩
  · intro place m hm
    rw [List.getElem?_append] at hm
    split at hm
    · exact h.idents place m hm
    · rename_i hplace
      have hzero : place - asked.length = 0 := by
        by_contra hne
        rw [List.getElem?_eq_none (by simp; omega)] at hm
        cases hm
      have hsame : place = asked.length := by omega
      rw [hzero] at hm
      rw [← Option.some.inj hm, hsame, ← hnext]
      exact ⟨rfl, rfl⟩
  · rw [List.length_append, List.length_singleton]
    exact hroom
  · intro c' hc'
    obtain rfl := CommandInterfaceClient.inBand.inj (Option.some.inj hc')
    rw [List.length_append, List.length_singleton]
    constructor
    · show c.nextId + 1 = _
      rw [hnext, ident_succ]
    · intro id place
      rw [← hopen' id place]
      show OrderedMap.find? (OrderedMap.emplace c.requests c.nextId asked.length) id = _ ↔ _
      rw [OrderedMap.find?_emplace, hnext, hfree]
      rfl
  · intro hother
    exact absurd rfl (hother _)

/-- **The other side serves the next request.** -/
theorem InOrder.serves {m : MetadataMessage}
    (h : InOrder client asked (m :: requests) served responses called)
    (result : Except JsonRpcException Json) :
    m.params.isObject = true ∧
      InOrder client asked requests (served ++ [(m, result)])
        (responses ++ [⟨0, "response",
          Connection.response ((m.params.find? "id").getD .null) result⟩]) called := by
  obtain ⟨replies, heard, hsteps, hresponses, hcalled⟩ := h.calls
  have hplace : asked[served.length]? = some m := by
    rw [hsteps.asked, List.getElem?_append_right (by simp)]
    simp
  obtain ⟨hobject, hid⟩ := h.idents _ m hplace
  refine ⟨hobject, ⟨_, _, hsteps.serves result, ?_, hcalled⟩, h.idents, h.room, h.knows, h.silent⟩
  rw [hresponses, hid, List.map_append]
  rfl

/-- **The next response arrives.** -/
theorem InOrder.answers {m : MetadataMessage}
    (h : InOrder client asked requests served (m :: responses) called) :
    ∃ c x, client = some (.inBand c) ∧ (c.handleResponse m.params).2 = some x ∧
      InOrder (some (.inBand (c.handleResponse m.params).1)) asked requests served responses
        (called ++ [x]) := by
  obtain ⟨replies, heard, hsteps, hresponses, hcalled⟩ := h.calls
  cases replies with
  | nil => cases hresponses
  | cons x replies =>
      obtain ⟨rfl, rfl⟩ := List.cons.inj hresponses
      have hserved := h.length_served
      have hlength := h.length_called
      rw [List.length_cons] at hlength
      have hlt : called.length < asked.length := by omega
      -- Something was asked, so there is a client.
      obtain ⟨c, rfl⟩ : ∃ c, client = some (.inBand c) := by
        by_contra hnone
        have hempty := h.silent fun c hc => hnone ⟨c, hc⟩
        rw [hempty] at hlt
        exact absurd hlt (Nat.not_lt_zero _)
      obtain ⟨hnext, hopen⟩ := h.knows c rfl
      obtain ⟨hfound, hopen'⟩ := hopen.answers hlt h.room
      have hfirst : x.1 = called.length := by
        rw [hsteps.first, hcalled, List.length_map]
      have hid : UInt32.ofInt ((ident x.1).toNat : Int) = ident called.length := by
        rw [hfirst, ← UInt32.toNat_inj, toNat_ofInt (Int.natCast_nonneg _)]
        · rfl
        · exact Int.ofNat_lt.mpr (UInt32.toNat_lt _)
      have hresult : ((reply x).params.find? "result").getD .null = outcome x.2 := by
        obtain ⟨place, result⟩ := x
        cases result with
        | ok result => rfl
        | error e => rfl
      have hfind : ((reply x).params.find? "id").bind Json.integer? =
          some ((ident x.1).toNat : Int) := by
        obtain ⟨place, result⟩ := x
        cases result with
        | ok result => rfl
        | error e => rfl
      have hhandles : c.handleResponse (reply x).params =
          ({ c with requests := OrderedMap.erase c.requests (ident called.length) },
            some (called.length, outcome x.2)) := by
        unfold InBandClient.handleResponse
        rw [hfind]
        dsimp only
        rw [hid, hfound]
        dsimp only
        rw [hresult]
      refine ⟨c, (called.length, outcome x.2), rfl, by rw [hhandles], ?_⟩
      rw [hhandles]
      refine ⟨⟨replies, heard ++ [x], hsteps.answers, rfl, ?_⟩, h.idents, ?_, ?_, ?_⟩
      · rw [hcalled, List.map_append]
        rw [hcalled] at hfirst
        rw [← hfirst]
        rfl
      · rw [List.length_append, List.length_singleton]
        have hroom := h.room
        omega
      · intro c' hc'
        obtain rfl := CommandInterfaceClient.inBand.inj (Option.some.inj hc')
        rw [List.length_append, List.length_singleton]
        refine ⟨hnext, fun id place => ?_⟩
        rw [← hopen' id place]
        show OrderedMap.find? (OrderedMap.erase c.requests (ident called.length)) id = _ ↔ _
        rw [OrderedMap.find?_erase]
      · intro hother
        exact absurd rfl (hother _)

end InOrder

/-! ## What an operation of a connection keeps -/

/-- What the commands depend on stays. -/
structure Keeps (c c' : Connection) : Prop where
  isClient : c'.isClient = c.isClient
  helloSent : c'.helloSent = c.helloSent
  localStreamId : c'.localStreamId = c.localStreamId
  commandInterfaces : c'.commandInterfaces = c.commandInterfaces
  remoteStreamId : c'.remoteStreamId = c.remoteStreamId

section Keeps

variable {c c' : Connection}

theorem Keeps.refl (c : Connection) : Keeps c c := ⟨rfl, rfl, rfl, rfl, rfl⟩

theorem Keeps.initMessage (h : Keeps c c') : c'.initMessage = c.initMessage := by
  rw [Connection.initMessage, Connection.initMessage, h.commandInterfaces, h.localStreamId]

theorem keeps_of_locals {locals : LocalSignals} (h : c' = { c with locals := locals }) :
    Keeps c c' := by
  rw [h]
  exact ⟨rfl, rfl, rfl, rfl, rfl⟩

theorem keeps_addLocalSignal (c : Connection) (signal : LocalSignal) :
    Keeps c (c.addLocalSignal signal).1 ∧
      Quiet quietMethods (messagesOf (c.addLocalSignal signal).2) := by
  refine ⟨keeps_of_locals rfl, ?_⟩
  unfold Connection.addLocalSignal
  dsimp only
  split
  · exact quiet_idsMessage (by decide) _
  · exact quiet_nil

theorem keeps_removeLocalSignal (c : Connection) (signal : LocalSignal) :
    Keeps c (c.removeLocalSignal signal).1 ∧
      Quiet commandMethods (messagesOf (c.removeLocalSignal signal).2) := by
  refine ⟨keeps_of_locals rfl, ?_⟩
  have hrelease : Quiet quietMethods (messagesOf (c.locals.removeLocalSignal signal).2.1) := by
    unfold LocalSignals.removeLocalSignal
    split
    · exact quiet_of_onlyNews (RegisteredLocalSignal.onlyNews_release _)
    · exact quiet_nil
  unfold Connection.removeLocalSignal
  dsimp only
  rw [messagesOf_append]
  refine hrelease.commands.append ?_
  split
  · exact quiet_idsMessage (by decide) _
  · exact quiet_nil

theorem keeps_doCommandInterface (c : Connection) (method : String) (params : Json) :
    Keeps c (c.doCommandInterface method params).1 ∧
      Quiet quietMethods (messagesOf (c.doCommandInterface method params).2.1) := by
  obtain ⟨locals, hframe⟩ := c.doCommandInterface_frame params method
  exact ⟨keeps_of_locals hframe, quiet_of_onlyNews (c.onlyNews_doCommandInterface method params)⟩

/-- The remote signals change, and nothing is sent. -/
theorem keeps_onRemoteSignals {r : Option (RemoteSignals × List RemoteEvent)}
    {q : Connection × List Output × List RemoteEvent} (hq : c.onRemoteSignals r = some q) :
    Keeps c q.1 ∧ q.2.1 = [] := by
  obtain ⟨r, -, rfl⟩ := Option.map_eq_some_iff.mp hq
  exact ⟨⟨rfl, rfl, rfl, rfl, rfl⟩, rfl⟩

/-- A message that neither greets nor asks. -/
theorem keeps_receive {m : MetadataMessage} {q : Connection × List Output × List RemoteEvent}
    (hinit : ¬ (m.signo = 0 ∧ m.method = "init"))
    (hrequest : ¬ (m.signo = 0 ∧ m.method = "request"))
    (hq : c.receive (.metadata m) = some q) : Keeps c q.1 ∧ q.2.1 = [] := by
  change c.onPeerMetadataReceived m = some q at hq
  unfold Connection.onPeerMetadataReceived at hq
  split at hq
  · exact keeps_onRemoteSignals hq
  · rename_i hglobal
    have hsigno : m.signo = 0 := by
      by_contra hne
      exact hglobal (.inr (.inr hne))
    split at hq
    · obtain ⟨version, hframe⟩ := c.handleApiVersion_frame m.params
      rw [← Option.some.inj hq]
      dsimp only
      rw [hframe]
      exact ⟨⟨rfl, rfl, rfl, rfl, rfl⟩, rfl⟩
    · rw [if_neg fun h => hinit ⟨hsigno, h⟩, if_neg fun h => hrequest ⟨hsigno, h⟩] at hq
      exact keeps_onRemoteSignals hq

/-- A request: its response comes last. -/
theorem keeps_request {m : MetadataMessage} {q : Connection × List Output × List RemoteEvent}
    (hsigno : m.signo = 0) (hmethod : m.method = "request") (hobject : m.params.isObject = true)
    (hq : c.receive (.metadata m) = some q) :
    Keeps c q.1 ∧ ∃ before, Quiet quietMethods before ∧
      messagesOf q.2.1 = before ++ [.metadata ⟨0, "response",
        Connection.response ((m.params.find? "id").getD .null) (c.commandResult m.params)⟩] := by
  rw [Connection.receive_request c hsigno hmethod] at hq
  obtain ⟨p, hp, rfl⟩ := Option.map_eq_some_iff.mp hq
  obtain ⟨locals, hframe⟩ := Connection.handleCommandInterfaceRequest_frame hp
  obtain ⟨c', before, hbefore, hhandle⟩ := c.handleCommandInterfaceRequest_of_object hobject
  rw [hhandle] at hp
  obtain rfl := Option.some.inj hp
  refine ⟨keeps_of_locals hframe, _, quiet_of_onlyNews hbefore, ?_⟩
  dsimp only
  rw [messagesOf_append]
  rfl

/-- A greeting of the peer, which a client answers with its own. -/
theorem receive_init {m : MetadataMessage} {q : Connection × List Output × List RemoteEvent}
    (hsigno : m.signo = 0) (hmethod : m.method = "init") (hq : c.receive (.metadata m) = some q) :
    q.1 = (c.handleInit m.params).1 ∧ q.2.1 = (c.handleInit m.params).2 := by
  obtain ⟨signo, method, params⟩ := m
  dsimp only at hsigno hmethod
  subst hsigno hmethod
  rw [← Option.some.inj hq]
  exact ⟨rfl, rfl⟩

/-- What a greeting says about commands. -/
theorem said_doHello (c : Connection) : said "request" (messagesOf c.doHello.2) = [] ∧
    said "response" (messagesOf c.doHello.2) = [] ∧
      ∃ m, said "init" (messagesOf c.doHello.2) = [m] ∧ .metadata m = c.initMessage := by
  have havailable : Quiet commandMethods (messagesOf (if c.localIds = [] then []
      else [Output.send (Connection.idsMessage "available" c.localIds)])) := by
    split
    · exact quiet_nil
    · exact quiet_idsMessage (by decide) _
  unfold Connection.doHello
  rw [messagesOf_append]
  refine ⟨?_, ?_, ?_⟩
  · rw [said_append, havailable "request" (by decide)]
    rfl
  · rw [said_append, havailable "response" (by decide)]
    rfl
  · rw [said_append, havailable "init" (by decide)]
    exact ⟨_, rfl, rfl⟩

end Keeps

/-! ## Both sides -/

namespace World

/-- The calls of a side are in order. -/
def OrderlyAt (w : World) (side : Side) : Prop :=
  InOrder (w.client side) (w.asked side) (said "request" (w.outgoing side))
    (w.served side.other) (said "response" (w.outgoing side.other)) (w.called side)

/-- **Each side greets once**, the client after the server, and has no client of
the other side's commands before the greeting has arrived. -/
structure Greets (w : World) : Prop where
  roles : ∀ side, (w.connection side).isClient = decide (side = .client)
  unsent : ∀ side, (w.connection side).helloSent = false →
    said "init" (w.outgoing side) = [] ∧ w.client side.other = none
  once : ∀ side, said "init" (w.outgoing side) ≠ [] → w.client side.other = none ∧
    ∃ m, said "init" (w.outgoing side) = [m] ∧ .metadata m = (w.connection side).initMessage
  order : (w.connection .client).helloSent = true →
    (w.connection .server).helloSent = true ∧ said "init" (w.outgoing .server) = []

/-- The connections are related, a side greets once, and its calls are in order. -/
structure Orderly (w : World) : Prop where
  follows : ∀ side, w.dialogue.Follows side
  greets : w.Greets
  calls : ∀ side, w.OrderlyAt side

/-- Two worlds that are the same as far as commands are concerned. -/
structure Alike (w w' : World) : Prop where
  keeps : ∀ side, Keeps (w.connection side) (w'.connection side)
  said : ∀ side, ∀ method ∈ commandMethods,
    said method (w'.outgoing side) = said method (w.outgoing side)
  client : w'.client = w.client
  asked : w'.asked = w.asked
  served : w'.served = w.served
  called : w'.called = w.called

section Alike

variable {w w' : World}

theorem OrderlyAt.alike {side : Side} (h : w.OrderlyAt side) (halike : Alike w w') :
    w'.OrderlyAt side := by
  unfold OrderlyAt
  rw [halike.client, halike.asked, halike.served, halike.called,
    halike.said _ "request" (by decide), halike.said _ "response" (by decide)]
  exact h

theorem Greets.alike (h : w.Greets) (halike : Alike w w') : w'.Greets := by
  have hinit (side : Side) := halike.said side "init" (by decide)
  refine ⟨fun side => ?_, fun side => ?_, fun side => ?_, ?_⟩
  · rw [(halike.keeps side).isClient]
    exact h.roles side
  · rw [(halike.keeps side).helloSent, hinit, halike.client]
    exact h.unsent side
  · rw [hinit, halike.client, (halike.keeps side).initMessage]
    exact h.once side
  · rw [(halike.keeps .client).helloSent, (halike.keeps .server).helloSent, hinit]
    exact h.order

theorem Orderly.alike (h : w.Orderly) (halike : Alike w w')
    (hfollows : ∀ side, w'.dialogue.Follows side) : w'.Orderly :=
  ⟨hfollows, h.greets.alike halike, fun side => (h.calls side).alike halike⟩

/-- Two worlds with the same connections. -/
theorem alike_of_link (hlink : w'.dialogue.link = w.dialogue.link)
    (hclient : w'.client = w.client) (hasked : w'.asked = w.asked)
    (hserved : w'.served = w.served) (hcalled : w'.called = w.called) : Alike w w' := by
  refine ⟨fun side => ?_, fun side method _ => ?_, hclient, hasked, hserved, hcalled⟩
  · unfold connection
    rw [hlink]
    exact .refl _
  · unfold outgoing
    rw [hlink]

/-- A side does something that concerns no command. -/
theorem alike_of_tells {side : Side} {messages : List Message}
    (hself : Keeps (w.connection side) (w'.connection side))
    (hsent : w'.outgoing side = w.outgoing side ++ messages)
    (hquiet : Quiet commandMethods messages)
    (hother : w'.dialogue.link.endpoint side.other = w.dialogue.link.endpoint side.other)
    (hclient : w'.client = w.client) (hasked : w'.asked = w.asked)
    (hserved : w'.served = w.served) (hcalled : w'.called = w.called) : Alike w w' := by
  refine ⟨fun side' => ?_, fun side' => ?_, hclient, hasked, hserved, hcalled⟩
  · rcases Advertisement.Side.eq_or_other side side' with rfl | rfl
    · exact hself
    · unfold connection
      rw [hother]
      exact .refl _
  · intro method hmethod
    rcases Advertisement.Side.eq_or_other side side' with rfl | rfl
    · rw [hsent, said_append, hquiet method hmethod, List.append_nil]
    · unfold outgoing
      rw [hother]

end Alike

/-! ## One step -/

section Step

variable {w : World} {d : Dialogue} {sender : Side} {m : Message} {rest : List Message}

/-- What a delivery leaves. -/
theorem deliver_spec (hd : w.dialogue.step (.link (.deliver sender)) = some d)
    (hqueue : w.outgoing sender = m :: rest) :
    ∃ q, (w.connection sender.other).receive m = some q ∧
      d.link.endpoint sender = ⟨w.connection sender, rest⟩ ∧
        d.link.endpoint sender.other =
          ⟨q.1, w.outgoing sender.other ++ messagesOf q.2.1⟩ := by
  obtain ⟨link, hlink, rfl⟩ := Option.map_eq_some_iff.mp hd
  unfold Link.step at hlink
  dsimp only at hlink
  rw [show (w.dialogue.link.endpoint sender).outgoing = m :: rest from hqueue] at hlink
  obtain ⟨q, hq, rfl⟩ := Option.map_eq_some_iff.mp hlink
  refine ⟨q, hq, ?_, ?_⟩
  · cases sender <;> rfl
  · cases sender <;> rfl

theorem deliver_nil (hd : w.dialogue.step (.link (.deliver sender)) = some d)
    (hqueue : w.outgoing sender = []) : d.link = w.dialogue.link := by
  obtain ⟨link, hlink, rfl⟩ := Option.map_eq_some_iff.mp hd
  unfold Link.step at hlink
  dsimp only at hlink
  rw [show (w.dialogue.link.endpoint sender).outgoing = [] from hqueue] at hlink
  exact (Option.some.inj hlink).symm

theorem other_ne (side : Side) : side.other ≠ side := by cases side <;> decide

theorem other_other (side : Side) : side.other.other = side := by cases side <;> rfl

/-- What one side does leaves the other one alone. -/
theorem endpoint_tells (link : Advertisement.Link) (side : Side) (q : Connection × List Output) :
    (link.tells side q).endpoint side =
        ⟨q.1, (link.endpoint side).outgoing ++ messagesOf q.2⟩ ∧
      (link.tells side q).endpoint side.other = link.endpoint side.other := by
  cases side <;> exact ⟨rfl, rfl⟩

/-- A request of the in-band client of a side. -/
def sends (w : World) (side : Side) (client : InBandClient Nat) (method : String)
    (params : Json) : World :=
  let next := client.asyncRequest method params (w.asked side).length
  { w with
    dialogue := { w.dialogue with
      link := w.dialogue.link.tells side (w.connection side, [.send (.metadata next.2)]) }
    client := Function.update w.client side (some (.inBand next.1))
    asked := Function.update w.asked side (w.asked side ++ [next.2]) }

/-- Only a client that is in-band sends in-band. -/
theorem ask_request (w : World) (side : Side) (command signalId : String) :
    w.ask side ((w.commander side).request command signalId (w.asked side).length) =
      match w.client side with
      | some (.inBand client) => w.sends side client
          ((w.connection side).remoteStreamId ++ command) (.array [.string signalId])
      | _ => w := by
  have hsame {client : Option (CommandInterfaceClient Nat)} (hclient : w.client side = client) :
      { w with client := Function.update w.client side client } = w := by
    rw [← hclient, Function.update_eq_self]
  unfold Commander.request
  rw [show (w.commander side).client = w.client side from rfl]
  cases hclient : w.client side with
  | none =>
      show { w with client := Function.update w.client side (w.client side) } = w
      exact hsame rfl
  | some client =>
      cases client with
      | http => exact hsame hclient
      | inBand client => rfl

/-- What a request leaves of both sides. -/
theorem sends_spec (w : World) (side : Side) (client : InBandClient Nat) (method : String)
    (params : Json) :
    (∀ side', (w.sends side client method params).connection side' = w.connection side') ∧
      (w.sends side client method params).outgoing side = w.outgoing side ++
        [.metadata (client.asyncRequest method params (w.asked side).length).2] ∧
      (w.sends side client method params).outgoing side.other = w.outgoing side.other := by
  obtain ⟨hself, hother⟩ := endpoint_tells w.dialogue.link side (w.connection side,
    [.send (.metadata (client.asyncRequest method params (w.asked side).length).2)])
  refine ⟨fun side' => ?_, congrArg Advertisement.Endpoint.outgoing hself,
    congrArg Advertisement.Endpoint.outgoing hother⟩
  rcases Advertisement.Side.eq_or_other side side' with rfl | rfl
  · have hleft := congrArg Advertisement.Endpoint.connection hself
    exact hleft
  · exact congrArg Advertisement.Endpoint.connection hother

/-- **A request is sent.** -/
theorem orderly_sends (h : w.Orderly) {side : Side} {client : InBandClient Nat}
    (hclient : w.client side = some (.inBand client))
    (hroom : (w.asked side).length < (w.called side).length + 2 ^ 32) (method : String)
    (params : Json) : (w.sends side client method params).Orderly := by
  let next := client.asyncRequest method params (w.asked side).length
  obtain ⟨hconnection, hsent, hkept⟩ := w.sends_spec side client method params
  have hsaid (method' : String) (hmethod : method' ≠ "request") (side' : Side) :
      said method' ((w.sends side client method params).outgoing side') =
        said method' (w.outgoing side') := by
    rcases Advertisement.Side.eq_or_other side side' with rfl | rfl
    · rw [hsent, said_append, said_metadata, if_neg fun h => hmethod h.2.symm, said_nil,
        List.append_nil]
    · rw [hkept]
  refine ⟨?_, ?_, ?_⟩
  · have hrelays : Mirroring.Relays
        ((w.connection side).helloSent, (w.connection side).locals)
        ((w.connection side).helloSent, (w.connection side).locals) [.metadata next.2] [] :=
      Mirroring.relays_other _ (by decide) (by decide) (by decide) (by decide) rfl
    exact Mirroring.follows_tells h.follows hrelays rfl rfl
  · have hknown (side' : Side) (hnone : w.client side'.other = none) :
        (w.sends side client method params).client side'.other = none := by
      have hne : side'.other ≠ side := by
        rintro rfl
        rw [hclient] at hnone
        cases hnone
      exact (Function.update_of_ne hne _ _).trans hnone
    refine ⟨fun side' => ?_, fun side' => ?_, fun side' => ?_, ?_⟩
    · rw [hconnection]
      exact h.greets.roles side'
    · rw [hconnection, hsaid _ (by decide)]
      intro hhello
      obtain ⟨hinit, hnone⟩ := h.greets.unsent side' hhello
      exact ⟨hinit, hknown side' hnone⟩
    · rw [hconnection, hsaid _ (by decide)]
      intro hinit
      obtain ⟨hnone, hone⟩ := h.greets.once side' hinit
      exact ⟨hknown side' hnone, hone⟩
    · rw [hconnection, hconnection, hsaid _ (by decide)]
      exact h.greets.order
  · intro side'
    have hcalls := h.calls side'
    unfold OrderlyAt at hcalls ⊢
    rw [hsaid "response" (by decide)]
    rcases Advertisement.Side.eq_or_other side side' with rfl | rfl
    · rw [hclient] at hcalls
      rw [hsent, said_append, said_metadata, if_pos ⟨rfl, rfl⟩, said_nil]
      show InOrder (Function.update w.client side' (some (.inBand next.1)) side')
        (Function.update w.asked side' (w.asked side' ++ [next.2]) side') _ _ _ _
      rw [Function.update_self, Function.update_self]
      exact hcalls.asks hroom method params
    · rw [hkept]
      show InOrder (Function.update w.client side (some (.inBand next.1)) side.other)
        (Function.update w.asked side (w.asked side ++ [next.2]) side.other) _ _ _ _
      rw [Function.update_of_ne (other_ne side), Function.update_of_ne (other_ne side)]
      exact hcalls

/-- What a delivery leaves of both sides. -/
structure Delivered (w w' : World) (sender : Side) (rest : List Message) (c : Connection)
    (messages : List Message) : Prop where
  connection : w'.connection sender = w.connection sender
  outgoing : w'.outgoing sender = rest
  connection_other : w'.connection sender.other = c
  outgoing_other : w'.outgoing sender.other = w.outgoing sender.other ++ messages

theorem delivered (hd : w.dialogue.step (.link (.deliver sender)) = some d)
    (hqueue : w.outgoing sender = m :: rest) {w' : World} (hw' : w'.dialogue = d) :
    ∃ q, (w.connection sender.other).receive m = some q ∧
      Delivered w w' sender rest q.1 (messagesOf q.2.1) := by
  obtain ⟨q, hq, hsender, hreceiver⟩ := deliver_spec hd hqueue
  refine ⟨q, hq, ?_, ?_, ?_, ?_⟩
  · unfold connection
    rw [hw', hsender]
    rfl
  · unfold outgoing
    rw [hw', hsender]
  · unfold connection
    rw [hw', hreceiver]
  · unfold outgoing
    rw [hw', hreceiver]
    rfl

section Delivered

variable {w' : World} {c : Connection} {messages : List Message}

theorem Delivered.said_sender (h : Delivered w w' sender rest c messages)
    {m : MetadataMessage} (hqueue : w.outgoing sender = .metadata m :: rest) {method : String}
    (hmethod : ¬ (m.signo = 0 ∧ m.method = method)) :
    said method (w'.outgoing sender) = said method (w.outgoing sender) := by
  rw [h.outgoing, hqueue, said_metadata, if_neg hmethod]

theorem Delivered.said_receiver (h : Delivered w w' sender rest c messages) {method : String}
    (hquiet : said method messages = []) :
    said method (w'.outgoing sender.other) = said method (w.outgoing sender.other) := by
  rw [h.outgoing_other, said_append, hquiet, List.append_nil]

/-- The receiver keeps what the commands depend on, and so does the sender. -/
theorem Delivered.keeps (h : Delivered w w' sender rest c messages)
    (hkeeps : Keeps (w.connection sender.other) c) (side : Side) :
    Keeps (w.connection side) (w'.connection side) := by
  rcases Advertisement.Side.eq_or_other sender side with rfl | rfl
  · rw [h.connection]
    exact .refl _
  · rw [h.connection_other]
    exact hkeeps

/-- **A message that concerns no command arrives.** -/
theorem Delivered.alike (h : Delivered w w' sender rest c messages)
    (hqueue : w.outgoing sender = m :: rest) (hkeeps : Keeps (w.connection sender.other) c)
    (hquiet : Quiet commandMethods messages)
    (hsaid : ∀ method ∈ commandMethods, said method (m :: rest) = said method rest)
    (hclient : w'.client = w.client) (hasked : w'.asked = w.asked)
    (hserved : w'.served = w.served) (hcalled : w'.called = w.called) : Alike w w' := by
  refine ⟨h.keeps hkeeps, fun side method hmethod => ?_, hclient, hasked, hserved, hcalled⟩
  rcases Advertisement.Side.eq_or_other sender side with rfl | rfl
  · rw [h.outgoing, hqueue, hsaid method hmethod]
  · exact h.said_receiver (hquiet method hmethod)

/-- **A request arrives.** -/
theorem Delivered.orderly_request {m : MetadataMessage}
    (h : Delivered w w' sender rest c messages) (hw : w.Orderly)
    (hfollows : ∀ side, w'.dialogue.Follows side)
    (hqueue : w.outgoing sender = .metadata m :: rest) (hsigno : m.signo = 0)
    (hmethod : m.method = "request")
    (hq : ∃ q, (w.connection sender.other).receive (.metadata m) = some q ∧ q.1 = c ∧
      messagesOf q.2.1 = messages)
    (hclient : w'.client = w.client) (hasked : w'.asked = w.asked)
    (hserved : w'.served = Function.update w.served sender.other
      (w.served sender.other ++ [(m, (w.connection sender.other).commandResult m.params)]))
    (hcalled : w'.called = w.called) : w'.Orderly := by
  have hserves := hw.calls sender
  unfold OrderlyAt at hserves
  rw [hqueue, said_metadata, if_pos ⟨hsigno, hmethod⟩] at hserves
  obtain ⟨hobject, hserves⟩ := hserves.serves ((w.connection sender.other).commandResult m.params)
  obtain ⟨q, hreceive, rfl, rfl⟩ := hq
  obtain ⟨hkeeps, before, hbefore, hmessages⟩ := keeps_request hsigno hmethod hobject hreceive
  rw [hmessages] at h
  have hother {method : String} (hne : method ≠ "request") :
      ¬ (m.signo = 0 ∧ m.method = method) := by
    rw [hmethod]
    exact fun heq => hne heq.2.symm
  have hreply {method : String} (hcommand : method ∈ commandMethods) (hne : method ≠ "response") :
      said method (w'.outgoing sender.other) = said method (w.outgoing sender.other) := by
    apply h.said_receiver
    rw [said_append, hbefore.commands method hcommand, said_metadata,
      if_neg fun heq => hne heq.2.symm, said_nil, List.append_nil]
  refine ⟨hfollows, ?_, fun side => ?_⟩
  · have hinit (side : Side) :
        said "init" (w'.outgoing side) = said "init" (w.outgoing side) := by
      rcases Advertisement.Side.eq_or_other sender side with rfl | rfl
      · exact h.said_sender hqueue (hother (by decide))
      · exact hreply (by decide) (by decide)
    have hkept := h.keeps hkeeps
    refine ⟨fun side => ?_, fun side => ?_, fun side => ?_, ?_⟩
    · rw [(hkept side).isClient]
      exact hw.greets.roles side
    · rw [(hkept side).helloSent, hinit, hclient]
      exact hw.greets.unsent side
    · rw [hinit, hclient, (hkept side).initMessage]
      exact hw.greets.once side
    · rw [(hkept .client).helloSent, (hkept .server).helloSent, hinit]
      exact hw.greets.order
  · unfold OrderlyAt
    rw [hclient, hasked, hcalled, hserved]
    rcases Advertisement.Side.eq_or_other sender side with rfl | rfl
    · rw [Function.update_self, h.outgoing, h.outgoing_other, said_append, said_append,
        hbefore "response" (by decide), said_metadata, if_pos ⟨rfl, rfl⟩]
      exact hserves
    · rw [other_other, Function.update_of_ne (other_ne sender).symm,
        hreply (by decide) (by decide), h.said_sender hqueue (hother (by decide))]
      have hkept := hw.calls sender.other
      unfold OrderlyAt at hkept
      rw [other_other] at hkept
      exact hkept

/-- **A response arrives.** -/
theorem Delivered.orderly_response {m : MetadataMessage}
    (h : Delivered w w' sender rest c []) (hw : w.Orderly)
    (hfollows : ∀ side, w'.dialogue.Follows side)
    (hqueue : w.outgoing sender = .metadata m :: rest) (hsigno : m.signo = 0)
    (hmethod : m.method = "response") (hkeeps : Keeps (w.connection sender.other) c)
    (hclient : w'.client = Function.update w.client sender.other
      ((w.commander sender.other).handleCommandInterfaceResponse m.params).1.client)
    (hasked : w'.asked = w.asked) (hserved : w'.served = w.served)
    (hcalled : w'.called = Function.update w.called sender.other (w.called sender.other ++
      ((w.commander sender.other).handleCommandInterfaceResponse m.params).2.toList)) :
    w'.Orderly := by
  have hanswers := hw.calls sender.other
  unfold OrderlyAt at hanswers
  have hresponse : said "response" (.metadata m :: rest) = m :: said "response" rest := by
    rw [said_metadata, if_pos ⟨hsigno, hmethod⟩]
  rw [other_other, hqueue, hresponse] at hanswers
  obtain ⟨client, x, hinBand, hx, hanswers⟩ := hanswers.answers
  have hhandles : (w.commander sender.other).handleCommandInterfaceResponse m.params =
      ({ (w.commander sender.other) with
          client := some (.inBand (client.handleResponse m.params).1) }, some x) := by
    unfold Commander.handleCommandInterfaceResponse
    rw [show (w.commander sender.other).client = w.client sender.other from rfl, hinBand]
    exact Prod.ext rfl hx
  rw [hhandles] at hclient hcalled
  have hother {method : String} (hne : method ≠ "response") :
      ¬ (m.signo = 0 ∧ m.method = method) := by
    rw [hmethod]
    exact fun heq => hne heq.2.symm
  refine ⟨hfollows, ?_, fun side => ?_⟩
  · have hinit (side : Side) :
        said "init" (w'.outgoing side) = said "init" (w.outgoing side) := by
      rcases Advertisement.Side.eq_or_other sender side with rfl | rfl
      · exact h.said_sender hqueue (hother (by decide))
      · exact h.said_receiver rfl
    have hnone (side : Side) (hside : w.client side.other = none) :
        w'.client side.other = none := by
      rcases Advertisement.Side.eq_or_other sender side with rfl | rfl
      · rw [hinBand] at hside
        cases hside
      · rw [hclient, other_other, Function.update_of_ne (other_ne sender).symm]
        rw [other_other] at hside
        exact hside
    have hkept := h.keeps hkeeps
    refine ⟨fun side => ?_, fun side => ?_, fun side => ?_, ?_⟩
    · rw [(hkept side).isClient]
      exact hw.greets.roles side
    · rw [(hkept side).helloSent, hinit]
      intro hhello
      obtain ⟨hempty, hside⟩ := hw.greets.unsent side hhello
      exact ⟨hempty, hnone side hside⟩
    · rw [hinit, (hkept side).initMessage]
      intro hsome
      obtain ⟨hside, hone⟩ := hw.greets.once side hsome
      exact ⟨hnone side hside, hone⟩
    · rw [(hkept .client).helloSent, (hkept .server).helloSent, hinit]
      exact hw.greets.order
  · unfold OrderlyAt
    rw [hasked, hserved]
    rcases Advertisement.Side.eq_or_other sender side with rfl | rfl
    · rw [hclient, hcalled, Function.update_of_ne (other_ne side).symm,
        Function.update_of_ne (other_ne side).symm, h.said_receiver rfl,
        h.said_sender hqueue (hother (by decide))]
      exact hw.calls side
    · rw [hclient, hcalled, Function.update_self, Function.update_self, other_other,
        h.said_receiver rfl, h.outgoing]
      exact hanswers

/-- What a greeting leaves of a connection: a client that has not greeted may
do so now. -/
theorem handleInit_spec (c : Connection) (params : Json) :
    (c.handleInit params).1.isClient = c.isClient ∧
      (c.handleInit params).1.initMessage = c.initMessage ∧
        ((c.handleInit params).1.helloSent = c.helloSent ∧ (c.handleInit params).2 = [] ∨
          c.isClient = true ∧ (c.handleInit params).1.helloSent = true ∧
            said "request" (messagesOf (c.handleInit params).2) = [] ∧
              said "response" (messagesOf (c.handleInit params).2) = [] ∧
                ∃ m, said "init" (messagesOf (c.handleInit params).2) = [m] ∧
                  .metadata m = c.initMessage) := by
  unfold Connection.handleInit
  split
  · dsimp only
    split
    · rename_i hclient
      refine ⟨rfl, rfl, .inr ⟨(Bool.and_eq_true_iff.mp hclient).1, rfl, ?_⟩⟩
      exact said_doHello _
    · exact ⟨rfl, rfl, .inl ⟨rfl, rfl⟩⟩
  · exact ⟨rfl, rfl, .inl ⟨rfl, rfl⟩⟩

/-- A client that a greeting makes is new. -/
theorem handleInit_fresh {c : Commander Nat} (hnone : c.client = none) (params : Json)
    (hasEndpoint : Bool) {client : InBandClient Nat}
    (hclient : (c.handleInit params hasEndpoint).1.client = some (.inBand client)) :
    client = {} := by
  unfold Commander.handleInit at hclient
  dsimp only at hclient
  cases hfind : params.find? "commandInterfaces" with
  | none =>
      rw [hfind] at hclient
      dsimp only at hclient
      rw [hnone] at hclient
      cases hclient
  | some interfaces =>
      rw [hfind] at hclient
      dsimp only at hclient
      unfold CommandInterfaceClient.create at hclient
      split at hclient
      · exact (CommandInterfaceClient.inBand.inj (Option.some.inj hclient)).symm
      · split at hclient
        · split at hclient
          · cases hclient
          · cases hclient
        · cases hclient

/-- **A greeting arrives.** -/
theorem Delivered.orderly_init {m : MetadataMessage}
    (h : Delivered w w' sender rest c messages) (hw : w.Orderly)
    (hfollows : ∀ side, w'.dialogue.Follows side)
    (hqueue : w.outgoing sender = .metadata m :: rest) (hsigno : m.signo = 0)
    (hmethod : m.method = "init")
    (hc : c = ((w.connection sender.other).handleInit m.params).1)
    (hmessages : messages = messagesOf ((w.connection sender.other).handleInit m.params).2)
    (hclient : w'.client = Function.update w.client sender.other
      ((w.commander sender.other).handleInit m.params (w.hasEndpoint sender.other)).1.client)
    (hasked : w'.asked = w.asked) (hserved : w'.served = w.served)
    (hcalled : w'.called = w.called) : w'.Orderly := by
  have hinits : said "init" (w.outgoing sender) = m :: said "init" rest := by
    rw [hqueue, said_metadata, if_pos ⟨hsigno, hmethod⟩]
  have hgreeted : said "init" (w.outgoing sender) ≠ [] := by
    rw [hinits]
    exact List.cons_ne_nil _ _
  obtain ⟨hnone, m', hone, -⟩ := hw.greets.once sender hgreeted
  have hrest : said "init" rest = [] := by
    rw [hinits] at hone
    exact (List.cons.inj hone).2
  have hhello : (w.connection sender).helloSent = true := by
    cases hsent : (w.connection sender).helloSent with
    | true => rfl
    | false => exact absurd (hw.greets.unsent sender hsent).1 hgreeted
  have hother {method : String} (hne : method ≠ "init") :
      ¬ (m.signo = 0 ∧ m.method = method) := by
    rw [hmethod]
    exact fun heq => hne heq.2.symm
  obtain ⟨hisClient, hinitMessage, hspec⟩ := handleInit_spec (w.connection sender.other) m.params
  rw [← hc, ← hmessages] at hspec
  rw [← hc] at hisClient hinitMessage
  have hsaid : said "request" messages = [] ∧ said "response" messages = [] := by
    rcases hspec with ⟨-, hnothing⟩ | ⟨-, -, hrequest, hresponse, -⟩
    · rw [hmessages, hnothing]
      exact ⟨rfl, rfl⟩
    · exact ⟨hrequest, hresponse⟩
  -- Only the client greets now, and it has not done so before.
  have hstarts (hside : (w.connection sender.other).isClient = true) :
      sender = .server ∧ said "init" (w.outgoing sender.other) = [] ∧
        w.client sender.other.other = none := by
    have hrole := hw.greets.roles sender.other
    rw [hside] at hrole
    cases sender with
    | client => cases hrole
    | server =>
        refine ⟨rfl, hw.greets.unsent .client ?_⟩
        cases hsent : (w.connection .client).helloSent with
        | false => rfl
        | true => exact absurd (hw.greets.order hsent).2 hgreeted
  have hclientOther : w'.client sender.other.other = w.client sender.other.other := by
    rw [hclient, other_other, Function.update_of_ne (other_ne sender).symm]
  refine ⟨hfollows, ⟨fun side => ?_, fun side => ?_, fun side => ?_, ?_⟩, fun side => ?_⟩
  · rcases Advertisement.Side.eq_or_other sender side with rfl | rfl
    · rw [h.connection]
      exact hw.greets.roles side
    · rw [h.connection_other, hisClient]
      exact hw.greets.roles sender.other
  · rcases Advertisement.Side.eq_or_other sender side with rfl | rfl
    · rw [h.connection, hhello]
      exact fun hsent => absurd hsent.symm Bool.false_ne_true
    · rw [h.connection_other, hclientOther]
      intro hsent
      rcases hspec with ⟨hsame, hnothing⟩ | ⟨-, hnow, -⟩
      · rw [hsame] at hsent
        rw [h.said_receiver (by rw [hmessages, hnothing]; rfl)]
        exact hw.greets.unsent sender.other hsent
      · rw [hnow] at hsent
        exact absurd hsent.symm Bool.false_ne_true
  · rcases Advertisement.Side.eq_or_other sender side with rfl | rfl
    · rw [h.outgoing, hrest]
      exact fun hsome => absurd rfl hsome
    · rw [h.outgoing_other, h.connection_other, hclientOther, said_append, hinitMessage]
      rcases hspec with ⟨-, hnothing⟩ | ⟨hside, -, -, -, hgreeting⟩
      · rw [hmessages, hnothing, show said "init" (messagesOf []) = [] from rfl, List.append_nil]
        exact hw.greets.once sender.other
      · obtain ⟨-, hempty, hpeer⟩ := hstarts hside
        rw [hempty, List.nil_append]
        exact fun _ => ⟨hpeer, hgreeting⟩
  · cases sender with
    | client =>
        have hside : (w.connection .server).isClient = false := hw.greets.roles .server
        rcases hspec with ⟨hsame, hnothing⟩ | ⟨hisSome, -⟩
        · rw [show (w'.connection .client) = w.connection .client from h.connection,
            show w'.connection .server = c from h.connection_other, hsame,
            show said "init" (w'.outgoing .server) = said "init" (w.outgoing .server) from
              h.said_receiver (by rw [hmessages, hnothing]; rfl)]
          exact hw.greets.order
        · exact absurd (hside.symm.trans hisSome) Bool.false_ne_true
    | server =>
        intro _
        rw [show w'.connection .server = w.connection .server from h.connection, h.outgoing]
        exact ⟨hhello, hrest⟩
  · unfold OrderlyAt
    rw [hasked, hserved, hcalled, hclient]
    rcases Advertisement.Side.eq_or_other sender side with rfl | rfl
    · rw [Function.update_of_ne (other_ne side).symm, h.said_receiver hsaid.2,
        h.said_sender hqueue (hother (by decide))]
      exact hw.calls side
    · have hcalls := hw.calls sender.other
      unfold OrderlyAt at hcalls
      rw [other_other] at hcalls
      rw [Function.update_self, other_other, h.said_receiver hsaid.1,
        h.said_sender hqueue (hother (by decide))]
      refine hcalls.begins (hcalls.silent fun client hinBand => ?_)
        fun client hinBand => handleInit_fresh hnone _ _ hinBand
      rw [hnone] at hinBand
      cases hinBand

end Delivered

/-- **A side begins.** -/
theorem orderly_run (hw : w.Orderly) {side : Side}
    (hrun : (w.connection side).isClient = true ∨ (w.connection side).helloSent = false)
    (hd : w.dialogue.step (.link (.run side)) = some d) (hfollows : ∀ side, d.Follows side) :
    World.Orderly { w with dialogue := d } := by
  obtain ⟨link, hlink, rfl⟩ := Option.map_eq_some_iff.mp hd
  unfold Advertisement.Link.step at hlink
  dsimp only at hlink
  split at hlink
  · obtain rfl := Option.some.inj hlink
    exact hw.alike (alike_of_link rfl rfl rfl rfl rfl) hfollows
  · rename_i hserver
    have hsent := hrun.resolve_left hserver
    obtain rfl := Option.some.inj hlink
    -- Only the server begins.
    obtain rfl : side = .server := by
      cases side with
      | client => exact absurd (hw.greets.roles .client) hserver
      | server => rfl
    obtain ⟨hempty, hpeer⟩ := hw.greets.unsent .server hsent
    obtain ⟨hrequest, hresponse, hgreeting⟩ := said_doHello (w.connection .server)
    have hsilent : (w.connection .client).helloSent = false := by
      cases hhello : (w.connection .client).helloSent with
      | false => rfl
      | true => exact absurd (hsent.symm.trans (hw.greets.order hhello).1) Bool.false_ne_true
    refine ⟨hfollows, ⟨?_, ?_, ?_, ?_⟩, ?_⟩
    · intro side
      cases side with
      | client => exact hw.greets.roles .client
      | server => exact hw.greets.roles .server
    · intro side
      cases side with
      | client => exact hw.greets.unsent .client
      | server => exact fun hhello => absurd hhello.symm Bool.false_ne_true
    · intro side
      cases side with
      | client => exact hw.greets.once .client
      | server =>
          intro _
          refine ⟨hpeer, ?_⟩
          obtain ⟨m, hm, hmessage⟩ := hgreeting
          refine ⟨m, ?_, hmessage⟩
          show said "init" (w.outgoing .server ++ messagesOf (w.connection .server).doHello.2) = [m]
          rw [said_append, hempty, hm, List.nil_append]
    · exact fun hhello => absurd (hsilent.symm.trans hhello) Bool.false_ne_true
    · intro side
      have hcalls := hw.calls side
      unfold OrderlyAt at hcalls ⊢
      cases side with
      | client =>
          show InOrder (w.client .client) (w.asked .client) (said "request" (w.outgoing .client))
            (w.served .server) (said "response"
              (w.outgoing .server ++ messagesOf (w.connection .server).doHello.2)) _
          rw [said_append, hresponse, List.append_nil]
          exact hcalls
      | server =>
          show InOrder (w.client .server) (w.asked .server) (said "request"
              (w.outgoing .server ++ messagesOf (w.connection .server).doHello.2))
            (w.served .client) (said "response" (w.outgoing .client)) _
          rw [said_append, hrequest, List.append_nil]
          exact hcalls

/-- **A message arrives.** -/
theorem orderly_deliver (hw : w.Orderly) (hd : w.dialogue.step (.link (.deliver sender)) = some d)
    (hfollows : ∀ side, d.Follows side) :
    World.Orderly { w.follows (.link (.deliver sender)) with dialogue := d } := by
  unfold World.follows
  dsimp only
  cases hqueue : w.outgoing sender with
  | nil =>
      exact hw.alike (alike_of_link (deliver_nil hd hqueue) rfl rfl rfl rfl) hfollows
  | cons m rest =>
      dsimp only
      have hplain (q : Connection × List Output × List RemoteEvent)
          (hdelivered : Delivered w { w with dialogue := d } sender rest q.1 (messagesOf q.2.1))
          (hkeeps : Keeps (w.connection sender.other) q.1 ∧ q.2.1 = [])
          (hsaid : ∀ method ∈ commandMethods, said method (m :: rest) = said method rest) :
          World.Orderly { w with dialogue := d } := by
        refine hw.alike (hdelivered.alike hqueue hkeeps.1 ?_ hsaid rfl rfl rfl rfl) hfollows
        rw [hkeeps.2]
        exact quiet_nil
      cases m with
      | data n data =>
          obtain ⟨q, hq, hdelivered⟩ :=
            delivered hd hqueue (show ({ w with dialogue := d } : World).dialogue = d from rfl)
          exact hplain q hdelivered (keeps_onRemoteSignals hq) fun _ _ => rfl
      | metadata m =>
          have hother {method : String} (hne : ¬ (m.signo = 0 ∧ m.method = method)) :
              said method (.metadata m :: rest) = said method rest := by
            rw [said_metadata, if_neg hne]
          unfold hears
          dsimp only
          by_cases hsigno : m.signo = 0
          · rw [if_neg (not_not_intro hsigno)]
            by_cases hinit : m.method = "init"
            · rw [if_pos hinit]
              obtain ⟨q, hq, hdelivered⟩ := delivered hd hqueue (show World.dialogue
                { w with
                  dialogue := d
                  client := Function.update w.client sender.other
                    ((w.commander sender.other).handleInit m.params
                      (w.hasEndpoint sender.other)).1.client } = d from rfl)
              obtain ⟨hc, hmessages⟩ := receive_init hsigno hinit hq
              exact hdelivered.orderly_init hw hfollows hqueue hsigno hinit hc
                (congrArg messagesOf hmessages) rfl rfl rfl rfl
            rw [if_neg hinit]
            by_cases hrequest : m.method = "request"
            · rw [if_pos hrequest]
              obtain ⟨q, hq, hdelivered⟩ := delivered hd hqueue (show World.dialogue
                { w with
                  dialogue := d
                  served := Function.update w.served sender.other (w.served sender.other ++
                    [(m, (w.connection sender.other).commandResult m.params)]) } = d from rfl)
              exact hdelivered.orderly_request hw hfollows hqueue hsigno hrequest
                ⟨q, hq, rfl, rfl⟩ rfl rfl rfl rfl
            rw [if_neg hrequest]
            by_cases hresponse : m.method = "response"
            · rw [if_pos hresponse]
              let completed :=
                (w.commander sender.other).handleCommandInterfaceResponse m.params
              obtain ⟨q, hq, hdelivered⟩ := delivered hd hqueue (show World.dialogue
                { w with
                  dialogue := d
                  client := Function.update w.client sender.other completed.1.client
                  called := Function.update w.called sender.other
                    (w.called sender.other ++ completed.2.toList) } = d from rfl)
              obtain ⟨hkeeps, hnothing⟩ := keeps_receive (fun h => hinit h.2)
                (fun h => hrequest h.2) hq
              rw [hnothing] at hdelivered
              exact hdelivered.orderly_response hw hfollows hqueue hsigno hresponse hkeeps
                rfl rfl rfl rfl
            rw [if_neg hresponse]
            obtain ⟨q, hq, hdelivered⟩ :=
              delivered hd hqueue (show ({ w with dialogue := d } : World).dialogue = d from rfl)
            refine hplain q hdelivered
              (keeps_receive (fun h => hinit h.2) (fun h => hrequest h.2) hq)
              fun method hmethod => ?_
            apply hother
            rintro ⟨-, rfl⟩
            simp [commandMethods, hinit, hrequest, hresponse] at hmethod
          · rw [if_pos hsigno]
            obtain ⟨q, hq, hdelivered⟩ :=
              delivered hd hqueue (show ({ w with dialogue := d } : World).dialogue = d from rfl)
            exact hplain q hdelivered
              (keeps_receive (fun h => hsigno h.1) (fun h => hsigno h.1) hq)
              fun method _ => hother fun h => hsigno h.1

/-- **A side does something that concerns no command.** -/
theorem orderly_tells (hw : w.Orderly) {side : Side} {c : Connection} {messages : List Message}
    (hself : d.link.endpoint side = ⟨c, w.outgoing side ++ messages⟩)
    (hother : d.link.endpoint side.other = w.dialogue.link.endpoint side.other)
    (hkeeps : Keeps (w.connection side) c ∧ Quiet commandMethods messages)
    (hfollows : ∀ side, d.Follows side) :
    World.Orderly { w with dialogue := d } := by
  refine hw.alike (alike_of_tells ?_ ?_ hkeeps.2 hother rfl rfl rfl rfl) hfollows
  · show Keeps _ (d.link.endpoint side).connection
    rw [hself]
    exact hkeeps.1
  · show (d.link.endpoint side).outgoing = _
    rw [hself]

/-- What an act of a local signal leaves of both sides. -/
theorem endpoint_acts (w : World) (side : Side) (i : LocalSignals.Act) :
    (w.dialogue.acts side i).link.endpoint side =
        ⟨{ w.connection side with locals := ((w.connection side).locals.act i).1 },
          w.outgoing side ++ ((w.connection side).locals.act i).2⟩ ∧
      (w.dialogue.acts side i).link.endpoint side.other =
        w.dialogue.link.endpoint side.other := by
  cases side <;> exact ⟨rfl, rfl⟩

/-- What happens to a local signal. -/
theorem orderly_acts (hw : w.Orderly) (side : Side) (i : LocalSignals.Act)
    (hfollows : ∀ side', (w.dialogue.acts side i).Follows side') :
    World.Orderly { w with dialogue := w.dialogue.acts side i } := by
  obtain ⟨hself, hother⟩ := w.endpoint_acts side i
  exact orderly_tells hw hself hother ⟨keeps_of_locals rfl, (quiet_act _ i).commands⟩ hfollows

/-- **The application counts, and may ask.** -/
theorem orderly_call (hw : w.Orderly) {side : Side}
    (hroom : (w.asked side).length < (w.called side).length + 2 ^ 32) (address : Nat)
    (counter : SubscriptionCounter) (asks : Bool) (command signalId : String) :
    World.Orderly (if asks then
      (w.count side address counter).ask side ((w.commander side).request command signalId
        (w.asked side).length) else w.count side address counter) := by
  have hcount : (w.count side address counter).Orderly :=
    hw.alike (alike_of_link rfl rfl rfl rfl rfl) hw.follows
  split
  · have hask := ask_request (w.count side address counter) side command signalId
    change (w.count side address counter).ask side ((w.commander side).request command signalId
      (w.asked side).length) = _ at hask
    rw [hask]
    split
    · rename_i client hclient
      exact orderly_sends hcount hclient hroom _ _
    · exact hcount
  · exact hcount

/-- **One step.** -/
theorem orderly_step (hw : w.Orderly) {action : Action} (hadmits : w.Admits action) :
    ∃ w', w.step action = some w' ∧ w'.Orderly := by
  cases action with
  | subscribe side address =>
      refine ⟨_, rfl, ?_⟩
      unfold subscribe
      split
      · exact hw
      · exact orderly_call hw hadmits address _ _ ".subscribe" _
  | unsubscribe side address =>
      refine ⟨_, rfl, ?_⟩
      unfold unsubscribe
      split
      · exact hw
      · exact orderly_call hw hadmits address _ _ ".unsubscribe" _
  | dialogue action =>
      have hstep (hdialogue : w.dialogue.Admits action)
          (hall : ∀ d, w.dialogue.step action = some d → (∀ side, d.Follows side) →
            World.Orderly { w.follows action with dialogue := d }) :
          ∃ w', w.step (.dialogue action) = some w' ∧ w'.Orderly := by
        obtain ⟨d, hd, hfollows⟩ := Mirroring.follows_step hw.follows hdialogue
        exact ⟨_, congrArg (Option.map _) hd, hall d hd hfollows⟩
      cases action with
      | setMetadata side address metadata =>
          refine hstep trivial fun d hd hfollows => ?_
          obtain rfl := Option.some.inj hd
          exact orderly_acts hw side _ hfollows
      | publish side address domainValue sampleCount data =>
          refine hstep trivial fun d hd hfollows => ?_
          obtain rfl := Option.some.inj hd
          exact orderly_acts hw side _ hfollows
      | link action =>
          cases action with
          | request side client method params => exact hadmits.elim
          | run side => exact hstep trivial fun d hd hfollows => orderly_run hw hadmits hd hfollows
          | deliver sender =>
              exact hstep trivial fun d hd hfollows => orderly_deliver hw hd hfollows
          | add side signal =>
              refine hstep hadmits fun d hd hfollows => ?_
              obtain rfl := Option.some.inj hd
              obtain ⟨hself, hother⟩ := endpoint_tells w.dialogue.link side
                ((w.connection side).addLocalSignal signal)
              exact orderly_tells hw hself hother
                ((keeps_addLocalSignal _ signal).imp_right Quiet.commands) hfollows
          | remove side signal =>
              refine hstep hadmits fun d hd hfollows => ?_
              obtain rfl := Option.some.inj hd
              obtain ⟨hself, hother⟩ := endpoint_tells w.dialogue.link side
                ((w.connection side).removeLocalSignal signal)
              exact orderly_tells hw hself hother (keeps_removeLocalSignal _ signal) hfollows
          | command side method params =>
              refine hstep trivial fun d hd hfollows => ?_
              obtain rfl := Option.some.inj hd
              let done := (w.connection side).doCommandInterface method params
              obtain ⟨hself, hother⟩ := endpoint_tells w.dialogue.link side (done.1, done.2.1)
              exact orderly_tells hw hself hother
                ((keeps_doCommandInterface (w.connection side) method params).imp_right
                  Quiet.commands) hfollows

end Step

/-- Before anything has happened. -/
theorem orderly_new (clientId serverId : String) (clientInterfaces serverInterfaces : Json)
    (hasEndpoint : Side → Bool) :
    (World.new clientId serverId clientInterfaces serverInterfaces hasEndpoint).Orderly := by
  refine ⟨Mirroring.follows_new _ _ _ _, ⟨?_, ?_, ?_, ?_⟩, ?_⟩
  · intro side
    cases side <;> rfl
  · intro side _
    cases side <;> exact ⟨rfl, rfl⟩
  · intro side hsome
    cases side <;> exact absurd rfl hsome
  · exact fun hhello => absurd hhello Bool.false_ne_true
  · intro side
    cases side <;> exact inOrder_nil

theorem Orderly.answers {w : World} (h : w.Orderly) : w.Answers := by
  intro side
  obtain ⟨replies, heard, hsteps, hresponses, hcalled⟩ := (h.calls side).calls
  refine ⟨hsteps.served_prefix, ?_, fun hself hother => ?_⟩
  · rw [hcalled]
    exact hsteps.called_prefix.map _
  · rw [hself] at hsteps
    rw [hother] at hresponses
    obtain rfl : replies = [] := List.map_eq_nil_iff.mp hresponses.symm
    obtain ⟨hserved, hheard⟩ := hsteps.drained
    rw [hcalled, hheard]
    exact ⟨hserved, rfl⟩

end World

section Runs

open World

/-- Every run is defined, and the calls of both sides are in order. -/
theorem orderly_of_run (clientId serverId : String) (clientInterfaces serverInterfaces : Json)
    (hasEndpoint : Side → Bool) (actions : List Action)
    (hadmits : MeetsOpt step Admits
      (.new clientId serverId clientInterfaces serverInterfaces hasEndpoint) actions) :
    ∃ w, actions.foldlM step
      (.new clientId serverId clientInterfaces serverInterfaces hasEndpoint) = some w ∧
        w.Orderly :=
  foldlM_invariant_of_meets (fun _ _ h hok => orderly_step h hok) actions _
    (orderly_new clientId serverId clientInterfaces serverInterfaces hasEndpoint) hadmits

/-- **Requests are answered.**  In every run of two connections, in which the
applications subscribe and unsubscribe remote signals while signals come and
go, metadata change and data are published, each step is defined; what a side
has requested is carried out by the other one once each and in order, and the
handlers of the requests are called once each, in order and with what came of
the request, all of them once the messages have arrived. -/
theorem exchange_answers (clientId serverId : String) (clientInterfaces serverInterfaces : Json)
    (hasEndpoint : Side → Bool) (actions : List Action)
    (hadmits : MeetsOpt step Admits
      (.new clientId serverId clientInterfaces serverInterfaces hasEndpoint) actions) :
    ∃ w, actions.foldlM step
      (.new clientId serverId clientInterfaces serverInterfaces hasEndpoint) = some w ∧
        w.Answers := by
  obtain ⟨w, hw, horderly⟩ := orderly_of_run clientId serverId clientInterfaces serverInterfaces
    hasEndpoint actions hadmits
  exact ⟨w, hw, horderly.answers⟩

/-- A signal is subscribed twice and unsubscribed once. -/
def holding : List Action :=
  [.dialogue (.link (.run .server)), .dialogue (.link (.add .server LocalSignals.bareSignal)),
    .dialogue (.link (.deliver .server)), .dialogue (.link (.deliver .server)),
    .dialogue (.link (.deliver .server)), .subscribe .client 0, .subscribe .client 0,
    .dialogue (.link (.deliver .client)), .dialogue (.link (.deliver .client)),
    .dialogue (.link (.deliver .client)), .dialogue (.link (.deliver .client)),
    .unsubscribe .client 0, .dialogue (.link (.deliver .server)),
    .dialogue (.link (.deliver .server)), .dialogue (.link (.deliver .server))]

/-- The second subscription is given up as well. -/
def session : List Action :=
  holding ++ [.unsubscribe .client 0, .dialogue (.link (.deliver .client)),
    .dialogue (.link (.deliver .server)), .dialogue (.link (.deliver .server))]

/-- An interface in-band. -/
def inBandInterface : Json := .object [("jsonrpc", .object [])]

theorem exchange_answers_session :
    ∃ w, session.foldlM step (.new "" "" inBandInterface inBandInterface fun _ => true) = some w ∧
      w.Answers :=
  exchange_answers "" "" inBandInterface inBandInterface (fun _ => true) session
    (by decide +kernel)

example : (session.foldlM step (.new "" "" inBandInterface inBandInterface fun _ => true)).map
    (fun w => w.called .client) =
      some [(0, .array [.bool true]), (1, .array [.bool true])] := by decide +kernel

end Runs

end WsStreaming.Ports.CommandExchange
