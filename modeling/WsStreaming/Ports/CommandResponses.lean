import WsStreaming.Verified.Trace
import WsStreaming.Ports.CommandClient
import WsStreaming.Ports.CommandReplies

/-!
# Which request a response completes

A connection sends requests, its peer answers them in any order, once, twice
or never, other responses may arrive too, and any `init` message puts a new
client in the place of the old one.  A request is known here by its place
among all that were sent, and that is what its handler is.

The ids are the client's own: they begin again with each client.  So the
answer to a request of an earlier client may find a request of this one under
its id; and an id beyond 32 bits finds the one that it is narrowed to.  Apart
from that, every handler is called by a response with the id of its request
and by no answer to another one (`responses_reach_iff`).
-/

namespace WsStreaming.Ports.Commander

open WsStreaming.Verified
open WsStreaming.Verified.Run (MeetsOpt meetsOpt_of_budget)
open WsStreaming.Verified.Trace (Monitor)
open LocalSignals (JsonRpcException)

/-- The id of a request or a response. -/
def idOf (params : Json) : Option Int := (params.find? "id").bind Json.integer?

/-- What can be seen of the requests: one is sent, or its handler is called
with a response, which the peer made for a certain request or for none. -/
inductive Event where
  | requested (message : MetadataMessage)
  | completed (request : Nat) (response : Json) (answers : Option Nat)
deriving DecidableEq, Repr

/-- The requests that were sent, and those whose handlers were called. -/
structure Ledger where
  sent : List MetadataMessage := []
  done : List Nat := []
deriving DecidableEq, Repr

/-- **The law of responses**: a handler is called at most once, with the id of
its request, and not by the answer to another request. -/
def reaching : Monitor Ledger Event
  | l, .requested message => some { l with sent := l.sent ++ [message] }
  | l, .completed request response answers =>
      if request ∉ l.done ∧
          (l.sent[request]?).map (fun message => idOf message.params) = some (idOf response) ∧
          (answers = none ∨ answers = some request) then
        some { l with done := request :: l.done }
      else none

/-- A connection, its ledger, and the number of requests that were sent before
its client was made. -/
structure World where
  commander : Commander Nat := {}
  ledger : Ledger := {}
  start : Nat := 0

/-- What can happen. -/
inductive Input where
  /-- A remote signal asks for a subscription. -/
  | subscribe (signalId : String)
  /-- A remote signal asks for its end. -/
  | unsubscribe (signalId : String)
  /-- An `init` message arrives. -/
  | init (params : Json) (hasEndpoint : Bool)
  /-- The peer's answer to a request arrives. -/
  | answer (request : Nat) (outcome : Except JsonRpcException Json)
  /-- Some response arrives. -/
  | response (params : Json)

/-- The requests that an input can make. -/
def Input.cost : Input → Nat
  | .subscribe _ => 1
  | .unsubscribe _ => 1
  | _ => 0

namespace World

/-- A request that the commander made, if it did. -/
def requested (w : World) : Commander Nat × Option CommandRequest → World × List Event
  | (commander, some (.inBand message)) =>
      ({ w with
          commander := commander
          ledger := { w.ledger with sent := w.ledger.sent ++ [message] } },
        [.requested message])
  | (commander, _) => ({ w with commander := commander }, [])

/-- A response arrives. -/
def respond (w : World) (response : Json) (answers : Option Nat) : World × List Event :=
  match w.commander.handleCommandInterfaceResponse response with
  | (commander, none) => ({ w with commander := commander }, [])
  | (commander, some (request, _)) =>
      ({ w with
          commander := commander
          ledger := { w.ledger with done := request :: w.ledger.done } },
        [.completed request response answers])

/-- The answer that the peer makes to a request. -/
def answerTo (message : MetadataMessage) (outcome : Except JsonRpcException Json) : Json :=
  Connection.response ((message.params.find? "id").getD .null) outcome

/-- One step. -/
def step (w : World) : Input → World × List Event
  | .subscribe signalId =>
      w.requested (w.commander.onSignalSubscribeRequested signalId w.ledger.sent.length)
  | .unsubscribe signalId =>
      w.requested (w.commander.onSignalUnsubscribeRequested signalId w.ledger.sent.length)
  | .init params hasEndpoint =>
      ({ w with
          commander := (w.commander.handleInit params hasEndpoint).1
          start :=
            if params.contains "commandInterfaces" then w.ledger.sent.length else w.start }, [])
  | .answer request outcome =>
      match w.ledger.sent[request]? with
      | some message => w.respond (answerTo message outcome) (some request)
      | none => (w, [])
  | .response params => w.respond params none

/-- The request that an id leads to. -/
def pending (w : World) (id : Int) : Option Nat :=
  match w.commander.client with
  | some (.inBand client) => OrderedMap.find? client.requests (UInt32.ofInt id)
  | _ => none

/-- A response comes in time: its id is one that can be sent, or leads to no
request, and the request it answers is one of this client, or its id leads to
none. -/
def Timely (w : World) : Input → Prop
  | .response params =>
      ∀ id, idOf params = some id → (0 ≤ id ∧ id < 2 ^ 32) ∨ w.pending id = none
  | .answer request _ =>
      ∀ message id, w.ledger.sent[request]? = some message → idOf message.params = some id →
        w.start ≤ request ∨ w.pending id = none
  | _ => True

/-- The number of the request that a client would send next. -/
def clientCount (w : World) : Nat := w.ledger.sent.length - w.start

/-- The client's numbering, and where its handlers come from. -/
structure Sound (w : World) : Prop where
  start_le : w.start ≤ w.ledger.sent.length
  few : w.ledger.sent.length < 2 ^ 32
  done_lt : ∀ request ∈ w.ledger.done, request < w.ledger.sent.length
  earlier : ∀ (request : Nat) (message : MetadataMessage), w.ledger.sent[request]? = some message →
    ∃ id : Int, idOf message.params = some id ∧ 0 ≤ id ∧ id < 2 ^ 32
  numbers : ∀ (request : Nat) (message : MetadataMessage), w.start ≤ request →
    w.ledger.sent[request]? = some message →
    idOf message.params = some (1 + (request - w.start : Nat) : Int)
  nextId : ∀ client, w.commander.client = some (.inBand client) →
    client.nextId = UInt32.ofNat (1 + w.clientCount)
  pending : ∀ client, w.commander.client = some (.inBand client) →
    ∀ id request, OrderedMap.find? client.requests id = some request →
      w.start ≤ request ∧ request < w.ledger.sent.length ∧
        id.toNat = 1 + (request - w.start) ∧ request ∉ w.ledger.done

theorem sound_new : Sound {} where
  start_le := Nat.le_refl 0
  few := by decide
  done_lt := by intro _ h; cases h
  earlier := by intro request message h; cases h
  numbers := by intro request message _ h; cases h
  nextId := by intro _ h; cases h
  pending := by intro _ h; cases h

theorem toNat_ofInt {id : Int} (h : 0 ≤ id) (hlt : id < 2 ^ 32) :
    (UInt32.ofInt id).toNat = id.toNat := by
  rw [UInt32.ofInt, Int.emod_eq_of_lt h hlt, UInt32.toNat_ofNat']
  omega

/-! ## Requests -/

section Requests

variable {w : World}

/-- Without an in-band client nothing is sent in-band. -/
theorem requested_of_not_inBand (command signalId : String) (handler : Nat)
    (h : ∀ client, w.commander.client ≠ some (.inBand client)) :
    w.requested (w.commander.request command signalId handler) = (w, []) := by
  unfold Commander.request
  cases hclient : w.commander.client with
  | none => rfl
  | some client =>
      cases client with
      | inBand client => exact absurd hclient (h client)
      | http =>
          obtain ⟨⟨connection, client⟩, ledger, start⟩ := w
          dsimp only at hclient
          subst hclient
          rfl

theorem requested_of_inBand (command signalId : String) (handler : Nat)
    {client : InBandClient Nat} (h : w.commander.client = some (.inBand client)) :
    ∃ message : MetadataMessage, idOf message.params = some (client.nextId.toNat : Int) ∧
      w.requested (w.commander.request command signalId handler) =
        ({ w with
            commander := { w.commander with
              client := some (.inBand
                { nextId := client.nextId + 1
                  requests := OrderedMap.emplace client.requests client.nextId handler }) }
            ledger := { w.ledger with sent := w.ledger.sent ++ [message] } },
          [.requested message]) := by
  refine ⟨(client.asyncRequest (w.commander.connection.remoteStreamId ++ command)
    (.array [.string signalId]) handler).2, rfl, ?_⟩
  unfold Commander.request
  rw [h]
  rfl

/-- A request that is sent under a fresh id. -/
theorem Sound.requested (hs : w.Sound) {client : InBandClient Nat}
    (hclient : w.commander.client = some (.inBand client)) {message : MetadataMessage}
    (hid : idOf message.params = some (client.nextId.toNat : Int))
    (hfew : w.ledger.sent.length + 1 < 2 ^ 32) :
    Sound { w with
      commander := { w.commander with
        client := some (.inBand
          { nextId := client.nextId + 1
            requests :=
              OrderedMap.emplace client.requests client.nextId w.ledger.sent.length }) }
      ledger := { w.ledger with sent := w.ledger.sent ++ [message] } } := by
  have hstart := hs.start_le
  have hcount : w.clientCount = w.ledger.sent.length - w.start := rfl
  have hnext : client.nextId.toNat = 1 + w.clientCount := by
    rw [hs.nextId client hclient, UInt32.toNat_ofNat', Nat.mod_eq_of_lt (by omega)]
  -- The place of a message: among those that were sent before, or the last one.
  have hplace (request : Nat) (m : MetadataMessage)
      (hm : (w.ledger.sent ++ [message])[request]? = some m) :
      w.ledger.sent[request]? = some m ∨ request = w.ledger.sent.length ∧ m = message := by
    by_cases hlt : request < w.ledger.sent.length
    · rw [List.getElem?_append_left hlt] at hm
      exact .inl hm
    · rw [List.getElem?_append_right (by omega), List.getElem?_singleton] at hm
      split at hm
      · exact .inr ⟨by omega, (Option.some.inj hm).symm⟩
      · cases hm
  have hfresh : OrderedMap.find? client.requests client.nextId = none := by
    cases hfind : OrderedMap.find? client.requests client.nextId with
    | none => rfl
    | some request =>
        obtain ⟨hle, hlt, hnumber, -⟩ := hs.pending client hclient client.nextId request hfind
        omega
  constructor
  · rw [List.length_append]
    exact Nat.le_trans hstart (Nat.le_add_right _ _)
  · rw [List.length_append]
    exact hfew
  · intro request hdone
    have hlt := hs.done_lt request hdone
    rw [List.length_append]
    exact Nat.lt_of_lt_of_le hlt (Nat.le_add_right _ _)
  · intro request m hm
    rcases hplace request m hm with hm | ⟨rfl, rfl⟩
    · exact hs.earlier request m hm
    · exact ⟨_, hid, by omega, by omega⟩
  · intro request m hle hm
    rcases hplace request m hm with hm | ⟨rfl, rfl⟩
    · exact hs.numbers request m hle hm
    · rw [hid, hnext]
      rfl
  · intro client' hclient'
    cases hclient'
    have hlen : clientCount { w with
        ledger := { w.ledger with sent := w.ledger.sent ++ [message] } } =
          w.clientCount + 1 := by
      change (w.ledger.sent ++ [message]).length - w.start = w.clientCount + 1
      rw [List.length_append, List.length_singleton]
      omega
    change client.nextId + 1 = UInt32.ofNat (1 + clientCount { w with
        ledger := { w.ledger with sent := w.ledger.sent ++ [message] } })
    apply UInt32.toNat_inj.mp
    rw [hlen, UInt32.toNat_add, hnext, UInt32.toNat_ofNat']
    rfl
  · intro client' hclient' id request hfind
    cases hclient'
    rw [OrderedMap.find?_emplace, hfresh] at hfind
    dsimp only
    rw [List.length_append]
    split at hfind
    · rename_i hkey
      obtain rfl := Option.some.inj hfind
      refine ⟨hstart, Nat.lt_succ_self _, ?_, ?_⟩
      · rw [← hkey, hnext]
        rfl
      · intro hdone
        exact absurd (hs.done_lt _ hdone) (Nat.lt_irrefl _)
    · obtain ⟨hle, hlt, hnumber, hdone⟩ := hs.pending client hclient id request hfind
      exact ⟨hle, Nat.lt_succ_of_lt hlt, hnumber, hdone⟩

end Requests

/-! ## Responses -/

section Responses

variable {w : World} {response : Json} {answers : Option Nat}

/-- A response whose id leads to no request. -/
theorem respond_of_none (h : ∀ id, idOf response = some id → w.pending id = none) :
    w.respond response answers = (w, []) := by
  obtain ⟨⟨connection, client⟩, ledger, start⟩ := w
  unfold respond handleCommandInterfaceResponse
  match client with
  | none => rfl
  | some .http => rfl
  | some (.inBand client) =>
      have hnone : client.handleResponse response = (client, none) := by
        unfold InBandClient.handleResponse
        cases hid : (response.find? "id").bind Json.integer? with
        | none => rfl
        | some id =>
            have hpending : OrderedMap.find? client.requests (UInt32.ofInt id) = none := h id hid
            dsimp only
            rw [hpending]
      dsimp only
      rw [hnone]

/-- An id that leads to a request does so in the table of the client. -/
theorem exists_of_pending {id : Int} {request : Nat} (h : w.pending id = some request) :
    ∃ client, w.commander.client = some (.inBand client) ∧
      OrderedMap.find? client.requests (UInt32.ofInt id) = some request := by
  unfold pending at h
  split at h
  · rename_i client hclient
    exact ⟨client, hclient, h⟩
  · cases h

/-- A response whose id leads to a request completes it. -/
theorem respond_of_found {client : InBandClient Nat} {id : Int} {request : Nat}
    (hclient : w.commander.client = some (.inBand client)) (hid : idOf response = some id)
    (hfind : OrderedMap.find? client.requests (UInt32.ofInt id) = some request) :
    w.respond response answers =
      ({ w with
          commander := { w.commander with
            client := some (.inBand { client with
              requests := OrderedMap.erase client.requests (UInt32.ofInt id) }) }
          ledger := { w.ledger with done := request :: w.ledger.done } },
        [.completed request response answers]) := by
  have hresponse : (response.find? "id").bind Json.integer? = some id := hid
  unfold respond handleCommandInterfaceResponse InBandClient.handleResponse
  rw [hclient, hresponse]
  dsimp only
  rw [hfind]

/-- A request that is completed is pending no more. -/
theorem Sound.completed (hs : w.Sound) {client : InBandClient Nat}
    (hclient : w.commander.client = some (.inBand client)) {key : UInt32} {request : Nat}
    (hfind : OrderedMap.find? client.requests key = some request) :
    Sound { w with
      commander := { w.commander with
        client := some (.inBand { client with
          requests := OrderedMap.erase client.requests key }) }
      ledger := { w.ledger with done := request :: w.ledger.done } } := by
  obtain ⟨-, hlt, hnumber, -⟩ := hs.pending client hclient key request hfind
  constructor
  · exact hs.start_le
  · exact hs.few
  · intro other hdone
    rcases List.mem_cons.mp hdone with rfl | hdone
    · exact hlt
    · exact hs.done_lt other hdone
  · exact hs.earlier
  · exact hs.numbers
  · intro client' hclient'
    cases hclient'
    exact hs.nextId client hclient
  · intro client' hclient' id other hother
    cases hclient'
    rw [OrderedMap.find?_erase] at hother
    split at hother
    · cases hother
    · rename_i hne
      obtain ⟨hle', hlt', hnumber', hdone'⟩ := hs.pending client hclient id other hother
      refine ⟨hle', hlt', hnumber', ?_⟩
      intro hdone
      rcases List.mem_cons.mp hdone with rfl | hdone
      · exact hne (UInt32.toNat_inj.mp (by omega))
      · exact hdone' hdone

/-- The law of one response: its id is that of the request it completes, and
it answers no other. -/
theorem read_completed (hs : w.Sound) {id : Int} {request : Nat}
    (hid : idOf response = some id) (hpending : w.pending id = some request) :
    reaching.read w.ledger [.completed request response answers] =
      if (0 ≤ id ∧ id < 2 ^ 32) ∧ (answers = none ∨ answers = some request) then
        some { w.ledger with done := request :: w.ledger.done }
      else none := by
  obtain ⟨client, hclient, hfind⟩ := exists_of_pending hpending
  obtain ⟨hle, hlt, hnumber, hdone⟩ := hs.pending client hclient _ request hfind
  obtain ⟨message, hmessage⟩ : ∃ message, w.ledger.sent[request]? = some message :=
    ⟨_, List.getElem?_eq_getElem hlt⟩
  have hsent := hs.numbers request message hle hmessage
  have hfew := hs.few
  -- The narrowed id is that of the request, so in range it is the id itself.
  have hsame : idOf message.params = idOf response ↔ 0 ≤ id ∧ id < 2 ^ 32 := by
    rw [hsent, hid, Option.some.injEq]
    constructor
    · intro heq
      omega
    · rintro ⟨hnonneg, hsmall⟩
      rw [toNat_ofInt hnonneg hsmall] at hnumber
      omega
  rw [Monitor.read_cons]
  simp only [reaching, hmessage, Option.map_some, Option.some.injEq, hsame, hdone,
    not_false_eq_true, true_and]
  split <;> rfl

/-- An answer carries the id of its request. -/
theorem idOf_answerTo {message : MetadataMessage} {id : Int}
    (h : idOf message.params = some id) (outcome : Except JsonRpcException Json) :
    idOf (answerTo message outcome) = some id := by
  unfold idOf answerTo
  rw [Connection.find?_response_id]
  obtain ⟨j, hfind, hj⟩ := Option.bind_eq_some_iff.mp h
  rw [hfind]
  exact hj

/-- The law of a response that arrives, for a condition that says when it is
right about the request it completes. -/
theorem respond_spec (hs : w.Sound) {timely : Prop}
    (hnone : (∀ id, idOf response = some id → w.pending id = none) → timely)
    (hiff : ∀ id request, idOf response = some id → w.pending id = some request →
      (timely ↔ (0 ≤ id ∧ id < 2 ^ 32) ∧ (answers = none ∨ answers = some request))) :
    (w.respond response answers).1.Sound ∧
      (timely → reaching.read w.ledger (w.respond response answers).2 =
        some (w.respond response answers).1.ledger) ∧
      (¬ timely → reaching.read w.ledger (w.respond response answers).2 = none) := by
  by_cases hfree : ∀ id, idOf response = some id → w.pending id = none
  · rw [respond_of_none hfree]
    exact ⟨hs, fun _ => rfl, fun hnot => absurd (hnone hfree) hnot⟩
  · obtain ⟨id, hid, hpending⟩ : ∃ id, idOf response = some id ∧ w.pending id ≠ none := by
      by_contra hno
      apply hfree
      intro id hid
      by_contra hpending
      exact hno ⟨id, hid, hpending⟩
    obtain ⟨request, hpending⟩ := Option.ne_none_iff_exists'.mp hpending
    obtain ⟨client, hclient, hfind⟩ := exists_of_pending hpending
    rw [respond_of_found hclient hid hfind]
    dsimp only
    rw [read_completed hs hid hpending, hiff id request hid hpending]
    exact ⟨hs.completed hclient hfind, fun h => if_pos h, fun h => if_neg h⟩

end Responses

/-! ## Steps -/

/-- An `init` message makes a client with an empty table, or leaves the client
as it is. -/
theorem Sound.init {w : World} (hs : w.Sound) (params : Json) (hasEndpoint : Bool) :
    (w.step (.init params hasEndpoint)).1.Sound := by
  have hclient : (w.commander.handleInit params hasEndpoint).1.client =
      (params.find? "commandInterfaces").elim w.commander.client fun interfaces =>
        CommandInterfaceClient.create interfaces hasEndpoint := by
    unfold Commander.handleInit
    cases params.find? "commandInterfaces" <;> rfl
  have hcontains : params.contains "commandInterfaces" =
      (params.find? "commandInterfaces").isSome := rfl
  unfold step
  cases hfind : params.find? "commandInterfaces" with
  | none =>
      rw [hfind] at hclient hcontains
      have hfalse : ¬ params.contains "commandInterfaces" = true := by
        rw [hcontains]
        exact Bool.false_ne_true
      dsimp only
      rw [if_neg hfalse]
      exact
        { start_le := hs.start_le, few := hs.few, done_lt := hs.done_lt, earlier := hs.earlier
          numbers := hs.numbers
          nextId := fun client h => hs.nextId client (hclient.symm.trans h)
          pending := fun client h => hs.pending client (hclient.symm.trans h) }
  | some interfaces =>
      rw [hfind] at hclient hcontains
      have hnew (client : InBandClient Nat)
          (h : (w.commander.handleInit params hasEndpoint).1.client = some (.inBand client)) :
          client = {} := by
        rw [hclient, Option.elim_some] at h
        unfold CommandInterfaceClient.create at h
        split at h
        · injection h with h
          injection h with h
          exact h.symm
        · split at h
          · split at h
            · injection h with h
              cases h
            · cases h
          · cases h
      dsimp only
      rw [if_pos (by rw [hcontains]; rfl)]
      constructor
      · exact Nat.le_refl _
      · exact hs.few
      · exact hs.done_lt
      · exact hs.earlier
      · intro request message hle hmessage
        have hlt := (List.getElem?_eq_some_iff.mp hmessage).1
        exact absurd hlt (Nat.not_lt.mpr hle)
      · intro client h
        rw [hnew client h, clientCount]
        dsimp only
        rw [Nat.sub_self]
        rfl
      · intro client h id request hrequest
        rw [hnew client h] at hrequest
        cases hrequest

/-- **One step**: the ledger is kept, and the law holds of the step exactly if
a response that comes in it is timely. -/
theorem step_spec (w : World) (i : Input) (hs : w.Sound)
    (hfew : w.ledger.sent.length + i.cost ≤ 2 ^ 32 - 1) :
    (w.step i).1.Sound ∧
      (w.Timely i → reaching.read w.ledger (w.step i).2 = some (w.step i).1.ledger) ∧
      (¬ w.Timely i → reaching.read w.ledger (w.step i).2 = none) := by
  -- A request: with an in-band client it is noted, without one nothing happens.
  have hrequest (command signalId : String) (hone : w.ledger.sent.length + 1 ≤ 2 ^ 32 - 1) :
      let r := w.requested (w.commander.request command signalId w.ledger.sent.length)
      r.1.Sound ∧ reaching.read w.ledger r.2 = some r.1.ledger := by
    by_cases hclient : ∃ client, w.commander.client = some (.inBand client)
    · obtain ⟨client, hclient⟩ := hclient
      obtain ⟨message, hid, hstep⟩ :=
        requested_of_inBand command signalId w.ledger.sent.length hclient
      rw [hstep]
      exact ⟨hs.requested hclient hid (by omega), rfl⟩
    · rw [requested_of_not_inBand command signalId _ (fun c h => hclient ⟨c, h⟩)]
      exact ⟨hs, rfl⟩
  cases i with
  | subscribe signalId =>
      have h := hrequest ".subscribe" signalId hfew
      exact ⟨h.1, fun _ => h.2, fun hnot => absurd trivial hnot⟩
  | unsubscribe signalId =>
      have h := hrequest ".unsubscribe" signalId hfew
      exact ⟨h.1, fun _ => h.2, fun hnot => absurd trivial hnot⟩
  | init params hasEndpoint =>
      refine ⟨?_, fun _ => rfl, fun hnot => absurd trivial hnot⟩
      exact hs.init params hasEndpoint
  | response params =>
      apply respond_spec hs
      · intro hfree id hid
        exact .inr (hfree id hid)
      · intro id request hid hpending
        constructor
        · intro htimely
          rcases htimely id hid with hrange | hnone
          · exact ⟨hrange, .inl rfl⟩
          · rw [hpending] at hnone
            cases hnone
        · rintro ⟨hrange, -⟩ id' hid'
          rw [hid] at hid'
          obtain rfl := Option.some.inj hid'
          exact .inl hrange
  | answer request outcome =>
      unfold step
      dsimp only
      cases hmessage : w.ledger.sent[request]? with
      | none =>
          refine ⟨hs, fun _ => rfl, fun hnot => absurd ?_ hnot⟩
          intro message id hsome
          rw [hmessage] at hsome
          cases hsome
      | some message =>
          obtain ⟨id, hid, hnonneg, hsmall⟩ := hs.earlier request message hmessage
          have hanswer := idOf_answerTo hid outcome
          have htimely : w.Timely (.answer request outcome) ↔
              w.start ≤ request ∨ w.pending id = none := by
            constructor
            · intro h
              exact h message id hmessage hid
            · intro h message' id' hmessage' hid'
              rw [hmessage] at hmessage'
              obtain rfl := Option.some.inj hmessage'
              rw [hid] at hid'
              obtain rfl := Option.some.inj hid'
              exact h
          apply respond_spec hs
          · intro hfree
            exact htimely.mpr (.inr (hfree id hanswer))
          · intro id' found hid' hpending
            rw [hanswer] at hid'
            obtain rfl := Option.some.inj hid'
            obtain ⟨client, hclient, hfind⟩ := exists_of_pending hpending
            obtain ⟨hle, hlt, hnumber, -⟩ := hs.pending client hclient _ found hfind
            rw [toNat_ofInt hnonneg hsmall] at hnumber
            rw [htimely, hpending]
            constructor
            · rintro (hstart | hnone)
              · -- Both requests are of this client, and have the same id.
                have hown := hs.numbers request message hstart hmessage
                rw [hid] at hown
                have heq := Option.some.inj hown
                have hfound : request = found := by omega
                exact ⟨⟨hnonneg, hsmall⟩, .inr (congrArg some hfound)⟩
              · cases hnone
            · rintro ⟨-, hnone | hsome⟩
              · cases hnone
              · obtain rfl := Option.some.inj hsome
                exact .inl hle

/-- One step as the runs take it. -/
def stepM (w : World) (i : Input) : Option (World × List Event) := some (w.step i)

/-- The requests that inputs can make. -/
def requestCount (inputs : List Input) : Nat := (inputs.map Input.cost).sum

/-- What is sent is within the number of requests. -/
theorem length_sent_step (w : World) (i : Input) :
    (w.step i).1.ledger.sent.length ≤ w.ledger.sent.length + i.cost := by
  have hrequested (r : Commander Nat × Option CommandRequest) :
      (w.requested r).1.ledger.sent.length ≤ w.ledger.sent.length + 1 := by
    obtain ⟨commander, request⟩ := r
    match request with
    | none => exact Nat.le_succ _
    | some (.http method params) => exact Nat.le_succ _
    | some (.inBand message) =>
        unfold requested
        rw [List.length_append, List.length_singleton]
  have hrespond (response : Json) (answers : Option Nat) :
      (w.respond response answers).1.ledger.sent.length ≤ w.ledger.sent.length := by
    unfold respond
    split <;> exact Nat.le_refl _
  cases i with
  | subscribe signalId => exact hrequested _
  | unsubscribe signalId => exact hrequested _
  | init params hasEndpoint => exact Nat.le_refl _
  | response params => exact hrespond params none
  | answer request outcome =>
      unfold step
      dsimp only
      split
      · exact hrespond _ _
      · exact Nat.le_refl _

/-- **Responses reach their requests**, in every run with fewer than `2 ^ 32`
requests, exactly if all of them come in time. -/
theorem responses_reach_iff (inputs : List Input) (hfew : requestCount inputs < 2 ^ 32) :
    ∃ r, Trace.run stepM {} inputs = some r ∧
      ((reaching.read {} r.2).isSome = true ↔
        MeetsOpt (fun w i => (stepM w i).map Prod.fst) Timely {} inputs) := by
  have hadmitted : MeetsOpt (fun w i => (stepM w i).map Prod.fst)
      (fun w i => w.ledger.sent.length + i.cost ≤ 2 ^ 32 - 1) {} inputs := by
    apply meetsOpt_of_budget
    · intro w i w' hw'
      rw [← Option.some.inj hw']
      exact w.length_sent_step i
    · change 0 + requestCount inputs ≤ 2 ^ 32 - 1
      omega
  refine Trace.read_run_iff_of_meets ledger ?_ inputs {} sound_new hadmitted
  intro w i hs hbudget
  exact ⟨w.step i, rfl, w.step_spec i hs hbudget⟩

/-- The `init` message of a peer that offers the in-band interface. -/
def offer : Input :=
  .init (.object [("commandInterfaces", .object [("jsonrpc", .object [])])]) true

/-- A subscription that the peer answers. -/
theorem responses_reach_single :
    ∃ r, Trace.run stepM {} [offer, .subscribe "a", .answer 0 (.ok (.bool true))] = some r ∧
      (reaching.read {} r.2).isSome = true := by
  obtain ⟨r, hrun, hiff⟩ := responses_reach_iff
    [offer, .subscribe "a", .answer 0 (.ok (.bool true))] (by decide)
  refine ⟨r, hrun, hiff.mpr ⟨trivial, ?_⟩⟩
  rintro _ ⟨⟩
  refine ⟨trivial, ?_⟩
  rintro _ ⟨⟩
  refine ⟨?_, fun _ _ => trivial⟩
  intro message id _ _
  exact .inl (Nat.le_refl 0)

/-- **A response completes another request**: with an id that is narrowed to
that of the first request, and as the answer to a request of an earlier
client. -/
theorem responses_reach_another :
    (Trace.run stepM {} [offer, .subscribe "a",
        .response (.object [("id", .integer (2 ^ 32 + 1))])]).map
      (fun r => (reaching.read {} r.2).isSome) = some false ∧
    (Trace.run stepM {} [offer, .subscribe "a", offer, .subscribe "b",
        .answer 0 (.ok (.bool true))]).map
      (fun r => (reaching.read {} r.2).isSome) = some false := by
  constructor <;> decide +kernel

end World

end WsStreaming.Ports.Commander
