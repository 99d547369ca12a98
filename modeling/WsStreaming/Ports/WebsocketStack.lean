import WsStreaming.Ports.Conversation
import WsStreaming.Ports.PacketTransport

/-!
# Two connections over a WebSocket

The whole stack: two connections with their applications, which send messages;
two plaintext peers, which make packets and frames of them; and two sockets that
take and hand over bytes as they like.

The connections talk as if messages went through queues.  The run of a stack
ends where a peer is closed.

## Main results

* `lawful_peers` — the peers are a reliable transport of messages.
* `websocket_streams` — whole runs of the stack.
-/

namespace WsStreaming.Ports

open WsStreaming.Verified.Run
open WsStreaming.Verified.Layers
open WsStreaming.Verified.Wire (Bytes)
open Conversation (Pair End Ends Deed Reply Replies Good Own Valid Through inFlight room)
open PacketTransport (Peers Adds Carriable ReadBack ThroughOn packetOf messageOf sideOf)

namespace WebsocketStack

open Advertisement (Side)
open Mirroring (Node Local Streams RefinesDialogue NoThrow)

/-! ## The peers as a transport -/

/-- What happens to a peer apart from `send_data` and `send_metadata`; the socket
takes what is sent in the slots as `outcomes` has it, for each call and each
message of its slots. -/
inductive Turn where
  | start (handedOver : Option Nat) (outcomes : Nat → Nat → SendOutcome)
  | read (waitEc : ErrorCode) (count : Nat) (receiveEc : ErrorCode)
      (outcomes : Nat → Nat → SendOutcome)
  | finishWaitTx (waitEc : ErrorCode) (outcome : SendOutcome)
  | stop

/-- The answers of the slots, which send messages. -/
def answer (codec : JsonCodec) (outcomes : Nat → Nat → SendOutcome) (replies : Nat → List Message)
    (n : Nat) : Replies :=
  { outcome := outcomes n 0
    slots := (replies n).zipIdx.map fun x => .send (packetOf codec x.1) (outcomes n x.2) }

/-- A turn as a deed of the end. -/
def Turn.deed (codec : JsonCodec) (replies : Nat → List Message) : Turn → Deed
  | .start handedOver outcomes => .start handedOver (answer codec outcomes replies)
  | .read waitEc count receiveEc outcomes =>
      .read waitEc count receiveEc (answer codec outcomes replies)
  | .finishWaitTx waitEc outcome => .finishWaitTx waitEc outcome
  | .stop => .stop

/-- The calls of the receive path in a turn. -/
def Turn.events (e : End) (incoming : Bytes) : Turn → List Event
  | .start handedOver _ =>
      if e.started then [] else (e.peer.rx.start (handedOver.map incoming.take)).2
  | .read waitEc count receiveEc _ =>
      (e.peer.received (.read waitEc (incoming.take count) receiveEc fun _ => ⟨.wouldBlock, []⟩)).2
  | .finishWaitTx _ _ => []
  | .stop => []

/-- Plaintext peers; the socket takes the messages that are sent as `outcomes`
has it. -/
def peers (codec : JsonCodec) : Peers End Deed (Nat → SendOutcome) Turn where
  log e := e.toLog
  isClosed := End.isClosed
  step other e := e.step codec false (inFlight other e)
  send outcomes i packet := .send packet (outcomes i)
  deed := Turn.deed codec
  events other e := Turn.events e (inFlight other e)

/-- They are a transport of messages. -/
abbrev transport (codec : JsonCodec) : Transport Pair Side (Nat → SendOutcome) Turn Message :=
  (peers codec).transport codec

section Transport

variable {codec : JsonCodec} {rxClient rxServer : Nat} {c c' : Pair} {e e' : End}

/-- What a step of an end adds to what it was told to send and to what it has
raised. -/
theorem log_advance {input : Duplex.Input} {consumed : Nat} {packets : List Packet}
    (h : e.advance codec input consumed packets = some e') :
    ∃ r, e.peer.step codec input = some r ∧ e'.sent = e.sent ++ packets ∧
      e'.heard = e.heard ++ r.2 := by
  obtain ⟨r, hr, rfl⟩ := Option.map_eq_some_iff.mp h
  exact ⟨r, hr, rfl, rfl⟩

theorem filterMap_closure (p p' : Peer) : (p.closure p').filterMap (messageOf codec) = [] := by
  unfold Peer.closure
  split <;> rfl

/-- The calls of the receive path hand on their messages. -/
theorem filterMap_calls (events : List Event) :
    ∀ {p : Peer} {answers : Nat → Answer} {r : Peer × List Event},
      p.calls (Event.seen codec false) answers events = some r →
      r.2.filterMap (messageOf codec) = events.filterMap (messageOf codec) := by
  induction events with
  | nil =>
      intro p answers r h
      rw [← Option.some.inj h]
  | cons e es ih =>
      intro p answers r h
      obtain ⟨p', -, hmore⟩ := Option.bind_eq_some_iff.mp h
      obtain ⟨q, hq, rfl⟩ := Option.map_eq_some_iff.mp hmore
      rw [List.filterMap_append, List.filterMap_append, filterMap_closure, List.append_nil, ih hq,
        PacketTransport.filterMap_raised]
      exact (List.filterMap_append (l := [e])).symm

/-- What the slots send. -/
theorem packets_answer (outcomes : Nat → Nat → SendOutcome) (replies : Nat → List Message)
    (n : Nat) : (answer codec outcomes replies n).packets = (replies n).map (packetOf codec) := by
  unfold answer Replies.packets
  rw [List.filterMap_map]
  show (replies n).zipIdx.filterMap (some ∘ (packetOf codec ∘ Prod.fst)) = _
  rw [List.filterMap_eq_map, ← List.map_map, List.zipIdx_map_fst]

/-- What the slots send may be sent. -/
theorem sends_answer {M : Nat} {outcomes : Nat → Nat → SendOutcome} {replies : Nat → List Message}
    (h : ∀ n, ∀ m ∈ replies n, Carriable codec M m) :
    ∀ n, ∀ p ∈ (answer codec outcomes replies n).packets, Valid false M p := by
  intro n
  rw [packets_answer]
  exact PacketTransport.valid_packets (h n)

/-- The messages of a step of the receive path. -/
theorem adds_receive {input : Duplex.Input} {consumed : Nat}
    {outcomes : Nat → Nat → SendOutcome} {replies : Nat → List Message}
    (hmode : e.peer.rx.useTcpProtocol = false) (hreplies : ∀ n, ∀ m ∈ replies n, ReadBack codec m)
    {rx : BasePeer} {events : List Event} {answers : Nat → Answer}
    (hinput : e.peer.step codec input =
      (e.peer.tx.calls (e.peer.isSeen codec) answers events).map fun r => (Duplex.join rx r.1, r.2))
    (h : e.advance codec input consumed (Conversation.answered (e.peer.isSeen codec)
      (fun n => (answer codec outcomes replies n).packets) events) = some e') :
    Adds codec e.toLog e'.toLog (answered replies (events.map (messageOf codec)))
      (events.map (messageOf codec)).reduceOption := by
  have hseen : e.peer.isSeen codec = Event.seen codec false := by
    unfold Duplex.isSeen
    rw [hmode]
  obtain ⟨r, hr, hsent, hheard⟩ := log_advance h
  rw [hinput] at hr
  obtain ⟨q, hq, rfl⟩ := Option.map_eq_some_iff.mp hr
  rw [hseen] at hq hsent
  rw [funext (packets_answer outcomes replies)] at hsent
  exact PacketTransport.adds_of_turn hreplies hsent hheard (filterMap_calls events hq)

/-- A step apart from the receive path adds its packets. -/
theorem log_act {action : Peer.Action} {packets : List Packet}
    (h : e.advance codec (.act action) 0 packets = some e') :
    ∃ more, e'.sent = e.sent ++ packets ∧ e'.heard = e.heard ++ more ∧
      more.filterMap (messageOf codec) = [] := by
  obtain ⟨r, hr, hsent, hheard⟩ := log_advance h
  obtain ⟨h', -, rfl⟩ := Option.map_eq_some_iff.mp hr
  exact ⟨_, hsent, hheard, filterMap_closure _ _⟩

/-- **The messages of a turn.** -/
theorem adds_turn {bytes : Bytes} {turn : Turn} {replies : Nat → List Message}
    (hmode : e.peer.rx.useTcpProtocol = false) (hreplies : ∀ n, ∀ m ∈ replies n, ReadBack codec m)
    (h : e.step codec false bytes (turn.deed codec replies) = some e') :
    Adds codec e.toLog e'.toLog (answered replies ((turn.events e bytes).map (messageOf codec)))
      ((turn.events e bytes).map (messageOf codec)).reduceOption := by
  have hact {action : Peer.Action} (h : e.advance codec (.act action) 0 [] = some e') :
      Adds codec e.toLog e'.toLog [] [] := by
    obtain ⟨more, hsent, hheard, hmore⟩ := log_act h
    exact PacketTransport.adds_of_act hsent hheard hmore
  cases turn with
  | start handedOver outcomes =>
      unfold Turn.deed End.step at h
      dsimp only at h
      unfold Turn.events
      dsimp only
      cases hstarted : e.started with
      | true =>
          rw [hstarted, if_pos rfl] at h
          cases h
      | false =>
          rw [hstarted, if_neg Bool.false_ne_true] at h
          rw [if_neg Bool.false_ne_true]
          have hadds := adds_receive (e := { e with started := true }) hmode hreplies rfl h
          exact ⟨hadds.sent, hadds.heard⟩
  | read waitEc count receiveEc outcomes => exact adds_receive hmode hreplies rfl h
  | finishWaitTx waitEc outcome => exact hact h
  | stop => exact hact h

/-- A turn is defined unless it starts an end again, and then makes no calls. -/
theorem turn_defined {side : Conversation.Side} {M : Nat} (hown : Own false M (c.on side))
    (turn : Turn) (replies : Nat → List Message) :
    (∃ c', Ends.step (peers codec).step c (side, turn.deed codec replies) = some c') ∨
      (peers codec).events (c.on side.other) (c.on side) turn = [] := by
  have hsound : (c.on side).peer.tx.Sound := ⟨_, hown.sends⟩
  have hadvance {e : End} (he : e.peer = (c.on side).peer) (input : Duplex.Input)
      (consumed : Nat) (packets : List Packet) :
      ∃ e', e.advance codec input consumed packets = some e' := by
    obtain ⟨r, hr, -⟩ := Duplex.step_silent codec e.peer input (by rw [he]; exact hsound)
    unfold End.advance
    rw [hr]
    exact ⟨_, rfl⟩
  have hpair (h : ∃ e', (c.on side).step codec false (inFlight (c.on side.other) (c.on side))
      (turn.deed codec replies) = some e') :
      ∃ c', Ends.step (peers codec).step c (side, turn.deed codec replies) = some c' := by
    obtain ⟨e', he'⟩ := h
    exact ⟨c.put e' side, congrArg (Option.map fun e => c.put e side) he'⟩
  cases turn with
  | start handedOver outcomes =>
      cases hstarted : (c.on side).started with
      | true => exact .inr (if_pos hstarted)
      | false =>
          refine .inl (hpair ?_)
          unfold Turn.deed End.step
          dsimp only
          rw [hstarted, if_neg Bool.false_ne_true]
          exact hadvance (e := { c.on side with started := true }) rfl _ _ _
  | read waitEc count receiveEc outcomes => exact .inl (hpair (hadvance rfl _ _ _))
  | finishWaitTx waitEc outcome => exact .inl (hpair (hadvance rfl _ _ _))
  | stop => exact .inl (hpair (hadvance rfl _ _ _))

/-- **The peers convey packets.** -/
theorem lawful_peers (codec : JsonCodec) (hclient : 0 < rxClient) (hserver : 0 < rxServer) :
    (peers codec).Lawful codec rxClient rxServer (Good codec false rxClient rxServer) Through := by
  constructor
  · intro c hgood side
    exact (hgood.conveys side).conveyed (Conversation.room_pos hclient hserver side)
      (hgood.own side)
  · intro c c' side outcomes i m hgood hm hstep
    obtain ⟨he, -⟩ := Ends.step_eq_some hstep
    obtain ⟨more, hsent, hheard, hmore⟩ := log_act he
    exact ⟨hgood.step hclient hserver (side, .send _ _) hm.valid hstep,
      PacketTransport.adds_of_send hm.readBack hsent hheard hmore⟩
  · intro c c' side turn replies hgood hreplies hstep
    have hdeed : (turn.deed codec replies).Sends (Valid false (room rxClient rxServer side)) := by
      cases turn with
      | start handedOver outcomes => exact sends_answer hreplies
      | read waitEc count receiveEc outcomes => exact sends_answer hreplies
      | finishWaitTx waitEc outcome => trivial
      | stop => trivial
    obtain ⟨he, -⟩ := Ends.step_eq_some hstep
    exact ⟨hgood.step hclient hserver (side, _) hdeed hstep,
      adds_turn (hgood.own side).mode (fun n m hm => (hreplies n m hm).readBack) he⟩
  · exact fun hgood side turn => turn_defined (hgood.own side) turn fun _ => []

end Transport

/-! ## Whole runs -/

/-- Two new peers. -/
def start (rxClient txClient rxServer txServer : Nat) : Pair :=
  { left := .new false rxClient txClient, right := .new false rxServer txServer }

theorem good_start (codec : JsonCodec) (rxClient txClient rxServer txServer : Nat) :
    Good codec false rxClient rxServer (start rxClient txClient rxServer txServer) :=
  Conversation.both_new (Conversation.own_new _ _ _ _) (Conversation.own_new _ _ _ _)
    (Conversation.conveys_new _ _ _ _ _) (Conversation.conveys_new _ _ _ _ _)

/-- **Streaming over a WebSocket.**  In every run of two connections over two
plaintext peers that are open, whatever the sockets take and hand over, in which
the other end can receive what is sent (`Carriable`), and signals have unique ids
and free numbers: the connections do what they do in a run of the dialogue.  What
an application is handed begins what was published on the other side, and is all
of it once everything is through; then the signals are replicated, too.  No
message throws. -/
theorem websocket_streams (codec : JsonCodec) {rxClient rxServer : Nat} (hclient : 0 < rxClient)
    (hserver : 0 < rxServer) (txClient txServer : Nat) (clientId serverId : String)
    (clientInterfaces serverInterfaces : Json)
    (inputs : List (Input Side Local (Nat → SendOutcome) Turn))
    (hadmits : MeetsOpt (Stack.step Node.behaviour (transport codec))
      (Stack.Admits Node.behaviour (transport codec) Node.Admits
        fun side => Carriable codec (room rxClient rxServer (sideOf side)))
      ⟨Mirroring.nodes clientId serverId clientInterfaces serverInterfaces,
        start rxClient txClient rxServer txServer⟩ inputs)
    {s : Stack Side Node Pair}
    (hrun : inputs.foldlM (Stack.step Node.behaviour (transport codec))
      ⟨Mirroring.nodes clientId serverId clientInterfaces serverInterfaces,
        start rxClient txClient rxServer txServer⟩ = some s) :
    RefinesDialogue (transport codec) s
        (.new clientId serverId clientInterfaces serverInterfaces) ∧
      Streams s (ThroughOn Through s.transport) ∧ NoThrow (transport codec) s := by
  have hnothing (side : Side) :
      (transport codec).sent (start rxClient txClient rxServer txServer) side = [] ∧
        (transport codec).heard (start rxClient txClient rxServer txServer) side = [] := by
    cases side <;> exact ⟨rfl, rfl⟩
  have hlawful := lawful_peers codec hclient hserver
  exact Mirroring.stack_streams hlawful.reliable
    (good_start codec rxClient txClient rxServer txServer) hnothing inputs hadmits hrun
    fun hgood _ hthrough => hlawful.heard_of_through hgood hthrough

/-! ## A session -/

/-- The metadata messages of a session in MessagePack. -/
def sessionMsgpack : List (MetadataMessage × Bytes) :=
  [(apiVersionMessage, apiVersionMsgpack),
    (⟨0, "init", .object [("commandInterfaces", .null), ("streamId", .string "")]⟩,
      [0x82, 0xa6, 0x6d, 0x65, 0x74, 0x68, 0x6f, 0x64, 0xa4, 0x69, 0x6e, 0x69, 0x74, 0xa6, 0x70,
        0x61, 0x72, 0x61, 0x6d, 0x73, 0x82, 0xb1, 0x63, 0x6f, 0x6d, 0x6d, 0x61, 0x6e, 0x64, 0x49,
        0x6e, 0x74, 0x65, 0x72, 0x66, 0x61, 0x63, 0x65, 0x73, 0xc0, 0xa8, 0x73, 0x74, 0x72, 0x65,
        0x61, 0x6d, 0x49, 0x64, 0xa0]),
    (⟨0, "available", .object [("signalIds", .array [.string "signal"])]⟩,
      [0x82, 0xa6, 0x6d, 0x65, 0x74, 0x68, 0x6f, 0x64, 0xa9, 0x61, 0x76, 0x61, 0x69, 0x6c, 0x61,
        0x62, 0x6c, 0x65, 0xa6, 0x70, 0x61, 0x72, 0x61, 0x6d, 0x73, 0x81, 0xa9, 0x73, 0x69, 0x67,
        0x6e, 0x61, 0x6c, 0x49, 0x64, 0x73, 0x91, 0xa6, 0x73, 0x69, 0x67, 0x6e, 0x61, 0x6c]),
    (⟨1, "subscribe", .object [("signalId", .string "signal")]⟩,
      [0x82, 0xa6, 0x6d, 0x65, 0x74, 0x68, 0x6f, 0x64, 0xa9, 0x73, 0x75, 0x62, 0x73, 0x63, 0x72,
        0x69, 0x62, 0x65, 0xa6, 0x70, 0x61, 0x72, 0x61, 0x6d, 0x73, 0x81, 0xa8, 0x73, 0x69, 0x67,
        0x6e, 0x61, 0x6c, 0x49, 0x64, 0xa6, 0x73, 0x69, 0x67, 0x6e, 0x61, 0x6c]),
    (⟨1, "signal", .object [("valueIndex", .integer 0)]⟩,
      [0x82, 0xa6, 0x6d, 0x65, 0x74, 0x68, 0x6f, 0x64, 0xa6, 0x73, 0x69, 0x67, 0x6e, 0x61, 0x6c,
        0xa6, 0x70, 0x61, 0x72, 0x61, 0x6d, 0x73, 0x81, 0xaa, 0x76, 0x61, 0x6c, 0x75, 0x65, 0x49,
        0x6e, 0x64, 0x65, 0x78, 0x00])]

/-- What the JSON library makes of these messages. -/
def sessionCodec : JsonCodec :=
  { toMsgpack := fun j =>
      ((sessionMsgpack.find? fun x => x.1.envelope = j).map Prod.snd).getD []
    fromMsgpack := fun b => (sessionMsgpack.find? fun x => x.2 = b).map fun x => x.1.envelope
    parse := fun _ => none }

/-- The server greets, but its socket takes 30 bytes only; the signal is
subscribed over HTTP and published on; then everything is taken and read, the
client answers the greeting, and the server reads the answer. -/
def session : List (Input Side Local (Nat → SendOutcome) Turn) :=
  let all := fun _ => SendOutcome.sent 300
  [.act .server (.add LocalSignals.bareSignal) all, .act .server .run fun _ => .sent 30,
    .turn .client (.start none fun _ => all), .turn .server (.start (some 0) fun _ => all),
    .act .server (.command ".subscribe" (.string "signal")) all,
    .act .server (.publish 0 0 1 [2, 3]) all,
    .turn .client (.read .success 40 .success fun _ => all),
    .turn .server (.finishWaitTx .success (.sent 300)),
    .turn .client (.read .success 100 .success fun _ => all),
    .turn .client (.read .success 200 .success fun _ => all),
    .turn .server (.read .success 200 .success fun _ => all)]

theorem websocket_streams_session :
    ∃ s : Stack Side Node Pair,
      session.foldlM (Stack.step Node.behaviour (transport sessionCodec))
        ⟨Mirroring.nodes "" "" .null .null, start 256 512 256 512⟩ = some s ∧
      (s.node .client).heard = [⟨"signal", [2, 3]⟩] ∧
      RefinesDialogue (transport sessionCodec) s (.new "" "" .null .null) ∧
      Streams s (ThroughOn Through s.transport) ∧ NoThrow (transport sessionCodec) s := by
  have hheard : (session.foldlM (Stack.step Node.behaviour (transport sessionCodec))
      ⟨Mirroring.nodes "" "" .null .null, start 256 512 256 512⟩).map
        (fun s => (s.node .client).heard) = some [⟨"signal", [2, 3]⟩] := by
    decide +kernel
  obtain ⟨s, hs, hlog⟩ := Option.map_eq_some_iff.mp hheard
  exact ⟨s, hs, hlog, websocket_streams sessionCodec (by decide) (by decide) 512 512 "" "" .null
    .null session (by decide +kernel) hs⟩

end WebsocketStack

end WsStreaming.Ports
