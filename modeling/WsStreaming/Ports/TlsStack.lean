import WsStreaming.Ports.TlsConversation
import WsStreaming.Ports.WebsocketStack

/-!
# Two connections over a WebSocket with TLS

The same stack with two TLS peers.  What the connections say to each other is
packed in the same way; what happens to a peer, and how it sends, is different.

## Main results

* `lawful_peers` — the TLS peers are a reliable transport of messages.
* `tls_websocket_streams` — whole runs of the stack.
-/

namespace WsStreaming.Ports

open WsStreaming.Verified.Run
open WsStreaming.Verified.Layers
open WsStreaming.Verified.Wire (Bytes)
open Conversation (Ends Valid room)
open TlsConversation (Pair End Deed Reply Good Through inFlight packetsOf)
open PacketTransport (Peers Adds Carriable ReadBack ThroughOn packetOf messageOf sideOf)

namespace TlsStack

open Advertisement (Side)
open Mirroring (Node Local Streams RefinesDialogue NoThrow)

/-! ## The peers as a transport -/

/-- What happens to a peer apart from `send_data` and `send_metadata`. -/
inductive Turn where
  | start (handedOver : Option Nat)
  | read (ec : ErrorCode) (count : Nat)
  | transmit (i n : Nat) (ec : ErrorCode)
  | finishWrite (i : Nat)
  | stop

/-- The answers of the slots, which send messages. -/
def answer (codec : JsonCodec) (replies : Nat → List Message) (n : Nat) : List Reply :=
  (replies n).map fun m => .send (packetOf codec m)

/-- A turn as a deed of the end. -/
def Turn.deed (codec : JsonCodec) (replies : Nat → List Message) : Turn → Deed
  | .start handedOver => .start handedOver (answer codec replies)
  | .read ec count => .read ec count (answer codec replies)
  | .transmit i n ec => .transmit i n ec
  | .finishWrite i => .finishWrite i
  | .stop => .stop

/-- The calls of the receive path in a turn. -/
def Turn.events (e : End) (incoming : Bytes) : Turn → List Event
  | .start handedOver => if e.started then [] else (e.rx.start (handedOver.map incoming.take)).2
  | .read ec count =>
      if e.rx.reading then
        (TlsConversation.finishRead e.rx ec
          (if ec = .success then incoming.take (min count e.rx.room) else [])).2
      else []
  | .transmit _ _ _ => []
  | .finishWrite _ => []
  | .stop => []

/-- TLS peers. -/
def peers (codec : JsonCodec) : Peers End Deed Unit Turn where
  log e := e.toLog
  isClosed := End.isClosed
  step other e := e.step codec false (inFlight other e)
  send _ _ packet := .send packet
  deed := Turn.deed codec
  events other e := Turn.events e (inFlight other e)

/-- They are a transport of messages. -/
abbrev transport (codec : JsonCodec) : Transport Pair Side Unit Turn Message :=
  (peers codec).transport codec

section Transport

variable {codec : JsonCodec} {rxClient rxServer : Nat} {e e' : End}

theorem filterMap_closure (p p' : PeerTls) :
    (TlsConversation.closure p p').filterMap (messageOf codec) = [] := by
  unfold TlsConversation.closure
  split <;> rfl

/-- The calls of the receive path hand on their messages. -/
theorem filterMap_calls (events : List Event) :
    ∀ {h : PeerTls.History} {replies : Nat → List Reply} {r : PeerTls.History × List Event},
      TlsConversation.calls false (Event.seen codec false) h replies events = some r →
      r.2.filterMap (messageOf codec) = events.filterMap (messageOf codec) := by
  induction events with
  | nil =>
      intro h replies r hcalls
      rw [← Option.some.inj hcalls]
  | cons e es ih =>
      intro h replies r hcalls
      obtain ⟨h', -, hmore⟩ := Option.bind_eq_some_iff.mp hcalls
      obtain ⟨q, hq, rfl⟩ := Option.map_eq_some_iff.mp hmore
      rw [List.filterMap_append, List.filterMap_append, filterMap_closure, List.append_nil, ih hq,
        PacketTransport.filterMap_raised]
      exact (List.filterMap_append (l := [e])).symm

/-- What the slots send. -/
theorem packets_answer (replies : Nat → List Message) (n : Nat) :
    packetsOf (answer codec replies n) = (replies n).map (packetOf codec) := by
  unfold answer packetsOf
  rw [List.filterMap_map]
  show (replies n).filterMap (some ∘ packetOf codec) = _
  rw [List.filterMap_eq_map]

/-- What the slots send may be sent. -/
theorem sends_answer {M : Nat} {replies : Nat → List Message}
    (h : ∀ n, ∀ m ∈ replies n, Carriable codec M m) :
    ∀ n, ∀ p ∈ packetsOf (answer codec replies n), Valid false M p := by
  intro n
  rw [packets_answer]
  exact PacketTransport.valid_packets (h n)

/-- The messages of a turn of the receive path. -/
theorem adds_receive {received : BasePeer × List Event} {consumed : Nat}
    {replies : Nat → List Message} (hreplies : ∀ n, ∀ m ∈ replies n, ReadBack codec m)
    (h : e.turn codec false received consumed (answer codec replies) = some e') :
    Adds codec e.toLog e'.toLog (answered replies (received.2.map (messageOf codec)))
      (received.2.map (messageOf codec)).reduceOption := by
  obtain ⟨r, hr, rfl⟩ := Option.map_eq_some_iff.mp h
  refine PacketTransport.adds_of_turn hreplies ?_ rfl (filterMap_calls _ hr)
  rw [← funext (packets_answer replies)]

/-- A step of the transmit path adds its packets. -/
theorem log_act {action : PeerTls.Action} {packets : List Packet}
    (h : e.act action packets = some e') :
    ∃ more, e'.sent = e.sent ++ packets ∧ e'.heard = e.heard ++ more ∧
      more.filterMap (messageOf codec) = [] := by
  obtain ⟨tx, -, rfl⟩ := Option.map_eq_some_iff.mp h
  exact ⟨_, rfl, rfl, filterMap_closure _ _⟩

/-- **The messages of a turn.** -/
theorem adds_turn {bytes : Bytes} {turn : Turn} {replies : Nat → List Message}
    (hreplies : ∀ n, ∀ m ∈ replies n, ReadBack codec m)
    (h : e.step codec false bytes (turn.deed codec replies) = some e') :
    Adds codec e.toLog e'.toLog (answered replies ((turn.events e bytes).map (messageOf codec)))
      ((turn.events e bytes).map (messageOf codec)).reduceOption := by
  -- A turn without effect.
  have hsame (he : e = e') : Adds codec e.toLog e'.toLog (answered replies []) [] := by
    rw [he]
    exact .refl codec _
  have hact {action : PeerTls.Action} (h : e.act action [] = some e') :
      Adds codec e.toLog e'.toLog [] [] := by
    obtain ⟨more, hsent, hheard, hmore⟩ := log_act h
    exact PacketTransport.adds_of_act hsent hheard hmore
  cases turn with
  | start handedOver =>
      unfold Turn.deed End.step at h
      dsimp only at h
      unfold Turn.events
      dsimp only
      cases hstarted : e.started with
      | true =>
          rw [hstarted, if_pos rfl] at h
          exact hsame (Option.some.inj h)
      | false =>
          rw [hstarted, if_neg Bool.false_ne_true] at h
          rw [if_neg Bool.false_ne_true]
          exact adds_receive hreplies h
  | read ec count =>
      unfold Turn.deed End.step at h
      dsimp only at h
      unfold Turn.events
      dsimp only
      cases hreading : e.rx.reading with
      | false =>
          rw [hreading, if_neg Bool.false_ne_true] at h
          exact hsame (Option.some.inj h)
      | true =>
          rw [hreading, if_pos rfl] at h
          rw [if_pos rfl]
          exact adds_receive hreplies h
  | transmit i n ec => exact hact h
  | finishWrite i => exact hact h
  | stop => exact hact h

/-- **The TLS peers convey packets.** -/
theorem lawful_peers (codec : JsonCodec) (hclient : 0 < rxClient) (hserver : 0 < rxServer) :
    (peers codec).Lawful codec rxClient rxServer (Good codec false rxClient rxServer) Through := by
  -- A step that is taken is the one that keeps both directions.
  have hgood' {c c' : Pair} {side : Conversation.Side} {deed : Deed}
      (hgood : Good codec false rxClient rxServer c)
      (hdeed : deed.Sends (Valid false (room rxClient rxServer side)))
      (hstep : Ends.step (peers codec).step c (side, deed) = some c') :
      Good codec false rxClient rxServer c' := by
    obtain ⟨c₁, hc₁, hkept⟩ := hgood.step hclient hserver (side, deed) hdeed
    rw [show c' = c₁ from Option.some.inj (hstep.symm.trans hc₁)]
    exact hkept
  have hturn {side : Conversation.Side} (turn : Turn) {replies : Nat → List Message}
      (hreplies : ∀ n, ∀ m ∈ replies n, Carriable codec (room rxClient rxServer side) m) :
      (turn.deed codec replies).Sends (Valid false (room rxClient rxServer side)) := by
    cases turn with
    | start handedOver => exact sends_answer hreplies
    | read ec count => exact sends_answer hreplies
    | transmit i n ec => trivial
    | finishWrite i => trivial
    | stop => trivial
  constructor
  · intro c hgood side
    exact (hgood.conveys side).conveyed (Conversation.room_pos hclient hserver side)
      (hgood.own side)
  · intro c c' side _ i m hgood hm hstep
    obtain ⟨he, -⟩ := Ends.step_eq_some hstep
    obtain ⟨more, hsent, hheard, hmore⟩ := log_act he
    have hsends : (Deed.send (packetOf codec m)).Sends
        (Valid false (room rxClient rxServer side)) := hm.valid
    exact ⟨hgood' hgood hsends hstep,
      PacketTransport.adds_of_send hm.readBack hsent hheard hmore⟩
  · intro c c' side turn replies hgood hreplies hstep
    obtain ⟨he, -⟩ := Ends.step_eq_some hstep
    exact ⟨hgood' hgood (hturn turn hreplies) hstep,
      adds_turn (fun n m hm => (hreplies n m hm).readBack) he⟩
  · intro c hgood side turn
    obtain ⟨c', hc', -⟩ := hgood.step hclient hserver (side, turn.deed codec fun _ => [])
      (hturn turn fun _ _ hm => absurd hm List.not_mem_nil)
    exact .inl ⟨c', hc'⟩

end Transport

/-! ## Whole runs -/

/-- Two new peers. -/
def start (rxClient txClient rxServer txServer : Nat) : Pair :=
  { left := .new false rxClient txClient, right := .new false rxServer txServer }

theorem good_start (codec : JsonCodec) (rxClient txClient rxServer txServer : Nat) :
    Good codec false rxClient rxServer (start rxClient txClient rxServer txServer) :=
  Conversation.both_new (TlsConversation.own_new _ _ _ _) (TlsConversation.own_new _ _ _ _)
    (TlsConversation.conveys_new _ _ _ _ _) (TlsConversation.conveys_new _ _ _ _ _)

/-- **Streaming over a WebSocket with TLS.**  In every run of two connections
over two TLS peers that are open, whatever becomes of their writes and reads, in
which the other end can receive what is sent (`Carriable`), and signals have
unique ids and free numbers: the connections do what they do in a run of the
dialogue.  What an application is handed begins what was published on the other
side, and is all of it once everything is through; then the signals are
replicated, too.  No message throws. -/
theorem tls_websocket_streams (codec : JsonCodec) {rxClient rxServer : Nat}
    (hclient : 0 < rxClient) (hserver : 0 < rxServer) (txClient txServer : Nat)
    (clientId serverId : String) (clientInterfaces serverInterfaces : Json)
    (inputs : List (Input Side Local Unit Turn))
    (hadmits : MeetsOpt (Stack.step Node.behaviour (transport codec))
      (Stack.Admits Node.behaviour (transport codec) Node.Admits
        fun side => Carriable codec (room rxClient rxServer (sideOf side)))
      ⟨Mirroring.nodes clientId serverId clientInterfaces serverInterfaces,
        start rxClient txClient rxServer txServer⟩ inputs)
    {s : Stack Side Node Pair}
    (hrun : inputs.foldlM (Stack.step Node.behaviour (transport codec))
      ⟨Mirroring.nodes clientId serverId clientInterfaces serverInterfaces,
        start rxClient txClient rxServer txServer⟩ = some s) :
    RefinesDialogue (transport codec) s
        (.new clientId serverId clientInterfaces serverInterfaces) ∧
      Streams s (ThroughOn Through s.transport) ∧ NoThrow (transport codec) s := by
  have hnothing (side : Side) :
      (transport codec).sent (start rxClient txClient rxServer txServer) side = [] ∧
        (transport codec).heard (start rxClient txClient rxServer txServer) side = [] := by
    cases side <;> exact ⟨rfl, rfl⟩
  have hlawful := lawful_peers codec hclient hserver
  exact Mirroring.stack_streams hlawful.reliable
    (good_start codec rxClient txClient rxServer txServer) hnothing inputs hadmits hrun
    fun hgood _ hthrough => hlawful.heard_of_through hgood hthrough

/-- Writes that are finished one after another. -/
def finishWrites (side : Side) (count : Nat) : List (Input Side Local Unit Turn) :=
  (List.replicate count [Input.turn side (.transmit 0 0 .success),
    .turn side (.finishWrite 0)]).flatten

/-- The server greets, the signal is subscribed over HTTP and published on;
everything is written and read in three parts, the client answers the greeting,
and the server reads the answer. -/
def session : List (Input Side Local Unit Turn) :=
  [.act .server (.add LocalSignals.bareSignal) (), .act .server .run (),
    .turn .client (.start none), .turn .server (.start (some 0)),
    .act .server (.command ".subscribe" (.string "signal")) (),
    .turn .server (.transmit 0 0 .success), .turn .client (.read .success 20),
    .turn .server (.finishWrite 0), .act .server (.publish 0 0 1 [2, 3]) ()] ++
  finishWrites .server 5 ++
  [.turn .client (.read .success 100), .turn .client (.read .success 200)] ++
  finishWrites .client 2 ++ [.turn .server (.read .success 200)]

theorem tls_websocket_streams_session :
    ∃ s : Stack Side Node Pair,
      session.foldlM (Stack.step Node.behaviour (transport WebsocketStack.sessionCodec))
        ⟨Mirroring.nodes "" "" .null .null, start 256 512 256 512⟩ = some s ∧
      (s.node .client).heard = [⟨"signal", [2, 3]⟩] ∧
      RefinesDialogue (transport WebsocketStack.sessionCodec) s (.new "" "" .null .null) ∧
      Streams s (ThroughOn Through s.transport) ∧
        NoThrow (transport WebsocketStack.sessionCodec) s := by
  have hheard : (session.foldlM (Stack.step Node.behaviour
      (transport WebsocketStack.sessionCodec))
        ⟨Mirroring.nodes "" "" .null .null, start 256 512 256 512⟩).map
          (fun s => (s.node .client).heard) = some [⟨"signal", [2, 3]⟩] := by
    decide +kernel
  obtain ⟨s, hs, hlog⟩ := Option.map_eq_some_iff.mp hheard
  exact ⟨s, hs, hlog, tls_websocket_streams WebsocketStack.sessionCodec (by decide) (by decide)
    512 512 "" "" .null .null session (by decide +kernel) hs⟩

end TlsStack

end WsStreaming.Ports
