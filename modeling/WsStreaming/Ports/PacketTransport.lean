import WsStreaming.Ports.Ends
import WsStreaming.Ports.StreamingNodes

/-!
# Messages over two ends

A connection sends messages.  `send_data` and `send_metadata` of its peer make
packets of them, and the receive path of the other peer makes messages of these
again.  Two ends that convey packets are a transport of messages, whatever the
peers are made of.

## Main results

* `Peers.Lawful.reliable` — peers that convey packets are a reliable transport
  of messages.
* `Peers.Lawful.heard_of_through` — what is through has been heard.
-/

namespace WsStreaming.Ports

open WsStreaming.Verified.Run
open WsStreaming.Verified.Layers
open WsStreaming.Verified.Wire (Bytes)
open StreamingProtocol (packetTypeData)
open Conversation (Ends Log Conveyed Valid room)

namespace PacketTransport

open Advertisement (Side)

/-! ## Messages as packets -/

/-- The packet of `send_data` or `send_metadata`. -/
def packetOf (codec : JsonCodec) : Message → Packet
  | .data signo data => { signo := signo, type := packetTypeData, payload := [data] }
  | .metadata m => m.packet codec

/-- What a call of the receive path hands to the connection. -/
def messageOf (codec : JsonCodec) : Event → Option Message
  | .dataPacket signo payload => some (.data signo payload)
  | .metadataPacket signo payload =>
      (processMetadataPacket codec false signo payload).map .metadata
  | .controlFrame _ _ _ => none
  | .closed _ => none

/-- The JSON library reads back what it writes. -/
def ReadBack (codec : JsonCodec) : Message → Prop
  | .data _ _ => True
  | .metadata m => codec.fromMsgpack (codec.toMsgpack m.envelope) = some m.envelope

/-- A message that can be sent to a peer with a receive buffer of `M` bytes. -/
structure Carriable (codec : JsonCodec) (M : Nat) (m : Message) : Prop where
  valid : Valid false M (packetOf codec m)
  readBack : ReadBack codec m

instance (codec : JsonCodec) : (m : Message) → Decidable (ReadBack codec m)
  | .data _ _ => isTrue trivial
  | .metadata _ => inferInstanceAs (Decidable (_ = _))

instance (codec : JsonCodec) (M : Nat) (m : Message) : Decidable (Carriable codec M m) :=
  have : Decidable (packetOf codec m).Sendable := inferInstanceAs (Decidable (_ ∧ _))
  decidable_of_iff
    (((packetOf codec m).Sendable ∧ (packetOf codec m).Readable ∧
      ((packetOf codec m).bytes false).length ≤ M) ∧ ReadBack codec m)
    ⟨fun h => ⟨⟨h.1.1, h.1.2.1, h.1.2.2⟩, h.2⟩,
      fun h => ⟨⟨h.valid.sendable, h.valid.readable, h.valid.fits⟩, h.readBack⟩⟩

section Messages

variable {codec : JsonCodec} {M : Nat}

theorem messageOf_packetOf {m : Message} (h : ReadBack codec m) :
    messageOf codec (packetOf codec m).event = some m := by
  cases m with
  | data signo data => simp [packetOf, Packet.event, messageOf]
  | metadata m =>
      have hreceived := metadataReceived_websocket (m := m) h
      unfold metadataReceived at hreceived
      rw [event_packet] at hreceived
      show messageOf codec (m.packet codec).event = _
      rw [event_packet]
      unfold messageOf
      cases hm : processMetadataPacket codec false m.signo
          (2 :: 0 :: 0 :: 0 :: codec.toMsgpack m.envelope) with
      | none => simp [hm] at hreceived
      | some m' => simpa [hm] using hreceived

/-- What is seen outside of data and metadata packets is what is handed on. -/
theorem messageOf_of_unseen {e : Event} (h : Event.seen codec false e = false) :
    messageOf codec e = none := by
  cases e with
  | dataPacket signo payload => cases h
  | metadataPacket signo payload =>
      unfold messageOf
      dsimp only
      unfold Event.seen at h
      dsimp only at h
      rw [Option.isSome_eq_false_iff, Option.isNone_iff_eq_none] at h
      rw [h]
      rfl
  | controlFrame opcode payload shutdownAfter => rfl
  | closed ec => rfl

/-- Packets of messages that can be sent may be sent. -/
theorem valid_packets {messages : List Message} (h : ∀ m ∈ messages, Carriable codec M m) :
    ∀ p ∈ messages.map (packetOf codec), Valid false M p := by
  intro p hp
  obtain ⟨m, hm, rfl⟩ := List.mem_map.mp hp
  exact (h m hm).valid

/-- The messages of packets. -/
theorem filterMap_packetOf {messages : List Message}
    (h : ∀ m ∈ messages, ReadBack codec m) :
    (messages.map (packetOf codec)).filterMap (fun p => messageOf codec p.event) = messages := by
  rw [List.filterMap_map]
  have hsome : ∀ m ∈ messages,
      ((fun p : Packet => messageOf codec p.event) ∘ packetOf codec) m = some m :=
    fun m hm => messageOf_packetOf (h m hm)
  rw [List.filterMap_congr hsome, List.filterMap_some]

/-- What is raised hands on what is seen of it. -/
theorem filterMap_reports (events : List Event) :
    (Conversation.reports events).filterMap (messageOf codec) =
      events.filterMap (messageOf codec) := by
  unfold Conversation.reports
  rw [List.filterMap_filter]
  apply List.filterMap_congr
  intro e _
  cases e with
  | closed ec => rfl
  | dataPacket signo payload => rfl
  | metadataPacket signo payload => rfl
  | controlFrame opcode payload shutdownAfter => rfl

theorem filterMap_seen (events : List Event) :
    (events.filter (Event.seen codec false)).filterMap (messageOf codec) =
      events.filterMap (messageOf codec) := by
  rw [List.filterMap_filter]
  apply List.filterMap_congr
  intro e _
  split
  · rfl
  · rename_i hunseen
    exact (messageOf_of_unseen (Bool.eq_false_iff.mpr hunseen)).symm

/-- What is raised of packets hands on their messages. -/
theorem filterMap_of_reports {heard : List Event} {packets : List Packet}
    (h : Conversation.reports heard =
      (packets.map Packet.event).filter (Event.seen codec false)) :
    heard.filterMap (messageOf codec) = packets.filterMap fun p => messageOf codec p.event := by
  rw [← filterMap_reports, h, filterMap_seen, List.filterMap_map]
  rfl

/-- A call that raises what is seen hands on its message. -/
theorem filterMap_raised (e : Event) :
    (if Event.seen codec false e then [e] else []).filterMap (messageOf codec) =
      [e].filterMap (messageOf codec) := by
  cases hseen : Event.seen codec false e with
  | true => rfl
  | false => exact (List.filterMap_cons_none (messageOf_of_unseen hseen)).symm

/-- A metadata packet is seen if it hands a message on. -/
theorem isSome_messageOf_metadata (signo : UInt32) (payload : Bytes) :
    (messageOf codec (.metadataPacket signo payload)).isSome =
      Event.seen codec false (.metadataPacket signo payload) := by
  unfold messageOf
  rw [Option.isSome_map]
  rfl

end Messages

/-! ## The messages of a log -/

/-- The messages that an end was told to send. -/
def sentMessages (codec : JsonCodec) (l : Log) : List Message :=
  l.sent.filterMap fun p => messageOf codec p.event

/-- The messages that an end has handed on. -/
def heardMessages (codec : JsonCodec) (l : Log) : List Message :=
  l.heard.filterMap (messageOf codec)

/-- An end was told to send messages, and has handed others on. -/
structure Adds (codec : JsonCodec) (l l' : Log) (sent heard : List Message) : Prop where
  sent : sentMessages codec l' = sentMessages codec l ++ sent
  heard : heardMessages codec l' = heardMessages codec l ++ heard

section Logs

variable {codec : JsonCodec} {l l' sender receiver : Log} {isThrough : Prop}

theorem Adds.refl (codec : JsonCodec) (l : Log) : Adds codec l l [] [] :=
  ⟨(List.append_nil _).symm, (List.append_nil _).symm⟩

/-- What is on the way to a peer, in messages. -/
theorem isPrefix_heard (h : Conveyed codec false sender receiver isThrough) :
    heardMessages codec receiver <+: sentMessages codec sender := by
  obtain ⟨n, -, hreports, -⟩ := h
  unfold heardMessages
  rw [filterMap_of_reports hreports]
  exact (List.take_prefix n sender.sent).filterMap _

/-- What is through has been heard. -/
theorem heard_of_conveyed (h : Conveyed codec false sender receiver isThrough)
    (hthrough : isThrough) : heardMessages codec receiver = sentMessages codec sender := by
  obtain ⟨n, -, hreports, hall⟩ := h
  unfold heardMessages
  rw [filterMap_of_reports hreports, hall hthrough, List.take_length]
  rfl

/-- What is sent in answer to calls, in packets. -/
theorem answered_packets (events : List Event) :
    ∀ replies : Nat → List Message,
      Conversation.answered (Event.seen codec false) (fun n => (replies n).map (packetOf codec))
          events =
        (answered replies (events.map (messageOf codec))).map (packetOf codec) := by
  induction events with
  | nil => exact fun _ => rfl
  | cons e es ih =>
      intro replies
      rw [List.map_cons, answered, List.map_append, ← ih]
      refine congrArg (· ++ _) ?_
      -- Only the calls that hand a message on have slots to answer them.
      cases e with
      | dataPacket signo payload => rfl
      | metadataPacket signo payload =>
          dsimp only
          rw [isSome_messageOf_metadata]
          split <;> rfl
      | controlFrame opcode payload shutdownAfter => rfl
      | closed ec => rfl

/-- A turn of the receive path. -/
theorem adds_of_turn {replies : Nat → List Message} {events more : List Event}
    (hreplies : ∀ n, ∀ m ∈ replies n, ReadBack codec m)
    (hsent : l'.sent = l.sent ++ Conversation.answered (Event.seen codec false)
      (fun n => (replies n).map (packetOf codec)) events)
    (hheard : l'.heard = l.heard ++ more)
    (hmore : more.filterMap (messageOf codec) = events.filterMap (messageOf codec)) :
    Adds codec l l' (answered replies (events.map (messageOf codec)))
      (events.map (messageOf codec)).reduceOption := by
  constructor
  · unfold sentMessages
    rw [hsent, List.filterMap_append, answered_packets,
      filterMap_packetOf (forall_mem_answered hreplies)]
  · unfold heardMessages
    rw [hheard, List.filterMap_append, hmore, List.reduceOption, List.filterMap_map]
    rfl

/-- A step apart from the receive path. -/
theorem adds_of_act {packets : List Packet} {more : List Event}
    (hsent : l'.sent = l.sent ++ packets) (hheard : l'.heard = l.heard ++ more)
    (hmore : more.filterMap (messageOf codec) = []) :
    Adds codec l l' (packets.filterMap fun p => messageOf codec p.event) [] := by
  constructor
  · unfold sentMessages
    rw [hsent, List.filterMap_append]
  · unfold heardMessages
    rw [hheard, List.filterMap_append, hmore]

/-- A message that is sent. -/
theorem adds_of_send {m : Message} {more : List Event} (hm : ReadBack codec m)
    (hsent : l'.sent = l.sent ++ [packetOf codec m]) (hheard : l'.heard = l.heard ++ more)
    (hmore : more.filterMap (messageOf codec) = []) : Adds codec l l' [m] [] := by
  have hadds := adds_of_act hsent hheard hmore
  have hone : ([m].map (packetOf codec)).filterMap (fun p => messageOf codec p.event) = [m] :=
    filterMap_packetOf (List.forall_mem_singleton.mpr hm)
  rw [List.map_singleton] at hone
  rw [hone] at hadds
  exact hadds

end Logs

/-! ## Peers as a transport -/

/-- The client is the left end. -/
def sideOf : Side → Conversation.Side
  | .client => .left
  | .server => .right

theorem sideOf_other (side : Side) : sideOf side.other = (sideOf side).other := by
  cases side <;> rfl

/-- Peers of one kind: the log of an end, whether it is closed, and a step of it,
which finds the other end as it is; the deed that sends a packet, and a turn of
an end as a deed, given the answers; and the calls of the receive path in a
turn. -/
structure Peers (ε δ σ θ : Type) where
  log : ε → Log
  isClosed : ε → Bool
  step : ε → ε → δ → Option ε
  send : σ → Nat → Packet → δ
  deed : (Nat → List Message) → θ → δ
  events : ε → ε → θ → List Event

section Peers

variable {ε δ σ θ : Type}

/-- The peers as a transport of messages. -/
def Peers.transport (P : Peers ε δ σ θ) (codec : JsonCodec) :
    Transport (Ends ε) Side σ θ Message where
  send c side sending messages :=
    messages.zipIdx.foldlM (fun c x =>
      c.step P.step (sideOf side, P.send sending x.2 (packetOf codec x.1))) c
  calls c side turn :=
    (P.events (c.on (sideOf side).other) (c.on (sideOf side)) turn).map (messageOf codec)
  turn c side turn replies := c.step P.step (sideOf side, P.deed replies turn)
  sent c side := sentMessages codec (P.log (c.on (sideOf side)))
  heard c side := heardMessages codec (P.log (c.on (sideOf side)))
  isOpen c side := !P.isClosed (c.on (sideOf side))

/-- Everything that a side was told to send is through. -/
def ThroughOn (Through : ε → ε → Prop) (c : Ends ε) (side : Side) : Prop :=
  Through (c.on (sideOf side)) (c.on (sideOf side).other)

/-- Ends that convey packets, while messages that they can carry are sent.  A
turn that is not defined, even if nothing is sent in it, makes no calls. -/
structure Peers.Lawful (P : Peers ε δ σ θ) (codec : JsonCodec) (rxClient rxServer : Nat)
    (Good : Ends ε → Prop) (Through : ε → ε → Prop) : Prop where
  conveyed : ∀ {c}, Good c → ∀ side, Conveyed codec false (P.log (c.on side))
    (P.log (c.on side.other)) (Through (c.on side) (c.on side.other))
  send : ∀ {c c' side sending i m}, Good c → Carriable codec (room rxClient rxServer side) m →
    c.step P.step (side, P.send sending i (packetOf codec m)) = some c' →
      Good c' ∧ Adds codec (P.log (c.on side)) (P.log (c'.on side)) [m] []
  turn : ∀ {c c' side turn replies}, Good c →
    (∀ n, ∀ m ∈ replies n, Carriable codec (room rxClient rxServer side) m) →
    c.step P.step (side, P.deed replies turn) = some c' →
      Good c' ∧ Adds codec (P.log (c.on side)) (P.log (c'.on side))
        (answered replies ((P.events (c.on side.other) (c.on side) turn).map (messageOf codec)))
        ((P.events (c.on side.other) (c.on side) turn).map (messageOf codec)).reduceOption
  defined : ∀ {c}, Good c → ∀ side turn,
    (∃ c', c.step P.step (side, P.deed (fun _ => []) turn) = some c') ∨
      P.events (c.on side.other) (c.on side) turn = []

variable {P : Peers ε δ σ θ} {codec : JsonCodec} {rxClient rxServer : Nat}
  {Good : Ends ε → Prop} {Through : ε → ε → Prop} {c c' : Ends ε}

/-- The logs of the other side stay as they are. -/
theorem advances_of_adds {side : Side} {deed : δ} {sent heard : List Message}
    (hstep : c.step P.step (sideOf side, deed) = some c')
    (h : Adds codec (P.log (c.on (sideOf side))) (P.log (c'.on (sideOf side))) sent heard) :
    (P.transport codec).Advances side sent heard c c' := by
  obtain ⟨-, hother⟩ := Ends.step_eq_some hstep
  rw [← sideOf_other] at hother
  refine ⟨h.sent, h.heard, ?_, ?_⟩
  · intro j hj
    rcases Advertisement.Side.eq_or_other side j with rfl | rfl
    · exact absurd rfl hj
    · exact congrArg (fun e => sentMessages codec (P.log e)) hother
  · intro j hj
    rcases Advertisement.Side.eq_or_other side j with rfl | rfl
    · exact absurd rfl hj
    · exact congrArg (fun e => heardMessages codec (P.log e)) hother

/-- What a side has handed on begins what the other one was told to send. -/
theorem Peers.Lawful.isPrefix (h : P.Lawful codec rxClient rxServer Good Through) (hgood : Good c)
    (side : Side) : (P.transport codec).heard c side <+: (P.transport codec).sent c side.other := by
  have hbegins := isPrefix_heard (h.conveyed hgood (sideOf side).other)
  rw [Conversation.Side.other_other, ← sideOf_other] at hbegins
  exact hbegins

/-- **What is through has been heard.** -/
theorem Peers.Lawful.heard_of_through (h : P.Lawful codec rxClient rxServer Good Through)
    (hgood : Good c) {side : Side} (hthrough : ThroughOn Through c side) :
    (P.transport codec).heard c side.other = (P.transport codec).sent c side := by
  have hheard := heard_of_conveyed (h.conveyed hgood (sideOf side)) hthrough
  rw [← sideOf_other] at hheard
  exact hheard

/-- **Peers that convey packets are a reliable transport of messages.** -/
theorem Peers.Lawful.reliable (h : P.Lawful codec rxClient rxServer Good Through) :
    (P.transport codec).Reliable Good
      fun side => Carriable codec (room rxClient rxServer (sideOf side)) := by
  constructor
  · intro c side turn hgood
    have hbegins := h.isPrefix hgood side
    rcases h.defined hgood (sideOf side) turn with ⟨c', hc'⟩ | hnone
    · -- What the turn hands on without being answered.
      obtain ⟨hgood', hadds⟩ := h.turn hgood (fun _ _ hm => absurd hm List.not_mem_nil) hc'
      have hadvances := advances_of_adds hc' hadds
      have hbegins' := h.isPrefix hgood' side
      rw [hadvances.heard, hadvances.sent_of_ne side.other (Paired.other_ne side)] at hbegins'
      exact hbegins'
    · have hcalls : (P.transport codec).calls c side turn = [] := congrArg (List.map _) hnone
      rw [hcalls, List.reduceOption_nil, List.append_nil]
      exact hbegins
  · intro c side sending messages c' hgood hfits hsend
    have hboth := Transport.sends_each (T := P.transport codec) (k := side) Prod.fst
      (fun {c x c'} hgood hx hstep => by
        obtain ⟨hgood', hadds⟩ := h.send hgood hx hstep
        exact ⟨hgood', advances_of_adds hstep hadds⟩)
      messages.zipIdx hgood (fun x hx => hfits x.1 (List.fst_mem_of_mem_zipIdx hx)) hsend
    rw [List.zipIdx_map_fst] at hboth
    exact hboth
  · intro c side turn replies c' hgood hreplies hstep
    obtain ⟨hgood', hadds⟩ := h.turn hgood hreplies hstep
    exact ⟨hgood', advances_of_adds hstep hadds⟩

end Peers

end PacketTransport

end WsStreaming.Ports
