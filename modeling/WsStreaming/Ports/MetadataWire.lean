import WsStreaming.Ports.PacketStream
import WsStreaming.Ports.Json

/-!
# Metadata messages from one peer to another

`peer::send_metadata` packs a method and its parameters with MessagePack
behind an encoding word, `base_peer::process_metadata_packet` unpacks them.
The codecs are those of the JSON library and a parameter here.

The sender stores the encoding word as the host has it, little-endian.  The
receiver reads it little-endian over WebSocket and big-endian over direct
TCP, where MessagePack (`2`) comes out as `0x02000000`: an unknown encoding,
and the message is dropped.
-/

namespace WsStreaming.Ports

open WsStreaming.Verified.Wire WsStreaming.Verified.Framing
open StreamingProtocol (packetTypeMetadata widened)
open BasePeer

/-- The codecs of the JSON library; a decoder that throws has no result. -/
structure JsonCodec where
  toMsgpack : Json → Bytes
  fromMsgpack : Bytes → Option Json
  parse : Bytes → Option Json

/-- `metadata_encoding::JSON`. -/
def metadataEncodingJson : UInt32 := 1

/-- `metadata_encoding::MSGPACK`. -/
def metadataEncodingMsgpack : UInt32 := 2

namespace MetadataMessage

/-- The object that is packed. -/
def envelope (m : MetadataMessage) : Json :=
  .object [("method", .string m.method), ("params", m.params)]

/-- The packet of `peer::send_metadata`. -/
def packet (codec : JsonCodec) (m : MetadataMessage) : Packet :=
  { signo := m.signo
    type := packetTypeMetadata
    payload := [le32 metadataEncodingMsgpack, codec.toMsgpack m.envelope] }

end MetadataMessage

/-- The bytes `peer::send_metadata` writes, unless generating a header throws. -/
def sendMetadata (codec : JsonCodec) (useTcpProtocol : Bool) (m : MetadataMessage) :
    Except String Bytes :=
  (m.packet codec).frame useTcpProtocol

/-- The encoding word as the receiver reads it. -/
def encodingWord (useTcpProtocol : Bool) (d0 d1 d2 d3 : UInt8) : UInt32 :=
  if useTcpProtocol then
    d3.toUInt32 ||| d2.toUInt32 <<< 8 ||| d1.toUInt32 <<< 16 ||| d0.toUInt32 <<< 24
  else d0.toUInt32 ||| d1.toUInt32 <<< 8 ||| d2.toUInt32 <<< 16 ||| d3.toUInt32 <<< 24

/-- What is unpacked from a payload; null for an unknown encoding and where
the decoder throws. -/
def decodeMetadata (codec : JsonCodec) (encoding : UInt32) (data : Bytes) : Json :=
  if encoding = metadataEncodingJson then (codec.parse data).getD .null
  else if encoding = metadataEncodingMsgpack then (codec.fromMsgpack data).getD .null
  else .null

/-- `base_peer::process_metadata_packet`: the arguments `on_metadata_received`
is raised with.  Missing parameters become `nlohmann::json{nullptr}`, an array
with null in it. -/
def processMetadataPacket (codec : JsonCodec) (useTcpProtocol : Bool) (signo : UInt32) :
    Bytes → Option MetadataMessage
  | d0 :: d1 :: d2 :: d3 :: data =>
      let metadata := decodeMetadata codec (encodingWord useTcpProtocol d0 d1 d2 d3) data
      (metadata.stringAt? "method").map fun method =>
        { signo := signo
          method := method
          params := (metadata.find? "params").getD (.array [.null]) }
  | _ => none

/-- The calls of `on_metadata_received` that the events of a peer make. -/
def metadataReceived (codec : JsonCodec) (useTcpProtocol : Bool) (events : List Event) :
    List MetadataMessage :=
  events.filterMap fun
    | .metadataPacket signo data => processMetadataPacket codec useTcpProtocol signo data
    | _ => none

/-! ## One message -/

section Message

variable {codec : JsonCodec} {m : MetadataMessage}

theorem sendable_packet (hsigno : m.signo.toNat < 2 ^ 20) : (m.packet codec).Sendable :=
  ⟨hsigno, .inr rfl⟩

theorem size_packet (codec : JsonCodec) (m : MetadataMessage) :
    (m.packet codec).size = 4 + (codec.toMsgpack m.envelope).length := by
  simp only [Packet.size, MetadataMessage.packet, List.flatten_cons, List.flatten_nil,
    List.append_nil, List.length_append, length_le32]

theorem flatten_packet (codec : JsonCodec) (m : MetadataMessage) :
    (m.packet codec).payload.flatten = 2 :: 0 :: 0 :: 0 :: codec.toMsgpack m.envelope := by
  simp only [MetadataMessage.packet, List.flatten_cons, List.flatten_nil, List.append_nil]
  rfl

theorem event_packet (codec : JsonCodec) (m : MetadataMessage) :
    (m.packet codec).event =
      .metadataPacket m.signo (2 :: 0 :: 0 :: 0 :: codec.toMsgpack m.envelope) := by
  rw [← flatten_packet]
  rfl

/-- Over WebSocket the message is unpacked. -/
theorem metadataReceived_websocket
    (hcodec : codec.fromMsgpack (codec.toMsgpack m.envelope) = some m.envelope) :
    metadataReceived codec false [(m.packet codec).event] = [m] := by
  have hword : encodingWord false 2 0 0 0 = metadataEncodingMsgpack := by decide
  have hjson : metadataEncodingMsgpack ≠ metadataEncodingJson := by decide
  have hprocess : processMetadataPacket codec false m.signo
      (2 :: 0 :: 0 :: 0 :: codec.toMsgpack m.envelope) = some m := by
    simp only [processMetadataPacket, hword, decodeMetadata, if_neg hjson, if_true, hcodec]
    rfl
  rw [metadataReceived, event_packet, List.filterMap_cons]
  simp only [hprocess]
  rfl

/-- Over direct TCP its encoding is unknown. -/
theorem metadataReceived_tcp (codec : JsonCodec) (m : MetadataMessage) :
    metadataReceived codec true [(m.packet codec).event] = [] := by
  have hword : encodingWord true 2 0 0 0 = 0x02000000 := by decide
  have hjson : (0x02000000 : UInt32) ≠ metadataEncodingJson := by decide
  have hmsgpack : (0x02000000 : UInt32) ≠ metadataEncodingMsgpack := by decide
  have hprocess : processMetadataPacket codec true m.signo
      (2 :: 0 :: 0 :: 0 :: codec.toMsgpack m.envelope) = none := by
    simp only [processMetadataPacket, hword, decodeMetadata, if_neg hjson, if_neg hmsgpack]
    rfl
  rw [metadataReceived, event_packet, List.filterMap_cons]
  simp only [hprocess]
  rfl

theorem metadataReceived_closing (codec : JsonCodec) (useTcpProtocol : Bool)
    (status : Verified.Framing.Status UInt8) :
    metadataReceived codec useTcpProtocol (closing status) = [] := by
  cases status with
  | waiting rest => rfl
  | stopped => rfl
  | overflow => rfl

end Message

/-! ## Messages end to end -/

/-- The message is sent, and however its bytes are delivered to a receiver
whose buffer can hold them, `on_metadata_received` is raised once, with this
message. -/
def Survives (codec : JsonCodec) (useTcpProtocol : Bool) (m : MetadataMessage) : Prop :=
  ∃ bytes, sendMetadata codec useTcpProtocol m = .ok bytes ∧
    ∀ M, 0 < M → bytes.length ≤ M →
      ∀ d : Delivery, d.stream = bytes → d.Fits useTcpProtocol M →
        metadataReceived codec useTcpProtocol (deliver useTcpProtocol M d) = [m]

section EndToEnd

variable {codec : JsonCodec} {m : MetadataMessage}

/-- What the receiver makes of the message, if it can be sent at all. -/
theorem metadataReceived_deliver (hsigno : m.signo.toNat < 2 ^ 20) {useTcpProtocol : Bool}
    (hlen : (m.packet codec).size < 2 ^ 32) {M : Nat} (hM : 0 < M)
    (hfit : ((m.packet codec).bytes useTcpProtocol).length ≤ M) {d : Delivery}
    (hstream : d.stream = (m.packet codec).bytes useTcpProtocol)
    (hfits : d.Fits useTcpProtocol M) :
    metadataReceived codec useTcpProtocol (deliver useTcpProtocol M d) =
      if useTcpProtocol = false ∧ (m.packet codec).size < 2 ^ 31 then
        metadataReceived codec false [(m.packet codec).event]
      else [] := by
  have hp : (m.packet codec).Sendable := sendable_packet hsigno
  have hpos : 0 < (m.packet codec).size := by rw [size_packet]; omega
  have hflat : (m.packet codec).bytes useTcpProtocol =
      ([m.packet codec].map (Packet.bytes useTcpProtocol)).flatten := by simp
  have hevents (hr : useTcpProtocol = true → (m.packet codec).Readable) :
      deliver useTcpProtocol M d =
        ([m.packet codec].filter fun p => p.Readable).map Packet.event := by
    rw [deliver_eq_parseEvents hM hfits, hstream, hflat]
    exact parseEvents_packets hM (List.forall_mem_singleton.mpr hp)
      (List.forall_mem_singleton.mpr hlen) (List.forall_mem_singleton.mpr hfit)
      (fun h => List.forall_mem_singleton.mpr (hr h))
  by_cases hr : (m.packet codec).Readable
  · rw [hevents (fun _ => hr), List.filter_cons_of_pos (by simpa using hr)]
    cases useTcpProtocol with
    | true =>
        rw [if_neg (fun h => (nomatch h.1))]
        exact metadataReceived_tcp codec m
    | false =>
        rw [if_pos ⟨rfl, hr.2⟩]
        rfl
  · rw [if_neg (fun h => hr ⟨hpos, h.2⟩)]
    cases useTcpProtocol with
    | true =>
        -- The size word is out of `decode_header`'s range: no packet is seen.
        obtain ⟨header, hgen, -, hbytes⟩ := (m.packet codec).frame_eq true hlen
        rw [if_pos rfl] at hbytes
        rw [deliver_eq_parseEvents hM hfits, hstream, hbytes, framer, if_pos rfl,
          parseEvents_none (packetFramer_next_alone hp hr hgen)]
        exact metadataReceived_closing codec true _
    | false =>
        rw [hevents (fun h => (nomatch h)), List.filter_cons_of_neg (by simpa using hr)]
        rfl

/-- **A metadata message survives the wire exactly over WebSocket**, and if it
is short enough for a packet that can be read back. -/
theorem survives_iff_websocket (codec : JsonCodec) (useTcpProtocol : Bool)
    (m : MetadataMessage) (hsigno : m.signo.toNat < 2 ^ 20)
    (hcodec : codec.fromMsgpack (codec.toMsgpack m.envelope) = some m.envelope) :
    Survives codec useTcpProtocol m ↔
      useTcpProtocol = false ∧ 4 + (codec.toMsgpack m.envelope).length < 2 ^ 31 := by
  rw [← size_packet]
  constructor
  · rintro ⟨bytes, hsend, hall⟩
    by_contra hnot
    have hlen : (m.packet codec).size < 2 ^ 32 := by
      by_contra hlarge
      obtain ⟨e, he⟩ := (m.packet codec).frame_error useTcpProtocol hlarge
      rw [sendMetadata, he] at hsend
      cases hsend
    obtain ⟨-, -, hframe, -⟩ := (m.packet codec).frame_eq useTcpProtocol hlen
    rw [sendMetadata, hframe] at hsend
    obtain rfl := Except.ok.inj hsend
    obtain ⟨d, hstream, hfits⟩ := exists_delivery useTcpProtocol
      (Nat.succ_pos ((m.packet codec).bytes useTcpProtocol).length)
      ((m.packet codec).bytes useTcpProtocol)
    have hreceived := hall _ (Nat.succ_pos _) (Nat.le_succ _) d hstream hfits
    rw [metadataReceived_deliver hsigno hlen (Nat.succ_pos _) (Nat.le_succ _) hstream hfits,
      if_neg hnot] at hreceived
    cases hreceived
  · rintro ⟨rfl, hsize⟩
    have hlen : (m.packet codec).size < 2 ^ 32 := by omega
    obtain ⟨-, -, hframe, -⟩ := (m.packet codec).frame_eq false hlen
    refine ⟨_, hframe, fun M hM hfit d hstream hfits => ?_⟩
    rw [metadataReceived_deliver hsigno hlen hM hfit hstream hfits, if_pos ⟨rfl, hsize⟩]
    exact metadataReceived_websocket hcodec

end EndToEnd

/-! ## The version message -/

/-- The message every peer starts with. -/
def apiVersionMessage : MetadataMessage :=
  { signo := 0
    method := "apiVersion"
    params := .object [("version", .string "2.0.0")] }

/-- The version message in MessagePack. -/
def apiVersionMsgpack : Bytes :=
  [0x82, 0xa6, 0x6d, 0x65, 0x74, 0x68, 0x6f, 0x64, 0xaa, 0x61, 0x70, 0x69, 0x56, 0x65, 0x72,
    0x73, 0x69, 0x6f, 0x6e, 0xa6, 0x70, 0x61, 0x72, 0x61, 0x6d, 0x73, 0x81, 0xa7, 0x76, 0x65,
    0x72, 0x73, 0x69, 0x6f, 0x6e, 0xa5, 0x32, 0x2e, 0x30, 0x2e, 0x30]

/-- What the JSON library makes of the version message. -/
def apiVersionCodec : JsonCodec :=
  { toMsgpack := fun j => if j = apiVersionMessage.envelope then apiVersionMsgpack else []
    fromMsgpack := fun b =>
      if b = apiVersionMsgpack then some apiVersionMessage.envelope else none
    parse := fun _ => none }

/-- The version message survives over WebSocket. -/
theorem survives_apiVersion : Survives apiVersionCodec false apiVersionMessage :=
  (survives_iff_websocket apiVersionCodec false apiVersionMessage (by decide)
    (by decide)).mpr ⟨rfl, by decide⟩

/-- Over direct TCP the version message reaches the receiver in one read, and
nothing is raised. -/
theorem apiVersion_is_dropped_over_tcp :
    apiVersionCodec.fromMsgpack (apiVersionCodec.toMsgpack apiVersionMessage.envelope) =
        some apiVersionMessage.envelope ∧
      (∃ bytes, sendMetadata apiVersionCodec true apiVersionMessage = .ok bytes ∧
        Delivery.Fits true 64 ⟨none, [bytes]⟩ ∧
        metadataReceived apiVersionCodec true (deliver true 64 ⟨none, [bytes]⟩) = []) ∧
      ¬ Survives apiVersionCodec true apiVersionMessage := by
  have hsend : sendMetadata apiVersionCodec true apiVersionMessage =
      .ok ([0x00, 0x00, 0xd0, 0x22, 0x02, 0x00, 0x00, 0x00] ++ apiVersionMsgpack) := by decide
  have hfits : Delivery.Fits true 64 ⟨none,
      [[0x00, 0x00, 0xd0, 0x22, 0x02, 0x00, 0x00, 0x00] ++ apiVersionMsgpack]⟩ :=
    ⟨by decide, fun _ => ⟨by decide, by decide, trivial⟩⟩
  have hreceived : metadataReceived apiVersionCodec true (deliver true 64 ⟨none,
      [[0x00, 0x00, 0xd0, 0x22, 0x02, 0x00, 0x00, 0x00] ++ apiVersionMsgpack]⟩) = [] := by
    decide +kernel
  refine ⟨by decide, ⟨_, hsend, hfits, hreceived⟩, ?_⟩
  rintro ⟨bytes, hbytes, hall⟩
  rw [hsend] at hbytes
  obtain rfl := Except.ok.inj hbytes
  have hmessage := hall 64 (by decide) (by decide) _ rfl hfits
  rw [hreceived] at hmessage
  cases hmessage

end WsStreaming.Ports
