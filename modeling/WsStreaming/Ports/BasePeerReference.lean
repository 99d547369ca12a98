import WsStreaming.Ports.BasePeerStream

/-!
# The receive path and the protocol

A peer takes the frames of `framer useTcp widened` (`deliver_eq_parseEvents`).
This module compares these with the frames of the protocol: they are the same
unless a packet has a payload of `2 ^ 31` bytes or more, which the peer waits
for without end.  A receive buffer too small for such a packet therefore makes
the receive path exact, and no other does.
-/

namespace WsStreaming.Ports.BasePeer

open WsStreaming.Verified.Wire WsStreaming.Verified.Framing
open StreamingProtocol (widened le_widened packetTypeData packetTypeMetadata)
open WebsocketProtocol (flagFin opcodeText opcodeBinary opcodeClose opcodePing opcodePong)

/-- A packet whose length word is below `2 ^ 31`. -/
def Item.Small : Item → Prop
  | .packet _ _ payload => payload.length < 2 ^ 31
  | .control _ _ _ => True
  | .unsupported => True

/-- A packet of a type that is handed on. -/
def Item.Known : Item → Prop
  | .packet _ type _ => type = packetTypeData ∨ type = packetTypeMetadata
  | .control _ _ _ => True
  | .unsupported => True

/-- Every packet the protocol's parser takes from the stream is small. -/
def SmallPackets (useTcpProtocol : Bool) (rxBufferSize : Nat) (stream : Bytes) : Prop :=
  ∀ f ∈ ((framer useTcpProtocol id).parse rxBufferSize stream).1, ∀ i ∈ f.items, i.Small

/-- Every packet the protocol's parser takes from the stream is data or
metadata. -/
def KnownPackets (useTcpProtocol : Bool) (rxBufferSize : Nat) (stream : Bytes) : Prop :=
  ∀ f ∈ ((framer useTcpProtocol id).parse rxBufferSize stream).1, ∀ i ∈ f.items, i.Known

/-- A packet in a frame is the next one somewhere in its payload. -/
theorem next_of_mem_frameItems {size : Nat → Nat} {h : WebsocketProtocol.DecodedHeader}
    {data : Bytes} {signo type : UInt32} {payload : Bytes}
    (hi : Item.packet signo type payload ∈ frameItems size h data) :
    ∃ f n, (packetFramer size).next ((unmasked h data).drop n) = some f ∧
      Item.packet signo type payload ∈ f.items := by
  unfold frameItems at hi
  split at hi
  · cases List.mem_singleton.mp hi
  · split at hi
    · cases List.mem_singleton.mp hi
    · split at hi
      · cases List.mem_singleton.mp hi
      · split at hi
        · obtain ⟨f, hf, hmem⟩ := List.mem_flatMap.mp hi
          obtain ⟨-, n, hn⟩ := Framer.of_mem_parse _ hf
          exact ⟨f, n, hn, hmem⟩
        · cases hi

/-- A packet a transport takes is the next one somewhere in the stream, or in
the payload of a frame of it. -/
theorem next_of_mem_parse {useTcpProtocol : Bool} {size : Nat → Nat} {M : Nat}
    {stream : Bytes} {f : Frame Item} {signo type : UInt32} {payload : Bytes}
    (hf : f ∈ ((framer useTcpProtocol size).parse M stream).1)
    (hi : Item.packet signo type payload ∈ f.items) :
    ∃ s g, (packetFramer size).next s = some g ∧ Item.packet signo type payload ∈ g.items := by
  obtain ⟨-, n, hn⟩ := Framer.of_mem_parse _ hf
  cases useTcpProtocol with
  | true => exact ⟨_, f, hn, hi⟩
  | false =>
      obtain ⟨d, -, -, rfl⟩ := websocketFramer_next.mp hn
      obtain ⟨g, k, hg, hmem⟩ := next_of_mem_frameItems hi
      exact ⟨_, g, hg, hmem⟩

/-- The length of the payload of a packet, as it is read. -/
theorem length_of_next {size : Nat → Nat} {s : Bytes} {f : Frame Item}
    (h : (packetFramer size).next s = some f) {signo type : UInt32} {payload : Bytes}
    (hi : Item.packet signo type payload ∈ f.items) :
    ∃ n < 2 ^ 32, payload.length = size n := by
  obtain ⟨d, hr, hfit, rfl⟩ := packetFramer_next.mp h
  cases List.mem_singleton.mp hi
  refine ⟨d.payloadSize, (StreamingProtocol.readHeader_bounds hr).2.2, ?_⟩
  rw [List.length_take, List.length_drop]
  omega

/-! ## Small packets are taken alike -/

theorem widened_of_lt {n : Nat} (h : n < 2 ^ 31) : widened n = n := if_pos h

private theorem packet_agree {s : Bytes} {f : Frame Item}
    (h : (packetFramer id).next s = some f) (hsmall : ∀ i ∈ f.items, i.Small) :
    (packetFramer widened).next s = some f := by
  obtain ⟨d, hr, hfit, rfl⟩ := packetFramer_next.mp h
  have hpayload := hsmall _ (List.mem_singleton.mpr rfl)
  simp only [id] at hfit hpayload
  have hsize : d.payloadSize < 2 ^ 31 := by
    simp only [Item.Small, List.length_take, List.length_drop] at hpayload
    omega
  refine packetFramer_next.mpr ⟨d, hr, ?_, ?_⟩
  · rw [widened_of_lt hsize]
    exact hfit
  · rw [widened_of_lt hsize]
    rfl

private theorem packet_found {s : Bytes} {g : Frame Item}
    (h : (packetFramer widened).next s = some g) :
    ∃ f, (packetFramer id).next s = some f ∧ f.length ≤ g.length := by
  obtain ⟨d, hr, hfit, rfl⟩ := packetFramer_next.mp h
  have hle := le_widened d.payloadSize
  exact ⟨_, packetFramer_next.mpr ⟨d, hr, by simp only [id]; omega, rfl⟩,
    by simp only [id]; omega⟩

/-- The packets of a binary frame. -/
private theorem drain_agree {data : Bytes}
    (hsmall : ∀ i ∈ ((packetFramer id).drain data).flatMap Frame.items, i.Small) :
    (packetFramer widened).drain data = (packetFramer id).drain data := by
  have hparse := Framer.parse_congr (F := packetFramer id) (G := packetFramer widened)
    (M := data.length + 1) (fun f => ∀ i ∈ f.items, i.Small) (s := data)
    (fun s f h _ hgood => packet_agree h hgood)
    (fun s g h hg => by
      obtain ⟨f, hf, hle⟩ := packet_found h
      exact ⟨f, hf, by omega⟩)
    (fun f hf i hi => hsmall i (List.mem_flatMap.mpr ⟨f, hf, hi⟩))
  exact congrArg Prod.fst hparse

private theorem frameItems_agree {h : WebsocketProtocol.DecodedHeader} {data : Bytes}
    (hsmall : ∀ i ∈ frameItems id h data, i.Small) :
    frameItems widened h data = frameItems id h data := by
  unfold frameItems at hsmall ⊢
  split
  · rfl
  · rename_i hfin
    rw [if_neg hfin] at hsmall
    split
    · rfl
    · rename_i hclose
      rw [if_neg hclose] at hsmall
      split
      · rfl
      · rename_i hping
        rw [if_neg hping] at hsmall
        split
        · rename_i hbinary
          rw [if_pos hbinary] at hsmall
          rw [drain_agree hsmall]
        · rfl

private theorem websocket_agree {s : Bytes} {f : Frame Item}
    (h : (websocketFramer id).next s = some f) (hsmall : ∀ i ∈ f.items, i.Small) :
    (websocketFramer widened).next s = some f := by
  obtain ⟨d, hr, hfit, rfl⟩ := websocketFramer_next.mp h
  exact websocketFramer_next.mpr ⟨d, hr, hfit, by rw [frameItems_agree hsmall]⟩

private theorem websocket_found {s : Bytes} {g : Frame Item}
    (h : (websocketFramer widened).next s = some g) :
    ∃ f, (websocketFramer id).next s = some f ∧ f.length ≤ g.length := by
  obtain ⟨d, hr, hfit, rfl⟩ := websocketFramer_next.mp h
  exact ⟨_, websocketFramer_next.mpr ⟨d, hr, hfit, rfl⟩, Nat.le_refl _⟩

/-- Streams of small packets are parsed alike. -/
theorem parse_widened {useTcpProtocol : Bool} {M : Nat} {stream : Bytes}
    (hsmall : SmallPackets useTcpProtocol M stream) :
    (framer useTcpProtocol widened).parse M stream =
      (framer useTcpProtocol id).parse M stream := by
  refine Framer.parse_congr (fun f : Frame Item => ∀ i ∈ f.items, i.Small)
    ?_ ?_ hsmall
  · intro s f h _ hgood
    cases useTcpProtocol with
    | true => exact packet_agree h hgood
    | false => exact websocket_agree h hgood
  · intro s g h hg
    have hfound : ∃ f, (framer useTcpProtocol id).next s = some f ∧ f.length ≤ g.length := by
      cases useTcpProtocol with
      | true => exact packet_found h
      | false => exact websocket_found h
    obtain ⟨f, hf, hle⟩ := hfound
    exact ⟨f, hf, by omega⟩

/-! ## Large packets are never handed on -/

/-- The payload of a packet that is handed on, if the event is one. -/
def packetPayload : Event → Option Bytes
  | .dataPacket _ payload => some payload
  | .metadataPacket _ payload => some payload
  | .controlFrame _ _ _ => none
  | .closed _ => none

/-- A packet that is handed on was taken. -/
theorem packet_of_payload {i : Item} {e : Event} (he : e ∈ i.events) {payload : Bytes}
    (hp : packetPayload e = some payload) : ∃ signo type, i = .packet signo type payload := by
  cases i with
  | packet signo type data =>
      simp only [Item.events] at he
      split at he
      · obtain rfl := List.mem_singleton.mp he
        cases hp
        exact ⟨signo, type, rfl⟩
      · split at he
        · obtain rfl := List.mem_singleton.mp he
          cases hp
          exact ⟨signo, type, rfl⟩
        · cases he
  | control opcode data shutdownAfter =>
      obtain rfl := List.mem_singleton.mp he
      cases hp
  | unsupported =>
      obtain rfl := List.mem_singleton.mp he
      cases hp

/-- A packet of a known type is handed on. -/
theorem Item.Known.event {signo type : UInt32} {payload : Bytes}
    (h : (Item.packet signo type payload).Known) :
    ∃ e ∈ (Item.packet signo type payload).events, packetPayload e = some payload := by
  rcases h with rfl | rfl
  · exact ⟨.dataPacket signo payload, by simp [Item.events], rfl⟩
  · exact ⟨.metadataPacket signo payload,
      by simp [Item.events, packetTypeData, packetTypeMetadata], rfl⟩

/-- No packet a peer hands on has a length word of `2 ^ 31` or more: such a
word becomes a length that no 32-bit word has. -/
theorem payload_of_mem_parseEvents {useTcpProtocol : Bool} {M : Nat} {stream : Bytes}
    {e : Event} (he : e ∈ parseEvents (framer useTcpProtocol widened) M stream)
    {payload : Bytes} (hp : packetPayload e = some payload) :
    payload.length < 2 ^ 31 ∨ 2 ^ 32 ≤ payload.length := by
  rcases List.mem_append.mp he with he | he
  · obtain ⟨f, hf, he⟩ := List.mem_flatMap.mp he
    obtain ⟨i, hi, he⟩ := List.mem_flatMap.mp he
    obtain ⟨signo, type, rfl⟩ := packet_of_payload he hp
    obtain ⟨s, g, hg, hmem⟩ := next_of_mem_parse hf hi
    obtain ⟨n, hn, hlen⟩ := length_of_next hg hmem
    rw [hlen, widened]
    split <;> omega
  · unfold closing at he
    split at he
    · obtain rfl := List.mem_singleton.mp he
      cases hp
    · cases he

/-- A large packet that the protocol delivers is missing. -/
theorem deliver_ne_of_large {useTcpProtocol : Bool} {M : Nat} (hM : 0 < M) {d : Delivery}
    (hfits : d.Fits useTcpProtocol M) (hknown : KnownPackets useTcpProtocol M d.stream)
    (hlarge : ¬ SmallPackets useTcpProtocol M d.stream) :
    deliver useTcpProtocol M d ≠ referenceEvents useTcpProtocol M d.stream := by
  simp only [SmallPackets, not_forall] at hlarge
  obtain ⟨f, hf, i, hi, hlarge⟩ := hlarge
  cases i with
  | control opcode data shutdownAfter => exact absurd trivial hlarge
  | unsupported => exact absurd trivial hlarge
  | packet signo type payload =>
      obtain ⟨e, he, hp⟩ := (hknown f hf _ hi).event
      obtain ⟨s, g, hg, hmem⟩ := next_of_mem_parse hf hi
      obtain ⟨n, hn, hlen⟩ := length_of_next hg hmem
      have href : e ∈ referenceEvents useTcpProtocol M d.stream :=
        List.mem_append_left _
          (List.mem_flatMap.mpr ⟨f, hf, List.mem_flatMap.mpr ⟨_, hi, he⟩⟩)
      intro heq
      rw [← heq, deliver_eq_parseEvents hM hfits] at href
      have hlength := payload_of_mem_parseEvents href hp
      simp only [Item.Small, Nat.not_lt] at hlarge
      simp only [id] at hlen
      omega

/-! ## Which buffers are too small for a large packet -/

/-- The length of the shortest frame with a packet of `2 ^ 31` bytes in it. -/
def shortestLargeFrame (useTcpProtocol : Bool) : Nat :=
  if useTcpProtocol then 2 ^ 31 + 8 else 2 ^ 31 + 18

private theorem packet_length {s : Bytes} {f : Frame Item}
    (h : (packetFramer id).next s = some f) {signo type : UInt32} {payload : Bytes}
    (hi : Item.packet signo type payload ∈ f.items) (hlarge : 2 ^ 31 ≤ payload.length) :
    2 ^ 31 + 8 ≤ f.length := by
  obtain ⟨d, hr, -, rfl⟩ := packetFramer_next.mp h
  cases List.mem_singleton.mp hi
  simp only [id, List.length_take] at hlarge ⊢
  have hsize := StreamingProtocol.headerSize_of_large hr (by omega)
  omega

private theorem websocket_length {s : Bytes} {f : Frame Item}
    (h : (websocketFramer id).next s = some f) {signo type : UInt32} {payload : Bytes}
    (hi : Item.packet signo type payload ∈ f.items) (hlarge : 2 ^ 31 ≤ payload.length) :
    2 ^ 31 + 18 ≤ f.length := by
  obtain ⟨d, hr, -, rfl⟩ := websocketFramer_next.mp h
  obtain ⟨g, n, hg, hmem⟩ := next_of_mem_frameItems hi
  have hlen := packet_length hg hmem hlarge
  have hle := (packetFramer id).length_le hg
  rw [List.length_drop, length_unmasked, List.length_take] at hle
  have hsize := WebsocketProtocol.headerSize_of_large hr (by omega)
  simp only
  omega

theorem smallPackets_of_lt {useTcpProtocol : Bool} {M : Nat}
    (hM : M < shortestLargeFrame useTcpProtocol) (stream : Bytes) :
    SmallPackets useTcpProtocol M stream := by
  intro f hf i hi
  cases i with
  | control opcode data shutdownAfter => trivial
  | unsupported => trivial
  | packet signo type payload =>
      by_contra hlarge
      have hlarge : 2 ^ 31 ≤ payload.length := Nat.not_lt.mp hlarge
      obtain ⟨hle, n, hn⟩ := Framer.of_mem_parse _ hf
      cases useTcpProtocol with
      | true =>
          have hlen := packet_length hn hi hlarge
          rw [shortestLargeFrame, if_pos rfl] at hM
          omega
      | false =>
          have hlen := websocket_length hn hi hlarge
          rw [shortestLargeFrame, if_neg (by decide)] at hM
          omega

/-! ## A packet that is lost -/

/-- The header of a data packet of `2 ^ 31` bytes for signal 1. -/
def largeHeader : Bytes := [0x01, 0x00, 0x00, 0x10, 0x00, 0x00, 0x00, 0x80]

/-- The packet on its own, or in a WebSocket frame. -/
def largeStream (useTcpProtocol : Bool) (payload : Bytes) : Bytes :=
  if useTcpProtocol then largeHeader ++ payload
  else
    WebsocketProtocol.generateHeader opcodeBinary flagFin (largeHeader ++ payload).length ++
      (largeHeader ++ payload)

/-- The packet handed over as a whole. -/
def largeDelivery (useTcpProtocol : Bool) (payload : Bytes) : Delivery :=
  { handedOver := some (largeStream useTcpProtocol payload), chunks := [] }

section Large

-- The payload stays a variable, since nothing may compute with `2 ^ 31` bytes.
variable {payload : Bytes} (hpayload : payload.length = 2 ^ 31)

include hpayload

theorem length_largePacket : (largeHeader ++ payload).length = 2 ^ 31 + 8 := by
  have hheader : largeHeader.length = 8 := rfl
  rw [List.length_append, hpayload, hheader, Nat.add_comm]

theorem length_largeStream (useTcpProtocol : Bool) :
    (largeStream useTcpProtocol payload).length = shortestLargeFrame useTcpProtocol := by
  have hlen := length_largePacket hpayload
  cases useTcpProtocol with
  | true => rw [largeStream, if_pos rfl, hlen, shortestLargeFrame, if_pos rfl]
  | false =>
      rw [largeStream, if_neg (by decide), List.length_append, hlen,
        WebsocketProtocol.length_generateHeader, if_neg (by decide), if_neg (by decide),
        shortestLargeFrame, if_neg (by decide), Nat.add_left_comm]

theorem next_largePacket (rest : Bytes) :
    (packetFramer id).next (largeHeader ++ payload ++ rest) = some
      { items := [.packet 1 packetTypeData payload]
        length := largeHeader.length + payload.length
        stop := false } := by
  have hgen : StreamingProtocol.generateHeader 1 packetTypeData payload.length =
      .ok largeHeader := by
    rw [hpayload, StreamingProtocol.generateHeader, if_neg (by decide), if_pos (by decide)]
    rfl
  exact packetFramer_next_generated (by decide) (by decide) (by omega) rfl hgen rest

/-- The protocol reads the packet as the only item of the stream. -/
theorem next_largeStream (useTcpProtocol : Bool) :
    ∃ f, (framer useTcpProtocol id).next (largeStream useTcpProtocol payload) = some f ∧
      f.items = [.packet 1 packetTypeData payload] ∧
      f.length = shortestLargeFrame useTcpProtocol ∧ f.stop = false := by
  have hpacket := next_largePacket hpayload []
  rw [List.append_nil] at hpacket
  have hlen := length_largeStream hpayload useTcpProtocol
  cases useTcpProtocol with
  | true =>
      rw [largeStream, if_pos rfl] at hlen ⊢
      rw [List.length_append] at hlen
      exact ⟨_, hpacket, rfl, hlen, rfl⟩
  | false =>
      have hlt : (largeHeader ++ payload).length < 2 ^ 64 := by
        rw [length_largePacket hpayload]
        decide
      have hframe := websocketFramer_next_generated id hlt []
      rw [List.append_nil] at hframe
      rw [largeStream, if_neg (by decide)] at hlen ⊢
      refine ⟨_, hframe, ?_, ?_, rfl⟩
      · have hdrop : (largeHeader ++ payload).drop
            (largeHeader.length + payload.length) = [] :=
          List.drop_eq_nil_of_le (Nat.le_of_eq List.length_append)
        simp only [Framer.drain_some _ hpacket, hdrop, Framer.drain_none _ (Framer.next_nil _)]
        rfl
      · rw [List.length_append] at hlen
        exact hlen

theorem fits_largeDelivery {useTcpProtocol : Bool} {M : Nat}
    (hM : shortestLargeFrame useTcpProtocol ≤ M) :
    (largeDelivery useTcpProtocol payload).Fits useTcpProtocol M :=
  ⟨Nat.le_trans (Nat.le_of_eq (length_largeStream hpayload useTcpProtocol)) hM, trivial⟩

/-- **A large packet is lost** in every buffer that could hold it. -/
theorem deliver_largeDelivery {useTcpProtocol : Bool} {M : Nat}
    (hM : shortestLargeFrame useTcpProtocol ≤ M) :
    deliver useTcpProtocol M (largeDelivery useTcpProtocol payload) ≠
      referenceEvents useTcpProtocol M (largeDelivery useTcpProtocol payload).stream := by
  have hpos : 0 < shortestLargeFrame useTcpProtocol := by cases useTcpProtocol <;> decide
  have hstream : (largeDelivery useTcpProtocol payload).stream =
      largeStream useTcpProtocol payload := List.append_nil _
  have hlength := length_largeStream hpayload useTcpProtocol
  obtain ⟨f, hnext, hitems, hlen, hstop⟩ := next_largeStream hpayload useTcpProtocol
  have hdrop : (largeStream useTcpProtocol payload).drop f.length = [] :=
    List.drop_eq_nil_of_le (by omega)
  have hframes : ((framer useTcpProtocol id).parse M
      (largeStream useTcpProtocol payload)).1 = [f] := by
    rw [Framer.parse_some _ hnext, if_neg (by omega), if_neg (by rw [hstop]; decide), hdrop,
      Framer.parse_none _ (Framer.next_nil _)]
  refine deliver_ne_of_large (by omega) (fits_largeDelivery hpayload hM) ?_ ?_
  · intro g hg i hi
    rw [hstream, hframes, List.mem_singleton] at hg
    rw [hg, hitems, List.mem_singleton] at hi
    rw [hi]
    exact .inl rfl
  · intro hsmall
    have hpacket : (Item.packet 1 packetTypeData payload).Small := by
      apply hsmall f
      · rw [hstream, hframes]
        exact List.mem_singleton.mpr rfl
      · rw [hitems]
        exact List.mem_singleton.mpr rfl
    rw [Item.Small, hpayload] at hpacket
    omega

end Large

/-! ## The receive path -/

/-- **How the stream is cut into reads does not matter, and what is taken from
it is what the protocol says, as long as no packet is large.**  A peer hands
on what the reference parser hands on for the whole stream, for every way of
delivering it, if the packets in the stream are small; if all packets are of
the two known types, only then; and a peer does so for every stream exactly
if its receive buffer cannot hold a large packet. -/
theorem receive_exact_iff_packets_small (useTcpProtocol : Bool) (M : Nat) (hM : 1 ≤ M) :
    (∀ d : Delivery, d.Fits useTcpProtocol M → SmallPackets useTcpProtocol M d.stream →
      deliver useTcpProtocol M d = referenceEvents useTcpProtocol M d.stream) ∧
    (∀ d : Delivery, d.Fits useTcpProtocol M → KnownPackets useTcpProtocol M d.stream →
      (deliver useTcpProtocol M d = referenceEvents useTcpProtocol M d.stream ↔
        SmallPackets useTcpProtocol M d.stream)) ∧
    ((∀ d : Delivery, d.Fits useTcpProtocol M →
      deliver useTcpProtocol M d = referenceEvents useTcpProtocol M d.stream) ↔
        M < shortestLargeFrame useTcpProtocol) := by
  have hsmall : ∀ d : Delivery, d.Fits useTcpProtocol M →
      SmallPackets useTcpProtocol M d.stream →
      deliver useTcpProtocol M d = referenceEvents useTcpProtocol M d.stream := by
    intro d hfits hsmall
    rw [deliver_eq_parseEvents hM hfits, referenceEvents, parseEvents, parseEvents,
      parse_widened hsmall]
  refine ⟨hsmall, ?_, ?_⟩
  · intro d hfits hknown
    refine ⟨fun heq => ?_, hsmall d hfits⟩
    by_contra hlarge
    exact deliver_ne_of_large hM hfits hknown hlarge heq
  · refine ⟨fun hall => ?_, fun hlt d hfits => ?_⟩
    · by_contra hle
      have hle := Nat.not_lt.mp hle
      obtain ⟨payload, hpayload⟩ : ∃ payload : Bytes, payload.length = 2 ^ 31 :=
        ⟨List.replicate (2 ^ 31) 0, List.length_replicate⟩
      exact deliver_largeDelivery hpayload hle (hall _ (fits_largeDelivery hpayload hle))
    · exact hsmall d hfits (smallPackets_of_lt hlt d.stream)

/-- The default receive buffer of a peer is safe over both transports. -/
theorem receive_exact_default_buffer :
    1 ≤ 1024 * 1024 ∧
      (∀ d : Delivery, d.Fits true (1024 * 1024) →
        deliver true (1024 * 1024) d = referenceEvents true (1024 * 1024) d.stream) ∧
      (∀ d : Delivery, d.Fits false (1024 * 1024) →
        deliver false (1024 * 1024) d = referenceEvents false (1024 * 1024) d.stream) :=
  ⟨by decide,
    (receive_exact_iff_packets_small true (1024 * 1024) (by decide)).2.2.mpr (by decide),
    (receive_exact_iff_packets_small false (1024 * 1024) (by decide)).2.2.mpr (by decide)⟩

-- A masked PING with the payload `AB`, read in two pieces.
example :
    deliver false 16
        { handedOver := none
          chunks := [[0x89, 0x82, 0x01], [0x02, 0x03, 0x04, 0x40, 0x40]] } =
      [.controlFrame opcodePong [0x41, 0x42] false] := by
  decide +kernel

/-- A packet of `2 ^ 31` zero bytes handed over to a peer whose receive buffer
has room for it: the protocol delivers it, the peer does not. -/
theorem large_packet_is_lost :
    (largeDelivery true (List.replicate (2 ^ 31) 0)).Fits true (2 ^ 31 + 8) ∧
      deliver true (2 ^ 31 + 8) (largeDelivery true (List.replicate (2 ^ 31) 0)) ≠
        referenceEvents true (2 ^ 31 + 8)
          (largeDelivery true (List.replicate (2 ^ 31) 0)).stream :=
  ⟨fits_largeDelivery List.length_replicate (by decide),
    deliver_largeDelivery List.length_replicate (by decide)⟩

end WsStreaming.Ports.BasePeer
