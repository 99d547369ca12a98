import WsStreaming.Ports.Peer
import WsStreaming.Ports.BasePeerReference

/-!
# Packets from one peer to another

`peer::send_packet` writes packets, `base_peer` reads them back.  Between the
two lie the headers of both protocols and the cutting of the stream into
reads, which `deliver_eq_parseEvents` has removed already: a receiver takes
the frames of `framer useTcp widened`.

A packet is read back exactly if its payload is neither empty, since a size
field of zero announces a second word that `generate_header` does not write,
nor of `2 ^ 31` bytes or more.
-/

namespace WsStreaming.Ports

open WsStreaming.Verified.Wire WsStreaming.Verified.Framing
open StreamingProtocol (widened le_widened packetTypeData packetTypeMetadata)
open WebsocketProtocol (flagFin opcodeBinary)
open BasePeer

/-- The arguments of `peer::send_packet`; the payload is a buffer sequence. -/
structure Packet where
  signo : UInt32
  type : UInt32
  payload : List Bytes
deriving Repr, DecidableEq

namespace Packet

/-- `calculated_payload_size`. -/
def size (p : Packet) : Nat := p.payload.flatten.length

/-- The bytes `peer::send_packet` writes, unless generating a header throws. -/
def frame (useTcpProtocol : Bool) (p : Packet) : Except String Bytes :=
  (Peer.packetFrame useTcpProtocol p.signo p.type p.payload).map List.flatten

/-- What the receiver is to hand on. -/
def event (p : Packet) : Event :=
  if p.type = packetTypeData then .dataPacket p.signo p.payload.flatten
  else .metadataPacket p.signo p.payload.flatten

/-- A packet of a type and a signal number that the protocol has. -/
def Sendable (p : Packet) : Prop :=
  p.signo.toNat < 2 ^ 20 ∧ (p.type = packetTypeData ∨ p.type = packetTypeMetadata)

/-- A payload that a header can announce and `decode_header` reads back. -/
def Readable (p : Packet) : Prop := 0 < p.size ∧ p.size < 2 ^ 31

instance (p : Packet) : Decidable p.Readable := by
  unfold Readable
  infer_instance

end Packet

/-- The bytes of packets sent one after another. -/
def sendPackets (useTcpProtocol : Bool) : List Packet → Except String Bytes
  | [] => .ok []
  | p :: ps => do
      let frame ← p.frame useTcpProtocol
      let rest ← sendPackets useTcpProtocol ps
      return frame ++ rest

namespace Packet

/-- The bytes of a packet that has a header. -/
def bytes (useTcpProtocol : Bool) (p : Packet) : Bytes :=
  (p.frame useTcpProtocol).toOption.getD []

theorem type_lt {p : Packet} (h : p.Sendable) : p.type.toNat < 16 := by
  rcases h.2 with h | h <;> rw [h] <;> decide

theorem type_pos {p : Packet} (h : p.Sendable) : p.type.toNat ≠ 0 := by
  rcases h.2 with h | h <;> rw [h] <;> decide

/-- The headers in front of a payload of fewer than `2 ^ 32` bytes. -/
theorem frame_eq (useTcpProtocol : Bool) {p : Packet} (h : p.size < 2 ^ 32) :
    ∃ header, StreamingProtocol.generateHeader p.signo p.type p.size = .ok header ∧
      p.frame useTcpProtocol = .ok (p.bytes useTcpProtocol) ∧
      p.bytes useTcpProtocol =
        if useTcpProtocol then header ++ p.payload.flatten
        else WebsocketProtocol.generateHeader opcodeBinary flagFin
          (header ++ p.payload.flatten).length ++ (header ++ p.payload.flatten) := by
  obtain ⟨header, hgen, -⟩ :=
    StreamingProtocol.generateHeader_ok p.signo p.type h
  refine ⟨header, hgen, ?_⟩
  have hgen' : StreamingProtocol.generateHeader p.signo p.type p.payload.flatten.length =
      .ok header := hgen
  cases useTcpProtocol with
  | true =>
      have hframe : p.frame true = .ok (header ++ p.payload.flatten) := by
        simp only [frame, Peer.packetFrame, hgen']
        rfl
      rw [bytes, hframe]
      exact ⟨rfl, rfl⟩
  | false =>
      have hframe : p.frame false = .ok (WebsocketProtocol.generateHeader opcodeBinary flagFin
          (header ++ p.payload.flatten).length ++ (header ++ p.payload.flatten)) := by
        simp only [frame, Peer.packetFrame, hgen']
        rfl
      rw [bytes, hframe]
      exact ⟨rfl, rfl⟩

theorem frame_error (useTcpProtocol : Bool) {p : Packet} (h : ¬ p.size < 2 ^ 32) :
    ∃ e, p.frame useTcpProtocol = .error e := by
  obtain ⟨e, he⟩ :=
    StreamingProtocol.generateHeader_error p.signo p.type h
  have he' : StreamingProtocol.generateHeader p.signo p.type p.payload.flatten.length =
      .error e := he
  refine ⟨e, ?_⟩
  simp only [frame, Peer.packetFrame, he']
  rfl

theorem event_eq {p : Packet} (h : p.Sendable) :
    (Item.packet p.signo p.type p.payload.flatten).events = [p.event] := by
  rcases h.2 with h | h
  · simp [Item.events, event, h]
  · simp [Item.events, event, h, packetTypeData, packetTypeMetadata]

end Packet

/-- Packets are sent exactly if each of them has a header. -/
theorem sendPackets_eq_ok {useTcpProtocol : Bool} {packets : List Packet} {bytes : Bytes} :
    sendPackets useTcpProtocol packets = .ok bytes ↔
      (∀ p ∈ packets, p.size < 2 ^ 32) ∧
        bytes = (packets.map (Packet.bytes useTcpProtocol)).flatten := by
  induction packets generalizing bytes with
  | nil => simp [sendPackets, eq_comm]
  | cons p ps ih =>
      rw [sendPackets]
      by_cases hp : p.size < 2 ^ 32
      · obtain ⟨-, -, hframe, -⟩ := p.frame_eq useTcpProtocol hp
        rw [hframe]
        cases hrest : sendPackets useTcpProtocol ps with
        | error e =>
            refine ⟨fun h => (nomatch h), fun h => ?_⟩
            have hok := ih.mpr ⟨fun q hq => h.1 q (List.mem_cons_of_mem _ hq), rfl⟩
            rw [hrest] at hok
            cases hok
        | ok rest =>
            obtain ⟨hall, hbytes⟩ := ih.mp hrest
            have hall' : ∀ q ∈ p :: ps, q.size < 2 ^ 32 := List.forall_mem_cons.mpr ⟨hp, hall⟩
            rw [List.map_cons, List.flatten_cons, ← hbytes]
            refine ⟨fun h => ⟨hall', ?_⟩, fun h => ?_⟩
            · exact (Except.ok.inj h).symm
            · rw [h.2]
              rfl
      · obtain ⟨e, he⟩ := p.frame_error useTcpProtocol hp
        rw [he]
        exact ⟨fun h => (nomatch h), fun h => absurd (h.1 p List.mem_cons_self) hp⟩

/-! ## One packet -/

/-- The packet in front of a stream of packets, as the receiver reads it. -/
theorem packetFramer_next_readable {size : Nat → Nat} (hsize : ∀ n < 2 ^ 31, size n = n)
    {p : Packet} (hp : p.Sendable) (hr : p.Readable) {header : Bytes}
    (hgen : StreamingProtocol.generateHeader p.signo p.type p.size = .ok header)
    (rest : Bytes) :
    (packetFramer size).next (header ++ p.payload.flatten ++ rest) =
      some { items := [.packet p.signo p.type p.payload.flatten]
             length := header.length + p.size
             stop := false } :=
  packetFramer_next_generated hp.1 (Packet.type_lt hp) (Nat.ne_of_gt hr.1)
    (hsize _ hr.2) hgen rest

/-- A packet that cannot be read back: whatever is taken for it has another
payload. -/
theorem packetFramer_next_unreadable {p : Packet} (hp : p.Sendable) (hr : ¬ p.Readable)
    {header : Bytes}
    (hgen : StreamingProtocol.generateHeader p.signo p.type p.size = .ok header)
    {rest : Bytes} (hrest : ∀ w data, takeWord rest = some (w, data) → w ≠ 0)
    {f : Frame Item}
    (h : (packetFramer widened).next (header ++ p.payload.flatten ++ rest) = some f) :
    ∃ payload, f.items = [.packet p.signo p.type payload] ∧ payload ≠ p.payload.flatten := by
  obtain ⟨d, hread, hfit, rfl⟩ := packetFramer_next.mp h
  have hlength : ((( header ++ p.payload.flatten ++ rest).drop d.headerSize).take
      (widened d.payloadSize)).length = widened d.payloadSize := by
    rw [List.length_take, List.length_drop]
    omega
  by_cases hempty : p.size = 0
  · -- The size field is zero, so the next header is taken for the size.
    have hnil : p.payload.flatten = [] := List.length_eq_zero_iff.mp hempty
    rw [hempty] at hgen
    rw [hnil, List.append_nil, StreamingProtocol.readHeader_generateHeader_empty hp.1
      (Packet.type_lt hp) hgen] at hread
    obtain ⟨⟨w, data⟩, hw, rfl⟩ := Option.map_eq_some_iff.mp hread
    have hpos := hrest w data hw
    have hle := le_widened w
    refine ⟨_, rfl, fun heq => ?_⟩
    rw [heq, hnil, List.length_nil] at hlength
    simp only at hlength
    omega
  · -- The size is read back, but widened to a number that is too large.
    have hlarge : 2 ^ 31 ≤ p.size := by
      unfold Packet.Readable at hr
      omega
    rw [List.append_assoc, StreamingProtocol.readHeader_generateHeader hp.1
      (Packet.type_lt hp) hempty hgen] at hread
    obtain rfl := Option.some.inj hread
    refine ⟨_, rfl, fun heq => ?_⟩
    rw [heq] at hlength
    simp only [widened, if_neg (Nat.not_lt.mpr hlarge)] at hlength
    have hsize : p.payload.flatten.length = p.size := rfl
    omega

/-! ## A sequence of packets over TCP -/

/-- The first word of what follows a packet is not zero. -/
theorem takeWord_ne_zero {packets : List Packet} (hsend : ∀ p ∈ packets, p.Sendable)
    (hlen : ∀ p ∈ packets, p.size < 2 ^ 32) {w : Nat} {data : Bytes}
    (h : takeWord (packets.map (Packet.bytes true)).flatten = some (w, data)) : w ≠ 0 := by
  cases packets with
  | nil => cases h
  | cons p ps =>
      have hp := hsend p List.mem_cons_self
      obtain ⟨header, hgen, -, hbytes⟩ := p.frame_eq true (hlen p List.mem_cons_self)
      obtain ⟨w', data', hw', htype⟩ := StreamingProtocol.takeWord_generateHeader hp.1
        (Packet.type_lt hp) hgen (p.payload.flatten ++ (ps.map (Packet.bytes true)).flatten)
      rw [if_pos rfl] at hbytes
      rw [List.map_cons, List.flatten_cons, hbytes, List.append_assoc, hw'] at h
      obtain ⟨rfl, -⟩ := Prod.mk.inj (Option.some.inj h)
      have hpos := Packet.type_pos hp
      rintro rfl
      simp at htype
      omega

theorem closing_ne_cons (status : Verified.Framing.Status UInt8) (p : Packet)
    (events : List Event) :
    closing status ≠ p.event :: events := by
  intro h
  have hmem : p.event ∈ closing status := by rw [h]; exact List.mem_cons_self
  have hclosed : p.event = .closed .noBufferSpace := by
    cases status with
    | waiting rest => cases hmem
    | stopped => cases hmem
    | overflow => exact List.mem_singleton.mp hmem
  unfold Packet.event at hclosed
  split at hclosed <;> cases hclosed

/-- If the receiver hands on the packets, each of them can be read back. -/
theorem readable_of_parseEvents {M : Nat} (packets : List Packet)
    (hsend : ∀ p ∈ packets, p.Sendable) (hlen : ∀ p ∈ packets, p.size < 2 ^ 32)
    (h : parseEvents (packetFramer widened) M (packets.map (Packet.bytes true)).flatten =
      packets.map Packet.event) : ∀ p ∈ packets, p.Readable := by
  induction packets with
  | nil => intro p hp; cases hp
  | cons p ps ih =>
      obtain ⟨hp, hsend⟩ := List.forall_mem_cons.mp hsend
      obtain ⟨hplen, hlen⟩ := List.forall_mem_cons.mp hlen
      obtain ⟨header, hgen, -, hbytes⟩ := p.frame_eq true hplen
      rw [if_pos rfl] at hbytes
      rw [List.map_cons, List.flatten_cons, hbytes, List.map_cons] at h
      cases hnext : (packetFramer widened).next
          (header ++ p.payload.flatten ++ (ps.map (Packet.bytes true)).flatten) with
      | none =>
          rw [parseEvents_none hnext] at h
          exact absurd h (closing_ne_cons _ p _)
      | some f =>
          have hstop : f.stop = false := by
            obtain ⟨d, -, -, rfl⟩ := packetFramer_next.mp hnext
            rfl
          by_cases hM : M < f.length
          · rw [parseEvents_long hnext hM] at h
            exact absurd h (closing_ne_cons _ p _)
          rw [parseEvents_some hnext (Nat.not_lt.mp hM) hstop] at h
          by_cases hr : p.Readable
          · rw [packetFramer_next_readable (fun n hn => widened_of_lt hn) hp hr hgen] at hnext
            obtain rfl := Option.some.inj hnext
            have hdrop : (header ++ p.payload.flatten ++
                (ps.map (Packet.bytes true)).flatten).drop (header.length + p.size) =
                  (ps.map (Packet.bytes true)).flatten := by
              rw [Packet.size, ← List.length_append, List.drop_left]
            simp only [List.flatMap_cons, List.flatMap_nil, List.append_nil,
              Packet.event_eq hp, List.singleton_append, hdrop] at h
            exact List.forall_mem_cons.mpr ⟨hr, ih hsend hlen (List.cons.inj h).2⟩
          · obtain ⟨payload, hitems, hne⟩ := packetFramer_next_unreadable hp hr hgen
              (fun w data hw => takeWord_ne_zero hsend hlen hw) hnext
            -- The packet handed on has the type of `p`, but another payload.
            have hother : (Item.packet p.signo p.type payload).events =
                [Packet.event ⟨p.signo, p.type, [payload]⟩] := by
              have hevent := Packet.event_eq (p := ⟨p.signo, p.type, [payload]⟩) hp
              simpa using hevent
            rw [hitems, List.flatMap_cons, List.flatMap_nil, List.append_nil, hother,
              List.singleton_append] at h
            have hevent := (List.cons.inj h).1
            refine absurd ?_ hne
            simp only [Packet.event] at hevent
            split at hevent
            · simpa using hevent
            · simpa using hevent

/-! ## A sequence of packets over WebSocket -/

/-- Alone in a frame, a packet that cannot be read back is not there at all. -/
theorem packetFramer_next_alone {p : Packet} (hp : p.Sendable) (hr : ¬ p.Readable)
    {header : Bytes}
    (hgen : StreamingProtocol.generateHeader p.signo p.type p.size = .ok header) :
    (packetFramer widened).next (header ++ p.payload.flatten) = none := by
  cases hnext : (packetFramer widened).next (header ++ p.payload.flatten) with
  | none => rfl
  | some f =>
      exfalso
      obtain ⟨d, hread, hfit, -⟩ := packetFramer_next.mp hnext
      by_cases hempty : p.size = 0
      · have hnil : p.payload.flatten = [] := List.length_eq_zero_iff.mp hempty
        rw [hempty] at hgen
        rw [hnil, StreamingProtocol.readHeader_generateHeader_empty hp.1
          (Packet.type_lt hp) hgen] at hread
        cases hread
      · have hlarge : 2 ^ 31 ≤ p.size := by
          unfold Packet.Readable at hr
          omega
        rw [StreamingProtocol.readHeader_generateHeader hp.1 (Packet.type_lt hp) hempty
          hgen] at hread
        obtain rfl := Option.some.inj hread
        simp only [widened, if_neg (Nat.not_lt.mpr hlarge), List.length_append] at hfit
        have hsize : p.payload.flatten.length = p.size := rfl
        omega

/-- What a WebSocket frame with one packet says to the receiver. -/
def Packet.items (p : Packet) : List Item :=
  if p.Readable then [.packet p.signo p.type p.payload.flatten] else []

theorem drain_packet {p : Packet} (hp : p.Sendable) {header : Bytes}
    (hgen : StreamingProtocol.generateHeader p.signo p.type p.size = .ok header) :
    ((packetFramer widened).drain (header ++ p.payload.flatten)).flatMap Frame.items =
      p.items := by
  unfold Packet.items
  by_cases hr : p.Readable
  · have hnext := packetFramer_next_readable (fun n hn => widened_of_lt hn) hp hr hgen []
    rw [List.append_nil] at hnext
    have hdrop : (header ++ p.payload.flatten).drop (header.length + p.size) = [] :=
      List.drop_eq_nil_of_le (Nat.le_of_eq List.length_append)
    simp only [Framer.drain_some _ hnext, hdrop, Framer.drain_none _ (Framer.next_nil _),
      if_pos hr]
    rfl
  · rw [if_neg hr, Framer.drain_none _ (packetFramer_next_alone hp hr hgen)]
    rfl

/-- The frame of a packet, as the receiver takes it. -/
def Packet.toFrame (useTcpProtocol : Bool) (p : Packet) : Frame Item :=
  { items := p.items
    length := (p.bytes useTcpProtocol).length
    stop := false }

theorem next_bytes {useTcpProtocol : Bool} {p : Packet} (hp : p.Sendable)
    (hlen : p.size < 2 ^ 32) (hr : useTcpProtocol = true → p.Readable) (rest : Bytes) :
    (framer useTcpProtocol widened).next (p.bytes useTcpProtocol ++ rest) =
      some (p.toFrame useTcpProtocol) := by
  obtain ⟨header, hgen, -, hbytes⟩ := p.frame_eq useTcpProtocol hlen
  cases useTcpProtocol with
  | true =>
      have hr := hr rfl
      rw [if_pos rfl] at hbytes
      rw [Packet.toFrame, Packet.items, if_pos hr, hbytes, List.length_append]
      exact packetFramer_next_readable (fun n hn => widened_of_lt hn) hp hr hgen rest
  | false =>
      have hheader : header.length ≤ 8 := by
        obtain ⟨header', hgen', hlength⟩ :=
          StreamingProtocol.generateHeader_ok p.signo p.type hlen
        rw [hgen] at hgen'
        obtain rfl := Except.ok.inj hgen'
        split at hlength <;> omega
      rw [if_neg (by decide)] at hbytes
      have hsize : p.payload.flatten.length = p.size := rfl
      have hlt : (header ++ p.payload.flatten).length < 2 ^ 64 := by
        rw [List.length_append]
        omega
      have hnext := websocketFramer_next_generated widened hlt rest
      rw [drain_packet hp hgen, ← List.length_append, ← hbytes] at hnext
      exact hnext

/-- The events of a stream of packets that are taken one by one. -/
theorem parseEvents_packets {useTcpProtocol : Bool} {M : Nat} (hM : 0 < M)
    {packets : List Packet} (hsend : ∀ p ∈ packets, p.Sendable)
    (hlen : ∀ p ∈ packets, p.size < 2 ^ 32)
    (hfit : ∀ p ∈ packets, (p.bytes useTcpProtocol).length ≤ M)
    (hr : useTcpProtocol = true → ∀ p ∈ packets, p.Readable) :
    parseEvents (framer useTcpProtocol widened) M
        (packets.map (Packet.bytes useTcpProtocol)).flatten =
      (packets.filter (fun p => p.Readable)).map Packet.event := by
  have hparse := Framer.parse_encode (framer useTcpProtocol widened) hM
    (Packet.bytes useTcpProtocol) (Packet.toFrame useTcpProtocol) packets
    (fun p hp rest => next_bytes (hsend p hp) (hlen p hp) (fun h => hr h p hp) rest)
    (fun p _ => rfl) hfit (fun p _ => rfl)
  rw [parseEvents, hparse]
  have hevents : ∀ ps : List Packet, (∀ p ∈ ps, p.Sendable) →
      eventsOf (ps.map (Packet.toFrame useTcpProtocol)) =
        (ps.filter (fun p => p.Readable)).map Packet.event := by
    intro ps
    induction ps with
    | nil => intro _; rfl
    | cons p ps ih =>
        intro hsend
        obtain ⟨hp, hsend⟩ := List.forall_mem_cons.mp hsend
        rw [List.map_cons, eventsOf_cons, ih hsend, Packet.toFrame, Packet.items]
        by_cases hr : p.Readable
        · simp [hr, Packet.event_eq hp]
        · simp [hr]
  rw [hevents packets hsend]
  exact List.append_nil _

/-! ## Packets end to end -/

/-- The packets are sent, and however their bytes are delivered, the receiver
hands on these packets. -/
def Lossless (useTcpProtocol : Bool) (M : Nat) (packets : List Packet) : Prop :=
  ∃ bytes, sendPackets useTcpProtocol packets = .ok bytes ∧
    ∀ d : Delivery, d.stream = bytes → d.Fits useTcpProtocol M →
      deliver useTcpProtocol M d = packets.map Packet.event

/-- **Packet framing is lossless exactly for payloads that are neither empty
nor of `2 ^ 31` bytes or more.** -/
theorem lossless_iff_readable (useTcpProtocol : Bool) (M : Nat) (hM : 1 ≤ M)
    (packets : List Packet) (hsend : ∀ p ∈ packets, p.Sendable)
    (hfit : ∀ p ∈ packets, ∀ f, p.frame useTcpProtocol = .ok f → f.length ≤ M) :
    Lossless useTcpProtocol M packets ↔
      ∀ p ∈ packets, 0 < p.size ∧ p.size < 2 ^ 31 := by
  have hfit' : ∀ p ∈ packets, p.size < 2 ^ 32 → (p.bytes useTcpProtocol).length ≤ M := by
    intro p hp hlen
    obtain ⟨-, -, hframe, -⟩ := p.frame_eq useTcpProtocol hlen
    exact hfit p hp _ hframe
  constructor
  · rintro ⟨bytes, hbytes, hall⟩
    obtain ⟨hlen, rfl⟩ := sendPackets_eq_ok.mp hbytes
    obtain ⟨d, hstream, hfits⟩ := exists_delivery useTcpProtocol hM
      (packets.map (Packet.bytes useTcpProtocol)).flatten
    have hdeliver := hall d hstream hfits
    rw [deliver_eq_parseEvents hM hfits, hstream] at hdeliver
    cases useTcpProtocol with
    | true => exact readable_of_parseEvents packets hsend hlen hdeliver
    | false =>
        rw [parseEvents_packets hM hsend hlen (fun p hp => hfit' p hp (hlen p hp))
          (fun h => (nomatch h))] at hdeliver
        have hlength := congrArg List.length hdeliver
        rw [List.length_map, List.length_map, List.length_filter_eq_length_iff] at hlength
        intro p hp
        exact of_decide_eq_true (hlength p hp)
  · intro hr
    have hlen : ∀ p ∈ packets, p.size < 2 ^ 32 := fun p hp => by
      have := (hr p hp).2
      omega
    refine ⟨_, sendPackets_eq_ok.mpr ⟨hlen, rfl⟩, fun d hstream hfits => ?_⟩
    rw [deliver_eq_parseEvents hM hfits, hstream, parseEvents_packets hM hsend hlen
      (fun p hp => hfit' p hp (hlen p hp)) (fun _ => hr), List.filter_eq_self.mpr]
    intro p hp
    exact decide_eq_true (hr p hp)

/-- A data packet, a metadata packet and a data packet of 300 bytes in two
buffers, which has a second word over TCP and an extended length over
WebSocket. -/
def mixedPackets : List Packet :=
  [⟨1, packetTypeData, [[0x05]]⟩, ⟨0, packetTypeMetadata, [[0x02, 0x00, 0x00, 0x00], [0x80]]⟩,
    ⟨7, packetTypeData, [List.replicate 200 0xaa, List.replicate 100 0xbb]⟩]

theorem lossless_mixedPackets :
    Lossless true 512 mixedPackets ∧ Lossless false 512 mixedPackets := by
  have hsend : ∀ p ∈ mixedPackets, p.Sendable := by
    intro p hp
    simp only [mixedPackets, List.mem_cons, List.not_mem_nil, or_false] at hp
    rcases hp with rfl | rfl | rfl
    · exact ⟨by decide, .inl rfl⟩
    · exact ⟨by decide, .inr rfl⟩
    · exact ⟨by decide, .inl rfl⟩
  have hsize : ∀ p ∈ mixedPackets, 0 < p.size ∧ p.size < 2 ^ 31 := by
    decide +kernel
  have hlength : ∀ useTcpProtocol, ∀ p ∈ mixedPackets,
      (p.bytes useTcpProtocol).length ≤ 512 := by
    decide +kernel
  have hfit (useTcpProtocol : Bool) : ∀ p ∈ mixedPackets,
      ∀ f, p.frame useTcpProtocol = .ok f → f.length ≤ 512 := by
    intro p hp f hf
    have hle := hlength useTcpProtocol p hp
    unfold Packet.bytes at hle
    rw [hf] at hle
    exact hle
  exact ⟨(lossless_iff_readable true 512 (by decide) _ hsend (hfit true)).mpr hsize,
    (lossless_iff_readable false 512 (by decide) _ hsend (hfit false)).mpr hsize⟩

/-- The empty data packet that `publish_data(data, 0)` sends is four bytes with
a size field of zero: the receiver waits for a second word. -/
theorem empty_packet_is_lost :
    sendPackets true [⟨1, packetTypeData, [[]]⟩] = .ok [0x01, 0x00, 0x00, 0x10] ∧
      Delivery.Fits true 16 ⟨none, [[0x01, 0x00, 0x00, 0x10]]⟩ ∧
      deliver true 16 ⟨none, [[0x01, 0x00, 0x00, 0x10]]⟩ = [] ∧
      ¬ Lossless true 16 [⟨1, packetTypeData, [[]]⟩] := by
  have hsend : sendPackets true [⟨1, packetTypeData, [[]]⟩] =
      .ok [0x01, 0x00, 0x00, 0x10] := by decide
  have hfits : Delivery.Fits true 16 ⟨none, [[0x01, 0x00, 0x00, 0x10]]⟩ :=
    ⟨by decide, fun _ => ⟨by decide, by decide, trivial⟩⟩
  have hdeliver : deliver true 16 ⟨none, [[0x01, 0x00, 0x00, 0x10]]⟩ = [] := by
    decide +kernel
  refine ⟨hsend, hfits, hdeliver, ?_⟩
  rintro ⟨bytes, hbytes, hall⟩
  rw [hsend] at hbytes
  obtain rfl := Except.ok.inj hbytes
  have hevents := hall ⟨none, [[0x01, 0x00, 0x00, 0x10]]⟩ rfl hfits
  rw [hdeliver] at hevents
  cases hevents

end WsStreaming.Ports
