import WsStreaming.Verified.Run
import WsStreaming.Verified.Words
import WsStreaming.Ports.BasePeerStream

/-!
# The bounds of the receive buffer

The receive path once more, with `std::size_t` as a machine word: offsets, sizes
from the wire and buffer sizes are added and subtracted modulo `2 ^ 64`, and the
loops over packets and frames run until the source stops them or a number of
rounds is used up.  Each time the source touches the buffer, or hands a part of
it on, the words that make up the place are recorded next to the size of what
the place should lie in.

## Main results

* `processBuffer_spec` — the words compute what `BasePeer` computes with natural
  numbers, the loops come to an end, and every use is in bounds.
* `receive_in_bounds` — the same for every state that reads lead to.
-/

namespace WsStreaming.Ports

open WsStreaming.Verified
open WsStreaming.Verified.Blocks (overwrite)
open WsStreaming.Verified.Wire (Bytes xorKey)
open WsStreaming.Verified.Words (Extent)

/-- `std::vector<std::uint8_t>::max_size`; more makes `resize` throw. -/
def vectorMaxSize : Nat := 2 ^ 63 - 1

/-- What a place in the receive buffer is used for. -/
inductive Purpose where
  /-- `run(data, size)` copies the data to it. -/
  | copy
  /-- `process_buffer` moves it to the front. -/
  | move
  /-- A header is decoded from it. -/
  | decode
  /-- The payload of a frame. -/
  | frame
  /-- The payload of a packet. -/
  | packet
  /-- The encoded metadata of a packet. -/
  | metadata
deriving DecidableEq, Repr

/-- A use of the receive buffer. -/
inductive Use where
  /-- A read is given the room from `first` on. -/
  | read (first room size : UInt64)
  | access (purpose : Purpose) (extent : Extent)
deriving DecidableEq, Repr

/-- The use is in bounds, and a read has room. -/
def Use.InBounds : Use → Prop
  | .read first room size => 0 < room.toNat ∧ first.toNat + room.toNat ≤ size.toNat
  | .access _ extent => extent.Inside

/-- The state of `base_peer`. -/
structure Receiver where
  useTcpProtocol : Bool
  isClosed : Bool := false
  rxBuffer : Bytes
  rxBufferBytes : UInt64 := 0
  rxBufferMax : UInt64
  reading : Bool := false
deriving DecidableEq, Repr

namespace Receiver

/-- The same peer with natural numbers for its sizes. -/
def toPeer (w : Receiver) : BasePeer :=
  { useTcpProtocol := w.useTcpProtocol
    isClosed := w.isClosed
    rxBuffer := w.rxBuffer
    rxBufferBytes := w.rxBufferBytes.toNat
    rxBufferMax := w.rxBufferMax.toNat
    reading := w.reading }

/-- `_rx_buffer.size()`. -/
def size (w : Receiver) : UInt64 := UInt64.ofNat w.rxBuffer.length

/-- `base_peer::base_peer`. -/
def new (useTcpProtocol : Bool) (rxBufferSize : UInt64) : Receiver :=
  { useTcpProtocol := useTcpProtocol
    rxBuffer := List.replicate (min BasePeer.initialRxBufferSize rxBufferSize.toNat) 0
    rxBufferMax := rxBufferSize }

/-- What became of an attempt to grow the buffer. -/
inductive Growth where
  | refused
  /-- `resize` threw. -/
  | threw
  | grown (w : Receiver)
deriving DecidableEq, Repr

/-- `base_peer::grow_rx_buffer`. -/
def growRxBuffer (w : Receiver) : Growth :=
  if w.rxBufferMax ≤ w.size then .refused
  else
    let size := min (w.size * 2) w.rxBufferMax
    if vectorMaxSize < size.toNat then .threw
    else
      .grown { w with
        rxBuffer := w.rxBuffer ++ List.replicate (size.toNat - w.rxBuffer.length) 0 }

/-- What a function of the receive path comes to. -/
structure Outcome where
  receiver : Receiver
  events : List Event := []
  uses : List Use := []
deriving DecidableEq, Repr

/-- `base_peer::close`. -/
def close (w : Receiver) (ec : ErrorCode) : Outcome :=
  if w.isClosed then { receiver := w }
  else { receiver := { w with isClosed := true }, events := [.closed ec] }

/-- The room that a read is given. -/
def room (w : Receiver) : UInt64 := w.size - w.rxBufferBytes

/-- `do_read`. -/
def doRead (w : Receiver) : Outcome :=
  { receiver := { w with reading := true }
    uses := [.read w.rxBufferBytes w.room w.size] }

/-! ## Packets -/

/-- What a loop, or one round of it, comes to: the bytes consumed, what was
handed on and the places used. -/
structure Scan where
  offset : UInt64
  events : List Event
  uses : List Use
deriving DecidableEq, Repr

/-- `base_peer::process_packet` on the `size` bytes at `base + offset`. -/
def processPacket (buffer : Bytes) (limit base offset size : UInt64) : Scan :=
  let header :=
    StreamingProtocol.decodeHeader ((buffer.drop (base + offset).toNat).take size.toNat)
  let headerSize := UInt64.ofNat header.headerSize
  let payloadSize := UInt64.ofNat header.payloadSize
  let decode := Use.access .decode ⟨[base, offset, size], limit⟩
  if headerSize = 0 then ⟨0, [], [decode]⟩
  else
    let payload := (buffer.drop (base + offset + headerSize).toNat).take payloadSize.toNat
    let packet := Use.access .packet ⟨[base, offset, headerSize, payloadSize], limit⟩
    if header.type = StreamingProtocol.packetTypeData then
      ⟨headerSize + payloadSize, [.dataPacket header.signo payload], [decode, packet]⟩
    else if header.type = StreamingProtocol.packetTypeMetadata then
      ⟨headerSize + payloadSize, [.metadataPacket header.signo payload],
        -- The encoding comes first, if there is one.
        if payloadSize < 4 then [decode, packet]
        else
          [decode, packet,
            .access .metadata ⟨[base, offset, headerSize, 4, payloadSize - 4], limit⟩]⟩
    else ⟨headerSize + payloadSize, [], [decode, packet]⟩

/-- The loop over the packets in the `size` bytes at `base`, from `offset` on;
`none` if it does not end within the number of rounds. -/
def packetLoop (buffer : Bytes) (limit base size : UInt64) : Nat → UInt64 → Option Scan
  | 0, _ => none
  | rounds + 1, offset =>
      let packet := processPacket buffer limit base offset (size - offset)
      if packet.offset = 0 then some { packet with offset := offset }
      else
        (packetLoop buffer limit base size rounds (offset + packet.offset)).map fun rest =>
          ⟨rest.offset, packet.events ++ rest.events, packet.uses ++ rest.uses⟩

/-! ## Frames -/

/-- What the loop of `process_buffer_ws`, or one round of it, comes to. -/
structure FrameScan where
  buffer : Bytes
  offset : UInt64
  events : List Event
  uses : List Use
  error : Option ErrorCode
deriving DecidableEq, Repr

/-- `base_peer::process_websocket_frame` on the `size` bytes at `start`. -/
def processWebsocketFrame (header : WebsocketProtocol.DecodedHeader) (buffer : Bytes)
    (limit start size : UInt64) : Option FrameScan :=
  if header.flags &&& WebsocketProtocol.flagFin = 0 then
    some ⟨buffer, start, [], [], some .operationNotSupported⟩
  else
    let data := (buffer.drop start.toNat).take size.toNat
    let data :=
      if header.isMasked then xorKey (fun i => header.maskingKey.getD i 0) 0 data else data
    let buffer := overwrite buffer start.toNat data
    let scan : FrameScan := ⟨buffer, start + size, [], [], none⟩
    if header.opcode = WebsocketProtocol.opcodeClose then
      some { scan with events := [.controlFrame WebsocketProtocol.opcodeClose [] true] }
    else if header.opcode = WebsocketProtocol.opcodePing then
      some { scan with events := [.controlFrame WebsocketProtocol.opcodePong data false] }
    else if header.opcode = WebsocketProtocol.opcodeText then some scan
    else if header.opcode = WebsocketProtocol.opcodeBinary then
      (packetLoop buffer limit start size (size.toNat + 1) 0).map fun packets =>
        { scan with events := packets.events, uses := packets.uses }
    else some scan

/-- The loop over the frames in the first `bytes` bytes of the buffer, from
`offset` on; `none` if it does not end within the number of rounds. -/
def frameLoop (bytes : UInt64) : Nat → Bytes → UInt64 → Option FrameScan
  | 0, _, _ => none
  | rounds + 1, buffer, offset =>
      let header := WebsocketProtocol.decodeHeader
        ((buffer.drop offset.toNat).take (bytes - offset).toNat)
      let headerSize := UInt64.ofNat header.headerSize
      let payloadSize := UInt64.ofNat header.payloadSize
      let decode := Use.access .decode ⟨[offset, bytes - offset], bytes⟩
      if headerSize = 0 then some ⟨buffer, offset, [], [decode], none⟩
      else
        let payload := Use.access .frame ⟨[offset, headerSize, payloadSize], bytes⟩
        (processWebsocketFrame header buffer bytes (offset + headerSize) payloadSize).bind
          fun frame =>
            let uses := decode :: payload :: frame.uses
            if frame.error.isSome then some { frame with offset := offset, uses := uses }
            else
              (frameLoop bytes rounds frame.buffer (offset + (headerSize + payloadSize))).map
                fun rest =>
                  { rest with events := frame.events ++ rest.events, uses := uses ++ rest.uses }

/-! ## The buffer -/

/-- The slide to the front after either loop. -/
def slide (w : Receiver) (offset : UInt64) : Receiver × List Use :=
  if offset = 0 then (w, [])
  else
    let bytes := w.rxBufferBytes - offset
    ({ w with
        rxBufferBytes := bytes
        rxBuffer := overwrite w.rxBuffer 0 ((w.rxBuffer.drop offset.toNat).take bytes.toNat) },
      [.access .move ⟨[offset, bytes], w.size⟩, .access .move ⟨[bytes], w.size⟩])

/-- The end of both `process_buffer` functions. -/
def readOn (w : Receiver) : Outcome :=
  if w.rxBufferBytes = w.size then
    match w.growRxBuffer with
    | .refused => w.close .noBufferSpace
    | .threw => { receiver := w }
    | .grown w => w.doRead
  else w.doRead

/-- Both `process_buffer` functions after their loop. -/
def finish (w : Receiver) (offset : UInt64) (events : List Event) (uses : List Use) : Outcome :=
  let slid := w.slide offset
  let last := slid.1.readOn
  ⟨last.receiver, events ++ last.events, uses ++ slid.2 ++ last.uses⟩

/-- `base_peer::process_buffer_tcp`. -/
def processBufferTcp (w : Receiver) : Option Outcome :=
  (packetLoop w.rxBuffer w.rxBufferBytes 0 w.rxBufferBytes (w.rxBufferBytes.toNat + 1) 0).map
    fun scan => w.finish scan.offset scan.events scan.uses

/-- `base_peer::process_buffer_ws`. -/
def processBufferWs (w : Receiver) : Option Outcome :=
  (frameLoop w.rxBufferBytes (w.rxBufferBytes.toNat + 1) w.rxBuffer 0).map fun scan =>
    let w := { w with rxBuffer := scan.buffer }
    match scan.error with
    | some ec =>
        let last := w.close ec
        ⟨last.receiver, scan.events ++ last.events, scan.uses ++ last.uses⟩
    | none => w.finish scan.offset scan.events scan.uses

/-- `base_peer::process_buffer`; `none` if a loop does not end. -/
def processBuffer (w : Receiver) : Option Outcome :=
  if w.useTcpProtocol then w.processBufferTcp else w.processBufferWs

/-! ## Activation and reads -/

/-- Bytes that a pointer and a size describe. -/
structure Region where
  bytes : Bytes
  addressable : bytes.length < 2 ^ 64
deriving DecidableEq, Repr

/-- The size of a region. -/
def Region.size (data : Region) : UInt64 := UInt64.ofNat data.bytes.length

/-- The loop at the start of `run(data, size)`, with whether `resize` threw. -/
def makeRoom (size : UInt64) : Nat → Receiver → Option (Receiver × Bool)
  | 0, _ => none
  | rounds + 1, w =>
      if w.size < size then
        match w.growRxBuffer with
        | .refused => some (w, false)
        | .threw => some (w, true)
        | .grown w => makeRoom size rounds w
      else some (w, false)

/-- `base_peer::run(data, size)`.  The posted handlers run before any read. -/
def runWith (w : Receiver) (data : Region) : Option Outcome :=
  (makeRoom data.size (w.rxBufferMax.toNat + 1) w).bind fun made =>
    let w := made.1
    if made.2 then some { receiver := w }
    else if w.size < data.size then some (w.close .noBufferSpace)
    else
      (processBuffer { w with
        rxBuffer := overwrite w.rxBuffer 0 data.bytes
        rxBufferBytes := data.size }).map fun o =>
          { o with uses := .access .copy ⟨[data.size], w.size⟩ :: o.uses }

/-- `base_peer::run()` or `base_peer::run(data, size)`. -/
def start (w : Receiver) : Option Region → Option Outcome
  | none => some w.doRead
  | some data => w.runWith data

/-- How a read ends: `peer::finish_wait_rx`, with what the wait and the receive
report, or `peer_tls::finish_read`. -/
inductive Read where
  | plain (waitEc : ErrorCode) (received : Bytes) (receiveEc : ErrorCode)
  | tls (ec : ErrorCode) (received : Bytes)
deriving DecidableEq, Repr

/-- What it stored in the buffer. -/
def Read.received : Read → Bytes
  | .plain _ received _ => received
  | .tls _ received => received

/-- The received bytes are in the buffer. -/
def store (w : Receiver) (received : Bytes) : Receiver :=
  { w with rxBuffer := overwrite w.rxBuffer w.rxBufferBytes.toNat received }

/-- The received bytes count. -/
def take (w : Receiver) (received : Bytes) : Option Outcome :=
  processBuffer { w with rxBufferBytes := w.rxBufferBytes + UInt64.ofNat received.length }

/-- `peer::finish_wait_rx`. -/
def finishWaitRx (w : Receiver) (waitEc : ErrorCode) (received : Bytes)
    (receiveEc : ErrorCode) : Option Outcome :=
  let w := { w with reading := false }
  if waitEc ≠ .success then some (w.close waitEc)
  else
    let use := Use.read w.rxBufferBytes w.room w.size
    let w := w.store received
    (if received.length = 0 then some (w.close .success)
    else if receiveEc ≠ .success ∧ receiveEc ≠ .wouldBlock then some (w.close receiveEc)
    else w.take received).map fun o => { o with uses := use :: o.uses }

/-- `peer_tls::finish_read`. -/
def finishRead (w : Receiver) (ec : ErrorCode) (received : Bytes) : Option Outcome :=
  let w := { w with reading := false }.store received
  if ec ≠ .success then some (w.close ec)
  else if received.length = 0 then some (w.close .success)
  else w.take received

/-- A read that ends, if the peer reads. -/
def read (w : Receiver) (r : Read) : Option Outcome :=
  if w.reading then
    match r with
    | .plain waitEc received receiveEc => w.finishWaitRx waitEc received receiveEc
    | .tls ec received => w.finishRead ec received
  else some { receiver := w }

/-- One more read after others. -/
def Outcome.read (o : Outcome) (r : Read) : Option Outcome :=
  (o.receiver.read r).map fun next =>
    ⟨next.receiver, o.events ++ next.events, o.uses ++ next.uses⟩

/-- A peer is made and started, and reads. -/
def deliver (useTcpProtocol : Bool) (rxBufferSize : UInt64) (handedOver : Option Region)
    (reads : List Read) : Option Outcome :=
  ((new useTcpProtocol rxBufferSize).start handedOver).bind fun o => reads.foldlM Outcome.read o

/-- A read stores no more than the room that it was given. -/
def Outcome.Fits (o : Outcome) (r : Read) : Prop :=
  o.receiver.reading = true → r.received.length ≤ o.receiver.room.toNat

instance (o : Outcome) (r : Read) : Decidable (o.Fits r) :=
  inferInstanceAs (Decidable (_ → _))

/-! ## Bounds -/

/-- What holds of the buffer between any two events. -/
structure Bounded (w : Receiver) : Prop where
  pos : 0 < w.rxBuffer.length
  le_max : w.rxBuffer.length ≤ w.rxBufferMax.toNat
  le_vector : w.rxBuffer.length ≤ vectorMaxSize
  bytes_le : w.rxBufferBytes.toNat ≤ w.rxBuffer.length
  room : w.reading = true → w.rxBufferBytes.toNat < w.rxBuffer.length

/-- The outcome is bounded by the maximum, and everything on the way was. -/
structure Outcome.Good (M : UInt64) (o : Outcome) : Prop where
  bounded : Bounded o.receiver
  max_eq : o.receiver.rxBufferMax = M
  uses : ∀ u ∈ o.uses, u.InBounds

section Growth

variable {w : Receiver}

theorem toNat_size (h : w.rxBuffer.length ≤ vectorMaxSize) :
    w.size.toNat = w.rxBuffer.length := by
  unfold vectorMaxSize at h
  rw [size, UInt64.toNat_ofNat']
  exact Nat.mod_eq_of_lt (by omega)

theorem growRxBuffer_spec (hle : w.rxBuffer.length ≤ vectorMaxSize) :
    match w.growRxBuffer with
    | .refused => w.rxBufferMax.toNat ≤ w.rxBuffer.length ∧ w.toPeer.growRxBuffer = none
    | .threw => vectorMaxSize < w.rxBufferMax.toNat
    | .grown v => ∃ zeros, v = { w with rxBuffer := w.rxBuffer ++ zeros } ∧
        v.rxBuffer.length = min (w.rxBuffer.length * 2) w.rxBufferMax.toNat ∧
        v.rxBuffer.length ≤ vectorMaxSize ∧ w.rxBuffer.length < w.rxBufferMax.toNat ∧
        w.toPeer.growRxBuffer = some v.toPeer := by
  have hsize := toNat_size hle
  have hmax := w.rxBufferMax.toNat_lt
  have hdouble : (w.size * 2).toNat = w.rxBuffer.length * 2 := by
    rw [UInt64.toNat_mul, hsize]
    unfold vectorMaxSize at hle
    exact Nat.mod_eq_of_lt (by show w.rxBuffer.length * 2 < 2 ^ 64; omega)
  have hmin : (min (w.size * 2) w.rxBufferMax).toNat =
      min (w.rxBuffer.length * 2) w.rxBufferMax.toNat := by
    rw [UInt64.toNat_min, hdouble]
  have hfull : w.rxBufferMax ≤ w.size ↔ w.rxBufferMax.toNat ≤ w.rxBuffer.length := by
    rw [UInt64.le_iff_toNat_le, hsize]
  unfold growRxBuffer BasePeer.growRxBuffer
  by_cases hrefused : w.rxBufferMax ≤ w.size
  · rw [if_pos hrefused]
    exact ⟨hfull.mp hrefused, if_pos (hfull.mp hrefused)⟩
  · have hlt : ¬ w.rxBufferMax.toNat ≤ w.rxBuffer.length := fun h => hrefused (hfull.mpr h)
    rw [if_neg hrefused]
    dsimp only
    rw [hmin]
    by_cases hthrew : vectorMaxSize < min (w.rxBuffer.length * 2) w.rxBufferMax.toNat
    · rw [if_pos hthrew]
      show vectorMaxSize < w.rxBufferMax.toNat
      omega
    · rw [if_neg hthrew]
      have hlength : (w.rxBuffer ++ List.replicate
          (min (w.rxBuffer.length * 2) w.rxBufferMax.toNat - w.rxBuffer.length) 0).length =
            min (w.rxBuffer.length * 2) w.rxBufferMax.toNat := by
        rw [List.length_append, List.length_replicate]
        omega
      refine ⟨_, rfl, hlength, ?_, by omega, if_neg hlt⟩
      show (w.rxBuffer ++ List.replicate _ 0).length ≤ _
      omega

end Growth

/-! ## The packet loop -/

section Packets

variable {buffer : Bytes} {limit base size : UInt64}

/-- The bytes that are still to be looked at. -/
def remaining (buffer : Bytes) (base size offset : UInt64) : Bytes :=
  (buffer.drop (base.toNat + offset.toNat)).take (size.toNat - offset.toNat)

variable (hinside : base.toNat + size.toNat ≤ limit.toNat)
  (hbuffer : limit.toNat ≤ buffer.length)

include hinside hbuffer

theorem length_remaining {offset : UInt64} (hoffset : offset.toNat ≤ size.toNat) :
    (remaining buffer base size offset).length = size.toNat - offset.toNat := by
  rw [remaining, List.length_take, List.length_drop]
  omega

/-- **One packet.** -/
theorem processPacket_spec {offset : UInt64} (hoffset : offset.toNat ≤ size.toNat) :
    (processPacket buffer limit base offset (size - offset)).offset.toNat =
        (BasePeer.processPacket (remaining buffer base size offset)).1 ∧
      (processPacket buffer limit base offset (size - offset)).events =
        (BasePeer.processPacket (remaining buffer base size offset)).2 ∧
      ∀ u ∈ (processPacket buffer limit base offset (size - offset)).uses, u.InBounds := by
  have hlimit := limit.toNat_lt
  have hlength := length_remaining hinside hbuffer hoffset
  have hfirst : (base + offset).toNat = base.toNat + offset.toNat :=
    Words.toNat_add_of_le (n := limit.toNat) (by omega) hlimit
  have hrest : (size - offset).toNat = size.toNat - offset.toNat :=
    Words.toNat_sub_of_toNat_le hoffset
  have hdecode : (Use.access .decode ⟨[base, offset, size - offset], limit⟩).InBounds := by
    show Words.total _ ≤ _
    simp only [Words.total_cons, Words.total_nil, hrest]
    omega
  have hslice : (buffer.drop (base + offset).toNat).take (size - offset).toNat =
      remaining buffer base size offset := by
    rw [hfirst, hrest]
    rfl
  unfold processPacket BasePeer.processPacket
  dsimp only
  rw [hslice]
  by_cases hzero : (StreamingProtocol.decodeHeader (remaining buffer base size offset)).headerSize
      = 0
  · rw [hzero, if_pos rfl, if_pos (show UInt64.ofNat 0 = 0 from rfl)]
    exact ⟨rfl, rfl, List.forall_mem_singleton.mpr hdecode⟩
  · have hfits := StreamingProtocol.decodeHeader_fits hzero
    rw [hlength] at hfits
    rw [if_neg hzero]
    generalize hheader : StreamingProtocol.decodeHeader (remaining buffer base size offset) =
      header at hzero hfits ⊢
    have hsize := size.toNat_lt
    obtain ⟨hheaderSize, hpayloadSize, hsum⟩ := Words.toNat_ofNat_of_add_le
      (show header.headerSize + header.payloadSize ≤ size.toNat by omega) hsize
    have hnonzero : UInt64.ofNat header.headerSize ≠ 0 := by
      intro heq
      rw [heq] at hheaderSize
      exact hzero hheaderSize.symm
    have hstart : (base + offset + UInt64.ofNat header.headerSize).toNat =
        base.toNat + offset.toNat + header.headerSize := by
      rw [Words.toNat_add_of_le (n := limit.toNat) (by omega) hlimit, hfirst, hheaderSize]
    have hpayload : (buffer.drop (base + offset + UInt64.ofNat header.headerSize).toNat).take
        (UInt64.ofNat header.payloadSize).toNat =
          ((remaining buffer base size offset).drop header.headerSize).take
            header.payloadSize := by
      rw [hstart, hpayloadSize, remaining, List.drop_take, List.drop_drop, List.take_take,
        Nat.min_eq_left (by omega)]
    have hpacket : (Use.access .packet ⟨[base, offset, UInt64.ofNat header.headerSize,
        UInt64.ofNat header.payloadSize], limit⟩).InBounds := by
      show Words.total _ ≤ _
      simp only [Words.total_cons, Words.total_nil, hheaderSize, hpayloadSize]
      omega
    rw [if_neg hnonzero, hpayload]
    by_cases hdata : header.type = StreamingProtocol.packetTypeData
    · rw [if_pos hdata, if_pos hdata]
      exact ⟨hsum, rfl, List.forall_mem_cons.mpr ⟨hdecode, List.forall_mem_singleton.mpr hpacket⟩⟩
    · rw [if_neg hdata, if_neg hdata]
      by_cases hmetadata : header.type = StreamingProtocol.packetTypeMetadata
      · rw [if_pos hmetadata, if_pos hmetadata]
        refine ⟨hsum, rfl, ?_⟩
        by_cases hshort : UInt64.ofNat header.payloadSize < 4
        · rw [if_pos hshort]
          exact List.forall_mem_cons.mpr ⟨hdecode, List.forall_mem_singleton.mpr hpacket⟩
        · rw [if_neg hshort]
          have hfour : (4 : UInt64).toNat ≤ (UInt64.ofNat header.payloadSize).toNat :=
            UInt64.le_iff_toNat_le.mp (UInt64.not_lt.mp hshort)
          have henough : 4 ≤ header.payloadSize := hpayloadSize ▸ hfour
          have hencoded : (Use.access .metadata ⟨[base, offset, UInt64.ofNat header.headerSize, 4,
              UInt64.ofNat header.payloadSize - 4], limit⟩).InBounds := by
            show Words.total _ ≤ _
            simp only [Words.total_cons, Words.total_nil, hheaderSize,
              Words.toNat_sub_of_toNat_le hfour, hpayloadSize]
            show base.toNat + (offset.toNat + (header.headerSize +
              (4 + (header.payloadSize - 4 + 0)))) ≤ limit.toNat
            omega
          exact List.forall_mem_cons.mpr ⟨hdecode, List.forall_mem_cons.mpr
            ⟨hpacket, List.forall_mem_singleton.mpr hencoded⟩⟩
      · rw [if_neg hmetadata, if_neg hmetadata]
        exact ⟨hsum, rfl,
          List.forall_mem_cons.mpr ⟨hdecode, List.forall_mem_singleton.mpr hpacket⟩⟩

/-- **The packet loop** ends, and does what the loop over natural numbers
does. -/
theorem packetLoop_spec (rounds : Nat) :
    ∀ offset : UInt64, offset.toNat ≤ size.toNat → size.toNat - offset.toNat < rounds →
      ∃ scan, packetLoop buffer limit base size rounds offset = some scan ∧
        scan.offset.toNat = offset.toNat +
          (BasePeer.processPackets (remaining buffer base size offset)).1 ∧
        scan.events = (BasePeer.processPackets (remaining buffer base size offset)).2 ∧
        ∀ u ∈ scan.uses, u.InBounds := by
  induction rounds with
  | zero =>
      intro offset hoffset hrounds
      omega
  | succ rounds ih =>
      intro offset hoffset hrounds
      obtain ⟨hconsumed, hevents, huses⟩ := processPacket_spec hinside hbuffer hoffset
      have hlength := length_remaining hinside hbuffer hoffset
      have hle := BasePeer.processPacket_le (remaining buffer base size offset)
      rw [packetLoop, BasePeer.processPackets]
      dsimp only
      by_cases hstop : (processPacket buffer limit base offset (size - offset)).offset = 0
      · have hzero : (BasePeer.processPacket (remaining buffer base size offset)).1 = 0 := by
          rw [← hconsumed, hstop]
          rfl
        rw [if_pos hstop, if_pos hzero]
        exact ⟨_, rfl, rfl, hevents, huses⟩
      · have hpos : (BasePeer.processPacket (remaining buffer base size offset)).1 ≠ 0 := by
          intro hzero
          rw [hzero] at hconsumed
          exact hstop (UInt64.toNat_inj.mp hconsumed)
        have hnext :
            (offset + (processPacket buffer limit base offset (size - offset)).offset).toNat =
              offset.toNat + (BasePeer.processPacket (remaining buffer base size offset)).1 := by
          have hsize := size.toNat_lt
          rw [Words.toNat_add_of_le (n := size.toNat) (by omega) hsize, hconsumed]
        obtain ⟨rest, hrest, hoff, hmore, hin⟩ := ih
          (offset + (processPacket buffer limit base offset (size - offset)).offset)
          (by omega) (by omega)
        have hdrop : remaining buffer base size
            (offset + (processPacket buffer limit base offset (size - offset)).offset) =
              (remaining buffer base size offset).drop
                (BasePeer.processPacket (remaining buffer base size offset)).1 := by
          rw [remaining, hnext, remaining, List.drop_take, List.drop_drop]
          congr 1
          · omega
          · congr 1
            omega
        rw [hdrop] at hoff hmore
        rw [if_neg hstop, if_neg hpos, hrest]
        refine ⟨_, rfl, ?_, ?_, ?_⟩
        · show rest.offset.toNat = _
          rw [hoff, hnext, Nat.add_assoc]
        · show _ ++ rest.events = _
          rw [hevents, hmore]
        · intro u hu
          rcases List.mem_append.mp hu with hu | hu
          · exact huses u hu
          · exact hin u hu

end Packets

/-! ## The frame loop -/

section Frames

variable {bytes : UInt64}

/-- **One frame that is final.** -/
theorem processWebsocketFrame_spec {header : WebsocketProtocol.DecodedHeader} {buffer : Bytes}
    {start size : UInt64} (hinside : start.toNat + size.toNat ≤ bytes.toNat)
    (hbuffer : bytes.toNat ≤ buffer.length)
    (hfin : header.flags &&& WebsocketProtocol.flagFin ≠ 0) {payload : Bytes}
    (hpayload : payload = (buffer.drop start.toNat).take size.toNat) :
    ∃ scan, processWebsocketFrame header buffer bytes start size = some scan ∧
      scan.buffer = overwrite buffer start.toNat (BasePeer.unmasked header payload) ∧
      scan.events =
        (BasePeer.frameItems StreamingProtocol.widened header payload).flatMap
          BasePeer.Item.events ∧
      scan.error = none ∧ ∀ u ∈ scan.uses, u.InBounds := by
  have hframe := BasePeer.processWebsocketFrame_eq header payload
  rw [if_neg hfin] at hframe
  have hlength : (BasePeer.unmasked header payload).length = size.toNat := by
    rw [BasePeer.length_unmasked, hpayload, List.length_take, List.length_drop]
    omega
  have hin : start.toNat + (BasePeer.unmasked header payload).length ≤ buffer.length := by omega
  have hwithin : bytes.toNat ≤
      (overwrite buffer start.toNat (BasePeer.unmasked header payload)).length := by
    rw [Blocks.length_overwrite hin]
    exact hbuffer
  have hloop := packetLoop_spec hinside hwithin (size.toNat + 1) 0 (Nat.zero_le _)
    (Nat.lt_succ_of_le (Nat.sub_le _ _))
  have hremaining : remaining (overwrite buffer start.toNat (BasePeer.unmasked header payload))
      start size 0 = BasePeer.unmasked header payload := by
    have hslice := Blocks.slice_overwrite (BasePeer.unmasked header payload)
      (show start.toNat ≤ buffer.length by omega)
    rw [hlength] at hslice
    exact hslice
  rw [hremaining] at hloop
  obtain ⟨packets, hpackets, -, hevents, huses⟩ := hloop
  unfold BasePeer.processWebsocketFrame at hframe
  unfold processWebsocketFrame
  rw [if_neg hfin] at hframe ⊢
  rw [← hpayload]
  have hdata : (if header.isMasked = true then
      xorKey (fun i => header.maskingKey.getD i 0) 0 payload else payload) =
        BasePeer.unmasked header payload := rfl
  dsimp only at hframe ⊢
  rw [hdata] at hframe ⊢
  by_cases hclose : header.opcode = WebsocketProtocol.opcodeClose
  · rw [if_pos hclose] at hframe ⊢
    exact ⟨_, rfl, rfl, (Prod.mk.inj (Except.ok.inj hframe)).2, rfl, List.forall_mem_nil _⟩
  · rw [if_neg hclose] at hframe ⊢
    by_cases hping : header.opcode = WebsocketProtocol.opcodePing
    · rw [if_pos hping] at hframe ⊢
      exact ⟨_, rfl, rfl, (Prod.mk.inj (Except.ok.inj hframe)).2, rfl, List.forall_mem_nil _⟩
    · rw [if_neg hping] at hframe ⊢
      by_cases htext : header.opcode = WebsocketProtocol.opcodeText
      · rw [if_pos htext] at hframe ⊢
        exact ⟨_, rfl, rfl, (Prod.mk.inj (Except.ok.inj hframe)).2, rfl, List.forall_mem_nil _⟩
      · rw [if_neg htext] at hframe ⊢
        by_cases hbinary : header.opcode = WebsocketProtocol.opcodeBinary
        · rw [if_pos hbinary] at hframe ⊢
          rw [hpackets]
          exact ⟨_, rfl, rfl, hevents.trans (Prod.mk.inj (Except.ok.inj hframe)).2, rfl, huses⟩
        · rw [if_neg hbinary] at hframe ⊢
          exact ⟨_, rfl, rfl, (Prod.mk.inj (Except.ok.inj hframe)).2, rfl, List.forall_mem_nil _⟩

/-- **The frame loop** ends, and does what the loop over natural numbers
does. -/
theorem frameLoop_spec (rounds : Nat) :
    ∀ (buffer : Bytes) (offset : UInt64), bytes.toNat ≤ buffer.length →
      offset.toNat ≤ bytes.toNat → bytes.toNat - offset.toNat < rounds →
      ∃ scan, frameLoop bytes rounds buffer offset = some scan ∧
        BasePeer.processFrames buffer bytes.toNat offset.toNat =
          ⟨scan.buffer, scan.offset.toNat, scan.events, scan.error⟩ ∧
        ∀ u ∈ scan.uses, u.InBounds := by
  induction rounds with
  | zero =>
      intro buffer offset hbuffer hoffset hrounds
      omega
  | succ rounds ih =>
      intro buffer offset hbuffer hoffset hrounds
      have hbytes := bytes.toNat_lt
      have hrest : (bytes - offset).toNat = bytes.toNat - offset.toNat :=
        Words.toNat_sub_of_toNat_le hoffset
      have hahead : (buffer.drop offset.toNat).take (bytes - offset).toNat =
          BasePeer.ahead buffer bytes.toNat offset.toNat := by
        rw [hrest, BasePeer.ahead, List.drop_take]
      have hdecode : (Use.access .decode ⟨[offset, bytes - offset], bytes⟩).InBounds := by
        show Words.total _ ≤ _
        simp only [Words.total_cons, Words.total_nil, hrest]
        omega
      rw [frameLoop, hahead]
      dsimp only
      generalize hheader : WebsocketProtocol.decodeHeader
        (BasePeer.ahead buffer bytes.toNat offset.toNat) = header
      by_cases hzero : header.headerSize = 0
      · rw [hzero, if_pos (show UInt64.ofNat 0 = 0 from rfl),
          BasePeer.processFrames_incomplete hheader hzero]
        exact ⟨_, rfl, rfl, List.forall_mem_singleton.mpr hdecode⟩
      · have hfits := WebsocketProtocol.decodeHeader_fits (hheader ▸ hzero)
        rw [hheader, BasePeer.length_ahead hbuffer] at hfits
        obtain ⟨hheaderSize, hpayloadSize, hsum⟩ := Words.toNat_ofNat_of_add_le
          (show header.headerSize + header.payloadSize ≤ bytes.toNat by omega) hbytes
        have hnonzero : UInt64.ofNat header.headerSize ≠ 0 := by
          intro heq
          rw [heq] at hheaderSize
          exact hzero hheaderSize.symm
        have hstart : (offset + UInt64.ofNat header.headerSize).toNat =
            offset.toNat + header.headerSize := by
          rw [Words.toNat_add_of_le (n := bytes.toNat) (by omega) hbytes, hheaderSize]
        have hnext : (offset + (UInt64.ofNat header.headerSize +
            UInt64.ofNat header.payloadSize)).toNat =
              offset.toNat + header.headerSize + header.payloadSize := by
          rw [Words.toNat_add_of_le (n := bytes.toNat) (by omega) hbytes, hsum, Nat.add_assoc]
        have hpayload : (Use.access .frame ⟨[offset, UInt64.ofNat header.headerSize,
            UInt64.ofNat header.payloadSize], bytes⟩).InBounds := by
          show Words.total _ ≤ _
          simp only [Words.total_cons, Words.total_nil, hheaderSize, hpayloadSize]
          omega
        have hboth := List.forall_mem_cons.mpr
          ⟨hdecode, List.forall_mem_singleton.mpr hpayload⟩
        rw [if_neg hnonzero]
        by_cases hfin : header.flags &&& WebsocketProtocol.flagFin = 0
        · rw [processWebsocketFrame, if_pos hfin, Option.bind_some,
            BasePeer.processFrames_refused hheader hzero hfin]
          exact ⟨_, rfl, rfl, hboth⟩
        · generalize hp : (buffer.drop (offset.toNat + header.headerSize)).take
            header.payloadSize = payload
          have hinside : (offset + UInt64.ofNat header.headerSize).toNat +
              (UInt64.ofNat header.payloadSize).toNat ≤ bytes.toNat := by omega
          have hslice : payload = (buffer.drop (offset + UInt64.ofNat header.headerSize).toNat).take
              (UInt64.ofNat header.payloadSize).toNat := by rw [hstart, hpayloadSize, hp]
          obtain ⟨frame, hframe, hoverwrite, hevents, herror, huses⟩ :=
            processWebsocketFrame_spec hinside hbuffer hfin hslice
          have hlength : (BasePeer.unmasked header payload).length = header.payloadSize := by
            rw [BasePeer.length_unmasked, ← hp, List.length_take, List.length_drop]
            omega
          have hkept : bytes.toNat ≤ frame.buffer.length := by
            rw [hoverwrite, Blocks.length_overwrite (by omega)]
            exact hbuffer
          obtain ⟨rest, hrun, hwalk, hmore⟩ := ih frame.buffer
            (offset + (UInt64.ofNat header.headerSize + UInt64.ofNat header.payloadSize))
            hkept (by omega) (by omega)
          rw [hnext, hoverwrite, hstart] at hwalk
          rw [BasePeer.processFrames_frame hheader hzero hfin hp.symm hwalk.symm, hframe,
            Option.bind_some, herror, hrun]
          refine ⟨_, rfl, ?_, ?_⟩
          · show _ = BasePeer.Walk.mk _ _ (frame.events ++ rest.events) _
            rw [hevents]
          · intro u hu
            rcases List.mem_append.mp hu with hu | hu
            · rcases List.mem_cons.mp hu with rfl | hu
              · exact hdecode
              · rcases List.mem_cons.mp hu with rfl | hu
                · exact hpayload
                · exact huses u hu
            · exact hmore u hu

end Frames

/-! ## The buffer -/

section Buffer

variable {w : Receiver}

theorem close_good (h : Bounded w) (ec : ErrorCode) :
    (w.close ec).Good w.rxBufferMax ∧
      ((w.close ec).receiver.toPeer, (w.close ec).events) = w.toPeer.close ec := by
  unfold close BasePeer.close
  by_cases hclosed : w.isClosed = true
  · rw [if_pos hclosed, if_pos (show w.toPeer.isClosed = true from hclosed)]
    exact ⟨⟨h, rfl, List.forall_mem_nil _⟩, rfl⟩
  · rw [if_neg hclosed, if_neg (show ¬ w.toPeer.isClosed = true from hclosed)]
    exact ⟨⟨⟨h.pos, h.le_max, h.le_vector, h.bytes_le, h.room⟩, rfl, List.forall_mem_nil _⟩, rfl⟩

/-- A read is issued while there is room. -/
theorem doRead_good (h : Bounded w) (hroom : w.rxBufferBytes.toNat < w.rxBuffer.length) :
    w.doRead.Good w.rxBufferMax := by
  have hsize := toNat_size h.le_vector
  have hoffered : w.room.toNat = w.rxBuffer.length - w.rxBufferBytes.toNat := by
    rw [room, Words.toNat_sub_of_toNat_le (by omega), hsize]
  constructor
  · exact ⟨h.pos, h.le_max, h.le_vector, h.bytes_le, fun _ => hroom⟩
  · rfl
  · have hread : (Use.read w.rxBufferBytes w.room w.size).InBounds := by
      show 0 < w.room.toNat ∧ w.rxBufferBytes.toNat + w.room.toNat ≤ w.size.toNat
      omega
    exact List.forall_mem_singleton.mpr hread

/-- **The slide** stays in the buffer. -/
theorem slide_spec (h : Bounded w) {offset : UInt64}
    (hoffset : offset.toNat ≤ w.rxBufferBytes.toNat) :
    Bounded (w.slide offset).1 ∧ (∀ u ∈ (w.slide offset).2, u.InBounds) ∧
      (w.slide offset).1.toPeer = w.toPeer.slide offset.toNat ∧
      (w.slide offset).1.rxBufferMax = w.rxBufferMax := by
  have hsize := toNat_size h.le_vector
  have hbytes := h.bytes_le
  have hrest : (w.rxBufferBytes - offset).toNat = w.rxBufferBytes.toNat - offset.toNat :=
    Words.toNat_sub_of_toNat_le hoffset
  unfold slide BasePeer.slide
  by_cases hzero : offset = 0
  · rw [if_pos hzero, if_pos (show offset.toNat = 0 by rw [hzero]; rfl)]
    exact ⟨h, List.forall_mem_nil _, rfl, rfl⟩
  · have hnonzero : offset.toNat ≠ 0 := fun heq => hzero (UInt64.toNat_inj.mp heq)
    have hfit : 0 + ((w.rxBuffer.drop offset.toNat).take
        (w.rxBufferBytes.toNat - offset.toNat)).length ≤ w.rxBuffer.length := by
      rw [List.length_take, List.length_drop]
      omega
    have hlength := Blocks.length_overwrite hfit
    rw [if_neg hzero, if_neg hnonzero]
    dsimp only
    rw [hrest]
    refine ⟨?_, ?_, ?_, rfl⟩
    · constructor
      · show 0 < (overwrite w.rxBuffer 0 _).length
        rw [hlength]
        exact h.pos
      · show (overwrite w.rxBuffer 0 _).length ≤ _
        rw [hlength]
        exact h.le_max
      · show (overwrite w.rxBuffer 0 _).length ≤ _
        rw [hlength]
        exact h.le_vector
      · show (w.rxBufferBytes - offset).toNat ≤ (overwrite w.rxBuffer 0 _).length
        rw [hlength]
        omega
      · intro hreading
        have hroom := h.room hreading
        show (w.rxBufferBytes - offset).toNat < (overwrite w.rxBuffer 0 _).length
        rw [hlength]
        omega
    · have hfrom : (Use.access .move ⟨[offset, w.rxBufferBytes - offset], w.size⟩).InBounds := by
        show Words.total _ ≤ _
        simp only [Words.total_cons, Words.total_nil, hrest]
        omega
      have hto : (Use.access .move ⟨[w.rxBufferBytes - offset], w.size⟩).InBounds := by
        show Words.total _ ≤ _
        simp only [Words.total_cons, Words.total_nil, hrest]
        omega
      exact List.forall_mem_cons.mpr ⟨hfrom, List.forall_mem_singleton.mpr hto⟩
    · unfold toPeer
      dsimp only
      rw [hrest]

theorem Bounded.grown (h : Bounded w) {zeros : Bytes}
    (hmax : (w.rxBuffer ++ zeros).length ≤ w.rxBufferMax.toNat)
    (hvector : (w.rxBuffer ++ zeros).length ≤ vectorMaxSize) :
    Bounded { w with rxBuffer := w.rxBuffer ++ zeros } := by
  have hlength : w.rxBuffer.length ≤ (w.rxBuffer ++ zeros).length := by
    rw [List.length_append]
    exact Nat.le_add_right _ _
  refine ⟨Nat.lt_of_lt_of_le h.pos hlength, hmax, hvector, h.bytes_le.trans hlength, ?_⟩
  intro hreading
  exact Nat.lt_of_lt_of_le (h.room hreading) hlength

/-- **After a loop** there is room for the next read, or none is issued. -/
theorem readOn_spec (h : Bounded w) :
    w.readOn.Good w.rxBufferMax ∧ (w.rxBufferMax.toNat ≤ vectorMaxSize →
      (w.readOn.receiver.toPeer, w.readOn.events) = w.toPeer.readOn) := by
  have hsize := toNat_size h.le_vector
  have hbytes := h.bytes_le
  have hgrowth := growRxBuffer_spec h.le_vector
  unfold readOn BasePeer.readOn
  by_cases hfull : w.rxBufferBytes = w.size
  · have hequal : w.rxBufferBytes.toNat = w.rxBuffer.length := by rw [hfull, hsize]
    rw [if_pos hfull, if_pos (show w.toPeer.rxBufferBytes = w.toPeer.rxBuffer.length from hequal)]
    cases hgrow : w.growRxBuffer with
    | refused =>
        rw [hgrow] at hgrowth
        rw [hgrowth.2]
        have hclosed := close_good h .noBufferSpace
        exact ⟨hclosed.1, fun _ => hclosed.2⟩
    | threw =>
        rw [hgrow] at hgrowth
        refine ⟨⟨h, rfl, List.forall_mem_nil _⟩, ?_⟩
        intro hsmall
        exact absurd hsmall (Nat.not_le_of_lt hgrowth)
    | grown v =>
        rw [hgrow] at hgrowth
        obtain ⟨zeros, rfl, hlength, hvector, hlt, hpeer⟩ := hgrowth
        have hpos := h.pos
        dsimp only at hlength hvector ⊢
        rw [hpeer]
        have hroom : w.rxBufferBytes.toNat < (w.rxBuffer ++ zeros).length := by omega
        exact ⟨doRead_good (h.grown (by omega) hvector) hroom, fun _ => rfl⟩
  · have hnot : w.rxBufferBytes.toNat ≠ w.rxBuffer.length := by
      intro heq
      exact hfull (UInt64.toNat_inj.mp (heq.trans hsize.symm))
    rw [if_neg hfull, if_neg (show ¬ w.toPeer.rxBufferBytes = w.toPeer.rxBuffer.length from hnot)]
    exact ⟨doRead_good h (by omega), fun _ => rfl⟩

/-- Both `process_buffer` functions after their loop. -/
theorem finish_spec (h : Bounded w) {offset : UInt64}
    (hoffset : offset.toNat ≤ w.rxBufferBytes.toNat) (events : List Event) {uses : List Use}
    (huses : ∀ u ∈ uses, u.InBounds) :
    (w.finish offset events uses).Good w.rxBufferMax ∧ (w.rxBufferMax.toNat ≤ vectorMaxSize →
      ((w.finish offset events uses).receiver.toPeer, (w.finish offset events uses).events) =
        ((w.toPeer.slide offset.toNat).readOn.1,
          events ++ (w.toPeer.slide offset.toNat).readOn.2)) := by
  obtain ⟨hbounded, hslide, hpeer, hmax⟩ := slide_spec h hoffset
  obtain ⟨hgood, hrefines⟩ := readOn_spec hbounded
  refine ⟨⟨hgood.bounded, hgood.max_eq.trans hmax, ?_⟩, ?_⟩
  · intro u hu
    rcases List.mem_append.mp hu with hu | hu
    · rcases List.mem_append.mp hu with hu | hu
      · exact huses u hu
      · exact hslide u hu
    · exact hgood.uses u hu
  · intro hsmall
    have heq := hrefines (by rw [hmax]; exact hsmall)
    rw [← hpeer, ← heq]
    rfl

/-- **`process_buffer`** comes to an end in bounds, and does what it does with
natural numbers as long as the buffer cannot outgrow a vector. -/
theorem processBuffer_spec (h : Bounded w) :
    ∃ o, w.processBuffer = some o ∧ o.Good w.rxBufferMax ∧ (w.rxBufferMax.toNat ≤ vectorMaxSize →
      (o.receiver.toPeer, o.events) = w.toPeer.processBuffer) := by
  have hbytes := h.bytes_le
  unfold processBuffer BasePeer.processBuffer
  by_cases htcp : w.useTcpProtocol = true
  · rw [if_pos htcp, if_pos (show w.toPeer.useTcpProtocol = true from htcp)]
    have hinside : (0 : UInt64).toNat + w.rxBufferBytes.toNat ≤ w.rxBufferBytes.toNat :=
      Nat.le_of_eq (Nat.zero_add _)
    obtain ⟨scan, hscan, hoffset, hevents, huses⟩ := packetLoop_spec hinside hbytes
      (w.rxBufferBytes.toNat + 1) 0 (Nat.zero_le _) (Nat.lt_succ_of_le (Nat.sub_le _ _))
    have hdata : remaining w.rxBuffer 0 w.rxBufferBytes 0 =
        w.toPeer.rxBuffer.take w.toPeer.rxBufferBytes := rfl
    rw [hdata] at hoffset hevents
    have hloop : scan.offset.toNat =
        (BasePeer.processPackets (w.toPeer.rxBuffer.take w.toPeer.rxBufferBytes)).1 :=
      hoffset.trans (Nat.zero_add _)
    have hle : scan.offset.toNat ≤ w.rxBufferBytes.toNat := by
      obtain ⟨-, -, -, hle⟩ := BasePeer.processPackets_takes
        (w.toPeer.rxBuffer.take w.toPeer.rxBufferBytes)
      have htake := List.length_take_le w.toPeer.rxBufferBytes w.toPeer.rxBuffer
      rw [hloop]
      exact hle.trans htake
    obtain ⟨hgood, hrefines⟩ := finish_spec h hle scan.events huses
    refine ⟨_, by rw [processBufferTcp, hscan]; rfl, hgood, ?_⟩
    intro hsmall
    rw [hrefines hsmall, hloop, hevents]
    rfl
  · rw [if_neg htcp, if_neg (show ¬ w.toPeer.useTcpProtocol = true from htcp)]
    obtain ⟨scan, hscan, hwalk, huses⟩ := frameLoop_spec
      (w.rxBufferBytes.toNat + 1) w.rxBuffer 0 hbytes (Nat.zero_le _)
      (Nat.lt_succ_of_le (Nat.sub_le _ _))
    have hwalked := BasePeer.processFrames_walked (w.rxBufferBytes.toNat - 0) rfl hbytes
      (Nat.zero_le w.rxBufferBytes.toNat)
    have hwalk : BasePeer.processFrames w.rxBuffer w.rxBufferBytes.toNat 0 =
        ⟨scan.buffer, scan.offset.toNat, scan.events, scan.error⟩ := hwalk
    have hpeer : BasePeer.processFrames w.toPeer.rxBuffer w.toPeer.rxBufferBytes 0 = _ := hwalk
    have hlength : scan.buffer.length = w.rxBuffer.length := by
      have heq := hwalked.length_buffer
      rw [hwalk] at heq
      exact heq
    have hle : scan.offset.toNat ≤ w.rxBufferBytes.toNat := by
      have heq := hwalked.offset_le
      rw [hwalk] at heq
      exact heq
    have hbounded : Bounded { w with rxBuffer := scan.buffer } := by
      constructor
      · exact hlength ▸ h.pos
      · exact hlength ▸ h.le_max
      · exact hlength ▸ h.le_vector
      · exact hlength ▸ h.bytes_le
      · exact hlength ▸ h.room
    rw [processBufferWs, hscan, BasePeer.processBufferWs, hpeer, Option.map_some]
    dsimp only
    cases herror : scan.error with
    | some ec =>
        obtain ⟨hgood, hrefines⟩ := close_good hbounded ec
        refine ⟨_, rfl, ⟨hgood.bounded, hgood.max_eq, ?_⟩, ?_⟩
        · intro u hu
          rcases List.mem_append.mp hu with hu | hu
          · exact huses u hu
          · exact hgood.uses u hu
        · intro _
          have hclosed := congrArg Prod.fst hrefines
          have hevents := congrArg Prod.snd hrefines
          exact Prod.ext hclosed (congrArg (scan.events ++ ·) hevents)
    | none =>
        obtain ⟨hgood, hrefines⟩ := finish_spec hbounded hle scan.events huses
        exact ⟨_, rfl, hgood, hrefines⟩

end Buffer

/-! ## Activation and reads -/

section Reads

variable {w : Receiver}

theorem bounded_new (useTcpProtocol : Bool) {rxBufferSize : UInt64} (hM : 0 < rxBufferSize) :
    Bounded (new useTcpProtocol rxBufferSize) := by
  have hpos := UInt64.lt_iff_toNat_lt.mp hM
  have hlength : (new useTcpProtocol rxBufferSize).rxBuffer.length =
      min BasePeer.initialRxBufferSize rxBufferSize.toNat := List.length_replicate
  have hinitial : BasePeer.initialRxBufferSize = 65536 := rfl
  have hzero : (0 : UInt64).toNat = 0 := rfl
  constructor
  · omega
  · show _ ≤ rxBufferSize.toNat
    omega
  · unfold vectorMaxSize
    omega
  · exact Nat.zero_le _
  · intro hreading
    cases hreading

/-- **The loop before the hand-over** ends: each round makes the buffer
longer. -/
theorem makeRoom_spec (size : UInt64) (rounds : Nat) :
    ∀ w : Receiver, Bounded w → w.rxBufferMax.toNat - w.rxBuffer.length < rounds →
      ∃ v threw, makeRoom size rounds w = some (v, threw) ∧ Bounded v ∧
        v.rxBufferMax = w.rxBufferMax ∧ v.reading = w.reading := by
  induction rounds with
  | zero =>
      intro w h hrounds
      omega
  | succ rounds ih =>
      intro w h hrounds
      have hgrowth := growRxBuffer_spec h.le_vector
      rw [makeRoom]
      by_cases hmore : w.size < size
      · rw [if_pos hmore]
        cases hgrow : w.growRxBuffer with
        | refused => exact ⟨w, false, rfl, h, rfl, rfl⟩
        | threw => exact ⟨w, true, rfl, h, rfl, rfl⟩
        | grown v =>
            rw [hgrow] at hgrowth
            obtain ⟨zeros, rfl, hlength, hvector, hlt, -⟩ := hgrowth
            have hpos := h.pos
            have hbytes := h.bytes_le
            dsimp only at hlength hvector
            have hfewer : w.rxBufferMax.toNat - (w.rxBuffer ++ zeros).length < rounds := by
              omega
            exact ih { w with rxBuffer := w.rxBuffer ++ zeros } (h.grown (by omega) hvector) hfewer
      · rw [if_neg hmore]
        exact ⟨w, false, rfl, h, rfl, rfl⟩

/-- **`run(data, size)`** copies no more than there is room for. -/
theorem runWith_spec (h : Bounded w) (hreading : w.reading = false) (data : Region) :
    ∃ o, w.runWith data = some o ∧ o.Good w.rxBufferMax := by
  obtain ⟨v, threw, hmade, hbounded, hmax, hidle⟩ :=
    makeRoom_spec data.size (w.rxBufferMax.toNat + 1) w h (Nat.lt_succ_of_le (Nat.sub_le _ _))
  have hsize := toNat_size hbounded.le_vector
  have hdata : data.size.toNat = data.bytes.length := by
    rw [Region.size, UInt64.toNat_ofNat']
    exact Nat.mod_eq_of_lt data.addressable
  rw [runWith, hmade, Option.bind_some]
  dsimp only
  cases threw with
  | true => exact ⟨_, rfl, hbounded, hmax, List.forall_mem_nil _⟩
  | false =>
      by_cases hlong : v.size < data.size
      · rw [if_neg Bool.false_ne_true, if_pos hlong]
        exact ⟨_, rfl, hmax ▸ (close_good hbounded _).1⟩
      · have hfits : data.bytes.length ≤ v.rxBuffer.length := by
          have hle := UInt64.le_iff_toNat_le.mp (UInt64.not_lt.mp hlong)
          omega
        have hlength : (overwrite v.rxBuffer 0 data.bytes).length = v.rxBuffer.length :=
          Blocks.length_overwrite (by omega)
        have hcopied : Bounded { v with
            rxBuffer := overwrite v.rxBuffer 0 data.bytes
            rxBufferBytes := data.size } := by
          constructor
          · exact hlength ▸ hbounded.pos
          · exact hlength ▸ hbounded.le_max
          · exact hlength ▸ hbounded.le_vector
          · show data.size.toNat ≤ (overwrite v.rxBuffer 0 data.bytes).length
            omega
          · intro hreads
            rw [hidle, hreading] at hreads
            cases hreads
        obtain ⟨o, hprocess, hgood, -⟩ := processBuffer_spec hcopied
        have hcopy : (Use.access .copy ⟨[data.size], v.size⟩).InBounds := by
          show Words.total _ ≤ _
          simp only [Words.total_cons, Words.total_nil]
          omega
        rw [if_neg Bool.false_ne_true, if_neg hlong, hprocess]
        exact ⟨_, rfl, hgood.bounded, hgood.max_eq.trans hmax,
          List.forall_mem_cons.mpr ⟨hcopy, hgood.uses⟩⟩

theorem start_spec (h : Bounded w) (hbytes : w.rxBufferBytes = 0) (hreading : w.reading = false)
    (handedOver : Option Region) : ∃ o, w.start handedOver = some o ∧ o.Good w.rxBufferMax := by
  cases handedOver with
  | none =>
      have hpos := h.pos
      exact ⟨_, rfl, doRead_good h (by rw [hbytes]; exact hpos)⟩
  | some data => exact runWith_spec h hreading data

theorem store_bounded (h : Bounded w) {received : Bytes}
    (hfits : w.rxBufferBytes.toNat + received.length ≤ w.rxBuffer.length) :
    Bounded (w.store received) ∧ (w.store received).rxBuffer.length = w.rxBuffer.length := by
  have hlength : (w.store received).rxBuffer.length = w.rxBuffer.length :=
    Blocks.length_overwrite hfits
  refine ⟨?_, hlength⟩
  constructor
  · exact hlength ▸ h.pos
  · exact hlength ▸ h.le_max
  · exact hlength ▸ h.le_vector
  · exact hlength ▸ h.bytes_le
  · exact hlength ▸ h.room

theorem take_spec (h : Bounded w) (hreading : w.reading = false) (received : Bytes)
    (hfits : w.rxBufferBytes.toNat + received.length ≤ w.rxBuffer.length) :
    ∃ o, w.take received = some o ∧ o.Good w.rxBufferMax := by
  have hvector := h.le_vector
  unfold vectorMaxSize at hvector
  have hcount : (UInt64.ofNat received.length).toNat = received.length :=
    UInt64.toNat_ofNat_of_lt' (show received.length < 2 ^ 64 by omega)
  have hsum : (w.rxBufferBytes + UInt64.ofNat received.length).toNat =
      w.rxBufferBytes.toNat + received.length := by
    rw [Words.toNat_add_of_le (n := w.rxBuffer.length) (by omega) (by omega), hcount]
  have hcounted : Bounded { w with
      rxBufferBytes := w.rxBufferBytes + UInt64.ofNat received.length } := by
    constructor
    · exact h.pos
    · exact h.le_max
    · exact h.le_vector
    · show (w.rxBufferBytes + UInt64.ofNat received.length).toNat ≤ w.rxBuffer.length
      omega
    · intro hreads
      rw [hreading] at hreads
      cases hreads
  obtain ⟨o, hprocess, hgood, -⟩ := processBuffer_spec hcounted
  exact ⟨o, hprocess, hgood⟩

/-- **A read** that stores no more than its room. -/
theorem read_spec (h : Bounded w) {r : Read}
    (hfits : w.reading = true → r.received.length ≤ w.room.toNat) :
    ∃ o, w.read r = some o ∧ o.Good w.rxBufferMax := by
  unfold read
  by_cases hreading : w.reading = true
  · have hroom := h.room hreading
    have hsize := toNat_size h.le_vector
    have hoffered : w.room.toNat = w.rxBuffer.length - w.rxBufferBytes.toNat := by
      rw [room, Words.toNat_sub_of_toNat_le (by omega), hsize]
    have hstored : w.rxBufferBytes.toNat + r.received.length ≤ w.rxBuffer.length := by
      have hle := hfits hreading
      omega
    have hidle : Bounded { w with reading := false } := by
      refine ⟨h.pos, h.le_max, h.le_vector, h.bytes_le, ?_⟩
      intro hreads
      cases hreads
    obtain ⟨hbounded, hlength⟩ := store_bounded hidle hstored
    have htake := take_spec hbounded rfl r.received (hlength ▸ hstored)
    rw [if_pos hreading]
    cases r with
    | plain waitEc received receiveEc =>
        show ∃ o, w.finishWaitRx waitEc received receiveEc = some o ∧ o.Good w.rxBufferMax
        unfold finishWaitRx
        by_cases hwait : waitEc = .success
        · have hread : (Use.read w.rxBufferBytes w.room w.size).InBounds := by
            show 0 < w.room.toNat ∧ w.rxBufferBytes.toNat + w.room.toNat ≤ w.size.toNat
            omega
          have hrest : ∃ o, (if received.length = 0 then
              some ((({ w with reading := false } : Receiver).store received).close .success)
              else if receiveEc ≠ .success ∧ receiveEc ≠ .wouldBlock then
                some ((({ w with reading := false } : Receiver).store received).close receiveEc)
              else (({ w with reading := false } : Receiver).store received).take received) =
                some o ∧ o.Good w.rxBufferMax := by
            split
            · exact ⟨_, rfl, (close_good hbounded _).1⟩
            · split
              · exact ⟨_, rfl, (close_good hbounded _).1⟩
              · exact htake
          obtain ⟨o, ho, hgood⟩ := hrest
          rw [if_neg (fun h => h hwait)]
          dsimp only at ho ⊢
          rw [ho]
          exact ⟨_, rfl, hgood.bounded, hgood.max_eq,
            List.forall_mem_cons.mpr ⟨hread, hgood.uses⟩⟩
        · rw [if_pos hwait]
          exact ⟨_, rfl, (close_good hidle _).1⟩
    | tls ec received =>
        show ∃ o, w.finishRead ec received = some o ∧ o.Good w.rxBufferMax
        unfold finishRead
        dsimp only
        split
        · exact ⟨_, rfl, (close_good hbounded _).1⟩
        · split
          · exact ⟨_, rfl, (close_good hbounded _).1⟩
          · exact htake
  · rw [if_neg hreading]
    exact ⟨_, rfl, h, rfl, List.forall_mem_nil _⟩

/-- One more read. -/
theorem Outcome.read_spec {M : UInt64} {o : Outcome} (h : o.Good M) {r : Read}
    (hfits : o.Fits r) : ∃ o', o.read r = some o' ∧ o'.Good M := by
  obtain ⟨next, hread, hgood⟩ := Receiver.read_spec h.bounded hfits
  have hmax := h.max_eq
  unfold Outcome.read
  rw [hread]
  refine ⟨_, rfl, hgood.bounded, hgood.max_eq.trans hmax, ?_⟩
  intro u hu
  rcases List.mem_append.mp hu with hu | hu
  · exact h.uses u hu
  · exact hgood.uses u hu

end Reads

/-- **The receive buffer is never left.**  For every maximum of at least one,
both protocols, whatever is handed over, and all reads that store no more than
the room they are given: every loop comes to an end; afterwards the bytes that
count lie in the buffer, and the buffer has no more than the maximum; and on the
way every read had room for a byte, and every place that was copied to, moved,
decoded or handed on as the payload of a frame or a packet was inside the
buffer or the received bytes, without a sum of words wrapping around. -/
theorem receive_in_bounds (useTcpProtocol : Bool) (rxBufferSize : UInt64)
    (hsize : 0 < rxBufferSize) (handedOver : Option Region) (reads : List Read)
    (hreads : ∀ first ∈ (new useTcpProtocol rxBufferSize).start handedOver,
      Run.MeetsOpt Outcome.read Outcome.Fits first reads) :
    ∃ o, deliver useTcpProtocol rxBufferSize handedOver reads = some o ∧
      o.receiver.rxBufferBytes.toNat ≤ o.receiver.rxBuffer.length ∧
      o.receiver.rxBuffer.length ≤ rxBufferSize.toNat ∧
      (∀ position room size, Use.read position room size ∈ o.uses →
        0 < room.toNat ∧ position.toNat + room.toNat ≤ size.toNat) ∧
      ∀ purpose extent, Use.access purpose extent ∈ o.uses →
        Words.total extent.parts ≤ extent.limit.toNat ∧
          extent.parts.sum.toNat = Words.total extent.parts := by
  obtain ⟨first, hfirst, hgood⟩ := start_spec (bounded_new useTcpProtocol hsize) rfl rfl handedOver
  obtain ⟨o, hrun, ho⟩ := Run.foldlM_invariant_of_meets
    (fun s i (hs : s.Good rxBufferSize) hi => Outcome.read_spec hs hi) reads first hgood
    (hreads first hfirst)
  have hmax : o.receiver.rxBuffer.length ≤ rxBufferSize.toNat := by
    have hle := ho.bounded.le_max
    rw [ho.max_eq] at hle
    exact hle
  refine ⟨o, ?_, ho.bounded.bytes_le, hmax, ?_, ?_⟩
  · rw [deliver, hfirst]
    exact hrun
  · intro position room size hu
    exact ho.uses _ hu
  · intro purpose extent hu
    have hinside : extent.Inside := ho.uses _ hu
    exact ⟨hinside, hinside.toNat_sum⟩

/-- The first bytes of a frame with one packet, and the read that brings the
rest. -/
def splitFrame : Region × List Read :=
  (⟨[0x82, 0x05, 0x01], by decide⟩, [.plain .success [0x00, 0x10, 0x10, 0xAA] .success])

theorem receive_in_bounds_splitFrame :
    ∃ o, deliver false 8 (some splitFrame.1) splitFrame.2 = some o ∧
      o.receiver.rxBufferBytes.toNat ≤ o.receiver.rxBuffer.length ∧
      o.receiver.rxBuffer.length ≤ 8 ∧
      (∀ position room size, Use.read position room size ∈ o.uses →
        0 < room.toNat ∧ position.toNat + room.toNat ≤ size.toNat) ∧
      ∀ purpose extent, Use.access purpose extent ∈ o.uses →
        Words.total extent.parts ≤ extent.limit.toNat ∧
          extent.parts.sum.toNat = Words.total extent.parts :=
  receive_in_bounds false 8 (by decide) (some splitFrame.1) splitFrame.2 (by decide +kernel)

/-- It hands on the packet. -/
example : (deliver false 8 (some splitFrame.1) splitFrame.2).map Outcome.events =
    some [.dataPacket 1 [0xAA]] := by
  decide +kernel

end Receiver

end WsStreaming.Ports
