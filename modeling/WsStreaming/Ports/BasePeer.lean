import WsStreaming.Verified.Blocks
import WsStreaming.Ports.StreamingProtocol
import WsStreaming.Ports.WebsocketProtocol

/-!
# The receive path of a peer

`base_peer`: the receive buffer, the loops that walk over the frames and
packets in it, the unmasking in place, the slide to the front, the growth by
doubling, and the hand-over in `run`.

A function of the source that raises signals or calls a virtual function
returns the list of these calls next to the new state.  What the transport
does with a control frame is not decided here: `send_control_frame` is pure
virtual in `base_peer`, so calling it is an event like the others.
-/

namespace WsStreaming.Ports

open WsStreaming.Verified.Wire WsStreaming.Verified.Blocks

/-- `boost::system::error_code`, as far as the peers tell codes apart. -/
inductive ErrorCode where
  | success
  | wouldBlock
  | operationNotSupported
  | noBufferSpace
  | other (value : Nat)
deriving Repr, DecidableEq

/-- What the receive path hands on. -/
inductive Event where
  /-- A call of `process_data_packet`. -/
  | dataPacket (signo : UInt32) (payload : Bytes)
  /-- A call of `process_metadata_packet`. -/
  | metadataPacket (signo : UInt32) (payload : Bytes)
  /-- A call of `send_control_frame`. -/
  | controlFrame (opcode : UInt32) (payload : Bytes) (shutdownAfter : Bool)
  /-- `on_closed`. -/
  | closed (ec : ErrorCode)
deriving Repr, DecidableEq

/-- The state of `base_peer`.  `reading` says that a read started by `do_read`
has not completed yet. -/
structure BasePeer where
  useTcpProtocol : Bool
  isClosed : Bool
  rxBuffer : Bytes
  rxBufferBytes : Nat
  rxBufferMax : Nat
  reading : Bool
deriving Repr, DecidableEq

namespace BasePeer

/-- `INITIAL_RX_BUFFER_SIZE`. -/
def initialRxBufferSize : Nat := 64 * 1024

/-- `base_peer::base_peer`. -/
def new (useTcpProtocol : Bool) (rxBufferSize : Nat) : BasePeer :=
  { useTcpProtocol := useTcpProtocol
    isClosed := false
    rxBuffer := List.replicate (min initialRxBufferSize rxBufferSize) 0
    rxBufferBytes := 0
    rxBufferMax := rxBufferSize
    reading := false }

/-- `base_peer::grow_rx_buffer`; `none` when it returns false. -/
def growRxBuffer (p : BasePeer) : Option BasePeer :=
  if p.rxBufferMax ≤ p.rxBuffer.length then none
  else
    let size := min (p.rxBuffer.length * 2) p.rxBufferMax
    some { p with
      rxBuffer := p.rxBuffer ++ List.replicate (size - p.rxBuffer.length) 0 }

/-- Growing a buffer that is not empty makes it longer, up to the maximum. -/
theorem growRxBuffer_eq_some {p q : BasePeer} (h : p.growRxBuffer = some q) :
    p.rxBuffer.length < p.rxBufferMax ∧
      ∃ zeros, q = { p with rxBuffer := p.rxBuffer ++ zeros } ∧
        q.rxBuffer.length = min (p.rxBuffer.length * 2) p.rxBufferMax := by
  unfold growRxBuffer at h
  split at h
  · cases h
  · injection h with h
    refine ⟨by omega, _, h.symm, ?_⟩
    rw [← h]
    simp only [List.length_append, List.length_replicate]
    omega

/-- `base_peer::close`. -/
def close (p : BasePeer) (ec : ErrorCode) : BasePeer × List Event :=
  if p.isClosed then (p, []) else ({ p with isClosed := true }, [.closed ec])

/-- `do_read`. -/
def doRead (p : BasePeer) : BasePeer := { p with reading := true }

/-! ## Packets -/

/-- `base_peer::process_packet` on the `size` bytes at `data`: the number of
bytes consumed, and what was handed on. -/
def processPacket (data : Bytes) : Nat × List Event :=
  let header := StreamingProtocol.decodeHeader data
  if header.headerSize = 0 then (0, [])
  else
    let payload := (data.drop header.headerSize).take header.payloadSize
    (header.headerSize + header.payloadSize,
      if header.type = StreamingProtocol.packetTypeData then
        [.dataPacket header.signo payload]
      else if header.type = StreamingProtocol.packetTypeMetadata then
        [.metadataPacket header.signo payload]
      else [])

theorem processPacket_le (data : Bytes) : (processPacket data).1 ≤ data.length := by
  unfold processPacket
  by_cases h : (StreamingProtocol.decodeHeader data).headerSize = 0
  · simp [h]
  · simp only [if_neg h]
    exact (StreamingProtocol.decodeHeader_fits h).2

/-- The loop over packets, in `process_buffer_tcp` and in the `BINARY` case of
`process_websocket_frame`: the offset it ends at, and what was handed on. -/
def processPackets (data : Bytes) : Nat × List Event :=
  let packet := processPacket data
  if packet.1 = 0 then (0, packet.2)
  else
    let more := processPackets (data.drop packet.1)
    (packet.1 + more.1, packet.2 ++ more.2)
termination_by data.length
decreasing_by
  have hle : packet.1 ≤ data.length := processPacket_le data
  have hdrop : (data.drop packet.1).length = data.length - packet.1 := List.length_drop
  show (data.drop packet.1).length < data.length
  omega

/-! ## WebSocket frames -/

/-- `base_peer::process_websocket_frame` on the payload at `data`: the payload
as it is left in the buffer and what was handed on, or the error. -/
def processWebsocketFrame (header : WebsocketProtocol.DecodedHeader) (data : Bytes) :
    Except ErrorCode (Bytes × List Event) :=
  if header.flags &&& WebsocketProtocol.flagFin = 0 then
    .error .operationNotSupported
  else
    let data :=
      if header.isMasked then xorKey (fun i => header.maskingKey.getD i 0) 0 data
      else data
    if header.opcode = WebsocketProtocol.opcodeClose then
      .ok (data, [.controlFrame WebsocketProtocol.opcodeClose [] true])
    else if header.opcode = WebsocketProtocol.opcodePing then
      .ok (data, [.controlFrame WebsocketProtocol.opcodePong data false])
    else if header.opcode = WebsocketProtocol.opcodeText then
      .ok (data, [])
    else if header.opcode = WebsocketProtocol.opcodeBinary then
      .ok (data, (processPackets data).2)
    else
      .ok (data, [])

/-- Where the loop of `process_buffer_ws` stands. -/
structure Walk where
  buffer : Bytes
  offset : Nat
  events : List Event
  error : Option ErrorCode
deriving Repr, DecidableEq

/-- The loop of `process_buffer_ws` over the first `bytes` bytes of the
buffer, from `offset` on. -/
def processFrames (buffer : Bytes) (bytes offset : Nat) : Walk :=
  let header := WebsocketProtocol.decodeHeader ((buffer.take bytes).drop offset)
  if header.headerSize = 0 then
    { buffer := buffer, offset := offset, events := [], error := none }
  else
    let start := offset + header.headerSize
    match processWebsocketFrame header ((buffer.drop start).take header.payloadSize) with
    | .error ec => { buffer := buffer, offset := offset, events := [], error := some ec }
    | .ok (data, events) =>
        let walk := processFrames (overwrite buffer start data) bytes
          (start + header.payloadSize)
        { walk with events := events ++ walk.events }
termination_by bytes - offset
decreasing_by
  have hfits := WebsocketProtocol.decodeHeader_fits ‹_›
  have hlen : ((buffer.take bytes).drop offset).length ≤ bytes - offset := by
    rw [List.length_drop, List.length_take]
    omega
  omega

/-! ## The buffer -/

/-- The slide to the front after either loop. -/
def slide (p : BasePeer) (offset : Nat) : BasePeer :=
  if offset = 0 then p
  else
    { p with
      rxBufferBytes := p.rxBufferBytes - offset
      rxBuffer := overwrite p.rxBuffer 0
        ((p.rxBuffer.drop offset).take (p.rxBufferBytes - offset)) }

/-- The end of both `process_buffer` functions: grow a full buffer or give up,
and read on. -/
def readOn (p : BasePeer) : BasePeer × List Event :=
  if p.rxBufferBytes = p.rxBuffer.length then
    match p.growRxBuffer with
    | none => p.close .noBufferSpace
    | some p => (p.doRead, [])
  else (p.doRead, [])

/-- `base_peer::process_buffer_tcp`. -/
def processBufferTcp (p : BasePeer) : BasePeer × List Event :=
  let (offset, events) := processPackets (p.rxBuffer.take p.rxBufferBytes)
  let (p, more) := (p.slide offset).readOn
  (p, events ++ more)

/-- `base_peer::process_buffer_ws`. -/
def processBufferWs (p : BasePeer) : BasePeer × List Event :=
  let walk := processFrames p.rxBuffer p.rxBufferBytes 0
  let p := { p with rxBuffer := walk.buffer }
  let (p, more) :=
    match walk.error with
    | some ec => p.close ec
    | none => (p.slide walk.offset).readOn
  (p, walk.events ++ more)

/-- `base_peer::process_buffer`. -/
def processBuffer (p : BasePeer) : BasePeer × List Event :=
  if p.useTcpProtocol then p.processBufferTcp else p.processBufferWs

/-! ## Activation and reads -/

/-- `base_peer::run()`. -/
def run (p : BasePeer) : BasePeer := p.doRead

/-- The loop at the start of `run(data, size)`.  The constructor makes an empty
buffer only for a maximum of zero, and that one does not grow. -/
def makeRoom (p : BasePeer) (size : Nat) : BasePeer :=
  if p.rxBuffer.length < size ∧ p.rxBuffer.length ≠ 0 then
    match _h : p.growRxBuffer with
    | none => p
    | some grown => makeRoom grown size
  else p
termination_by p.rxBufferMax - p.rxBuffer.length
decreasing_by
  obtain ⟨hlt, zeros, hgrown, hlen⟩ := growRxBuffer_eq_some _h
  have hmax : grown.rxBufferMax = p.rxBufferMax := by rw [hgrown]
  omega

/-- `base_peer::run(data, size)`.  The posted handlers run before any read. -/
def runWith (p : BasePeer) (data : Bytes) : BasePeer × List Event :=
  let p := p.makeRoom data.length
  if p.rxBuffer.length < data.length then p.close .noBufferSpace
  else
    processBuffer { p with
      rxBuffer := overwrite p.rxBuffer 0 data
      rxBufferBytes := data.length }

/-- The room `do_read` offers. -/
def room (p : BasePeer) : Nat := p.rxBuffer.length - p.rxBufferBytes

/-- `peer::finish_wait_rx`, for a wait that ends with `waitEc` and a receive
that stores `received` and reports `receiveEc`. -/
def finishWaitRx (p : BasePeer) (waitEc : ErrorCode) (received : Bytes)
    (receiveEc : ErrorCode) : BasePeer × List Event :=
  let p := { p with reading := false }
  if waitEc ≠ .success then p.close waitEc
  else
    let p := { p with rxBuffer := overwrite p.rxBuffer p.rxBufferBytes received }
    if received.length = 0 then p.close .success
    else if receiveEc ≠ .success ∧ receiveEc ≠ .wouldBlock then p.close receiveEc
    else processBuffer { p with rxBufferBytes := p.rxBufferBytes + received.length }

/-- Reads that succeed, one after another, as long as the peer reads. -/
def reads (p : BasePeer) : List Bytes → BasePeer × List Event
  | [] => (p, [])
  | chunk :: chunks =>
      if p.reading then
        let (p, events) := p.finishWaitRx .success chunk .success
        let (p, more) := p.reads chunks
        (p, events ++ more)
      else (p, [])

/-- How a stream reaches a peer: handed over in part to `run(data, size)` or
not at all, then read. -/
structure Delivery where
  handedOver : Option Bytes
  chunks : List Bytes
deriving Repr, DecidableEq

/-- The stream that was delivered. -/
def Delivery.stream (d : Delivery) : Bytes := d.handedOver.getD [] ++ d.chunks.flatten

/-- `run()` or `run(data, size)`. -/
def start (p : BasePeer) : Option Bytes → BasePeer × List Event
  | none => (p.run, [])
  | some data => p.runWith data

/-- What a new peer hands on when a stream is delivered to it. -/
def deliver (useTcpProtocol : Bool) (rxBufferSize : Nat) (d : Delivery) : List Event :=
  let (p, events) := (new useTcpProtocol rxBufferSize).start d.handedOver
  events ++ (p.reads d.chunks).2

/-- Every read stores at least one byte and no more than the room offered. -/
def ReadsFit (p : BasePeer) : List Bytes → Prop
  | [] => True
  | chunk :: chunks =>
      p.reading = true → 0 < chunk.length ∧ chunk.length ≤ p.room ∧
        ReadsFit (p.finishWaitRx .success chunk .success).1 chunks

/-- A delivery a peer with this buffer can get. -/
def Delivery.Fits (useTcpProtocol : Bool) (rxBufferSize : Nat) (d : Delivery) : Prop :=
  (d.handedOver.getD []).length ≤ rxBufferSize ∧
    ReadsFit ((new useTcpProtocol rxBufferSize).start d.handedOver).1 d.chunks

end BasePeer

end WsStreaming.Ports
