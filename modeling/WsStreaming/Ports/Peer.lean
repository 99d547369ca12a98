import WsStreaming.Ports.BasePeer
import WsStreaming.Ports.DynamicBuffer

/-!
# The transmit path of the plaintext peer

`wss::detail::peer`: a frame is sent directly as long as nothing is buffered,
and what the socket does not take is kept in `_tx_buffer` until the socket is
writeable again.  A frame is a buffer sequence, as `write` gets it.

What a call of `_socket.send` does is not up to the peer.  It is an argument
of every function that makes such a call, as is the error code a wait ends
with.  The socket keeps the bytes it has taken.
-/

namespace WsStreaming.Ports

open WsStreaming.Verified.Wire

/-- What a call of `_socket.send` on an open socket does: take a prefix of what
it is offered, take nothing for now, or fail. -/
inductive SendOutcome where
  | sent (n : Nat)
  | wouldBlock
  | failed (ec : ErrorCode)
deriving Repr, DecidableEq

/-- The socket: whether it is open, and the bytes it has taken. -/
structure Socket where
  isOpen : Bool
  taken : Bytes
deriving Repr, DecidableEq

/-- `boost::asio::error::bad_descriptor`. -/
def badDescriptor : ErrorCode := .other 9

/-- `_socket.send`: the number of bytes taken and the error code. -/
def Socket.send (s : Socket) (offered : Bytes) (outcome : SendOutcome) :
    Socket × Nat × ErrorCode :=
  if s.isOpen then
    match outcome with
    | .sent n => ({ s with taken := s.taken ++ offered.take n }, (offered.take n).length, .success)
    | .wouldBlock => (s, 0, .wouldBlock)
    | .failed ec => (s, 0, ec)
  else (s, 0, badDescriptor)

/-- Whether `send_ec` is a genuine error. -/
def ErrorCode.genuine (ec : ErrorCode) : Bool := ec ≠ .success ∧ ec ≠ .wouldBlock

/-- How a peer was closed: the error code, and whether it was because a frame
with `do_shutdown_after` is through. -/
structure Closing where
  ec : ErrorCode
  afterShutdownFrame : Bool
deriving Repr, DecidableEq

/-- The state of `peer` that the transmit path uses.  `closing` is set by the
call of `close` that took effect, so `_is_closed` says whether it is there. -/
structure Peer where
  useTcpProtocol : Bool
  socket : Socket
  txBuffer : DynamicBuffer
  waitingTx : Bool
  shutdownWhenEmpty : Bool
  closing : Option Closing
deriving Repr, DecidableEq

namespace Peer

/-- `peer::peer`, as far as the transmit path goes. -/
def new (useTcpProtocol : Bool) (txBufferSize : Nat) : Peer :=
  { useTcpProtocol := useTcpProtocol
    socket := { isOpen := true, taken := [] }
    txBuffer := .new txBufferSize DynamicBuffer.defaultBlockSize
    waitingTx := false
    shutdownWhenEmpty := false
    closing := none }

/-- `_is_closed`. -/
def isClosed (p : Peer) : Bool := p.closing.isSome

/-- `base_peer::close` with `shutdown_and_close`. -/
def close (p : Peer) (closing : Closing) : Peer :=
  if p.isClosed then p
  else
    { p with
      closing := some closing
      socket := { p.socket with isOpen := false } }

/-- `base_peer::stop`. -/
def stop (p : Peer) : Peer := { p with socket := { p.socket with isOpen := false } }

/-- `peer::do_wait_tx`. -/
def doWaitTx (p : Peer) : Peer := { p with waitingTx := true }

/-- `boost::beast::buffers_suffix` after `consume(n)`. -/
def suffix : List Bytes → Nat → List Bytes
  | [], _ => []
  | b :: bs, n => if n < b.length then b.drop n :: bs else suffix bs (n - b.length)

/-- The end of `peer::enqueue`, once the buffer has everything. -/
def finishEnqueue (p : Peer) (doShutdownAfter : Bool) : Peer :=
  let p := if doShutdownAfter then { p with shutdownWhenEmpty := true } else p
  if p.waitingTx then p else p.doWaitTx

/-- `peer::enqueue`; `none` if a loop of the buffer does not end. -/
def enqueue (p : Peer) (buffers : List Bytes) (size : Nat) (doShutdownAfter : Bool) :
    Option Peer := do
  let (txBuffer, bytesWritten) ← p.txBuffer.write buffers
  let p := { p with txBuffer := txBuffer }
  if bytesWritten < size then
    return p.close { ec := .noBufferSpace, afterShutdownFrame := false }
  return p.finishEnqueue doShutdownAfter

/-- `peer::write`. -/
def write (p : Peer) (buffers : List Bytes) (doShutdownAfter : Bool)
    (outcome : SendOutcome) : Option Peer :=
  let size := buffers.flatten.length
  if p.waitingTx then p.enqueue buffers size doShutdownAfter
  else
    let (socket, bytesSent, sendEc) := p.socket.send buffers.flatten outcome
    let p := { p with socket := socket }
    if sendEc.genuine then some (p.close { ec := sendEc, afterShutdownFrame := false })
    else if bytesSent = size then
      some (if doShutdownAfter then p.close { ec := .success, afterShutdownFrame := true }
            else p)
    else p.enqueue (suffix buffers bytesSent) (size - bytesSent) doShutdownAfter

/-- `peer::finish_wait_tx`. -/
def finishWaitTx (p : Peer) (waitEc : ErrorCode) (outcome : SendOutcome) : Option Peer :=
  let p := { p with waitingTx := false }
  if waitEc ≠ .success then some (p.close { ec := waitEc, afterShutdownFrame := false })
  else
    let offered := DynamicBuffer.describe p.txBuffer.blocks p.txBuffer.data
    let (socket, bytesSent, sendEc) := p.socket.send offered outcome
    let p := { p with socket := socket }
    if sendEc.genuine then some (p.close { ec := sendEc, afterShutdownFrame := false })
    else do
      let txBuffer ← p.txBuffer.consume bytesSent
      let p := { p with txBuffer := txBuffer }
      if p.shutdownWhenEmpty ∧ p.txBuffer.empty then
        return p.close { ec := .success, afterShutdownFrame := true }
      return if p.txBuffer.empty then p else p.doWaitTx

/-! ## Packets -/

/-- The buffer sequence `peer::send_websocket_frame` hands to `write`. -/
def websocketFrame (opcode : UInt32) (payload : List Bytes) : List Bytes :=
  WebsocketProtocol.generateHeader opcode WebsocketProtocol.flagFin payload.flatten.length ::
    payload

/-- The buffer sequence `peer::send_packet` hands to `write`, unless generating
the header throws. -/
def packetFrame (useTcpProtocol : Bool) (signo type : UInt32) (payload : List Bytes) :
    Except String (List Bytes) := do
  let header ← StreamingProtocol.generateHeader signo type payload.flatten.length
  if useTcpProtocol then return header :: payload
  else return websocketFrame WebsocketProtocol.opcodeBinary (header :: payload)

end Peer

end WsStreaming.Ports
