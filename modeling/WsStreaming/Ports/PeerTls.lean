import WsStreaming.Ports.Peer

/-!
# The transmit path of the TLS peer

`wss::detail::peer_tls`: every message is copied and queued, and one
`boost::asio::async_write` at a time takes the message at the front of the
queue.  Its completion handler is `finish_write`.

What becomes of an `async_write` is not up to the peer.  `SslStream` keeps
those that were started, each with the buffer it was given; one comes to its
end by `transmit`, and its handler runs at any later time, so that anything
else can happen in between.
-/

namespace WsStreaming.Ports

open WsStreaming.Verified.Wire

/-- An `async_write` on the stream: its buffer, and the error code it came to
its end with. -/
structure AsyncWrite where
  message : Bytes
  result : Option ErrorCode
deriving Repr, DecidableEq

/-- The message of an operation that has succeeded. -/
def AsyncWrite.delivered (w : AsyncWrite) : Option Bytes :=
  if w.result = some .success then some w.message else none

/-- Whether an operation has not failed. -/
def AsyncWrite.sound (w : AsyncWrite) : Prop :=
  w.result = none ∨ w.result = some .success

/-- The stream: whether it is open, the bytes it has transmitted, and the
`async_write` operations whose handlers have not run. -/
structure SslStream where
  isOpen : Bool
  taken : Bytes
  pending : List AsyncWrite
deriving Repr, DecidableEq

namespace SslStream

/-- `boost::asio::async_write`. -/
def asyncWrite (s : SslStream) (message : Bytes) : SslStream :=
  { s with pending := s.pending ++ [⟨message, none⟩] }

/-- Whether an `async_write` can end with `ec`: nothing is transmitted on a
closed stream, so only an empty message can succeed there. -/
def MayEnd (s : SslStream) (w : AsyncWrite) (ec : ErrorCode) : Prop :=
  w.result = none ∧ (s.isOpen = false → ec = .success → w.message = [])

instance (s : SslStream) (w : AsyncWrite) (ec : ErrorCode) : Decidable (s.MayEnd w ec) :=
  inferInstanceAs (Decidable (_ ∧ (_ → _ → _)))

/-- What an `async_write` transmits: the whole message if it succeeds, and `n`
bytes of it if it fails. -/
def transmission (s : SslStream) (message : Bytes) (n : Nat) (ec : ErrorCode) : Bytes :=
  if s.isOpen then (if ec = .success then message else message.take n) else []

/-- The `i`-th operation comes to its end. -/
def transmit (s : SslStream) (i : Nat) (w : AsyncWrite) (n : Nat) (ec : ErrorCode) :
    SslStream :=
  { s with
    taken := s.taken ++ s.transmission w.message n ec
    pending := s.pending.set i { w with result := some ec } }

end SslStream

/-- `peer_tls::tx_message`. -/
structure TxMessage where
  data : Bytes
  shutdownAfter : Bool
deriving Repr, DecidableEq

/-- `boost::asio::buffer_copy` of a buffer sequence to a new vector of `size`
bytes. -/
def bufferCopy (size : Nat) (buffers : List Bytes) : Bytes :=
  buffers.flatten.take size ++ List.replicate (size - buffers.flatten.length) 0

@[simp] theorem length_bufferCopy (size : Nat) (buffers : List Bytes) :
    (bufferCopy size buffers).length = size := by
  rw [bufferCopy, List.length_append, List.length_take, List.length_replicate]
  omega

/-- The state of `peer_tls` that the transmit path uses.  `closing` is the
error code of the call of `close` that took effect, so `_is_closed` says
whether it is there. -/
structure PeerTls where
  stream : SslStream
  txQueue : List TxMessage
  txQueuedBytes : Nat
  txBufferLimit : Nat
  writeInFlight : Bool
  closing : Option ErrorCode
deriving Repr, DecidableEq

namespace PeerTls

/-- `peer_tls::peer_tls`, as far as the transmit path goes. -/
def new (txBufferSize : Nat) : PeerTls :=
  { stream := { isOpen := true, taken := [], pending := [] }
    txQueue := []
    txQueuedBytes := 0
    txBufferLimit := txBufferSize
    writeInFlight := false
    closing := none }

/-- `_is_closed`. -/
def isClosed (p : PeerTls) : Bool := p.closing.isSome

/-- `base_peer::close` with `peer_tls::shutdown_and_close`. -/
def close (p : PeerTls) (ec : ErrorCode) : PeerTls :=
  if p.isClosed then p
  else { p with closing := some ec, stream := { p.stream with isOpen := false } }

/-- `base_peer::stop`. -/
def stop (p : PeerTls) : PeerTls := { p with stream := { p.stream with isOpen := false } }

/-- `peer_tls::do_write`; `none` if there is no front of the queue. -/
def doWrite (p : PeerTls) : Option PeerTls :=
  match p.txQueue with
  | [] => none
  | front :: _ =>
      some { p with writeInFlight := true, stream := p.stream.asyncWrite front.data }

/-- The message `write` makes of its arguments. -/
def txMessage (buffers : List Bytes) (size : Option Nat) (doShutdownAfter : Bool) :
    TxMessage :=
  { data := bufferCopy (size.getD buffers.flatten.length) buffers
    shutdownAfter := doShutdownAfter }

/-- `peer_tls::write`.  The queued messages are all in memory, so the sum of
their sizes does not wrap. -/
def write (p : PeerTls) (buffers : List Bytes) (size : Option Nat)
    (doShutdownAfter : Bool) : Option PeerTls :=
  if p.isClosed then some p
  else
    let calculatedSize := size.getD buffers.flatten.length
    let p :=
      { p with
        txQueuedBytes := p.txQueuedBytes + calculatedSize
        txQueue := p.txQueue ++ [txMessage buffers size doShutdownAfter] }
    if p.txQueuedBytes > p.txBufferLimit then some (p.close .noBufferSpace)
    else if p.writeInFlight then some p
    else p.doWrite

/-- `peer_tls::finish_write`; `none` if there is no front of the queue. -/
def finishWrite (p : PeerTls) (ec : ErrorCode) : Option PeerTls :=
  let p := { p with writeInFlight := false }
  if ec ≠ .success then some (p.close ec)
  else
    match p.txQueue with
    | [] => none
    | entry :: rest =>
        let p :=
          { p with
            txQueue := rest
            txQueuedBytes := p.txQueuedBytes - entry.data.length }
        if entry.shutdownAfter then some (p.close .success)
        else if rest.isEmpty then some p
        else p.doWrite

end PeerTls

end WsStreaming.Ports
