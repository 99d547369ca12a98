import WsStreaming.Ports.PeerSilence

/-!
# What closes a peer

A peer is to be closed by what has happened to it: a wait, a read or a write
that fails, the end of the stream, a frame that cannot be parsed, a buffer that
is full, or a CLOSE frame that is through.  `on_closed` is to name the first of
these.  A socket that is not ready after all is none of them, and is waited for
again.

`finish_wait_tx` and `write` look at the error code before the number of bytes.
`finish_wait_rx` looks at the number of bytes first: a receive without a byte
closes the peer without an error, whatever it reports.

## Main results

* `Peer.write_cause`, `Peer.finishWaitTx_cause` — a write closes the peer for
  its cause, and is waited for otherwise.
* `Duplex.faithful_iff_told` — every run of a peer is faithful in this sense
  exactly if no receive without a byte reports anything but the end of the
  stream.
-/

namespace WsStreaming.Ports

open WsStreaming.Verified.Wire WsStreaming.Verified.Blocks
open WsStreaming.Verified.Run (MeetsOpt)
open WsStreaming.Verified
open WsStreaming.Verified.Trace (Monitor)

/-- `boost::asio::error::eof`. -/
def ErrorCode.eof : ErrorCode := .other 2

/-- What ought to close a peer. -/
inductive Cause where
  /-- A wait, a read or a write fails. -/
  | error (ec : ErrorCode)
  | endOfStream
  /-- A frame that `process_websocket_frame` does not support. -/
  | parseError
  /-- One of the buffers is full. -/
  | overflow
  /-- A frame with `do_shutdown_after` is through. -/
  | shutdown
deriving DecidableEq, Repr

/-- The code that `on_closed` is to be raised with. -/
def Cause.code : Cause → ErrorCode
  | .error ec => ec
  | .endOfStream => .success
  | .parseError => .operationNotSupported
  | .overflow => .noBufferSpace
  | .shutdown => .success

inductive Direction where
  | read
  | write
deriving DecidableEq, Repr

/-- What happens to a peer, and what it does about it. -/
inductive Happening where
  /-- A read or a write reports `would_block`. -/
  | wouldBlock (direction : Direction)
  | cause (cause : Cause)
  /-- `on_closed`. -/
  | closed (ec : ErrorCode)
  /-- A wait for the socket is started. -/
  | waiting (direction : Direction)
deriving DecidableEq, Repr

/-- What a peer owes: nothing while it is up, another wait for a socket that is
not ready, `on_closed` with the code of a cause, nothing more when it is down. -/
inductive Watch where
  | up
  | blocked (direction : Direction)
  | closing (ec : ErrorCode)
  | down
deriving DecidableEq, Repr

/-- `on_closed` comes after a cause and with its code, and only then; and a
socket that is not ready is waited for, unless what is left of a frame does not
fit the transmit buffer. -/
def faithful : Monitor Watch Happening
  | .up, .wouldBlock direction => some (.blocked direction)
  | .up, .cause c => some (.closing c.code)
  | .up, .waiting _ => some .up
  | .up, .closed _ => none
  | .blocked direction, .waiting direction' =>
      if direction' = direction then some .up else none
  | .blocked .write, .cause .overflow => some (.closing Cause.overflow.code)
  | .blocked _, _ => none
  | .closing ec, .closed ec' => if ec' = ec then some .down else none
  | .closing _, _ => none
  | .down, .closed _ => none
  | .down, _ => some .down

/-- `on_closed`, as it is noted. -/
def Event.happening : Event → Option Happening
  | .closed ec => some (.closed ec)
  | .dataPacket _ _ => none
  | .metadataPacket _ _ => none
  | .controlFrame _ _ _ => none

/-! ## Notes -/

namespace Peer

/-- An open peer owes nothing, and a closed one nothing more. -/
def watch (p : Peer) : Watch := if p.isClosed then .down else .up

/-- What is noted of a read or a write that takes a peer from `p` to `p'`. -/
def note (direction : Direction) (blocked : Bool) (cause : Option Cause) (p p' : Peer)
    (waits : Bool) : List Happening :=
  (if blocked then [.wouldBlock direction] else []) ++ cause.toList.map .cause ++
    (p.closure p').filterMap Event.happening ++
    (if waits then [.waiting direction] else [])

/-- A rest that does not fit the transmit buffer. -/
def overflow (p : Peer) (size : Nat) : Option Cause :=
  if p.room < size then some .overflow else none

/-- Whether the socket is offered bytes and does not take any for now. -/
def blocks (offered : Bytes) (sendEc : ErrorCode) : Bool :=
  offered ≠ [] ∧ sendEc = .wouldBlock

/-- What a written frame gives cause for: behind buffered data, its size;
otherwise what the socket reports and takes. -/
def writeCause (p : Peer) (buffers : List Bytes) (doShutdownAfter : Bool)
    (outcome : SendOutcome) : Option Cause :=
  let size := buffers.flatten.length
  if p.waitingTx then p.overflow size
  else
    let (_, bytesSent, sendEc) := p.socket.send buffers.flatten outcome
    if sendEc.genuine then some (.error sendEc)
    else if bytesSent = size then (if doShutdownAfter then some .shutdown else none)
    else p.overflow (size - bytesSent)

/-- What is noted of `write`, which leads to `p'`. -/
def writeNote (p : Peer) (buffers : List Bytes) (doShutdownAfter : Bool)
    (outcome : SendOutcome) (p' : Peer) : List Happening :=
  note .write
    (!p.waitingTx && blocks buffers.flatten (p.socket.send buffers.flatten outcome).2.2)
    (p.writeCause buffers doShutdownAfter outcome) p p' (!p.waitingTx && p'.waitingTx)

/-- What the end of a wait for writeability gives cause for. -/
def finishCause (p : Peer) (waitEc : ErrorCode) (outcome : SendOutcome) : Option Cause :=
  if waitEc ≠ .success then some (.error waitEc)
  else
    let offered := DynamicBuffer.describe p.txBuffer.blocks p.txBuffer.data
    let (_, bytesSent, sendEc) := p.socket.send offered outcome
    if sendEc.genuine then some (.error sendEc)
    else if p.shutdownWhenEmpty ∧ p.txBuffer.contents.length ≤ bytesSent then some .shutdown
    else none

/-- What is noted of `finish_wait_tx`, which leads to `p'`. -/
def finishNote (p : Peer) (waitEc : ErrorCode) (outcome : SendOutcome) (p' : Peer) :
    List Happening :=
  let offered := DynamicBuffer.describe p.txBuffer.blocks p.txBuffer.data
  note .write (waitEc = .success && blocks offered (p.socket.send offered outcome).2.2)
    (p.finishCause waitEc outcome) p p' p'.waitingTx

/-- What is noted while the slots of a signal run. -/
def slotsNote (p : Peer) : List SlotAction → List Happening
  | [] => []
  | .send buffers outcome :: actions =>
      match p.write buffers false outcome with
      | none => []
      | some p' => p.writeNote buffers false outcome p' ++ p'.slotsNote actions
  | .stop :: actions => p.stop.slotsNote actions

/-- What is noted of a call of the receive path, which leads to `p'`. -/
def callNote (isSeen : Event → Bool) (p : Peer) (answer : Answer) (p' : Peer) :
    Event → List Happening
  | .controlFrame opcode payload shutdownAfter =>
      p.writeNote (websocketFrame opcode [payload]) shutdownAfter answer.outcome p'
  | .closed _ => []
  | .dataPacket _ _ => p.slotsNote answer.slots
  | .metadataPacket signo payload =>
      if isSeen (.metadataPacket signo payload) then p.slotsNote answer.slots else []

/-- What is noted of the calls of the receive path in order. -/
def callsNote (isSeen : Event → Bool) (p : Peer) (answers : Nat → Answer) :
    List Event → List Happening
  | [] => []
  | e :: es =>
      match p.call isSeen (answers 0) e with
      | none => []
      | some p' =>
          p.callNote isSeen (answers 0) p' e ++
            p'.callsNote isSeen (fun n => answers (n + 1)) es

end Peer

namespace BasePeer

/-- The calls that the loop over the receive buffer makes. -/
def handed (p : BasePeer) : List Event :=
  if p.useTcpProtocol then (processPackets (p.rxBuffer.take p.rxBufferBytes)).2
  else (processFrames p.rxBuffer p.rxBufferBytes 0).events

/-- A receive buffer that is full and has its maximum size. -/
def overflow (p : BasePeer) : Option Cause :=
  if p.rxBufferBytes = p.rxBuffer.length ∧ p.rxBufferMax ≤ p.rxBuffer.length then some .overflow
  else none

/-- What the bytes in the receive buffer give cause for. -/
def failure (p : BasePeer) : Option Cause :=
  if p.useTcpProtocol then
    (p.slide (processPackets (p.rxBuffer.take p.rxBufferBytes)).1).overflow
  else
    let walk := processFrames p.rxBuffer p.rxBufferBytes 0
    if walk.error.isSome then some .parseError
    else ({ p with rxBuffer := walk.buffer }.slide walk.offset).overflow

end BasePeer

namespace Duplex

/-- What happens to a peer from outside. -/
inductive Turn where
  /-- `run()` or the handler that `run(data, size)` posts. -/
  | start (handedOver : Option Bytes) (answers : Nat → Answer)
  /-- The wait for the socket to become readable ends. -/
  | finishWaitRx (waitEc : ErrorCode) (arrived : Bytes) (receiveEc : ErrorCode)
      (answers : Nat → Answer)
  /-- A frame is passed to `write`. -/
  | write (buffers : List Bytes) (doShutdownAfter : Bool) (outcome : SendOutcome)
  /-- The wait for the socket to become writeable ends. -/
  | finishWaitTx (waitEc : ErrorCode) (outcome : SendOutcome)
  | stop

/-- What the turn is to both paths. -/
def Turn.input : Turn → Input
  | .start handedOver answers => .start handedOver answers
  | .finishWaitRx waitEc arrived receiveEc answers => .read waitEc arrived receiveEc answers
  | .write buffers doShutdownAfter outcome => .act (.write buffers doShutdownAfter outcome)
  | .finishWaitTx waitEc outcome => .act (.finishWaitTx waitEc outcome)
  | .stop => .act .stop

/-- How the calls of the receive path are answered. -/
def Turn.answers : Turn → Nat → Answer
  | .start _ answers | .finishWaitRx _ _ _ answers => answers
  | .write _ _ _ | .finishWaitTx _ _ | .stop => fun _ => ⟨.wouldBlock, []⟩

/-- What a turn brings to the receive path: a socket that is not ready, bytes
that lead to calls, a cause to close the peer after them. -/
structure Arrival where
  blocked : Bool
  handed : List Event
  cause : Option Cause

/-- The bytes in the receive buffer are processed. -/
def Arrival.bytes (p : BasePeer) : Arrival := ⟨false, p.handed, p.failure⟩

/-- What a receive brings that stores `stored` and reports `receiveEc`. -/
def Arrival.received (p : BasePeer) (stored : Bytes) (receiveEc : ErrorCode) : Arrival :=
  if stored = [] ∧ receiveEc = .wouldBlock then ⟨true, [], none⟩
  else if stored = [] ∧ (receiveEc = .success ∨ receiveEc = .eof) then
    ⟨false, [], some .endOfStream⟩
  else if receiveEc.genuine then ⟨false, [], some (.error receiveEc)⟩
  else
    .bytes { p with
      reading := false
      rxBuffer := overwrite p.rxBuffer p.rxBufferBytes stored
      rxBufferBytes := p.rxBufferBytes + stored.length }

/-- What a turn brings to the receive path. -/
def arrival (d : Duplex) : Turn → Arrival
  | .start none _ => ⟨false, [], none⟩
  | .start (some data) _ =>
      let p := d.rx.makeRoom data.length
      if p.rxBuffer.length < data.length then ⟨false, [], some .overflow⟩
      else
        .bytes { p with
          rxBuffer := overwrite p.rxBuffer 0 data
          rxBufferBytes := data.length }
  | .finishWaitRx waitEc arrived receiveEc _ =>
      if d.rx.reading then
        if waitEc ≠ .success then ⟨false, [], some (.error waitEc)⟩
        else
          let (stored, ec) := d.tx.socket.receive d.rx.room arrived receiveEc
          .received d.rx stored ec
      else ⟨false, [], none⟩
  | .write _ _ _ | .finishWaitTx _ _ | .stop => ⟨false, [], none⟩

/-- What is noted of the receive path in a turn that leads to `d'`. -/
def receiveNote (codec : JsonCodec) (d : Duplex) (t : Turn) (d' : Duplex) : List Happening :=
  let arrival := d.arrival t
  match d.tx.calls (d.isSeen codec) t.answers arrival.handed with
  | none => []
  | some r =>
      d.tx.callsNote (d.isSeen codec) t.answers arrival.handed ++
        Peer.note .read arrival.blocked arrival.cause r.1 d'.tx d'.rx.reading

/-- What is noted of a turn that leads to `d'`. -/
def notes (codec : JsonCodec) (d : Duplex) (t : Turn) (d' : Duplex) : List Happening :=
  match t with
  | .start _ _ | .finishWaitRx _ _ _ _ => d.receiveNote codec t d'
  | .write buffers doShutdownAfter outcome =>
      d.tx.writeNote buffers doShutdownAfter outcome d'.tx
  | .finishWaitTx waitEc outcome => d.tx.finishNote waitEc outcome d'.tx
  | .stop => []

/-- One turn, with what is noted of it. -/
def observe (codec : JsonCodec) (d : Duplex) (t : Turn) : Option (Duplex × List Happening) :=
  (d.step codec t.input).map fun r => (r.1, d.notes codec t r.1)

/-- A receive on an open peer that stores no byte reports the end of the
stream. -/
def Told (d : Duplex) : Turn → Prop
  | .finishWaitRx waitEc arrived receiveEc _ =>
      d.tx.isClosed = false → d.rx.reading = true → waitEc = .success →
        let (stored, ec) := d.tx.socket.receive d.rx.room arrived receiveEc
        stored = [] → ec = .success ∨ ec = .eof
  | .start _ _ => True
  | .write _ _ _ => True
  | .finishWaitTx _ _ => True
  | .stop => True

end Duplex

/-! ## Writes -/

namespace Peer

section Write

variable {p p' : Peer}

theorem closing_of_open (h : p.isClosed = false) : p.closing = none := by
  rw [isClosed, Option.isSome_eq_false_iff, Option.isNone_iff_eq_none] at h
  exact h

theorem watch_of_open (h : p.isClosed = false) : p.watch = .up := by
  rw [watch, h]
  rfl

theorem watch_of_closed (h : p.isClosed = true) : p.watch = .down := by
  rw [watch, h]
  rfl

/-- A peer that is down owes nothing more. -/
theorem read_note_of_closed (h : p.isClosed = true) (direction : Direction) (blocked : Bool)
    (cause : Option Cause) (waits : Bool) :
    faithful.read .down (note direction blocked cause p p' waits) = some .down := by
  rw [note, closure_of_closed h]
  cases blocked <;> cases cause <;> cases waits <;> rfl

/-- An open peer that is closed for its cause, and waits for a socket that is
not ready. -/
theorem read_note_of_open (h : p.isClosed = false) (direction : Direction) {blocked : Bool}
    {cause : Option Cause} (waits : Bool)
    (hcause : p'.closing.map Closing.ec = cause.map Cause.code)
    (hblocked : blocked = true →
      cause = none ∧ waits = true ∨ cause = some .overflow ∧ direction = .write) :
    faithful.read .up (note direction blocked cause p p' waits) = some p'.watch := by
  have hnone : p.closing = none := closing_of_open h
  cases hclosing : p'.closing with
  | none =>
      rw [hclosing, Option.map_none] at hcause
      have hcause : cause = none := Option.map_eq_none_iff.mp hcause.symm
      have hwatch : p'.watch = .up := watch_of_open (by rw [isClosed, hclosing]; rfl)
      have hclosure : p.closure p' = [] := by rw [closure, hnone, hclosing]
      rw [note, hcause, hclosure, hwatch]
      cases blocked with
      | false => cases waits <;> rfl
      | true =>
          rcases hblocked rfl with ⟨-, hwaits⟩ | ⟨hoverflow, -⟩
          · rw [hwaits]
            cases direction <;> rfl
          · rw [hcause] at hoverflow
            cases hoverflow
  | some c =>
      rw [hclosing, Option.map_some] at hcause
      obtain ⟨k, hk, hcode⟩ := Option.map_eq_some_iff.mp hcause.symm
      have hwatch : p'.watch = .down := watch_of_closed (by rw [isClosed, hclosing]; rfl)
      have hclosure : p.closure p' = [.closed k.code] := by
        rw [closure, hnone, hclosing, hcode]
      have hclosed : faithful (.closing k.code) (.closed k.code) = some .down := if_pos rfl
      rw [note, hk, hclosure, hwatch]
      cases blocked with
      | false =>
          show (faithful (.closing k.code) (.closed k.code)).bind _ = _
          rw [hclosed]
          cases waits <;> rfl
      | true =>
          rcases hblocked rfl with ⟨hcause, -⟩ | ⟨hoverflow, hdirection⟩
          · rw [hk] at hcause
            cases hcause
          · rw [hk] at hoverflow
            rw [Option.some.inj hoverflow, hdirection]
            cases waits <;> rfl

/-- The rest of a frame is queued and waited for, or does not fit. -/
theorem enqueue_cause (hbuf : p.txBuffer.Inv) (hopen : p.isClosed = false)
    {buffers : List Bytes} {size : Nat} (hsize : size = buffers.flatten.length)
    {doShutdownAfter : Bool} (henqueue : p.enqueue buffers size doShutdownAfter = some p') :
    p'.closing.map Closing.ec = (p.overflow size).map Cause.code ∧
      (p.overflow size = none → p'.waitingTx = true) := by
  obtain ⟨b, n, hwrite, -, hn, -⟩ := DynamicBuffer.write_spec hbuf buffers
  have hroom : n = min size p.room := by rw [hn, hsize]; rfl
  have hopen' : ({ p with txBuffer := b } : Peer).isClosed = false := hopen
  unfold enqueue at henqueue
  simp only [hwrite, Option.bind_eq_bind, Option.bind_some] at henqueue
  unfold overflow
  by_cases hfull : p.room < size
  · rw [if_pos (by omega), close_of_open hopen'] at henqueue
    rw [if_pos hfull, ← Option.some.inj henqueue]
    exact ⟨rfl, nofun⟩
  · rw [if_neg (by omega), finishEnqueue_eq] at henqueue
    rw [if_neg hfull, ← Option.some.inj henqueue]
    exact ⟨congrArg (Option.map Closing.ec) (closing_of_open hopen), fun _ => rfl⟩

/-- A socket that does not take a byte for now reports no error. -/
theorem send_of_wouldBlock (s : Socket) (offered : Bytes) (outcome : SendOutcome)
    (h : (s.send offered outcome).2.2 = .wouldBlock) :
    (s.send offered outcome).2.1 = 0 := by
  unfold Socket.send at h ⊢
  by_cases hopen : s.isOpen = true
  · rw [if_pos hopen] at h ⊢
    cases outcome with
    | sent n => cases h
    | wouldBlock => rfl
    | failed ec => rfl
  · rw [if_neg hopen]

theorem of_blocks {offered : Bytes} {sendEc : ErrorCode}
    (h : blocks offered sendEc = true) : offered ≠ [] ∧ sendEc = .wouldBlock :=
  of_decide_eq_true h

/-- **A written frame closes an open peer for its cause**, and a socket that is
not ready is waited for unless the frame does not fit. -/
theorem write_cause (hp : p.Sound) (hopen : p.isClosed = false) {buffers : List Bytes}
    {doShutdownAfter : Bool} {outcome : SendOutcome}
    (hwrite : p.write buffers doShutdownAfter outcome = some p') :
    p'.closing.map Closing.ec =
        (p.writeCause buffers doShutdownAfter outcome).map Cause.code ∧
      (p.waitingTx = false →
        blocks buffers.flatten (p.socket.send buffers.flatten outcome).2.2 = true →
        p.writeCause buffers doShutdownAfter outcome = none ∧ p'.waitingTx = true ∨
          p.writeCause buffers doShutdownAfter outcome = some .overflow) := by
  obtain ⟨written, hinv⟩ := hp
  have hbuf : p.txBuffer.Inv := hinv.buffer
  have hnone : p.closing = none := closing_of_open hopen
  unfold Peer.write at hwrite
  unfold writeCause
  dsimp only at hwrite ⊢
  by_cases hwait : p.waitingTx = true
  · rw [if_pos hwait] at hwrite ⊢
    rw [hwait]
    exact ⟨(enqueue_cause hbuf hopen rfl hwrite).1, nofun⟩
  · rw [if_neg hwait] at hwrite ⊢
    have hzero := send_of_wouldBlock p.socket buffers.flatten outcome
    generalize p.socket.send buffers.flatten outcome = sent at hwrite hzero ⊢
    obtain ⟨socket, bytesSent, sendEc⟩ := sent
    dsimp only at hwrite hzero ⊢
    by_cases hgenuine : sendEc.genuine = true
    · rw [if_pos hgenuine, close_of_open (by exact hopen)] at hwrite
      rw [if_pos hgenuine, ← Option.some.inj hwrite]
      refine ⟨rfl, ?_⟩
      intro _ hblocks
      rw [(of_blocks hblocks).2] at hgenuine
      cases hgenuine
    · rw [if_neg hgenuine] at hwrite ⊢
      by_cases hall : bytesSent = buffers.flatten.length
      · rw [if_pos hall] at hwrite ⊢
        constructor
        · rw [← Option.some.inj hwrite]
          cases doShutdownAfter with
          | true =>
              rw [if_pos rfl, if_pos rfl, close_of_open (by exact hopen)]
              rfl
          | false => exact congrArg (Option.map Closing.ec) hnone
        · intro _ hblocks
          obtain ⟨hoffered, hec⟩ := of_blocks hblocks
          rw [hzero hec] at hall
          exact absurd (List.length_eq_zero_iff.mp hall.symm) hoffered
      · rw [if_neg hall] at hwrite ⊢
        have hsize : buffers.flatten.length - bytesSent =
            (suffix buffers bytesSent).flatten.length := by
          rw [flatten_suffix, List.length_drop]
        have hrest := enqueue_cause (p := { p with socket := socket }) hbuf hopen hsize hwrite
        change _ = (p.overflow _).map _ ∧ (p.overflow _ = none → _) at hrest
        refine ⟨hrest.1, ?_⟩
        intro _ _
        by_cases hfits : p.overflow (buffers.flatten.length - bytesSent) = none
        · exact .inl ⟨hfits, hrest.2 hfits⟩
        · right
          unfold overflow at hfits ⊢
          by_cases hroom : p.room < buffers.flatten.length - bytesSent
          · rw [if_pos hroom]
          · rw [if_neg hroom] at hfits
            exact absurd rfl hfits

/-- **The end of a wait for writeability closes an open peer for its cause**,
and a socket that is not ready after all is waited for again. -/
theorem finishWaitTx_cause (hp : p.Sound) (hopen : p.isClosed = false) {waitEc : ErrorCode}
    {outcome : SendOutcome} (hfinish : p.finishWaitTx waitEc outcome = some p') :
    p'.closing.map Closing.ec = (p.finishCause waitEc outcome).map Cause.code ∧
      (waitEc = .success →
        blocks (DynamicBuffer.describe p.txBuffer.blocks p.txBuffer.data)
          (p.socket.send (DynamicBuffer.describe p.txBuffer.blocks p.txBuffer.data)
            outcome).2.2 = true →
        p.finishCause waitEc outcome = none ∧ p'.waitingTx = true) := by
  obtain ⟨written, hinv⟩ := hp
  have hbuf : p.txBuffer.Inv := hinv.buffer
  have hnone : p.closing = none := closing_of_open hopen
  obtain ⟨⟨rest, hoffered⟩, -, -⟩ := DynamicBuffer.data_spec hbuf.toShape
  unfold Peer.finishWaitTx at hfinish
  unfold finishCause
  dsimp only at hfinish ⊢
  by_cases hwait : waitEc ≠ .success
  · rw [if_pos hwait, close_of_open (by exact hopen)] at hfinish
    rw [if_pos hwait, ← Option.some.inj hfinish]
    exact ⟨rfl, fun h => absurd h hwait⟩
  · rw [if_neg hwait] at hfinish ⊢
    have hzero := send_of_wouldBlock p.socket
      (DynamicBuffer.describe p.txBuffer.blocks p.txBuffer.data) outcome
    generalize p.socket.send (DynamicBuffer.describe p.txBuffer.blocks p.txBuffer.data)
      outcome = sent at hfinish hzero ⊢
    obtain ⟨socket, bytesSent, sendEc⟩ := sent
    dsimp only at hfinish hzero ⊢
    by_cases hgenuine : sendEc.genuine = true
    · rw [if_pos hgenuine, close_of_open (by exact hopen)] at hfinish
      rw [if_pos hgenuine, ← Option.some.inj hfinish]
      refine ⟨rfl, ?_⟩
      intro _ hblocks
      rw [(of_blocks hblocks).2] at hgenuine
      cases hgenuine
    · obtain ⟨b, hconsume, hbinv, hcontents, -, -⟩ := DynamicBuffer.consume_spec hbuf bytesSent
      rw [if_neg hgenuine] at hfinish ⊢
      simp only [hconsume, Option.bind_eq_bind, Option.bind_some] at hfinish
      have hempty : b.empty = true ↔ p.txBuffer.contents.length ≤ bytesSent := by
        rw [DynamicBuffer.empty, beq_iff_eq, hbinv.size_eq, hcontents, List.length_drop]
        omega
      -- What the socket did not take is still there.
      have hleft (hblocks : blocks (DynamicBuffer.describe p.txBuffer.blocks p.txBuffer.data)
          sendEc = true) : ¬ p.txBuffer.contents.length ≤ bytesSent := by
        obtain ⟨hne, hec⟩ := of_blocks hblocks
        have hpos := List.length_pos_of_ne_nil hne
        rw [hzero hec, ← hoffered, List.length_append]
        omega
      rw [← hempty] at hleft
      by_cases hthrough : p.shutdownWhenEmpty = true ∧ b.empty = true
      · rw [if_pos hthrough, close_of_open (by exact hopen)] at hfinish
        rw [if_pos ⟨hthrough.1, hempty.mp hthrough.2⟩, ← Option.some.inj hfinish]
        exact ⟨rfl, fun _ hblocks => absurd hthrough.2 (hleft hblocks)⟩
      · rw [if_neg hthrough] at hfinish
        rw [if_neg fun h => hthrough ⟨h.1, hempty.mpr h.2⟩, ← Option.some.inj hfinish]
        constructor
        · split
          · exact congrArg (Option.map Closing.ec) hnone
          · exact congrArg (Option.map Closing.ec) hnone
        · intro _ hblocks
          rw [if_neg (hleft hblocks)]
          exact ⟨rfl, rfl⟩

/-- What is noted of `write`. -/
theorem read_writeNote (hp : p.Sound) {buffers : List Bytes} {doShutdownAfter : Bool}
    {outcome : SendOutcome} (hwrite : p.write buffers doShutdownAfter outcome = some p') :
    faithful.read p.watch (p.writeNote buffers doShutdownAfter outcome p') = some p'.watch := by
  cases hclosed : p.isClosed with
  | true =>
      rw [watch_of_closed hclosed, watch_of_closed (write_of_closed hp hclosed hwrite)]
      exact read_note_of_closed hclosed _ _ _ _
  | false =>
      obtain ⟨hcause, hblocks⟩ := write_cause hp hclosed hwrite
      rw [watch_of_open hclosed]
      apply read_note_of_open hclosed .write _ hcause
      intro hblocked
      rw [Bool.and_eq_true, Bool.not_eq_true'] at hblocked
      rcases hblocks hblocked.1 hblocked.2 with ⟨hnone, hwaits⟩ | hoverflow
      · left
        rw [hblocked.1, hwaits]
        exact ⟨hnone, rfl⟩
      · exact .inr ⟨hoverflow, rfl⟩

/-- What is noted of `finish_wait_tx`. -/
theorem read_finishNote (hp : p.Sound) {waitEc : ErrorCode} {outcome : SendOutcome}
    (hfinish : p.finishWaitTx waitEc outcome = some p') :
    faithful.read p.watch (p.finishNote waitEc outcome p') = some p'.watch := by
  cases hclosed : p.isClosed with
  | true =>
      rw [watch_of_closed hclosed, watch_of_closed (finishWaitTx_of_closed hp hclosed hfinish)]
      exact read_note_of_closed hclosed _ _ _ _
  | false =>
      obtain ⟨hcause, hblocks⟩ := finishWaitTx_cause hp hclosed hfinish
      rw [watch_of_open hclosed]
      apply read_note_of_open hclosed .write _ hcause
      intro hblocked
      rw [Bool.and_eq_true, decide_eq_true_eq] at hblocked
      exact .inl (hblocks hblocked.1 hblocked.2)

end Write

/-! ## Calls of the receive path -/

section Calls

variable {isSeen : Event → Bool}

theorem read_slotsNote (actions : List SlotAction) :
    ∀ {p p' : Peer}, p.Sound → p.slots actions = some p' →
      faithful.read p.watch (p.slotsNote actions) = some p'.watch := by
  induction actions with
  | nil =>
      intro p p' _ hslots
      rw [← Option.some.inj hslots]
      rfl
  | cons action actions ih =>
      intro p p' hp hslots
      rw [Peer.slots, List.foldlM_cons] at hslots
      cases action with
      | send buffers outcome =>
          obtain ⟨q, hwrite, hq⟩ := hp.write buffers false outcome
          have hrest : q.slots actions = some p' := by
            rw [slot, hwrite] at hslots
            exact hslots
          rw [slotsNote, hwrite]
          exact Monitor.read_append_of (read_writeNote hp hwrite) (ih hq hrest)
      | stop => exact ih hp.stop hslots

/-- What is noted of one call of the receive path other than `close`. -/
theorem read_callNote {p p' : Peer} (hp : p.Sound) {answer : Answer} {e : Event}
    (hcall : p.call isSeen answer e = some p') (he : e.happening = none) :
    faithful.read p.watch (p.callNote isSeen answer p' e) = some p'.watch := by
  cases e with
  | closed ec => cases he
  | controlFrame opcode payload shutdownAfter => exact read_writeNote hp hcall
  | dataPacket signo payload => exact read_slotsNote answer.slots hp hcall
  | metadataPacket signo payload =>
      unfold Peer.call at hcall
      unfold callNote
      dsimp only at hcall ⊢
      by_cases hseen : isSeen (.metadataPacket signo payload) = true
      · rw [if_pos hseen] at hcall ⊢
        exact read_slotsNote answer.slots hp hcall
      · rw [if_neg hseen] at hcall ⊢
        rw [← Option.some.inj hcall]
        rfl

/-- What is noted of the calls of the receive path before it closes the peer. -/
theorem read_callsNote (isSeen : Event → Bool) (events : List Event)
    (hevents : ∀ e ∈ events, e.happening = none) :
    ∀ {p : Peer} (answers : Nat → Answer), p.Sound →
      ∃ r, p.calls isSeen answers events = some r ∧ r.1.Sound ∧
        (p.isClosed = true → r.1.isClosed = true) ∧
        faithful.read p.watch (p.callsNote isSeen answers events) = some r.1.watch := by
  induction events with
  | nil => exact fun answers hp => ⟨_, rfl, hp, id, rfl⟩
  | cons e es ih =>
      intro p answers hp
      obtain ⟨q, hcall, hq, hkeep, -⟩ := hp.call isSeen (answers 0) e
      obtain ⟨r, hcalls, hr, hkeep', hread⟩ :=
        ih (fun e' he' => hevents e' (List.mem_cons_of_mem _ he')) (fun n => answers (n + 1)) hq
      refine ⟨(r.1, (if isSeen e then [e] else []) ++ p.closure q ++ r.2), ?_, hr, ?_, ?_⟩
      · rw [Peer.calls, hcall, Option.bind_some, hcalls, Option.map_some]
      · exact fun h => hkeep' (hkeep h)
      · rw [callsNote, hcall]
        exact Monitor.read_append_of (read_callNote hp hcall (hevents e List.mem_cons_self)) hread

/-- The call of `close` comes last. -/
theorem calls_append_closed (events : List Event) (ec : ErrorCode) :
    ∀ {p : Peer} {answers : Nat → Answer} {r : Peer × List Event},
      p.calls isSeen answers events = some r →
        (p.calls isSeen answers (events ++ [.closed ec])).map Prod.fst =
          some (r.1.close { ec := ec, afterShutdownFrame := false }) := by
  induction events with
  | nil =>
      intro p answers r hr
      rw [← Option.some.inj hr]
      rfl
  | cons e es ih =>
      intro p answers r hr
      rw [Peer.calls] at hr
      obtain ⟨q, hcall, hr⟩ := Option.bind_eq_some_iff.mp hr
      obtain ⟨r', hcalls, rfl⟩ := Option.map_eq_some_iff.mp hr
      rw [List.cons_append, Peer.calls, hcall, Option.bind_some, Option.map_map]
      have hclose := ih hcalls
      exact hclose

end Calls

end Peer

/-! ## What arrives -/

namespace BasePeer

theorem processPacket_happening (data : Bytes) {e : Event} (he : e ∈ (processPacket data).2) :
    e.happening = none := by
  unfold processPacket at he
  dsimp only at he
  split at he
  · cases he
  · split at he
    · rw [List.mem_singleton.mp he]
      rfl
    · split at he
      · rw [List.mem_singleton.mp he]
        rfl
      · cases he

theorem processPackets_happening (data : Bytes) :
    ∀ e ∈ (processPackets data).2, e.happening = none := by
  induction data using processPackets.induct with
  | case1 data packet h =>
      intro e he
      rw [processPackets, if_pos h] at he
      exact processPacket_happening data he
  | case2 data packet h ih =>
      intro e he
      rw [processPackets, if_neg h] at he
      rcases List.mem_append.mp he with he | he
      · exact processPacket_happening data he
      · exact ih e he

/-- A frame leads to calls other than `close`, or is not supported. -/
theorem processWebsocketFrame_spec (header : WebsocketProtocol.DecodedHeader) (data : Bytes) :
    processWebsocketFrame header data = .error .operationNotSupported ∨
      ∃ data' events, processWebsocketFrame header data = .ok (data', events) ∧
        ∀ e ∈ events, e.happening = none := by
  unfold processWebsocketFrame
  split
  · exact .inl rfl
  · right
    dsimp only
    generalize (if header.isMasked then xorKey (fun i => header.maskingKey.getD i 0) 0 data
      else data) = payload
    split
    · exact ⟨_, _, rfl, fun e he => by rw [List.mem_singleton.mp he]; rfl⟩
    · split
      · exact ⟨_, _, rfl, fun e he => by rw [List.mem_singleton.mp he]; rfl⟩
      · split
        · exact ⟨_, _, rfl, nofun⟩
        · split
          · exact ⟨_, _, rfl, processPackets_happening payload⟩
          · exact ⟨_, _, rfl, nofun⟩

/-- The loop over the frames makes calls other than `close`, and stops early
only at a frame that is not supported. -/
theorem processFrames_spec (buffer : Bytes) (bytes offset : Nat) :
    (∀ e ∈ (processFrames buffer bytes offset).events, e.happening = none) ∧
      ∀ ec, (processFrames buffer bytes offset).error = some ec → ec = .operationNotSupported := by
  induction buffer, offset using processFrames.induct bytes with
  | case1 buffer offset header h =>
      rw [processFrames, if_pos h]
      simp
  | case2 buffer offset header h start ec hframe =>
      rw [processFrames, if_neg h]
      dsimp only
      rw [hframe]
      refine ⟨by simp, ?_⟩
      intro ec' hec'
      rcases processWebsocketFrame_spec header ((buffer.drop start).take header.payloadSize)
        with herror | ⟨data, events, hok, -⟩
      · rw [hframe] at herror
        rw [← Option.some.inj hec']
        exact Except.error.inj herror
      · rw [hframe] at hok
        cases hok
  | case3 buffer offset header h start data events hframe ih =>
      rw [processFrames, if_neg h]
      dsimp only
      rw [hframe]
      refine ⟨?_, ih.2⟩
      intro e he
      rcases List.mem_append.mp he with he | he
      · rcases processWebsocketFrame_spec header ((buffer.drop start).take header.payloadSize)
          with herror | ⟨data', events', hok, hevents⟩
        · rw [hframe] at herror
          cases herror
        · rw [hframe] at hok
          rw [(Prod.mk.inj (Except.ok.inj hok)).2] at he
          exact hevents e he
      · exact ih.1 e he

/-- The call of `close` that a cause leads to. -/
def closeFor (p : BasePeer) (cause : Option Cause) : List Event :=
  if p.isClosed then [] else cause.toList.map fun c => .closed c.code

theorem closeFor_none (p : BasePeer) : p.closeFor none = [] := ite_self _

theorem close_events (p : BasePeer) (ec : ErrorCode) :
    (p.close ec).2 = if p.isClosed then [] else [.closed ec] := by
  unfold close
  split
  · rfl
  · rfl

theorem slide_isClosed (p : BasePeer) (offset : Nat) : (p.slide offset).isClosed = p.isClosed := by
  unfold slide
  split
  · rfl
  · rfl

theorem makeRoom_isClosed (p : BasePeer) (size : Nat) :
    (p.makeRoom size).isClosed = p.isClosed := by
  induction p using makeRoom.induct size with
  | case1 p h hgrow =>
      rw [makeRoom, if_pos h]
      split
      · rfl
      · rename_i grown hgrown
        rw [hgrow] at hgrown
        cases hgrown
  | case2 p h grown hgrow ih =>
      obtain ⟨-, zeros, hgrown, -⟩ := growRxBuffer_eq_some hgrow
      have hkeep : grown.isClosed = p.isClosed := by rw [hgrown]
      rw [makeRoom, if_pos h]
      split
      · rfl
      · rename_i grown' hgrow'
        rw [hgrow] at hgrow'
        rw [← Option.some.inj hgrow', ih, hkeep]
  | case3 p h => rw [makeRoom, if_neg h]

theorem readOn_events (p : BasePeer) : p.readOn.2 = p.closeFor p.overflow := by
  unfold readOn closeFor
  by_cases hfull : p.rxBufferBytes = p.rxBuffer.length
  · rw [if_pos hfull]
    unfold growRxBuffer
    by_cases hmax : p.rxBufferMax ≤ p.rxBuffer.length
    · have hoverflow : p.overflow = some .overflow := if_pos ⟨hfull, hmax⟩
      rw [if_pos hmax, hoverflow]
      exact close_events p _
    · have hoverflow : p.overflow = none := if_neg fun h => hmax h.2
      rw [if_neg hmax, hoverflow]
      exact (ite_self _).symm
  · have hoverflow : p.overflow = none := if_neg fun h => hfull h.1
    rw [if_neg hfull, hoverflow]
    exact (ite_self _).symm

/-- **What processing the receive buffer comes to**: the calls of the loop, and
`close` if there is cause for it. -/
theorem processBuffer_events (p : BasePeer) :
    p.processBuffer.2 = p.handed ++ p.closeFor p.failure := by
  unfold processBuffer handed failure
  by_cases htcp : p.useTcpProtocol = true
  · rw [if_pos htcp, if_pos htcp, if_pos htcp]
    unfold processBufferTcp
    dsimp only
    rw [readOn_events, closeFor, closeFor, slide_isClosed]
  · rw [if_neg htcp, if_neg htcp, if_neg htcp]
    unfold processBufferWs
    dsimp only
    cases herror : (processFrames p.rxBuffer p.rxBufferBytes 0).error with
    | none =>
        dsimp only
        rw [readOn_events, closeFor, closeFor, slide_isClosed]
        rfl
    | some ec =>
        dsimp only
        rw [(processFrames_spec p.rxBuffer p.rxBufferBytes 0).2 ec herror, close_events]
        rfl

theorem handed_happening (p : BasePeer) : ∀ e ∈ p.handed, e.happening = none := by
  unfold handed
  split
  · exact processPackets_happening _
  · exact (processFrames_spec _ _ _).1

end BasePeer

namespace Duplex

open Peer (Sound)

theorem arrival_happening (d : Duplex) (t : Turn) :
    ∀ e ∈ (d.arrival t).handed, e.happening = none := by
  cases t with
  | start handedOver answers =>
      cases handedOver with
      | none => exact nofun
      | some data =>
          unfold arrival
          dsimp only
          split
          · exact nofun
          · exact BasePeer.handed_happening _
  | finishWaitRx waitEc arrived receiveEc answers =>
      unfold arrival
      dsimp only
      split
      · split
        · exact nofun
        · unfold Arrival.received
          split
          · exact nofun
          · split
            · exact nofun
            · split
              · exact nofun
              · exact BasePeer.handed_happening _
      · exact nofun
  | write buffers doShutdownAfter outcome => exact nofun
  | finishWaitTx waitEc outcome => exact nofun
  | stop => exact nofun

section Receive

variable {p : BasePeer} {stored : Bytes} {receiveEc : ErrorCode}

/-- A receive that ends the stream. -/
theorem received_of_end (h : receiveEc = .success ∨ receiveEc = .eof) :
    Arrival.received p [] receiveEc = ⟨false, [], some .endOfStream⟩ := by
  have hready : receiveEc ≠ .wouldBlock := by
    rintro rfl
    rcases h with h | h
    · cases h
    · cases h
  unfold Arrival.received
  rw [if_neg fun h => hready h.2, if_pos ⟨rfl, h⟩]

/-- A receive without a byte that reports something else. -/
theorem received_of_untold (h : ¬ (receiveEc = .success ∨ receiveEc = .eof)) :
    Arrival.received p [] receiveEc = ⟨true, [], none⟩ ∨
      Arrival.received p [] receiveEc = ⟨false, [], some (.error receiveEc)⟩ := by
  unfold Arrival.received
  by_cases hblocked : receiveEc = .wouldBlock
  · exact .inl (if_pos ⟨rfl, hblocked⟩)
  · right
    have hgenuine : receiveEc.genuine = true :=
      decide_eq_true ⟨fun hec => h (.inl hec), hblocked⟩
    rw [if_neg fun hec => hblocked hec.2, if_neg fun hec => h hec.2, if_pos hgenuine]

/-- A receive with bytes. -/
theorem received_of_stored (h : stored ≠ []) :
    Arrival.received p stored receiveEc =
      if receiveEc.genuine then ⟨false, [], some (.error receiveEc)⟩
      else
        .bytes { p with
          reading := false
          rxBuffer := overwrite p.rxBuffer p.rxBufferBytes stored
          rxBufferBytes := p.rxBufferBytes + stored.length } := by
  unfold Arrival.received
  rw [if_neg fun hec => h hec.1, if_neg fun hec => h hec.1]

/-- Every receive without a byte closes the peer as if the stream had ended. -/
theorem finishWaitRx_of_empty :
    (p.finishWaitRx .success [] receiveEc).2 = p.closeFor (some .endOfStream) := by
  unfold BasePeer.finishWaitRx
  rw [if_neg fun h => h rfl, if_pos (by rfl)]
  exact BasePeer.close_events _ _

theorem finishWaitRx_of_stored (h : stored ≠ []) :
    (p.finishWaitRx .success stored receiveEc).2 =
      (Arrival.received p stored receiveEc).handed ++
        p.closeFor (Arrival.received p stored receiveEc).cause := by
  have hlen : stored.length ≠ 0 := fun hlen => h (List.length_eq_zero_iff.mp hlen)
  rw [received_of_stored h]
  unfold BasePeer.finishWaitRx
  rw [if_neg fun h => h rfl]
  dsimp only
  rw [if_neg hlen]
  by_cases hgenuine : receiveEc.genuine = true
  · rw [if_pos (of_decide_eq_true hgenuine), if_pos hgenuine]
    exact BasePeer.close_events _ _
  · rw [if_neg fun hec => hgenuine (decide_eq_true hec), if_neg hgenuine]
    exact BasePeer.processBuffer_events _

/-- A receive that stores bytes, or tells of the end of the stream without any,
leads to what it brings; and so does every receive of a closed peer. -/
theorem finishWaitRx_events
    (h : p.isClosed = true ∨ (stored = [] → receiveEc = .success ∨ receiveEc = .eof)) :
    (p.finishWaitRx .success stored receiveEc).2 =
      (Arrival.received p stored receiveEc).handed ++
        p.closeFor (Arrival.received p stored receiveEc).cause := by
  by_cases hstored : stored = []
  · subst hstored
    rw [finishWaitRx_of_empty]
    by_cases hend : receiveEc = .success ∨ receiveEc = .eof
    · rw [received_of_end hend]
      rfl
    · have hclosed : p.isClosed = true := h.resolve_right fun htold => hend (htold rfl)
      have hnothing (cause : Option Cause) : p.closeFor cause = [] := if_pos hclosed
      rcases received_of_untold (p := p) hend with harrival | harrival
      · rw [harrival, hnothing, hnothing]
        rfl
      · rw [harrival, hnothing, hnothing]
        rfl
  · exact finishWaitRx_of_stored hstored

theorem received_blocked (h : stored = [] → receiveEc = .success ∨ receiveEc = .eof) :
    (Arrival.received p stored receiveEc).blocked = false := by
  by_cases hstored : stored = []
  · have hend := h hstored
    rw [hstored, received_of_end hend]
  · rw [received_of_stored hstored]
    split
    · rfl
    · rfl

end Receive

/-- **What a turn comes to on the receive path**: the calls that what arrives
leads to, and `close` if there is cause for it. -/
theorem received_events (d : Duplex) (t : Turn) (hrx : d.rx.isClosed = d.tx.isClosed)
    (ht : d.tx.isClosed = true ∨ d.Told t) :
    (d.received t.input).2 = (d.arrival t).handed ++ d.rx.closeFor (d.arrival t).cause := by
  cases t with
  | start handedOver answers =>
      cases handedOver with
      | none => exact (BasePeer.closeFor_none _).symm
      | some data =>
          unfold Turn.input received arrival BasePeer.start BasePeer.runWith
          dsimp only
          have hroom : (d.rx.makeRoom data.length).isClosed = d.rx.isClosed :=
            BasePeer.makeRoom_isClosed _ _
          split
          · rw [BasePeer.close_events, hroom]
            rfl
          · rw [BasePeer.processBuffer_events, BasePeer.closeFor, BasePeer.closeFor]
            dsimp only
            rw [hroom]
            rfl
  | finishWaitRx waitEc arrived receiveEc answers =>
      unfold Turn.input received arrival
      dsimp only
      by_cases hreading : d.rx.reading = true
      · rw [if_pos hreading, if_pos hreading]
        by_cases hwait : waitEc ≠ .success
        · rw [if_pos hwait]
          unfold BasePeer.finishWaitRx
          rw [if_pos hwait, BasePeer.close_events]
          rfl
        · rw [if_neg hwait]
          have hwait : waitEc = .success := not_not.mp hwait
          rw [hwait]
          apply finishWaitRx_events
          rcases ht with hclosed | htold
          · exact .inl (hrx.trans hclosed)
          · cases hopen : d.rx.isClosed with
            | true => exact .inl rfl
            | false => exact .inr (htold (hrx.symm.trans hopen) hreading hwait)
      · rw [if_neg hreading, if_neg hreading]
        exact (BasePeer.closeFor_none _).symm
  | write buffers doShutdownAfter outcome => exact (BasePeer.closeFor_none _).symm
  | finishWaitTx waitEc outcome => exact (BasePeer.closeFor_none _).symm
  | stop => exact (BasePeer.closeFor_none _).symm

theorem arrival_blocked {d : Duplex} {t : Turn} (hopen : d.tx.isClosed = false)
    (ht : d.Told t) : (d.arrival t).blocked = false := by
  cases t with
  | start handedOver answers =>
      cases handedOver with
      | none => rfl
      | some data =>
          unfold arrival
          dsimp only
          split
          · rfl
          · rfl
  | finishWaitRx waitEc arrived receiveEc answers =>
      unfold arrival
      dsimp only
      by_cases hreading : d.rx.reading = true
      · rw [if_pos hreading]
        by_cases hwait : waitEc ≠ .success
        · rw [if_pos hwait]
        · rw [if_neg hwait]
          exact received_blocked (ht hopen hreading (not_not.mp hwait))
      · rw [if_neg hreading]
  | write buffers doShutdownAfter outcome => rfl
  | finishWaitTx waitEc outcome => rfl
  | stop => rfl

/-! ## Turns -/

/-- The end of a turn on the receive path: `close` for the cause, if any, and
another wait. -/
theorem calls_closeFor {d : Duplex} {isSeen : Event → Bool} {answers : Nat → Answer}
    {events : List Event} {r : Peer × List Event} (cause : Option Cause)
    (hrx : d.rx.isClosed = d.tx.isClosed) (hr : r.1.Sound)
    (hcalls : d.tx.calls isSeen answers events = some r)
    (hkeep : d.tx.isClosed = true → r.1.isClosed = true) {blocked : Bool}
    (hblocked : d.tx.isClosed = false → blocked = false) :
    ∃ q, (d.tx.calls isSeen answers (events ++ d.rx.closeFor cause)).map Prod.fst = some q ∧
      q.Sound ∧ ∀ waits,
        faithful.read r.1.watch (Peer.note .read blocked cause r.1 q waits) = some q.watch := by
  unfold BasePeer.closeFor
  rw [hrx]
  by_cases hclosed : d.tx.isClosed = true
  · have hdown : r.1.isClosed = true := hkeep hclosed
    rw [if_pos hclosed, List.append_nil, hcalls]
    refine ⟨r.1, rfl, hr, fun waits => ?_⟩
    rw [Peer.watch_of_closed hdown]
    exact Peer.read_note_of_closed hdown _ _ _ _
  · rw [if_neg hclosed, hblocked (Bool.eq_false_of_not_eq_true hclosed)]
    cases cause with
    | none =>
        rw [Option.toList_none, List.map_nil, List.append_nil, hcalls]
        refine ⟨r.1, rfl, hr, fun waits => ?_⟩
        cases hdown : r.1.isClosed with
        | true =>
            rw [Peer.watch_of_closed hdown]
            exact Peer.read_note_of_closed hdown _ _ _ _
        | false =>
            have hcause : r.1.closing.map Closing.ec = (none : Option Cause).map Cause.code := by
              rw [Peer.closing_of_open hdown]
              rfl
            have hread : faithful.read .up (Peer.note .read false none r.1 r.1 waits) =
                some r.1.watch :=
              Peer.read_note_of_open hdown .read waits hcause nofun
            rw [Peer.watch_of_open hdown] at hread ⊢
            exact hread
    | some c =>
        refine ⟨_, Peer.calls_append_closed events c.code hcalls, hr.close c.code, ?_⟩
        intro waits
        cases hdown : r.1.isClosed with
        | true =>
            rw [Peer.close_of_closed hdown, Peer.watch_of_closed hdown]
            exact Peer.read_note_of_closed hdown _ _ _ _
        | false =>
            rw [Peer.watch_of_open hdown]
            apply Peer.read_note_of_open hdown .read waits
            · rw [Peer.close_of_open hdown]
              rfl
            · exact nofun

/-- A turn on the receive path. -/
theorem read_receiveNote (codec : JsonCodec) {d : Duplex} {t : Turn} (hd : d.tx.Sound)
    (hrx : d.rx.isClosed = d.tx.isClosed) (ht : d.tx.isClosed = true ∨ d.Told t) :
    ∃ r, (d.tx.calls (d.isSeen codec) t.answers (d.received t.input).2).map
        (fun r => (join (d.received t.input).1 r.1, r.2)) = some r ∧ r.1.tx.Sound ∧
      faithful.read d.tx.watch (d.receiveNote codec t r.1) = some r.1.tx.watch := by
  obtain ⟨r, hcalls, hr, hkeep, hread⟩ := Peer.read_callsNote (d.isSeen codec) (d.arrival t).handed
    (d.arrival_happening t) t.answers hd
  have hblocked (hopen : d.tx.isClosed = false) : (d.arrival t).blocked = false := by
    apply arrival_blocked hopen
    apply ht.resolve_left
    rw [hopen]
    exact Bool.false_ne_true
  obtain ⟨q, hq, hsound, hend⟩ := calls_closeFor (d.arrival t).cause hrx hr hcalls hkeep
    hblocked
  rw [received_events d t hrx ht]
  obtain ⟨r', hr', rfl⟩ := Option.map_eq_some_iff.mp hq
  refine ⟨_, by rw [hr', Option.map_some], hsound, ?_⟩
  unfold receiveNote
  dsimp only [join]
  rw [hcalls]
  exact Monitor.read_append_of hread (hend _)

/-- A receive that the peer does not understand. -/
theorem read_of_untold (codec : JsonCodec) {d : Duplex} {t : Turn}
    (hrx : d.rx.isClosed = d.tx.isClosed) (ht : ¬ d.Told t) :
    ∃ r, d.observe codec t = some r ∧ faithful.read d.tx.watch r.2 = none := by
  cases t with
  | start handedOver answers => exact absurd trivial ht
  | write buffers doShutdownAfter outcome => exact absurd trivial ht
  | finishWaitTx waitEc outcome => exact absurd trivial ht
  | stop => exact absurd trivial ht
  | finishWaitRx waitEc arrived receiveEc answers =>
      unfold Told at ht
      dsimp only at ht
      simp only [Classical.not_imp] at ht
      obtain ⟨hopen, hreading, rfl, hstored, hec⟩ := ht
      have hevents : (d.received (.read .success arrived receiveEc answers)).2 =
          [.closed .success] := by
        unfold received
        dsimp only
        rw [if_pos hreading, hstored, finishWaitRx_of_empty, BasePeer.closeFor, hrx, hopen]
        rfl
      have harrival : d.arrival (.finishWaitRx .success arrived receiveEc answers) =
          .received d.rx [] (d.tx.socket.receive d.rx.room arrived receiveEc).2 := by
        unfold arrival
        dsimp only
        rw [if_pos hreading, if_neg fun h => h rfl, hstored]
      have hclosure : d.tx.closure
          (d.tx.close { ec := .success, afterShutdownFrame := false }) = [.closed .success] := by
        rw [Peer.close_of_open hopen, Peer.closure, Peer.closing_of_open hopen]
      have hcalls : d.tx.calls (d.isSeen codec) answers [.closed .success] =
          some (d.tx.close { ec := .success, afterShutdownFrame := false },
            [.closed .success]) := by
        show some (_, [] ++ d.tx.closure _ ++ []) = _
        rw [hclosure]
        rfl
      refine ⟨_, by
        unfold observe Turn.input step
        dsimp only
        rw [hevents, hcalls, Option.map_some, Option.map_some], ?_⟩
      rw [Peer.watch_of_open hopen]
      unfold notes receiveNote
      dsimp only [join]
      rcases received_of_untold (p := d.rx) hec with hreceived | hreceived
      · rw [harrival, hreceived]
        show faithful.read .up ([] ++ ([.wouldBlock .read] ++ [] ++
          (d.tx.closure _).filterMap Event.happening ++ _)) = none
        rw [hclosure]
        rfl
      · rw [harrival, hreceived]
        show faithful.read .up ([] ++ ([] ++ [.cause (.error _)] ++
          (d.tx.closure _).filterMap Event.happening ++ _)) = none
        rw [hclosure]
        have hother : faithful
            (.closing (Cause.error (d.tx.socket.receive d.rx.room arrived receiveEc).2).code)
            (.closed .success) = none := if_neg fun h => hec (.inl h.symm)
        show (faithful (.closing _) (.closed .success)).bind _ = none
        rw [hother]
        rfl

/-- Both paths agree on `_is_closed` after a step. -/
theorem step_isClosed (codec : JsonCodec) {d : Duplex} {input : Input}
    {r : Duplex × List Event} (h : d.step codec input = some r) :
    r.1.rx.isClosed = r.1.tx.isClosed := by
  unfold step at h
  split at h
  · obtain ⟨x, -, rfl⟩ := Option.map_eq_some_iff.mp h
    rfl
  · obtain ⟨x, -, rfl⟩ := Option.map_eq_some_iff.mp h
    rfl
  · obtain ⟨x, -, rfl⟩ := Option.map_eq_some_iff.mp h
    rfl

/-- What holds of both paths between two turns. -/
structure Joined (d : Duplex) : Prop where
  sound : d.tx.Sound
  isClosed : d.rx.isClosed = d.tx.isClosed

theorem joined_new (useTcpProtocol : Bool) (rxBufferSize txBufferSize : Nat) :
    (new useTcpProtocol rxBufferSize txBufferSize).Joined where
  sound := ⟨[], Peer.inv_new useTcpProtocol txBufferSize⟩
  isClosed := rfl

/-- **One turn.** -/
theorem observe_spec (codec : JsonCodec) (d : Duplex) (t : Turn) (hd : d.Joined) :
    ∃ r, d.observe codec t = some r ∧ r.1.Joined ∧
      (d.Told t → faithful.read d.tx.watch r.2 = some r.1.tx.watch) ∧
      (¬ d.Told t → faithful.read d.tx.watch r.2 = none) := by
  obtain ⟨hsound, hrx⟩ := hd
  obtain ⟨r, hstep, hr, -⟩ := step_silent codec d t.input hsound
  have hobserve : d.observe codec t = some (r.1, d.notes codec t r.1) := by
    rw [observe, hstep, Option.map_some]
  have hjoined : r.1.rx.isClosed = r.1.tx.isClosed := step_isClosed codec hstep
  refine ⟨_, hobserve, ⟨hr, hjoined⟩, ?_, ?_⟩
  · intro ht
    cases t with
    | start handedOver answers =>
        obtain ⟨r', hr', -, hread⟩ := read_receiveNote codec hsound hrx (.inr ht)
        have heq : r' = r := Option.some.inj (hr'.symm.trans hstep)
        rw [heq] at hread
        exact hread
    | finishWaitRx waitEc arrived receiveEc answers =>
        obtain ⟨r', hr', -, hread⟩ := read_receiveNote codec hsound hrx (.inr ht)
        have heq : r' = r := Option.some.inj (hr'.symm.trans hstep)
        rw [heq] at hread
        exact hread
    | write buffers doShutdownAfter outcome =>
        obtain ⟨h, hh, rfl⟩ := Option.map_eq_some_iff.mp hstep
        obtain ⟨p', hwrite, rfl⟩ := Option.map_eq_some_iff.mp hh
        exact Peer.read_writeNote hsound hwrite
    | finishWaitTx waitEc outcome =>
        obtain ⟨h, hh, rfl⟩ := Option.map_eq_some_iff.mp hstep
        obtain ⟨p', hfinish, rfl⟩ := Option.map_eq_some_iff.mp hh
        exact Peer.read_finishNote hsound hfinish
    | stop =>
        rw [← Option.some.inj hstep]
        rfl
  · intro ht
    obtain ⟨r', hr', hread⟩ := read_of_untold codec hrx ht
    rw [hobserve] at hr'
    rw [Option.some.inj hr']
    exact hread

/-- **A peer is closed for the first cause there is, and told so, exactly if its
receives tell of the end of the stream.**  In every run of a new peer, over
either transport: `on_closed` is raised right after the first error, end of the
stream, frame that cannot be parsed, full buffer or CLOSE frame that is through,
with the code of this cause, and only then; and a read or write that would block
is followed by another wait, unless the rest of the frame does not fit the
buffer; if and only if every receive of an open peer that stores no byte reports
the end of the stream. -/
theorem faithful_iff_told (codec : JsonCodec) (useTcpProtocol : Bool)
    (rxBufferSize txBufferSize : Nat) (turns : List Turn) :
    ∃ r, Trace.run (observe codec) (new useTcpProtocol rxBufferSize txBufferSize) turns = some r ∧
      (faithful.read .up r.2 = some r.1.tx.watch ↔
        MeetsOpt (fun d t => (d.observe codec t).map Prod.fst) Told
          (new useTcpProtocol rxBufferSize txBufferSize) turns) := by
  have hnew := joined_new useTcpProtocol rxBufferSize txBufferSize
  obtain ⟨r, hrun, hiff⟩ := Trace.read_run_iff (fun d : Duplex => d.tx.watch)
    (observe_spec codec) turns _ hnew
  have htold (d : Duplex) (t : Turn) (hd : d.Joined) (ht : d.Told t) :
      ∃ r, d.observe codec t = some r ∧ r.1.Joined ∧
        ∀ _ : Unit, faithful.read d.tx.watch r.2 = some r.1.tx.watch := by
    obtain ⟨r, hobserve, hr, hread, -⟩ := observe_spec codec d t hd
    exact ⟨r, hobserve, hr, fun _ => hread ht⟩
  refine ⟨r, hrun, ?_⟩
  constructor
  · intro hread
    exact hiff.mp (Option.isSome_iff_exists.mpr ⟨_, hread⟩)
  · intro hmeets
    obtain ⟨r', hrun', -, hread⟩ := Trace.read_run_of_meets (m := fun _ : Unit => faithful)
      (fun d _ => d.tx.watch) htold turns _ hnew hmeets
    have heq : r' = r := Option.some.inj (hrun'.symm.trans hrun)
    rw [heq] at hread
    exact hread ()

/-- Not every run is faithful: a receive that would block closes the peer, and
so does one that fails, both times as if the stream had ended. -/
theorem not_ready_closes :
    (Trace.run (observe noMetadata) (new false 16 16)
        [.start none fun _ => ⟨.wouldBlock, []⟩,
          .finishWaitRx .success [] .wouldBlock fun _ => ⟨.wouldBlock, []⟩]).map Prod.snd =
      some [.waiting .read, .wouldBlock .read, .closed .success] ∧
    faithful.read .up [.waiting .read, .wouldBlock .read, .closed .success] = none ∧
    (Trace.run (observe noMetadata) (new false 16 16)
        [.start none fun _ => ⟨.wouldBlock, []⟩,
          .finishWaitRx .success [] (.other 104) fun _ => ⟨.wouldBlock, []⟩]).map Prod.snd =
      some [.waiting .read, .cause (.error (.other 104)), .closed .success] ∧
    faithful.read .up [.waiting .read, .cause (.error (.other 104)), .closed .success] = none := by
  decide +kernel

end Duplex

end WsStreaming.Ports
