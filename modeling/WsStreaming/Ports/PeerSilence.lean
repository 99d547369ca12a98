import WsStreaming.Verified.Trace
import WsStreaming.Ports.MetadataWire
import WsStreaming.Ports.PeerTransmit

/-!
# What a closed peer still does

The receive path of `base_peer` and the transmit path of `peer` together.  A
reply to a frame is written at once, and so is what a slot of `on_data_received`
or `on_metadata_received` sends; each of these can close the peer before the
call of the receive path returns.  Nothing of that reaches the loop over the
buffer, which goes on to the next frame.  So the calls are those of the receive
path alone, and the transmit path decides between which of them `on_closed` is
raised.

## Main results

* `Peer.write_staysOpen` — when a frame that is written leaves the peer open.
* `Duplex.silent_iff_last` — a closed peer is silent in exactly those runs in
  which no frame that closes the peer has another one with an effect behind it
  in the receive buffer.
-/

namespace WsStreaming.Ports

open WsStreaming.Verified.Wire
open WsStreaming.Verified.Run (MeetsOpt)
open WsStreaming.Verified
open WsStreaming.Verified.Trace (Monitor)

/-- What a slot does to the peer whose signal it is called for. -/
inductive SlotAction where
  | send (buffers : List Bytes) (outcome : SendOutcome)
  | stop
deriving DecidableEq, Repr

/-- How the outside answers a call of the receive path: what the socket does
with a reply, and what the slots of a signal do. -/
structure Answer where
  outcome : SendOutcome
  slots : List SlotAction
deriving DecidableEq, Repr

/-- `_socket.receive` with room for some bytes: the bytes stored and the error
code.  A closed socket stores nothing. -/
def Socket.receive (s : Socket) (room : Nat) (arrived : Bytes) (ec : ErrorCode) :
    Bytes × ErrorCode :=
  if s.isOpen then (arrived.take room, ec) else ([], badDescriptor)

/-- Whether a call of the receive path is seen outside: it raises
`on_data_received` or `on_metadata_received`, or it replies. -/
def Event.seen (codec : JsonCodec) (useTcpProtocol : Bool) : Event → Bool
  | .dataPacket _ _ => true
  | .metadataPacket signo payload =>
      (processMetadataPacket codec useTcpProtocol signo payload).isSome
  | .controlFrame _ _ _ => true
  | .closed _ => false

namespace Peer

/-- What a slot does. -/
def slot (p : Peer) : SlotAction → Option Peer
  | .send buffers outcome => p.write buffers false outcome
  | .stop => some p.stop

/-- What the slots of a signal do, one after another. -/
def slots (p : Peer) (actions : List SlotAction) : Option Peer := actions.foldlM slot p

/-- `on_closed`, if the peer was closed in between. -/
def closure (p p' : Peer) : List Event :=
  match p.closing, p'.closing with
  | none, some c => [.closed c.ec]
  | _, _ => []

/-- What a call of the receive path does to the peer: a control frame is
written, the slots of a signal are called, `close` is called. -/
def call (isSeen : Event → Bool) (p : Peer) (answer : Answer) : Event → Option Peer
  | .controlFrame opcode payload shutdownAfter =>
      p.write (websocketFrame opcode [payload]) shutdownAfter answer.outcome
  | .closed ec => some (p.close { ec := ec, afterShutdownFrame := false })
  | .dataPacket _ _ => p.slots answer.slots
  | .metadataPacket signo payload =>
      if isSeen (.metadataPacket signo payload) then p.slots answer.slots else some p

/-- The calls of the receive path in order, and what is raised and replied. -/
def calls (isSeen : Event → Bool) (p : Peer) (answers : Nat → Answer) :
    List Event → Option (Peer × List Event)
  | [] => some (p, [])
  | e :: es =>
      (p.call isSeen (answers 0) e).bind fun p' =>
        (calls isSeen p' (fun n => answers (n + 1)) es).map fun r =>
          (r.1, (if isSeen e then [e] else []) ++ closure p p' ++ r.2)

/-- The bytes that still fit the transmit buffer. -/
def room (p : Peer) : Nat := p.txBuffer.maxBlocks * p.txBuffer.blockSize - p.txBuffer.tail

/-- A frame that is written leaves an open peer open: behind buffered data it
fits the buffer; otherwise the socket is open and does not fail, takes all of
the frame only if the peer is not to close after it, and leaves a rest that
fits the buffer. -/
def StaysOpen (p : Peer) (buffers : List Bytes) (doShutdownAfter : Bool)
    (outcome : SendOutcome) : Prop :=
  let size := buffers.flatten.length
  if p.waitingTx then size ≤ p.room
  else
    p.socket.isOpen = true ∧
    match outcome with
    | .sent n => if size ≤ n then doShutdownAfter = false else size - n ≤ p.room
    | .wouldBlock => if size = 0 then doShutdownAfter = false else size ≤ p.room
    | .failed ec =>
        ec.genuine = false ∧ if size = 0 then doShutdownAfter = false else size ≤ p.room

/-- What the slots of a signal do leaves an open peer open. -/
def SlotsStayOpen (p : Peer) : List SlotAction → Prop
  | [] => True
  | .send buffers outcome :: actions =>
      p.StaysOpen buffers false outcome ∧
        ∀ p', p.write buffers false outcome = some p' → p'.SlotsStayOpen actions
  | .stop :: actions => p.stop.SlotsStayOpen actions

/-- A call of the receive path leaves an open peer open. -/
def CallStaysOpen (isSeen : Event → Bool) (p : Peer) (answer : Answer) : Event → Prop
  | .controlFrame opcode payload shutdownAfter =>
      p.StaysOpen (websocketFrame opcode [payload]) shutdownAfter answer.outcome
  | .closed _ => False
  | .dataPacket _ _ => p.SlotsStayOpen answer.slots
  | .metadataPacket signo payload =>
      isSeen (.metadataPacket signo payload) = true → p.SlotsStayOpen answer.slots

/-- No call of the receive path closes the peer while another one that is seen
outside is still to come. -/
def ClosesLast (isSeen : Event → Bool) (p : Peer) (answers : Nat → Answer) : List Event → Prop
  | [] => True
  | e :: es =>
      es.any isSeen = true →
        p.CallStaysOpen isSeen (answers 0) e ∧
          ∀ p', p.call isSeen (answers 0) e = some p' →
            p'.ClosesLast isSeen (fun n => answers (n + 1)) es

end Peer

/-- Both paths of a `peer`. -/
structure Duplex where
  rx : BasePeer
  tx : Peer
deriving DecidableEq, Repr

namespace Duplex

/-- A new peer. -/
def new (useTcpProtocol : Bool) (rxBufferSize txBufferSize : Nat) : Duplex :=
  { rx := .new useTcpProtocol rxBufferSize
    tx := .new useTcpProtocol txBufferSize }

/-- What can happen to a peer, with how the outside answers the calls of the
receive path in order. -/
inductive Input where
  /-- `run()` or the handler that `run(data, size)` posts. -/
  | start (handedOver : Option Bytes) (answers : Nat → Answer)
  /-- The read that was started completes. -/
  | read (waitEc : ErrorCode) (arrived : Bytes) (receiveEc : ErrorCode)
      (answers : Nat → Answer)
  /-- Something that has nothing to do with the receive path. -/
  | act (action : Peer.Action)

/-- The calls that the receive path makes. -/
def received (d : Duplex) : Input → BasePeer × List Event
  | .start handedOver _ => d.rx.start handedOver
  | .read waitEc arrived receiveEc _ =>
      if d.rx.reading then
        let (stored, ec) := d.tx.socket.receive d.rx.room arrived receiveEc
        d.rx.finishWaitRx waitEc stored ec
      else (d.rx, [])
  | .act _ => (d.rx, [])

/-- Whether a call of the receive path is seen outside. -/
def isSeen (codec : JsonCodec) (d : Duplex) : Event → Bool := Event.seen codec d.rx.useTcpProtocol

/-- Both paths with the same `_is_closed`. -/
def join (rx : BasePeer) (tx : Peer) : Duplex :=
  { rx := { rx with isClosed := tx.isClosed }, tx := tx }

/-- One step, with what is raised and replied; `none` if a loop of the transmit
buffer does not end. -/
def step (codec : JsonCodec) (d : Duplex) : Input → Option (Duplex × List Event)
  | .act action =>
      ((Peer.History.mk d.tx []).step action).map fun h =>
        (join d.rx h.peer, d.tx.closure h.peer)
  | .start handedOver answers =>
      let (rx, events) := d.received (.start handedOver answers)
      (d.tx.calls (d.isSeen codec) answers events).map fun r => (join rx r.1, r.2)
  | .read waitEc arrived receiveEc answers =>
      let (rx, events) := d.received (.read waitEc arrived receiveEc answers)
      (d.tx.calls (d.isSeen codec) answers events).map fun r => (join rx r.1, r.2)

/-- After `on_closed` nothing is raised or replied any more; the state is
whether the peer is closed. -/
def silence : Monitor Bool Event
  | false, .closed _ => some true
  | false, _ => some false
  | true, _ => none

/-- Before a step: the calls that the bytes in the receive buffer lead to are
made by an open peer, and none of them closes it while another one that is seen
outside is still to come. -/
def Last (codec : JsonCodec) (d : Duplex) (input : Input) : Prop :=
  let events := (d.received input).2
  match input with
  | .act _ => True
  | .start _ answers | .read _ _ _ answers =>
      (d.tx.isClosed = true → events.any (d.isSeen codec) = false) ∧
        (d.tx.isClosed = false → d.tx.ClosesLast (d.isSeen codec) answers events)

end Duplex

/-! ## Frames that are written -/

namespace Peer

/-- A peer whose transmit buffer is in order. -/
def Sound (p : Peer) : Prop := ∃ written, Inv ⟨p, written⟩

section Write

variable {p p' : Peer}

theorem Sound.write (h : p.Sound) (buffers : List Bytes) (doShutdownAfter : Bool)
    (outcome : SendOutcome) :
    ∃ p', p.write buffers doShutdownAfter outcome = some p' ∧ p'.Sound := by
  obtain ⟨written, hinv⟩ := h
  obtain ⟨p', hwrite, hinv'⟩ := hinv.write buffers doShutdownAfter outcome
  exact ⟨p', hwrite, _, hinv'⟩

theorem Sound.stop (h : p.Sound) : p.stop.Sound := by
  obtain ⟨written, hinv⟩ := h
  exact ⟨written, hinv.stop⟩

theorem Sound.close (h : p.Sound) (ec : ErrorCode) :
    (p.close { ec := ec, afterShutdownFrame := false }).Sound := by
  obtain ⟨written, hinv⟩ := h
  exact ⟨written, hinv.close ec⟩

/-- What is queued behind a rest that fits leaves the peer open, another rest
closes it. -/
theorem enqueue_staysOpen (hbuf : p.txBuffer.Inv) (hopen : p.isClosed = false)
    {buffers : List Bytes} {size : Nat} (hsize : size = buffers.flatten.length)
    (doShutdownAfter : Bool) :
    ∃ p', p.enqueue buffers size doShutdownAfter = some p' ∧
      (p'.isClosed = false ↔ size ≤ p.room) := by
  obtain ⟨b, n, hwrite, -, hn, -⟩ := DynamicBuffer.write_spec hbuf buffers
  have hroom : n = min size p.room := by rw [hn, hsize]; rfl
  have hopen' : ({ p with txBuffer := b } : Peer).isClosed = false := hopen
  unfold enqueue
  simp only [hwrite, Option.bind_eq_bind, Option.bind_some]
  by_cases hfull : n < size
  · rw [if_pos hfull, close_of_open hopen']
    refine ⟨_, rfl, fun h => ?_, fun h => ?_⟩
    · cases h
    · omega
  · rw [if_neg hfull]
    refine ⟨_, rfl, fun _ => ?_, fun _ => ?_⟩
    · omega
    · unfold finishEnqueue doWaitTx
      dsimp only
      split
      · split
        · exact hopen
        · exact hopen
      · split
        · exact hopen
        · exact hopen

/-- **When a written frame leaves the peer open.** -/
theorem write_staysOpen (hp : p.Sound) (hopen : p.isClosed = false) {buffers : List Bytes}
    {doShutdownAfter : Bool} {outcome : SendOutcome}
    (hwrite : p.write buffers doShutdownAfter outcome = some p') :
    p'.isClosed = false ↔ p.StaysOpen buffers doShutdownAfter outcome := by
  obtain ⟨written, hinv⟩ := hp
  have hbuf : p.txBuffer.Inv := hinv.buffer
  unfold Peer.write at hwrite
  unfold StaysOpen
  dsimp only at hwrite ⊢
  by_cases hwait : p.waitingTx = true
  · rw [if_pos hwait] at hwrite ⊢
    obtain ⟨q, hq, hiff⟩ := enqueue_staysOpen hbuf hopen rfl doShutdownAfter
    rw [hq] at hwrite
    rw [← Option.some.inj hwrite]
    exact hiff
  · rw [if_neg hwait] at hwrite ⊢
    -- What is left of a frame of which the socket has taken some bytes.
    have hrest (socket : Socket) (n : Nat)
        (hq : ({ p with socket := socket } : Peer).enqueue (suffix buffers n)
          (buffers.flatten.length - n) doShutdownAfter = some p') :
        p'.isClosed = false ↔ buffers.flatten.length - n ≤ p.room := by
      have hsize : buffers.flatten.length - n = (suffix buffers n).flatten.length := by
        rw [flatten_suffix, List.length_drop]
      obtain ⟨q, hq', hiff⟩ := enqueue_staysOpen (p := { p with socket := socket }) hbuf hopen
        hsize doShutdownAfter
      rw [hq] at hq'
      rw [Option.some.inj hq']
      exact hiff
    -- A frame that is through.
    have hthrough (socket : Socket)
        (hq : some (if doShutdownAfter then
          ({ p with socket := socket } : Peer).close { ec := .success, afterShutdownFrame := true }
          else { p with socket := socket }) = some p') :
        p'.isClosed = false ↔ doShutdownAfter = false := by
      rw [← Option.some.inj hq]
      cases doShutdownAfter with
      | true =>
          rw [if_pos rfl, close_of_open (by exact hopen)]
          constructor
          · exact nofun
          · exact nofun
      | false => exact ⟨fun _ => rfl, fun _ => hopen⟩
    -- A genuine error closes the peer.
    have hfailed (socket : Socket) (ec : ErrorCode)
        (hq : some (({ p with socket := socket } : Peer).close
          { ec := ec, afterShutdownFrame := false }) = some p') : p'.isClosed = true := by
      rw [← Option.some.inj hq, close_of_open (by exact hopen)]
      rfl
    -- A socket that takes nothing.
    have hnothing (socket : Socket)
        (hq : (if 0 = buffers.flatten.length then
          some (if doShutdownAfter then
            ({ p with socket := socket } : Peer).close
              { ec := .success, afterShutdownFrame := true }
            else { p with socket := socket })
          else ({ p with socket := socket } : Peer).enqueue (suffix buffers 0)
            (buffers.flatten.length - 0) doShutdownAfter) = some p') :
        p'.isClosed = false ↔
          if buffers.flatten.length = 0 then doShutdownAfter = false
          else buffers.flatten.length ≤ p.room := by
      by_cases hempty : buffers.flatten.length = 0
      · rw [if_pos hempty.symm] at hq
        rw [if_pos hempty]
        exact hthrough _ hq
      · rw [if_neg fun h => hempty h.symm] at hq
        rw [if_neg hempty]
        exact hrest _ 0 hq
    unfold Socket.send at hwrite
    cases hsocket : p.socket.isOpen with
    | false =>
        rw [hsocket, if_neg Bool.false_ne_true] at hwrite
        dsimp only at hwrite
        rw [if_pos (by decide)] at hwrite
        rw [hfailed _ _ hwrite]
        constructor
        · exact nofun
        · exact fun h => nomatch h.1
    | true =>
        rw [hsocket, if_pos rfl] at hwrite
        cases outcome with
        | sent n =>
            dsimp only at hwrite ⊢
            rw [if_neg (by decide)] at hwrite
            by_cases hall : buffers.flatten.length ≤ n
            · have htaken : (buffers.flatten.take n).length = buffers.flatten.length := by
                rw [List.take_of_length_le hall]
              rw [if_pos htaken] at hwrite
              rw [if_pos hall, hthrough _ hwrite, eq_self, true_and]
            · have htaken : (buffers.flatten.take n).length = n := by
                rw [List.length_take]
                omega
              rw [if_neg (by omega)] at hwrite
              rw [if_neg hall, hrest _ _ hwrite, htaken, eq_self, true_and]
        | wouldBlock =>
            dsimp only at hwrite ⊢
            rw [if_neg (by decide)] at hwrite
            rw [hnothing _ hwrite, eq_self, true_and]
        | failed ec =>
            dsimp only at hwrite ⊢
            cases hgenuine : ec.genuine with
            | true =>
                rw [hgenuine, if_pos rfl] at hwrite
                rw [hfailed _ _ hwrite]
                constructor
                · exact nofun
                · exact fun h => nomatch h.2.1
            | false =>
                rw [hgenuine, if_neg Bool.false_ne_true] at hwrite
                rw [hnothing _ hwrite, eq_self, true_and, eq_self, true_and]

/-- A closed peer stays closed. -/
theorem write_of_closed (hp : p.Sound) (hclosed : p.isClosed = true) {buffers : List Bytes}
    {doShutdownAfter : Bool} {outcome : SendOutcome}
    (hwrite : p.write buffers doShutdownAfter outcome = some p') : p'.isClosed = true := by
  obtain ⟨written, hinv⟩ := hp
  unfold Peer.write at hwrite
  dsimp only at hwrite
  by_cases hwait : p.waitingTx = true
  · rw [if_pos hwait] at hwrite
    obtain ⟨q, hq, -, -, hkeep, -⟩ := enqueue_spec hinv.buffer buffers rfl doShutdownAfter
    rw [hwrite] at hq
    rw [Option.some.inj hq, isClosed, (hkeep hclosed).1]
    exact hclosed
  · rw [if_neg hwait] at hwrite
    have hsend : p.socket.send buffers.flatten outcome = (p.socket, 0, badDescriptor) := by
      have hsocket : p.socket.isOpen = false := hinv.socket hclosed
      unfold Socket.send
      rw [hsocket, if_neg Bool.false_ne_true]
    have hgenuine : badDescriptor.genuine = true := rfl
    simp only [hsend, hgenuine, if_true] at hwrite
    rw [← Option.some.inj hwrite, close_of_closed (by exact hclosed)]
    exact hclosed

theorem finishWaitTx_of_closed (hp : p.Sound) (hclosed : p.isClosed = true) {waitEc : ErrorCode}
    {outcome : SendOutcome} (hfinish : p.finishWaitTx waitEc outcome = some p') :
    p'.isClosed = true := by
  obtain ⟨written, hinv⟩ := hp
  have hsocket : p.socket.isOpen = false := hinv.socket hclosed
  have hsend (offered : Bytes) :
      p.socket.send offered outcome = (p.socket, 0, badDescriptor) := by
    unfold Socket.send
    rw [hsocket, if_neg Bool.false_ne_true]
  have hgenuine : badDescriptor.genuine = true := rfl
  unfold finishWaitTx at hfinish
  dsimp only at hfinish
  split at hfinish
  · rw [← Option.some.inj hfinish, close_of_closed (by exact hclosed)]
    exact hclosed
  · simp only [hsend, hgenuine, if_true] at hfinish
    rw [← Option.some.inj hfinish, close_of_closed (by exact hclosed)]
    exact hclosed

/-- What happens apart from the receive path. -/
theorem Sound.act (hp : p.Sound) (action : Action) :
    ∃ p', ((History.mk p []).step action).map History.peer = some p' ∧ p'.Sound ∧
      (p.isClosed = true → p'.isClosed = true) := by
  have hsound := hp
  obtain ⟨written, hinv⟩ := hp
  cases action with
  | write buffers doShutdownAfter outcome =>
      obtain ⟨p', hwrite, hp'⟩ := hsound.write buffers doShutdownAfter outcome
      refine ⟨p', ?_, hp', fun h => write_of_closed hsound h hwrite⟩
      rw [History.step, hwrite]
      rfl
  | finishWaitTx waitEc outcome =>
      obtain ⟨p', hfinish, hinv'⟩ := hinv.finishWaitTx waitEc outcome
      refine ⟨p', ?_, ⟨written, hinv'⟩, fun h => finishWaitTx_of_closed hsound h hfinish⟩
      rw [History.step, hfinish]
      rfl
  | close ec =>
      refine ⟨_, rfl, hsound.close ec, fun h => ?_⟩
      rw [close_of_closed h]
      exact h
  | stop => exact ⟨_, rfl, hsound.stop, id⟩

end Write

/-! ## Calls of the receive path -/

section Calls

variable {p p' : Peer} {isSeen : Event → Bool}

theorem Sound.slots (actions : List SlotAction) :
    ∀ {p : Peer}, p.Sound → ∃ p', p.slots actions = some p' ∧ p'.Sound ∧
      (p.isClosed = true → p'.isClosed = true) ∧
      (p.isClosed = false → (p'.isClosed = false ↔ p.SlotsStayOpen actions)) := by
  induction actions with
  | nil =>
      intro p hp
      exact ⟨p, rfl, hp, id, fun hopen => ⟨fun _ => trivial, fun _ => hopen⟩⟩
  | cons action actions ih =>
      intro p hp
      cases action with
      | send buffers outcome =>
          obtain ⟨q, hwrite, hq⟩ := hp.write buffers false outcome
          obtain ⟨p', hslots, hp', hclosed, hopen⟩ := ih hq
          refine ⟨p', ?_, hp', ?_, ?_⟩
          · rw [Peer.slots, List.foldlM_cons, slot, hwrite]
            exact hslots
          · exact fun h => hclosed (write_of_closed hp h hwrite)
          · intro h
            have hstays := write_staysOpen hp h hwrite
            unfold SlotsStayOpen
            cases hqc : q.isClosed with
            | true =>
                rw [hclosed hqc, ← hstays, hqc]
                simp
            | false =>
                rw [hopen hqc, ← hstays, hqc]
                simp [hwrite]
      | stop =>
          obtain ⟨p', hslots, hp', hclosed, hopen⟩ := ih hp.stop
          refine ⟨p', ?_, hp', hclosed, hopen⟩
          rw [Peer.slots, List.foldlM_cons, slot]
          exact hslots

/-- **One call of the receive path.** -/
theorem Sound.call (hp : p.Sound) (isSeen : Event → Bool) (answer : Answer) (e : Event) :
    ∃ p', p.call isSeen answer e = some p' ∧ p'.Sound ∧
      (p.isClosed = true → p'.isClosed = true) ∧
      (p.isClosed = false → (p'.isClosed = false ↔ p.CallStaysOpen isSeen answer e)) := by
  cases e with
  | dataPacket signo payload => exact Sound.slots answer.slots hp
  | controlFrame opcode payload shutdownAfter =>
      obtain ⟨p', hwrite, hp'⟩ := hp.write (websocketFrame opcode [payload]) shutdownAfter
        answer.outcome
      exact ⟨p', hwrite, hp', fun h => write_of_closed hp h hwrite,
        fun h => write_staysOpen hp h hwrite⟩
  | closed ec =>
      refine ⟨_, rfl, hp.close ec, ?_, ?_⟩
      · intro h
        rw [close_of_closed h]
        exact h
      · intro h
        rw [close_of_open h]
        constructor
        · exact nofun
        · exact nofun
  | metadataPacket signo payload =>
      unfold Peer.call CallStaysOpen
      dsimp only
      cases isSeen (.metadataPacket signo payload) with
      | true =>
          rw [if_pos rfl]
          simp only [forall_const]
          exact Sound.slots answer.slots hp
      | false =>
          rw [if_neg Bool.false_ne_true]
          refine ⟨p, rfl, hp, id, fun hopen => ⟨?_, fun _ => hopen⟩⟩
          exact fun _ h => nomatch h

/-- Where nothing is seen outside, nothing is asked for. -/
theorem closesLast_of_unseen (p : Peer) (answers : Nat → Answer) {events : List Event}
    (h : events.any isSeen = false) : p.ClosesLast isSeen answers events := by
  cases events with
  | nil => trivial
  | cons e es =>
      rw [List.any_cons, Bool.or_eq_false_iff] at h
      intro hseen
      rw [h.2] at hseen
      cases hseen

theorem closure_of_closed (h : p.isClosed = true) : p.closure p' = [] := by
  obtain ⟨c, hc⟩ := Option.isSome_iff_exists.mp h
  rw [closure, hc]

theorem closure_of_open (h : p'.isClosed = false) : p.closure p' = [] := by
  have hnone : p'.closing = none := by
    rw [← Option.isNone_iff_eq_none, ← Option.not_isSome, ← isClosed, h]
    rfl
  rw [closure, hnone]
  cases p.closing <;> rfl

theorem closure_of_closing (h : p.isClosed = false) (h' : p'.isClosed = true) :
    ∃ ec, p.closure p' = [.closed ec] := by
  have hnone : p.closing = none := by
    rw [← Option.isNone_iff_eq_none, ← Option.not_isSome, ← isClosed, h]
    rfl
  obtain ⟨c, hc⟩ := Option.isSome_iff_exists.mp h'
  exact ⟨c.ec, by rw [closure, hnone, hc]⟩

end Calls

end Peer

/-! ## Steps -/

namespace Duplex

open Peer (Sound)

section Step

variable (isSeen : Event → Bool)

/-- What an event that is seen does to the monitor. -/
private theorem read_itself (e : Event) (hclosed : ∀ ec, e = .closed ec → isSeen e = false) :
    silence.read false (if isSeen e then [e] else []) = some false := by
  cases hseen : isSeen e with
  | false => rfl
  | true =>
      cases e with
      | closed ec => exact absurd hseen (by rw [hclosed ec rfl]; exact Bool.false_ne_true)
      | dataPacket signo payload => rfl
      | metadataPacket signo payload => rfl
      | controlFrame opcode payload shutdownAfter => rfl

/-- The calls on a closed peer. -/
theorem read_calls_closed (events : List Event) :
    ∀ {p : Peer} (answers : Nat → Answer), p.Sound → p.isClosed = true →
      ∃ p', p.calls isSeen answers events = some (p', events.filter isSeen) ∧ p'.Sound ∧
        p'.isClosed = true := by
  induction events with
  | nil => exact fun answers hp hclosed => ⟨_, rfl, hp, hclosed⟩
  | cons e es ih =>
      intro p answers hp hclosed
      obtain ⟨q, hcall, hq, hkeep, -⟩ := hp.call isSeen (answers 0) e
      obtain ⟨p', hcalls, hp', hclosed'⟩ := ih (fun n => answers (n + 1)) hq (hkeep hclosed)
      refine ⟨p', ?_, hp', hclosed'⟩
      rw [Peer.calls, hcall, Option.bind_some, hcalls, Option.map_some,
        Peer.closure_of_closed hclosed, List.append_nil, List.filter_cons]
      cases isSeen e <;> rfl

theorem read_filter_seen (events : List Event) :
    silence.read true (events.filter isSeen) =
      if events.any isSeen then none else some true := by
  cases hany : events.any isSeen with
  | false =>
      have hnil : events.filter isSeen = [] := by
        rw [List.filter_eq_nil_iff]
        intro e he hseen
        exact absurd hseen (by rw [List.any_eq_false] at hany; exact hany e he)
      rw [hnil]
      rfl
  | true =>
      obtain ⟨e, he, hseen⟩ := List.any_eq_true.mp hany
      have hmem : e ∈ events.filter isSeen := List.mem_filter.mpr ⟨he, hseen⟩
      cases hfilter : events.filter isSeen with
      | nil => rw [hfilter] at hmem; cases hmem
      | cons e' rest => rfl

/-- The calls on an open peer: the monitor reads what is raised and replied
exactly if no call closes the peer too early. -/
theorem read_calls_open (hclosing : ∀ ec, isSeen (.closed ec) = false) (events : List Event) :
    ∀ {p : Peer} (answers : Nat → Answer), p.Sound → p.isClosed = false →
      ∃ r, p.calls isSeen answers events = some r ∧ r.1.Sound ∧
        (p.ClosesLast isSeen answers events → silence.read false r.2 = some r.1.isClosed) ∧
        (¬ p.ClosesLast isSeen answers events → silence.read false r.2 = none) := by
  induction events with
  | nil =>
      intro p answers hp hopen
      refine ⟨(p, []), rfl, hp, fun _ => ?_, fun h => absurd trivial h⟩
      rw [hopen]
      rfl
  | cons e es ih =>
      intro p answers hp hopen
      obtain ⟨q, hcall, hq, -, hstays⟩ := hp.call isSeen (answers 0) e
      have hstays := hstays hopen
      have hitself := read_itself isSeen e (by rintro ec rfl; exact hclosing ec)
      cases hqc : q.isClosed with
      | false =>
          -- The peer is still open, and what follows decides.
          obtain ⟨r, hcalls, hr, hread, hstuck⟩ := ih (fun n => answers (n + 1)) hq hqc
          have hlast : p.ClosesLast isSeen answers (e :: es) ↔
              q.ClosesLast isSeen (fun n => answers (n + 1)) es := by
            constructor
            · intro h
              cases hany : es.any isSeen with
              | true => exact (h hany).2 q hcall
              | false => exact Peer.closesLast_of_unseen q _ hany
            · intro h _
              refine ⟨hstays.mp hqc, ?_⟩
              intro q' hq'
              rw [hcall] at hq'
              rw [← Option.some.inj hq']
              exact h
          refine ⟨(r.1, (if isSeen e then [e] else []) ++ p.closure q ++ r.2), ?_, hr, ?_, ?_⟩
          · rw [Peer.calls, hcall, Option.bind_some, hcalls, Option.map_some]
          · intro h
            dsimp only
            rw [Peer.closure_of_open hqc, List.append_nil, Monitor.read_append, hitself]
            exact hread (hlast.mp h)
          · intro h
            dsimp only
            rw [Peer.closure_of_open hqc, List.append_nil, Monitor.read_append, hitself]
            exact hstuck fun hq => h (hlast.mpr hq)
      | true =>
          -- The peer is closed, and nothing more may be seen.
          obtain ⟨p', hcalls, hp', hclosed'⟩ :=
            read_calls_closed isSeen es (fun n => answers (n + 1)) hq hqc
          obtain ⟨ec, hclosure⟩ := Peer.closure_of_closing hopen hqc
          have hlast : p.ClosesLast isSeen answers (e :: es) ↔ es.any isSeen = false := by
            constructor
            · intro h
              cases hany : es.any isSeen with
              | false => rfl
              | true =>
                  have hstay := hstays.mpr (h hany).1
                  rw [hqc] at hstay
                  cases hstay
            · intro hany hseen
              rw [hany] at hseen
              cases hseen
          have hread : silence.read false ((if isSeen e then [e] else []) ++ p.closure q ++
              es.filter isSeen) = if es.any isSeen then none else some true := by
            rw [hclosure, List.append_assoc, Monitor.read_append, hitself]
            exact read_filter_seen isSeen es
          refine ⟨_, by rw [Peer.calls, hcall, Option.bind_some, hcalls, Option.map_some], hp',
            ?_, ?_⟩
          · intro h
            dsimp only
            rw [hread, hlast.mp h, hclosed']
            rfl
          · intro h
            dsimp only
            rw [hread, Bool.eq_true_of_not_eq_false fun hany => h (hlast.mpr hany)]
            rfl

end Step

/-- **One step.** -/
theorem step_silent (codec : JsonCodec) (d : Duplex) (input : Input) (hd : d.tx.Sound) :
    ∃ r, d.step codec input = some r ∧ r.1.tx.Sound ∧
      (d.Last codec input → silence.read d.tx.isClosed r.2 = some r.1.tx.isClosed) ∧
      (¬ d.Last codec input → silence.read d.tx.isClosed r.2 = none) := by
  -- The steps of the receive path differ in the calls only.
  have hcalls (rx : BasePeer) (events : List Event) (answers : Nat → Answer) :
      ∃ r, (d.tx.calls (d.isSeen codec) answers events).map
          (fun r => (join rx r.1, r.2)) = some r ∧ r.1.tx.Sound ∧
        ((d.tx.isClosed = true → events.any (d.isSeen codec) = false) ∧
          (d.tx.isClosed = false → d.tx.ClosesLast (d.isSeen codec) answers events) →
          silence.read d.tx.isClosed r.2 = some r.1.tx.isClosed) ∧
        (¬ ((d.tx.isClosed = true → events.any (d.isSeen codec) = false) ∧
          (d.tx.isClosed = false → d.tx.ClosesLast (d.isSeen codec) answers events)) →
          silence.read d.tx.isClosed r.2 = none) := by
    cases hclosed : d.tx.isClosed with
    | true =>
        obtain ⟨p', heq, hp', hclosed'⟩ :=
          read_calls_closed (d.isSeen codec) events answers hd hclosed
        refine ⟨_, by rw [heq, Option.map_some], hp', ?_, ?_⟩
        · intro h
          dsimp only [join]
          rw [read_filter_seen, h.1 rfl, hclosed']
          rfl
        · intro h
          dsimp only [join]
          rw [read_filter_seen]
          cases hany : events.any (d.isSeen codec) with
          | true => rfl
          | false => exact absurd ⟨fun _ => hany, nofun⟩ h
    | false =>
        obtain ⟨r, heq, hr, hread, hstuck⟩ :=
          read_calls_open (d.isSeen codec) (fun _ => rfl) events answers hd hclosed
        refine ⟨_, by rw [heq, Option.map_some], hr, ?_, ?_⟩
        · exact fun h => hread (h.2 rfl)
        · exact fun h => hstuck fun hlast => h ⟨nofun, fun _ => hlast⟩
  cases input with
  | start handedOver answers => exact hcalls _ _ answers
  | read waitEc arrived receiveEc answers => exact hcalls _ _ answers
  | act action =>
      obtain ⟨p', hact, hp', hkeep⟩ := Sound.act hd action
      have hstep : d.step codec (.act action) = some (join d.rx p', d.tx.closure p') := by
        obtain ⟨h, hh, rfl⟩ := Option.map_eq_some_iff.mp hact
        unfold step
        dsimp only
        rw [hh, Option.map_some]
      refine ⟨_, hstep, hp', fun _ => ?_, fun h => absurd trivial h⟩
      dsimp only [join]
      cases hclosed : d.tx.isClosed with
      | true =>
          rw [Peer.closure_of_closed hclosed, hkeep hclosed]
          rfl
      | false =>
          cases hclosed' : p'.isClosed with
          | false =>
              rw [Peer.closure_of_open hclosed']
              rfl
          | true =>
              obtain ⟨ec, hclosure⟩ := Peer.closure_of_closing hclosed hclosed'
              rw [hclosure]
              rfl

/-- **A closed peer is silent exactly if what closes it comes last.**  In every
run of a new peer, over either transport: after `on_closed` no data packet or
metadata message is raised, no PONG or CLOSE is replied and `on_closed` is not
raised again, if and only if in every step no frame or packet whose handling
closes the peer has another one behind it in the receive buffer that is seen
outside, and data that was handed over is processed by an open peer. -/
theorem silent_iff_last (codec : JsonCodec) (useTcpProtocol : Bool)
    (rxBufferSize txBufferSize : Nat) (inputs : List Input) :
    ∃ r, Trace.run (step codec) (new useTcpProtocol rxBufferSize txBufferSize) inputs = some r ∧
      ((silence.read false r.2).isSome = true ↔
        MeetsOpt (fun d input => (d.step codec input).map Prod.fst) (Last codec)
          (new useTcpProtocol rxBufferSize txBufferSize) inputs) := by
  have hnew : (new useTcpProtocol rxBufferSize txBufferSize).tx.Sound :=
    ⟨[], Peer.inv_new useTcpProtocol txBufferSize⟩
  exact Trace.read_run_iff (fun d : Duplex => d.tx.isClosed) (step_silent codec) inputs _ hnew

/-- A codec for streams without metadata messages. -/
def noMetadata : JsonCodec :=
  { toMsgpack := fun _ => [], fromMsgpack := fun _ => none, parse := fun _ => none }

/-- A CLOSE frame and, behind it, a data packet of signal 1 in the same read. -/
def closeThenData : Bytes := [0x88, 0x00, 0x82, 0x05, 0x01, 0x00, 0x10, 0x10, 0xaa]

/-- A closed peer is not silent in every run: the socket takes the reply to a
CLOSE frame at once, `on_closed` is raised, and the data packet behind the frame
is still handed on. -/
theorem data_behind_close_is_raised :
    (Trace.run (step noMetadata) (new false 16 16)
        [.start none fun _ => ⟨.sent 2, []⟩,
          .read .success closeThenData .success fun _ => ⟨.sent 2, []⟩]).map Prod.snd =
      some [.controlFrame WebsocketProtocol.opcodeClose [] true, .closed .success,
        .dataPacket 1 [0xaa]] ∧
    silence.read false [.controlFrame WebsocketProtocol.opcodeClose [] true, .closed .success,
      .dataPacket 1 [0xaa]] = none := by
  decide +kernel

end Duplex

end WsStreaming.Ports
