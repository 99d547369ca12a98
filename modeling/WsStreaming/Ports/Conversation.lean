import WsStreaming.Ports.Ends

/-!
# Two peers in conversation

Two peers of this implementation on the two ends of a connection.  What one
socket takes, the other one hands over, in pieces of any size; the application
sends packets, from outside or from the slots of `on_data_received` and
`on_metadata_received`, and either end may fail or be stopped at any time.

Everything else of the library talks to its peer in packets and takes it for
granted that they arrive in order.  Here is why: between the buffers, the
headers, the cuts and the replies of the receive path, either direction is a
queue of packets.

## Main results

* `Conveys.receives`, `Conveys.sends` — what one step of either end does to a
  direction.
* `conversation_conveys` — whole runs of both ends.
-/

namespace WsStreaming.Ports

open WsStreaming.Verified.Run
open WsStreaming.Verified.Wire WsStreaming.Verified.Blocks WsStreaming.Verified.Framing
open StreamingProtocol (widened)
open BasePeer

namespace Conversation

/-! ## The two ends -/

/-- What a slot of an end does. -/
inductive Reply where
  | send (packet : Packet) (outcome : SendOutcome)
  | stop
deriving DecidableEq, Repr

/-- How the outside answers a call of the receive path. -/
structure Replies where
  outcome : SendOutcome
  slots : List Reply
deriving DecidableEq, Repr

/-- The buffer sequence that `send_packet` hands to `write`.  There is one for
every payload of fewer than `2 ^ 32` bytes; longer ones are not sent here. -/
def buffers (useTcpProtocol : Bool) (p : Packet) : List Bytes :=
  (Peer.packetFrame useTcpProtocol p.signo p.type p.payload).toOption.getD []

/-- What a slot does to its peer. -/
def Reply.action (useTcpProtocol : Bool) : Reply → SlotAction
  | .send packet outcome => .send (buffers useTcpProtocol packet) outcome
  | .stop => .stop

def Replies.answer (useTcpProtocol : Bool) (r : Replies) : Answer :=
  ⟨r.outcome, r.slots.map (Reply.action useTcpProtocol)⟩

/-- The packet that a slot sends. -/
def Reply.packet? : Reply → Option Packet
  | .send packet _ => some packet
  | .stop => none

/-- The packets that the slots send. -/
def Replies.packets (r : Replies) : List Packet := r.slots.filterMap Reply.packet?

/-- One end: its peer, and its log. -/
structure End extends Log where
  peer : Duplex

/-- What can happen to an end. -/
inductive Deed where
  /-- The handler that `run()` or `run(data, size)` posts; the data that is
  handed over was read from the same socket. -/
  | start (handedOver : Option Nat) (replies : Nat → Replies)
  /-- The read that was started completes; `count` bytes have arrived. -/
  | read (waitEc : ErrorCode) (count : Nat) (receiveEc : ErrorCode) (replies : Nat → Replies)
  /-- `send_data` or `send_metadata`, from outside. -/
  | send (packet : Packet) (outcome : SendOutcome)
  | finishWaitTx (waitEc : ErrorCode) (outcome : SendOutcome)
  | stop

namespace End

/-- A new end. -/
def new (useTcpProtocol : Bool) (rxBufferSize txBufferSize : Nat) : End :=
  { peer := .new useTcpProtocol rxBufferSize txBufferSize }

/-- The bytes that its socket has taken. -/
def taken (e : End) : Bytes := e.peer.tx.socket.taken

/-- `_is_closed`. -/
def isClosed (e : End) : Bool := e.peer.tx.isClosed

/-- What the end does with an input of its peer, of which `consumed` bytes came
from the other end. -/
def advance (codec : JsonCodec) (e : End) (input : Duplex.Input) (consumed : Nat)
    (packets : List Packet) : Option End :=
  (e.peer.step codec input).map fun r =>
    { e with
      peer := r.1
      read := e.read + consumed
      sent := e.sent ++ packets
      heard := e.heard ++ r.2 }

/-- One step, while `incoming` is on the way; `none` if the end is started a
second time, or if a loop of the transmit buffer does not end. -/
def step (codec : JsonCodec) (useTcpProtocol : Bool) (incoming : Bytes) (e : End) :
    Deed → Option End
  | .start handedOver replies =>
      if e.started then none
      else
        let data := handedOver.map incoming.take
        let input := .start data fun n => (replies n).answer useTcpProtocol
        { e with started := true }.advance codec input (data.getD []).length
          (answered (e.peer.isSeen codec) (fun n => (replies n).packets) (e.peer.received input).2)
  | .read waitEc count receiveEc replies =>
      let arrived := incoming.take count
      let input := .read waitEc arrived receiveEc fun n => (replies n).answer useTcpProtocol
      let consumed :=
        if e.peer.rx.reading ∧ waitEc = .success then
          (e.peer.tx.socket.receive e.peer.rx.room arrived receiveEc).1.length
        else 0
      e.advance codec input consumed
        (answered (e.peer.isSeen codec) (fun n => (replies n).packets) (e.peer.received input).2)
  | .send packet outcome =>
      e.advance codec (.act (.write (buffers useTcpProtocol packet) false outcome)) 0 [packet]
  | .finishWaitTx waitEc outcome => e.advance codec (.act (.finishWaitTx waitEc outcome)) 0 []
  | .stop => e.advance codec (.act .stop) 0 []

end End

/-- The packets that a deed may send. -/
def Deed.Sends (P : Packet → Prop) : Deed → Prop
  | .start _ replies | .read _ _ _ replies =>
      ∀ n, ∀ p ∈ (replies n).packets, P p
  | .send packet _ => P packet
  | .finishWaitTx _ _ | .stop => True

/-- Both ends. -/
abbrev Pair := Ends End

/-- What of `sender` has not been read by `receiver`. -/
def inFlight (sender receiver : End) : Bytes := sender.taken.drop receiver.read

/-- One step of one end. -/
def Pair.step (codec : JsonCodec) (useTcpProtocol : Bool) (c : Pair) (s : Side × Deed) :
    Option Pair :=
  Ends.step (fun other e => e.step codec useTcpProtocol (inFlight other e)) c s

/-! ## What the receive path does to its peer -/

section Calls

variable {useTcpProtocol : Bool} {isSeen : Event → Bool}

/-- The frame of a packet, as it is logged. -/
def written (useTcpProtocol : Bool) (p : Packet) : Peer.Written :=
  ⟨p.bytes useTcpProtocol, false⟩

theorem flatten_buffers (p : Packet) :
    (buffers useTcpProtocol p).flatten = p.bytes useTcpProtocol := by
  unfold buffers Packet.bytes Packet.frame
  cases Peer.packetFrame useTcpProtocol p.signo p.type p.payload <;> rfl

theorem stream_written (packets : List Packet) :
    Peer.stream (packets.map (written useTcpProtocol)) =
      (packets.map (Packet.bytes useTcpProtocol)).flatten := by
  rw [Peer.stream, List.flatMap_map]
  rfl

/-- A peer whose frames are packets. -/
def Sends (useTcpProtocol : Bool) (p : Peer) (sent : List Packet) : Prop :=
  Peer.Inv ⟨p, sent.map (written useTcpProtocol)⟩

variable {p : Peer} {sent : List Packet}

theorem taken_close (p : Peer) (c : Closing) : (p.close c).socket.taken = p.socket.taken := by
  unfold Peer.close
  split <;> rfl

theorem taken_prefix_close (p : Peer) (c : Closing) :
    p.socket.taken <+: (p.close c).socket.taken := by
  unfold Peer.close
  split
  · exact List.prefix_refl _
  · exact List.prefix_refl _

/-- A packet that is written is queued behind the others. -/
theorem Sends.write (h : Sends useTcpProtocol p sent) (packet : Packet) (outcome : SendOutcome) :
    ∃ p', p.write (buffers useTcpProtocol packet) false outcome = some p' ∧
      Sends useTcpProtocol p' (sent ++ [packet]) := by
  obtain ⟨p', hwrite, hinv⟩ := Peer.Inv.write h (buffers useTcpProtocol packet) false outcome
  rw [flatten_buffers] at hinv
  refine ⟨p', hwrite, ?_⟩
  unfold Sends
  rw [List.map_append]
  exact hinv

theorem taken_enqueue (hbuf : p.txBuffer.Inv) {buffers : List Bytes} {size : Nat}
    (hsize : size = buffers.flatten.length) {doShutdownAfter : Bool} {p' : Peer}
    (henqueue : p.enqueue buffers size doShutdownAfter = some p') :
    p'.socket.taken = p.socket.taken := by
  obtain ⟨q, hq, -, htaken, -⟩ := Peer.enqueue_spec hbuf buffers hsize doShutdownAfter
  rw [henqueue] at hq
  rw [Option.some.inj hq]
  exact htaken

/-- What the socket has taken, it keeps. -/
theorem taken_write (hbuf : p.txBuffer.Inv) (buffers : List Bytes) (doShutdownAfter : Bool)
    (outcome : SendOutcome) {p' : Peer}
    (hwrite : p.write buffers doShutdownAfter outcome = some p') :
    p.socket.taken <+: p'.socket.taken := by
  unfold Peer.write at hwrite
  dsimp only at hwrite
  by_cases hw : p.waitingTx = true
  · rw [if_pos hw] at hwrite
    exact ⟨[], by rw [List.append_nil, taken_enqueue hbuf rfl hwrite]⟩
  · rw [if_neg hw] at hwrite
    obtain ⟨n, ec, hsend, -⟩ := Peer.send_spec p.socket buffers.flatten outcome
    simp only [hsend] at hwrite
    split at hwrite
    · obtain rfl := Option.some.inj hwrite
      rw [taken_close]
      exact List.prefix_append _ _
    · split at hwrite
      · obtain rfl := Option.some.inj hwrite
        split
        · rw [taken_close]
          exact List.prefix_append _ _
        · exact List.prefix_append _ _
      · have hsize : buffers.flatten.length - n = (Peer.suffix buffers n).flatten.length := by
          rw [Peer.flatten_suffix, List.length_drop]
        rw [taken_enqueue (by exact hbuf) hsize hwrite]
        exact List.prefix_append _ _

theorem taken_finishWaitTx (waitEc : ErrorCode) (outcome : SendOutcome) {p' : Peer}
    (hfinish : p.finishWaitTx waitEc outcome = some p') :
    p.socket.taken <+: p'.socket.taken := by
  unfold Peer.finishWaitTx at hfinish
  dsimp only at hfinish
  obtain ⟨n, ec, hsend, -⟩ := Peer.send_spec p.socket
    (DynamicBuffer.describe p.txBuffer.blocks p.txBuffer.data) outcome
  split at hfinish
  · obtain rfl := Option.some.inj hfinish
    exact taken_prefix_close { p with waitingTx := false } _
  · simp only [hsend] at hfinish
    split at hfinish
    · obtain rfl := Option.some.inj hfinish
      rw [taken_close]
      exact List.prefix_append _ _
    · obtain ⟨b, -, hfinish⟩ := Option.bind_eq_some_iff.mp hfinish
      split at hfinish
      · obtain rfl := Option.some.inj hfinish
        rw [taken_close]
        exact List.prefix_append _ _
      · obtain rfl := Option.some.inj hfinish
        split
        · exact List.prefix_append _ _
        · exact List.prefix_append _ _

/-- The slots of a signal send packets. -/
theorem Sends.slots (replies : List Reply) :
    ∀ {p : Peer} {sent : List Packet}, Sends useTcpProtocol p sent →
      ∃ p', p.slots (replies.map (Reply.action useTcpProtocol)) = some p' ∧
        Sends useTcpProtocol p' (sent ++ replies.filterMap Reply.packet?) ∧
        p.socket.taken <+: p'.socket.taken ∧ (p.isClosed = true → p'.isClosed = true) := by
  induction replies with
  | nil =>
      intro p sent h
      rw [List.filterMap_nil, List.append_nil]
      exact ⟨p, rfl, h, List.prefix_refl _, id⟩
  | cons reply replies ih =>
      intro p sent h
      cases reply with
      | send packet outcome =>
          obtain ⟨q, hwrite, hq⟩ := h.write packet outcome
          obtain ⟨p', hslots, hp', htaken, hkeep⟩ := ih hq
          refine ⟨p', ?_, ?_, ?_, ?_⟩
          · rw [List.map_cons, Peer.slots, List.foldlM_cons, Reply.action, Peer.slot, hwrite]
            exact hslots
          · rw [List.append_assoc] at hp'
            exact hp'
          · exact (taken_write h.buffer _ _ _ hwrite).trans htaken
          · exact fun hclosed => hkeep (Peer.write_of_closed ⟨_, h⟩ hclosed hwrite)
      | stop =>
          obtain ⟨p', hslots, hp', htaken, hkeep⟩ := ih (p := p.stop) (Peer.Inv.stop h)
          refine ⟨p', ?_, hp', htaken, hkeep⟩
          rw [List.map_cons, Peer.slots, List.foldlM_cons, Reply.action, Peer.slot]
          exact hslots

theorem reports_closure (p p' : Peer) : reports (p.closure p') = [] := by
  unfold Peer.closure
  split <;> rfl

/-- **The calls of the receive path**, none of which is a reply: the slots send
their packets, and whatever is seen outside is raised. -/
theorem Sends.calls (isSeen : Event → Bool) (hunseen : ∀ ec, isSeen (.closed ec) = false)
    (events : List Event)
    (hevents : ∀ opcode payload shutdownAfter,
      Event.controlFrame opcode payload shutdownAfter ∉ events) :
    ∀ {p : Peer} {sent : List Packet} (replies : Nat → Replies), Sends useTcpProtocol p sent →
      ∃ r, p.calls isSeen (fun n => (replies n).answer useTcpProtocol) events = some r ∧
        Sends useTcpProtocol r.1 (sent ++ answered isSeen (fun n => (replies n).packets) events) ∧
        p.socket.taken <+: r.1.socket.taken ∧ reports r.2 = events.filter isSeen ∧
        (p.isClosed = true ∨ (∃ ec, Event.closed ec ∈ events) → r.1.isClosed = true) := by
  induction events with
  | nil =>
      intro p sent replies h
      refine ⟨(p, []), rfl, ?_, List.prefix_refl _, rfl, ?_⟩
      · rw [answered, List.append_nil]
        exact h
      · rintro (hclosed | ⟨ec, hec⟩)
        · exact hclosed
        · cases hec
  | cons e es ih =>
      intro p sent replies h
      have hrest := fun opcode payload shutdownAfter hmem =>
        hevents opcode payload shutdownAfter (List.mem_cons_of_mem _ hmem)
      -- One call, and then the others.
      have hcons (q : Peer) (packets : List Packet)
          (hcall : p.call isSeen ((replies 0).answer useTcpProtocol) e = some q)
          (hq : Sends useTcpProtocol q (sent ++ packets))
          (htaken : p.socket.taken <+: q.socket.taken)
          (hclosing : p.isClosed = true ∨ (∃ ec, e = .closed ec) → q.isClosed = true)
          (hanswered : answered isSeen (fun n => (replies n).packets) (e :: es) =
            packets ++ answered isSeen (fun n => (replies (n + 1)).packets) es)
          (hreport : reports (if isSeen e then [e] else []) = [e].filter isSeen) :
          ∃ r, p.calls isSeen (fun n => (replies n).answer useTcpProtocol) (e :: es) = some r ∧
            Sends useTcpProtocol r.1
              (sent ++ answered isSeen (fun n => (replies n).packets) (e :: es)) ∧
            p.socket.taken <+: r.1.socket.taken ∧ reports r.2 = (e :: es).filter isSeen ∧
            (p.isClosed = true ∨ (∃ ec, Event.closed ec ∈ e :: es) → r.1.isClosed = true) := by
        obtain ⟨r, hcalls, hr, htaken', hreports, hkeep⟩ := ih hrest (fun n => replies (n + 1)) hq
        refine ⟨(r.1, (if isSeen e then [e] else []) ++ p.closure q ++ r.2), ?_, ?_,
          htaken.trans htaken', ?_, ?_⟩
        · rw [Peer.calls, hcall, Option.bind_some, hcalls, Option.map_some]
        · rw [hanswered, ← List.append_assoc]
          exact hr
        · rw [reports_append, reports_append, reports_closure, List.append_nil, hreport, hreports,
            ← List.filter_append]
          rfl
        · rintro (hclosed | ⟨ec, hec⟩)
          · exact hkeep (.inl (hclosing (.inl hclosed)))
          · rcases List.mem_cons.mp hec with rfl | hec
            · exact hkeep (.inl (hclosing (.inr ⟨ec, rfl⟩)))
            · exact hkeep (.inr ⟨ec, hec⟩)
      cases e with
      | dataPacket signo payload =>
          obtain ⟨q, hslots, hq, htaken, hkeep⟩ := h.slots (replies 0).slots
          refine hcons q _ hslots hq htaken ?_ rfl ?_
          · rintro (hclosed | ⟨ec, hec⟩)
            · exact hkeep hclosed
            · cases hec
          · cases hseen : isSeen (.dataPacket signo payload) <;> simp [hseen, reports, isClosing]
      | metadataPacket signo payload =>
          cases hseen : isSeen (.metadataPacket signo payload) with
          | true =>
              obtain ⟨q, hslots, hq, htaken, hkeep⟩ := h.slots (replies 0).slots
              refine hcons q _ ?_ hq htaken ?_ ?_ ?_
              · unfold Peer.call
                dsimp only
                rw [if_pos hseen]
                exact hslots
              · rintro (hclosed | ⟨ec, hec⟩)
                · exact hkeep hclosed
                · cases hec
              · rw [answered, if_pos hseen]
                rfl
              · simp [hseen, reports, isClosing]
          | false =>
              refine hcons p [] ?_ ?_ (List.prefix_refl _) ?_ ?_ ?_
              · unfold Peer.call
                dsimp only
                rw [hseen]
                rfl
              · rw [List.append_nil]
                exact h
              · rintro (hclosed | ⟨ec, hec⟩)
                · exact hclosed
                · cases hec
              · rw [answered, hseen]
                rfl
              · simp [hseen, reports]
      | controlFrame opcode payload shutdownAfter =>
          exact absurd List.mem_cons_self (hevents opcode payload shutdownAfter)
      | closed ec =>
          refine hcons _ [] rfl ?_ ?_ ?_ rfl ?_
          · rw [List.append_nil]
            exact Peer.Inv.close h ec
          · exact taken_prefix_close _ _
          · intro _
            unfold Peer.close
            cases hclosed : p.isClosed with
            | true => exact hclosed
            | false => rfl
          · rw [hunseen]
            simp [hunseen, reports]

end Calls

/-! ## What the receive path hands on -/

section Receive

variable {useTcpProtocol : Bool} {M : Nat}

theorem useTcpProtocol_close (p : BasePeer) (ec : ErrorCode) :
    (p.close ec).1.useTcpProtocol = p.useTcpProtocol := by
  unfold BasePeer.close
  split <;> rfl

theorem useTcpProtocol_slide (p : BasePeer) (offset : Nat) :
    (p.slide offset).useTcpProtocol = p.useTcpProtocol := by
  unfold slide
  split <;> rfl

theorem useTcpProtocol_readOn (p : BasePeer) :
    p.readOn.1.useTcpProtocol = p.useTcpProtocol := by
  unfold readOn
  split
  · cases hgrow : p.growRxBuffer with
    | none => exact useTcpProtocol_close p _
    | some q =>
        obtain ⟨-, zeros, hq, -⟩ := growRxBuffer_eq_some hgrow
        rw [hq]
        rfl
  · rfl

theorem useTcpProtocol_processBuffer (p : BasePeer) :
    p.processBuffer.1.useTcpProtocol = p.useTcpProtocol := by
  unfold processBuffer
  split
  · unfold processBufferTcp
    dsimp only
    rw [useTcpProtocol_readOn, useTcpProtocol_slide]
  · unfold processBufferWs
    dsimp only
    split
    · exact useTcpProtocol_close _ _
    · rw [useTcpProtocol_readOn, useTcpProtocol_slide]

theorem useTcpProtocol_finishWaitRx (p : BasePeer) (waitEc : ErrorCode) (stored : Bytes)
    (receiveEc : ErrorCode) :
    (p.finishWaitRx waitEc stored receiveEc).1.useTcpProtocol = p.useTcpProtocol := by
  unfold finishWaitRx
  dsimp only
  split
  · exact useTcpProtocol_close _ _
  · split
    · exact useTcpProtocol_close _ _
    · split
      · exact useTcpProtocol_close _ _
      · exact useTcpProtocol_processBuffer _

theorem makeRoom_fields (p : BasePeer) (size : Nat) (hle : p.rxBuffer.length ≤ p.rxBufferMax) :
    (p.makeRoom size).useTcpProtocol = p.useTcpProtocol ∧
      (p.makeRoom size).rxBuffer.length ≤ p.rxBufferMax := by
  induction p using makeRoom.induct size with
  | case1 p h hgrow =>
      rw [makeRoom, if_pos h]
      split
      · exact ⟨rfl, hle⟩
      · rename_i grown hgrown
        rw [hgrow] at hgrown
        cases hgrown
  | case2 p h grown hgrow ih =>
      obtain ⟨hlt, zeros, hgrown, hlength⟩ := growRxBuffer_eq_some hgrow
      have hmode : grown.useTcpProtocol = p.useTcpProtocol := by rw [hgrown]
      have hmax : grown.rxBufferMax = p.rxBufferMax := by rw [hgrown]
      have hih := ih (by omega)
      rw [hmode, hmax] at hih
      rw [makeRoom, if_pos h]
      split
      · rename_i hnone
        rw [hgrow] at hnone
        cases hnone
      · rename_i grown' hgrow'
        rw [hgrow] at hgrow'
        rw [← Option.some.inj hgrow']
        exact hih
  | case3 p h =>
      rw [makeRoom, if_neg h]
      exact ⟨rfl, hle⟩

/-- The receive path of a peer that was closed. -/
def shut (p : BasePeer) : BasePeer := { p with isClosed := true }

theorem makeRoom_shut (p : BasePeer) (size : Nat) :
    (shut p).makeRoom size = shut (p.makeRoom size) := by
  have hgrow (p : BasePeer) : (shut p).growRxBuffer = p.growRxBuffer.map shut := by
    unfold growRxBuffer shut
    dsimp only
    split <;> rfl
  induction p using makeRoom.induct size with
  | case1 p h hnone =>
      rw [makeRoom, if_pos (by exact h), makeRoom, if_pos h]
      split
      · split
        · rfl
        · rename_i grown hgrown
          rw [hnone] at hgrown
          cases hgrown
      · rename_i grown hgrown
        rw [hgrow, hnone] at hgrown
        cases hgrown
  | case2 p h grown hsome ih =>
      rw [makeRoom, if_pos (by exact h), makeRoom, if_pos h]
      split
      · rename_i hnone
        rw [hgrow, hsome] at hnone
        cases hnone
      · rename_i grown' hgrown'
        rw [hgrow, hsome] at hgrown'
        rw [← Option.some.inj hgrown', ih]
        split
        · rename_i hnone
          rw [hsome] at hnone
          cases hnone
        · rename_i grown'' hgrown''
          rw [hsome] at hgrown''
          rw [Option.some.inj hgrown'']
  | case3 p h => rw [makeRoom, if_neg (by exact h), makeRoom, if_neg h]

/-- A closed peer hands on what an open one hands on, and is not closed again. -/
theorem start_shut {p : BasePeer} (hopen : p.isClosed = false) (handedOver : Option Bytes) :
    ∃ closings, (p.start handedOver).2 = ((shut p).start handedOver).2 ++ closings ∧
      ∀ e ∈ closings, isClosing e = true := by
  have hclosings (q : BasePeer) (cause : Option Cause) :
      ∀ e ∈ q.closeFor cause, isClosing e = true := by
    intro e he
    unfold closeFor at he
    split at he
    · cases he
    · obtain ⟨c, -, rfl⟩ := List.mem_map.mp he
      rfl
  have hshut (q : BasePeer) (cause : Option Cause) : (shut q).closeFor cause = [] := rfl
  cases handedOver with
  | none => exact ⟨[], rfl, by simp⟩
  | some data =>
      have hroom : (p.makeRoom data.length).isClosed = false := by
        rw [makeRoom_isClosed, hopen]
      unfold BasePeer.start runWith
      dsimp only
      rw [makeRoom_shut]
      split
      · rw [if_pos (by assumption), close_events, hroom]
        exact ⟨[.closed .noBufferSpace], rfl, by simp [isClosing]⟩
      · rw [if_neg (by assumption), processBuffer_events]
        generalize hq : ({ p.makeRoom data.length with
          rxBuffer := overwrite (p.makeRoom data.length).rxBuffer 0 data
          rxBufferBytes := data.length } : BasePeer) = q
        have hq' : ({ shut (p.makeRoom data.length) with
            rxBuffer := overwrite (shut (p.makeRoom data.length)).rxBuffer 0 data
            rxBufferBytes := data.length } : BasePeer) = shut q := by
          rw [← hq]
          rfl
        rw [hq', processBuffer_events, hshut, List.append_nil]
        exact ⟨_, rfl, hclosings q _⟩

end Receive

/-! ## Packets on the way -/

section Packets

variable {useTcpProtocol : Bool} {M : Nat}

/-- Whatever part of the stream has been read, it holds a number of packets. -/
theorem parse_sent (hM : 0 < M) {sent : List Packet} (hvalid : ∀ p ∈ sent, Valid useTcpProtocol M p)
    {s : Bytes} (hs : s <+: (sent.map (Packet.bytes useTcpProtocol)).flatten) :
    ∃ n ≤ sent.length, ∃ rest, (framer useTcpProtocol widened).parse M s =
      ((sent.take n).map (Packet.toFrame useTcpProtocol), .waiting rest) := by
  obtain ⟨n, rest, hparse⟩ := Framer.parse_encode_prefix (framer useTcpProtocol widened) hM
    (Packet.bytes useTcpProtocol) (Packet.toFrame useTcpProtocol) sent
    (fun p hp rest => next_bytes (hvalid p hp).sendable
      (Nat.lt_trans (hvalid p hp).readable.2 (by decide)) (fun _ => (hvalid p hp).readable) rest)
    (fun p _ => rfl) (fun p hp => (hvalid p hp).fits) (fun p _ => rfl) s hs
  refine ⟨min n sent.length, Nat.min_le_right _ _, rest, ?_⟩
  rw [hparse, List.take_eq_take_min]

/-- All that was sent holds all packets. -/
theorem parse_all (hM : 0 < M) {sent : List Packet}
    (hvalid : ∀ p ∈ sent, Valid useTcpProtocol M p) :
    (framer useTcpProtocol widened).parse M (sent.map (Packet.bytes useTcpProtocol)).flatten =
      (sent.map (Packet.toFrame useTcpProtocol), .waiting []) :=
  Framer.parse_encode (framer useTcpProtocol widened) hM
    (Packet.bytes useTcpProtocol) (Packet.toFrame useTcpProtocol) sent
    (fun p hp rest => next_bytes (hvalid p hp).sendable
      (Nat.lt_trans (hvalid p hp).readable.2 (by decide)) (fun _ => (hvalid p hp).readable) rest)
    (fun p _ => rfl) (fun p hp => (hvalid p hp).fits) (fun p _ => rfl)

theorem eventsOf_toFrame {packets : List Packet}
    (hvalid : ∀ p ∈ packets, Valid useTcpProtocol M p) :
    eventsOf (packets.map (Packet.toFrame useTcpProtocol)) = packets.map Packet.event := by
  induction packets with
  | nil => rfl
  | cons p ps ih =>
      obtain ⟨hp, hps⟩ := List.forall_mem_cons.mp hvalid
      rw [List.map_cons, List.map_cons, eventsOf_cons, ih hps, Packet.toFrame, Packet.items,
        if_pos hp.readable, List.flatMap_singleton, Packet.event_eq hp.sendable]
      rfl

theorem event_isPacket (p : Packet) :
    isClosing p.event = false ∧
      ∀ opcode payload shutdownAfter, p.event ≠ .controlFrame opcode payload shutdownAfter := by
  unfold Packet.event
  split
  · exact ⟨rfl, fun _ _ _ h => by cases h⟩
  · exact ⟨rfl, fun _ _ _ h => by cases h⟩

/-- An end whose frames are packets that fit the other end. -/
structure Own (useTcpProtocol : Bool) (M : Nat) (e : End) : Prop where
  sends : Sends useTcpProtocol e.peer.tx e.sent
  valid : ∀ p ∈ e.sent, Valid useTcpProtocol M p
  joined : e.peer.rx.isClosed = e.peer.tx.isClosed
  mode : e.peer.rx.useTcpProtocol = useTcpProtocol

/-- **One direction.**  What the receiver has raised are the first packets that
the sender was told to send; while it is open, these are the packets that are
complete in what it has read. -/
structure Conveys (codec : JsonCodec) (useTcpProtocol : Bool) (M : Nat) (sender receiver : End) :
    Prop where
  read_le : receiver.read ≤ sender.taken.length
  idle : receiver.started = false → receiver.read = 0 ∧ reports receiver.heard = [] ∧
    receiver.peer.rx = { BasePeer.new useTcpProtocol M with isClosed := receiver.isClosed }
  heard : ∃ n ≤ sender.sent.length,
    reports receiver.heard =
        ((sender.sent.take n).map Packet.event).filter (Event.seen codec useTcpProtocol) ∧
      (receiver.started = true → receiver.isClosed = false → ∃ rest,
        (framer useTcpProtocol widened).parse M (sender.taken.take receiver.read) =
            ((sender.sent.take n).map (Packet.toFrame useTcpProtocol), .waiting rest) ∧
          Matches useTcpProtocol M receiver.peer.rx (.waiting rest))

variable {codec : JsonCodec} {sender receiver : End}

/-- What is taken is a part of the packets' stream. -/
theorem Own.taken_prefix (h : Own useTcpProtocol M sender) :
    sender.taken <+: (sender.sent.map (Packet.bytes useTcpProtocol)).flatten := by
  have htaken := h.sends.taken
  rw [stream_written] at htaken
  exact htaken

/-- **The sender goes on.** -/
theorem Conveys.sends (h : Conveys codec useTcpProtocol M sender receiver) {sender' : End}
    (htaken : sender.taken <+: sender'.taken) (hsent : sender.sent <+: sender'.sent) :
    Conveys codec useTcpProtocol M sender' receiver := by
  have hread : sender'.taken.take receiver.read = sender.taken.take receiver.read := by
    obtain ⟨more, hmore⟩ := htaken
    rw [← hmore, List.take_append_of_le_length h.read_le]
  obtain ⟨n, hn, hreports, hwaits⟩ := h.heard
  have htake : sender'.sent.take n = sender.sent.take n := by
    obtain ⟨more, hmore⟩ := hsent
    rw [← hmore, List.take_append_of_le_length hn]
  refine ⟨h.read_le.trans htaken.length_le, h.idle, n, hn.trans hsent.length_le, ?_⟩
  rw [hread, htake]
  exact ⟨hreports, hwaits⟩

/-- **A turn of the receive path**: its slots send packets, and what is seen
outside is raised. -/
theorem Own.turn {M' : Nat} {e : End} (h : Own useTcpProtocol M' e) (codec : JsonCodec)
    (events : List Event)
    (hevents : ∀ opcode payload shutdownAfter,
      Event.controlFrame opcode payload shutdownAfter ∉ events)
    {replies : Nat → Replies}
    (hreplies : ∀ n, ∀ p ∈ (replies n).packets, Valid useTcpProtocol M' p)
    {rx : BasePeer} (hmode : rx.useTcpProtocol = useTcpProtocol) :
    ∃ r, e.peer.tx.calls (e.peer.isSeen codec) (fun n => (replies n).answer useTcpProtocol)
        events = some r ∧
      (∀ started read, Own useTcpProtocol M'
        { peer := Duplex.join rx r.1, started := started, read := read,
          sent := e.sent ++ answered (e.peer.isSeen codec) (fun n => (replies n).packets) events,
          heard := e.heard ++ r.2 }) ∧
      e.taken <+: r.1.socket.taken ∧
      reports r.2 = events.filter (Event.seen codec useTcpProtocol) ∧
      (e.isClosed = true ∨ (∃ ec, Event.closed ec ∈ events) → r.1.isClosed = true) := by
  have hseen : e.peer.isSeen codec = Event.seen codec useTcpProtocol := by
    unfold Duplex.isSeen
    rw [h.mode]
  rw [hseen]
  obtain ⟨r, hcalls, hsends, htaken, hreports, hclosed⟩ :=
    Sends.calls (Event.seen codec useTcpProtocol) (fun _ => rfl) events hevents replies h.sends
  refine ⟨r, hcalls, fun started read => ⟨hsends, ?_, rfl, hmode⟩, htaken, hreports, hclosed⟩
  intro p hp
  rcases List.mem_append.mp hp with hp | hp
  · exact h.valid p hp
  · obtain ⟨n, hn⟩ := mem_answered events _ hp
    exact hreplies n p hn

/-- A part of the stream that is read on: the packets that become complete. -/
theorem read_on (hM : 0 < M) {sent : List Packet} (hvalid : ∀ p ∈ sent, Valid useTcpProtocol M p)
    {stream : Bytes} (hstream : stream <+: (sent.map (Packet.bytes useTcpProtocol)).flatten)
    {n read : Nat} {rest chunk : Bytes} {rx : BasePeer}
    (hparse : (framer useTcpProtocol widened).parse M (stream.take read) =
      ((sent.take n).map (Packet.toFrame useTcpProtocol), .waiting rest))
    (hmatches : Matches useTcpProtocol M rx (.waiting rest))
    (hchunk : stream.take (read + chunk.length) = stream.take read ++ chunk)
    (hpos : 0 < chunk.length) (hroom : chunk.length ≤ rx.room) :
    ∃ n' ≤ sent.length, ∃ rest',
      (sent.take n').map Packet.event =
          (sent.take n).map Packet.event ++ (rx.finishWaitRx .success chunk .success).2 ∧
        (framer useTcpProtocol widened).parse M (stream.take (read + chunk.length)) =
          ((sent.take n').map (Packet.toFrame useTcpProtocol), .waiting rest') ∧
        Matches useTcpProtocol M (rx.finishWaitRx .success chunk .success).1 (.waiting rest') := by
  obtain ⟨hevents, hnext⟩ := Matches.finishWaitRx hmatches hpos hroom
  obtain ⟨n', hn', rest', hparse'⟩ := parse_sent hM hvalid
    ((List.take_prefix (read + chunk.length) _).trans hstream)
  -- Parsing goes on with what was left over.
  have hsplit := (framer useTcpProtocol widened).parse_append M (stream.take read) chunk
  rw [← hchunk, hparse', hparse] at hsplit
  obtain ⟨hframes, hstatus⟩ := Prod.mk.inj hsplit
  have htake (k : Nat) : ∀ p ∈ sent.take k, Valid useTcpProtocol M p :=
    fun p hp => hvalid p (List.mem_of_mem_take hp)
  have hmore := congrArg eventsOf hframes
  rw [eventsOf_append, eventsOf_toFrame (htake n'), eventsOf_toFrame (htake n)] at hmore
  refine ⟨n', hn', rest', ?_, hparse', ?_⟩
  · rw [hevents, parseEvents, ← hstatus, hmore]
    exact congrArg _ (List.append_nil _).symm
  · rw [hstatus]
    exact hnext

/-- A step in which nothing is read. -/
theorem Conveys.rests (h : Conveys codec useTcpProtocol M sender receiver)
    (hjoined : receiver.peer.rx.isClosed = receiver.isClosed) {p : Peer}
    (hkeep : receiver.isClosed = true → p.isClosed = true) (sent : List Packet)
    {more : List Event} (hmore : reports more = []) :
    Conveys codec useTcpProtocol M sender
      { receiver with
        peer := Duplex.join receiver.peer.rx p
        sent := sent
        heard := receiver.heard ++ more } := by
  obtain ⟨n, hn, hreports, hwaits⟩ := h.heard
  have hheard : reports (receiver.heard ++ more) = reports receiver.heard := by
    rw [reports_append, hmore, List.append_nil]
  refine ⟨h.read_le, ?_, n, hn, hheard.trans hreports, ?_⟩
  · intro hstarted
    obtain ⟨hread, hnone, hrx⟩ := h.idle hstarted
    refine ⟨hread, hheard.trans hnone, ?_⟩
    show ({ receiver.peer.rx with isClosed := p.isClosed } : BasePeer) = _
    rw [hrx]
    rfl
  · intro hstarted hopen
    have hopen' : receiver.isClosed = false := by
      cases hclosed : receiver.isClosed with
      | false => rfl
      | true => exact (hkeep hclosed).symm.trans hopen
    obtain ⟨rest, hparse, hmatches⟩ := hwaits hstarted hopen'
    refine ⟨rest, hparse, ?_⟩
    have hrx : ({ receiver.peer.rx with isClosed := p.isClosed } : BasePeer) =
        receiver.peer.rx := by
      rw [show p.isClosed = receiver.peer.rx.isClosed from hopen.trans (hjoined.trans hopen').symm]
    show Matches useTcpProtocol M ({ receiver.peer.rx with isClosed := p.isClosed } : BasePeer) _
    rw [hrx]
    exact hmatches

/-- A step that leaves the receiver closed, after some packets or none. -/
theorem conveys_ends {rx : BasePeer} {p : Peer} (hclosed : p.isClosed = true) {read : Nat}
    (hread : read ≤ sender.taken.length) (sent : List Packet) {more : List Event} {n n' : Nat}
    (hn' : n' ≤ sender.sent.length)
    (hreports : reports receiver.heard =
      ((sender.sent.take n).map Packet.event).filter (Event.seen codec useTcpProtocol))
    (hmore : ((sender.sent.take n').map Packet.event).filter (Event.seen codec useTcpProtocol) =
      ((sender.sent.take n).map Packet.event).filter (Event.seen codec useTcpProtocol) ++
        reports more) :
    Conveys codec useTcpProtocol M sender
      { peer := Duplex.join rx p
        started := true
        read := read
        sent := sent
        heard := receiver.heard ++ more } := by
  refine ⟨hread, fun hstarted => ?_, n', hn', ?_, fun _ hopen => ?_⟩
  · cases hstarted
  · rw [hmore, ← hreports]
    exact reports_append _ _
  · have hfalse : p.isClosed = false := hopen
    rw [hclosed] at hfalse
    cases hfalse

/-- Events of packets are raised, and are no replies. -/
theorem packets_events {events : List Event} {before : List Event} {sent : List Packet} {n : Nat}
    (h : (sent.take n).map Packet.event = before ++ events) :
    (∀ opcode payload shutdownAfter, Event.controlFrame opcode payload shutdownAfter ∉ events) ∧
      ∀ e ∈ events, isClosing e = false := by
  have hmem : ∀ e ∈ events, ∃ p : Packet, p.event = e := by
    intro e he
    have he' := List.mem_append_right before he
    rw [← h] at he'
    obtain ⟨p, -, hp⟩ := List.mem_map.mp he'
    exact ⟨p, hp⟩
  constructor
  · intro opcode payload shutdownAfter he
    obtain ⟨p, hp⟩ := hmem _ he
    exact (event_isPacket p).2 opcode payload shutdownAfter hp
  · intro e he
    obtain ⟨p, rfl⟩ := hmem e he
    exact (event_isPacket p).1

/-- What a closing leads to is not raised by the receive path. -/
theorem closings_events (codec : JsonCodec) (useTcpProtocol : Bool) {events : List Event}
    (h : ∀ e ∈ events, isClosing e = true) :
    (∀ opcode payload shutdownAfter, Event.controlFrame opcode payload shutdownAfter ∉ events) ∧
      events.filter (Event.seen codec useTcpProtocol) = [] := by
  constructor
  · intro opcode payload shutdownAfter he
    cases h _ he
  · rw [List.filter_eq_nil_iff]
    intro e he
    cases e with
    | closed ec => exact Bool.false_ne_true
    | dataPacket signo payload => cases h _ he
    | metadataPacket signo payload => cases h _ he
    | controlFrame opcode payload shutdownAfter => cases h _ he

/-- A read that brings no byte closes the peer. -/
theorem finishWaitRx_closes {rx : BasePeer} {waitEc receiveEc : ErrorCode} {stored : Bytes}
    (h : waitEc ≠ .success ∨ stored = [] ∨ receiveEc ≠ .success ∧ receiveEc ≠ .wouldBlock) :
    ∃ ec, (rx.finishWaitRx waitEc stored receiveEc).2 =
      if rx.isClosed then [] else [.closed ec] := by
  unfold finishWaitRx
  dsimp only
  by_cases hwait : waitEc ≠ .success
  · rw [if_pos hwait]
    exact ⟨_, close_events _ _⟩
  · rw [if_neg hwait]
    by_cases hempty : stored.length = 0
    · rw [if_pos hempty]
      exact ⟨_, close_events _ _⟩
    · rw [if_neg hempty]
      have herror := (h.resolve_left hwait).resolve_left
        fun hnil => hempty (List.length_eq_zero_iff.mpr hnil)
      rw [if_pos herror]
      exact ⟨_, close_events _ _⟩

/-- A receive that reports no error of its own. -/
theorem finishWaitRx_of_ready {rx : BasePeer} {chunk : Bytes} {ec : ErrorCode}
    (h : ¬ (ec ≠ .success ∧ ec ≠ .wouldBlock)) :
    rx.finishWaitRx .success chunk ec = rx.finishWaitRx .success chunk .success := by
  unfold finishWaitRx
  dsimp only
  rw [if_neg h, if_neg (fun h' : ErrorCode.success ≠ .success ∧ _ => h'.1 rfl)]

/-- What a socket hands over is the next part of what the other one has taken. -/
theorem receive_inFlight (s : Socket) (room count : Nat) (receiveEc : ErrorCode)
    (hread : receiver.read ≤ sender.taken.length) {chunk : Bytes}
    (hchunk : (s.receive room ((inFlight sender receiver).take count) receiveEc).1 = chunk) :
    chunk.length ≤ room ∧ receiver.read + chunk.length ≤ sender.taken.length ∧
      sender.taken.take (receiver.read + chunk.length) =
        sender.taken.take receiver.read ++ chunk := by
  have hahead : chunk <+: sender.taken.drop receiver.read ∧ chunk.length ≤ room := by
    rw [← hchunk]
    unfold Socket.receive inFlight
    split
    · exact ⟨(List.take_prefix _ _).trans (List.take_prefix _ _), List.length_take_le _ _⟩
    · exact ⟨List.nil_prefix, Nat.zero_le _⟩
  exact ⟨hahead.2, take_ahead hread hahead.1⟩

/-- What a completed read is to an end. -/
theorem step_read {e e' : End} {incoming : Bytes} {waitEc receiveEc : ErrorCode} {count : Nat}
    {replies : Nat → Replies} {rx : BasePeer} {events : List Event} {r : Peer × List Event}
    (hreceived : e.peer.received (.read waitEc (incoming.take count) receiveEc
      fun n => (replies n).answer useTcpProtocol) = (rx, events))
    (hcalls : e.peer.tx.calls (e.peer.isSeen codec) (fun n => (replies n).answer useTcpProtocol)
      events = some r)
    (hstep : e.step codec useTcpProtocol incoming (.read waitEc count receiveEc replies) =
      some e') :
    e' = { peer := Duplex.join rx r.1, started := e.started,
           read := e.read + if e.peer.rx.reading = true ∧ waitEc = .success then
              (e.peer.tx.socket.receive e.peer.rx.room (incoming.take count) receiveEc).1.length
            else 0,
           sent := e.sent ++ answered (e.peer.isSeen codec) (fun n => (replies n).packets) events,
           heard := e.heard ++ r.2 } := by
  unfold End.step End.advance Duplex.step at hstep
  dsimp only at hstep
  rw [hreceived] at hstep
  dsimp only at hstep
  rw [hcalls, Option.map_some, Option.map_some] at hstep
  exact (Option.some.inj hstep).symm

/-- **The receiver reads.** -/
theorem Conveys.reads {M' : Nat} (hM : 0 < M) (hsender : Own useTcpProtocol M sender)
    (hown : Own useTcpProtocol M' receiver)
    (h : Conveys codec useTcpProtocol M sender receiver) {waitEc receiveEc : ErrorCode}
    {count : Nat} {replies : Nat → Replies}
    (hreplies : ∀ n, ∀ p ∈ (replies n).packets, Valid useTcpProtocol M' p)
    {e : End} (hstep : receiver.step codec useTcpProtocol (inFlight sender receiver)
      (.read waitEc count receiveEc replies) = some e) :
    Own useTcpProtocol M' e ∧ Conveys codec useTcpProtocol M sender e ∧
      receiver.taken <+: e.taken ∧ receiver.sent <+: e.sent := by
  cases hreading : receiver.peer.rx.reading with
  | false =>
      -- No read is under way.
      have hreceived : receiver.peer.received (.read waitEc
          ((inFlight sender receiver).take count) receiveEc
          fun n => (replies n).answer useTcpProtocol) = (receiver.peer.rx, []) := by
        unfold Duplex.received
        dsimp only
        rw [hreading]
        rfl
      obtain ⟨r, hcalls, hown', htaken, hreports, hclosed⟩ :=
        hown.turn codec [] (by simp) hreplies hown.mode
      rw [step_read hreceived hcalls hstep, hreading, if_neg fun h => nomatch h.1, Nat.add_zero]
      exact ⟨hown' _ _, h.rests hown.joined (fun hc => hclosed (.inl hc)) _ hreports, htaken,
        List.prefix_append _ _⟩
  | true =>
      generalize hchunk : (receiver.peer.tx.socket.receive receiver.peer.rx.room
        ((inFlight sender receiver).take count) receiveEc) = stored at *
      have hreceived : receiver.peer.received (.read waitEc
          ((inFlight sender receiver).take count) receiveEc
          fun n => (replies n).answer useTcpProtocol) =
            ((receiver.peer.rx.finishWaitRx waitEc stored.1 stored.2).1,
              (receiver.peer.rx.finishWaitRx waitEc stored.1 stored.2).2) := by
        unfold Duplex.received
        dsimp only
        rw [hreading, if_pos rfl, hchunk]
      obtain ⟨hroom, hread, htake⟩ := receive_inFlight receiver.peer.tx.socket
        receiver.peer.rx.room count receiveEc h.read_le (congrArg Prod.fst hchunk)
      have hstarted : receiver.started = true := by
        cases hs : receiver.started with
        | true => rfl
        | false =>
            rw [(h.idle hs).2.2] at hreading
            cases hreading
      obtain ⟨n, hn, hheard, hwaits⟩ := h.heard
      by_cases hcloses : waitEc ≠ .success ∨ stored.1 = [] ∨
          stored.2 ≠ .success ∧ stored.2 ≠ .wouldBlock
      · -- The read closes the peer, which may be closed already.
        obtain ⟨ec, hevents⟩ :
            ∃ ec, (receiver.peer.rx.finishWaitRx waitEc stored.1 stored.2).2 =
              if receiver.peer.rx.isClosed then [] else [.closed ec] :=
          finishWaitRx_closes hcloses
        have hclosings : ∀ e ∈ (receiver.peer.rx.finishWaitRx waitEc stored.1 stored.2).2,
            isClosing e = true := by
          rw [hevents]
          intro e he
          split at he
          · cases he
          · rw [List.mem_singleton.mp he]
            rfl
        obtain ⟨hcontrol, hunseen⟩ := closings_events codec useTcpProtocol
          hclosings
        obtain ⟨r, hcalls, hown', htaken, hreports, hclosed⟩ := hown.turn codec _
          hcontrol hreplies ((useTcpProtocol_finishWaitRx _ _ _ _).trans hown.mode)
        have hclosed' : r.1.isClosed = true := by
          apply hclosed
          rw [hevents]
          by_cases hc : receiver.peer.rx.isClosed = true
          · exact .inl (hown.joined.symm.trans hc)
          · rw [if_neg hc]
            exact .inr ⟨ec, List.mem_singleton_self _⟩
        rw [step_read hreceived hcalls hstep, hchunk, hstarted]
        refine ⟨hown' _ _, conveys_ends hclosed' ?_ _ hn hheard ?_, htaken,
          List.prefix_append _ _⟩
        · split
          · exact hread
          · exact h.read_le
        · rw [hreports, hunseen, List.append_nil]
      · have hwait : waitEc = .success := by
          by_contra hwait
          exact hcloses (.inl hwait)
        have hne : stored.1 ≠ [] := fun hnil => hcloses (.inr (.inl hnil))
        subst hwait
        rw [finishWaitRx_of_ready fun herror => hcloses (.inr (.inr herror))] at hreceived
        -- Only an open peer has a socket that hands over bytes.
        have hopen : receiver.isClosed = false := by
          cases hc : receiver.isClosed with
          | false => rfl
          | true =>
              have hsocket : receiver.peer.tx.socket.isOpen = false := hown.sends.socket hc
              unfold Socket.receive at hchunk
              rw [hsocket, if_neg Bool.false_ne_true] at hchunk
              rw [← hchunk] at hne
              exact absurd rfl hne
        obtain ⟨rest, hparse, hmatches⟩ := hwaits hstarted hopen
        obtain ⟨n', hn', rest', hpackets, hparse', hmatches'⟩ := read_on hM hsender.valid
          hsender.taken_prefix hparse hmatches htake (List.length_pos_iff.mpr hne) hroom
        obtain ⟨hcontrol, -⟩ := packets_events hpackets
        obtain ⟨r, hcalls, hown', htaken, hreports, hclosed⟩ := hown.turn codec _
          hcontrol hreplies ((useTcpProtocol_finishWaitRx _ _ _ _).trans hown.mode)
        have hmore : ((sender.sent.take n').map Packet.event).filter
            (Event.seen codec useTcpProtocol) =
              ((sender.sent.take n).map Packet.event).filter (Event.seen codec useTcpProtocol) ++
                reports r.2 := by
          rw [hpackets, List.filter_append, hreports]
        rw [step_read hreceived hcalls hstep, hchunk, hreading, if_pos (by simp), hstarted]
        refine ⟨hown' _ _, ?_, htaken, List.prefix_append _ _⟩
        cases hr : r.1.isClosed with
        | true => exact conveys_ends hr hread _ hn' hheard hmore
        | false =>
            refine ⟨hread, (fun hs => nomatch hs), n', hn', ?_, fun _ _ => ⟨rest', hparse', ?_⟩⟩
            · rw [hmore, ← hheard]
              exact reports_append _ _
            · have hrx : ({ (receiver.peer.rx.finishWaitRx .success stored.1 .success).1 with
                  isClosed := r.1.isClosed } : BasePeer) =
                    (receiver.peer.rx.finishWaitRx .success stored.1 .success).1 := by
                rw [hr, ← hmatches'.1.isClosed_eq]
              show Matches useTcpProtocol M ({
                (receiver.peer.rx.finishWaitRx .success stored.1 .success).1 with
                  isClosed := r.1.isClosed } : BasePeer) _
              rw [hrx]
              exact hmatches'

/-- What the beginning is to an end. -/
theorem step_start {e e' : End} {incoming : Bytes} {handedOver : Option Nat}
    {replies : Nat → Replies} {rx : BasePeer} {events : List Event} {r : Peer × List Event}
    (hstart : e.peer.rx.start (handedOver.map incoming.take) = (rx, events))
    (hcalls : e.peer.tx.calls (e.peer.isSeen codec) (fun n => (replies n).answer useTcpProtocol)
      events = some r)
    (hstep : e.step codec useTcpProtocol incoming (.start handedOver replies) = some e') :
    e.started = false ∧
      e' = { peer := Duplex.join rx r.1, started := true,
             read := e.read + ((handedOver.map incoming.take).getD []).length,
             sent := e.sent ++ answered (e.peer.isSeen codec) (fun n => (replies n).packets) events,
             heard := e.heard ++ r.2 } := by
  unfold End.step at hstep
  dsimp only at hstep
  split at hstep
  · cases hstep
  · rename_i hstarted
    unfold End.advance Duplex.step Duplex.received at hstep
    dsimp only at hstep
    rw [hstart] at hstep
    dsimp only at hstep
    rw [hcalls, Option.map_some, Option.map_some] at hstep
    exact ⟨Bool.eq_false_iff.mpr hstarted, (Option.some.inj hstep).symm⟩

theorem useTcpProtocol_start {p : BasePeer} (hle : p.rxBuffer.length ≤ p.rxBufferMax)
    (handedOver : Option Bytes) :
    (p.start handedOver).1.useTcpProtocol = p.useTcpProtocol := by
  cases handedOver with
  | none => rfl
  | some data =>
      unfold BasePeer.start runWith
      dsimp only
      split
      · exact (useTcpProtocol_close _ _).trans (makeRoom_fields p _ hle).1
      · exact (useTcpProtocol_processBuffer _).trans (makeRoom_fields p _ hle).1

/-- More than the receive buffer may hold. -/
theorem start_of_too_long (useTcpProtocol b : Bool) {data : Bytes} (hlong : M < data.length) :
    (({ BasePeer.new useTcpProtocol M with isClosed := b } : BasePeer).start (some data)).2 =
      if b then [] else [.closed .noBufferSpace] := by
  have hroom := (makeRoom_fields ({ BasePeer.new useTcpProtocol M with isClosed := b } : BasePeer)
    data.length (by simp [BasePeer.new])).2
  have hshort : (({ BasePeer.new useTcpProtocol M with isClosed := b } : BasePeer).makeRoom
      data.length).rxBuffer.length < data.length := Nat.lt_of_le_of_lt hroom hlong
  unfold BasePeer.start runWith
  dsimp only
  rw [if_pos hshort, close_events, makeRoom_isClosed]

/-- What fits the receive buffer is taken like anything else. -/
theorem start_of_fitting (hM : 0 < M) (b : Bool) (handedOver : Option Bytes)
    (hfit : (handedOver.getD []).length ≤ M) {sent : List Packet} {n : Nat} {rest : Bytes}
    (hvalid : ∀ p ∈ sent, Valid useTcpProtocol M p)
    (hparse : (framer useTcpProtocol widened).parse M (handedOver.getD []) =
      ((sent.take n).map (Packet.toFrame useTcpProtocol), .waiting rest)) :
    (({ BasePeer.new useTcpProtocol M with isClosed := b } : BasePeer).start handedOver).2 =
        (sent.take n).map Packet.event ∧
      (b = false → Matches useTcpProtocol M
        (({ BasePeer.new useTcpProtocol M with isClosed := b } : BasePeer).start handedOver).1
          (.waiting rest)) := by
  obtain ⟨hevents, hmatches⟩ := start_spec useTcpProtocol hM handedOver hfit
  rw [hparse] at hmatches
  rw [parseEvents, hparse, eventsOf_toFrame fun p hp => hvalid p (List.mem_of_mem_take hp)]
    at hevents
  rw [show (closing (.waiting rest) : List Event) = [] from rfl, List.append_nil] at hevents
  cases b with
  | false => exact ⟨hevents, fun _ => hmatches⟩
  | true =>
      refine ⟨?_, fun hb => Bool.noConfusion hb⟩
      obtain ⟨closings, hsplit, hclosings⟩ := start_shut (p := BasePeer.new useTcpProtocol M) rfl
        handedOver
      rw [hevents] at hsplit
      have hnone : closings = [] := by
        rw [List.eq_nil_iff_forall_not_mem]
        intro e he
        have hpacket := (packets_events hsplit).2 e he
        rw [hclosings e he] at hpacket
        cases hpacket
      rw [hnone, List.append_nil] at hsplit
      exact hsplit.symm

/-- **The receiver begins.** -/
theorem Conveys.starts {M' : Nat} (hM : 0 < M) (hsender : Own useTcpProtocol M sender)
    (hown : Own useTcpProtocol M' receiver)
    (h : Conveys codec useTcpProtocol M sender receiver) {handedOver : Option Nat}
    {replies : Nat → Replies}
    (hreplies : ∀ n, ∀ p ∈ (replies n).packets, Valid useTcpProtocol M' p)
    {e : End} (hstep : receiver.step codec useTcpProtocol (inFlight sender receiver)
      (.start handedOver replies) = some e) :
    Own useTcpProtocol M' e ∧ Conveys codec useTcpProtocol M sender e ∧
      receiver.taken <+: e.taken ∧ receiver.sent <+: e.sent := by
  have hstarted : receiver.started = false := by
    cases hs : receiver.started with
    | false => rfl
    | true =>
        unfold End.step at hstep
        dsimp only at hstep
        rw [hs, if_pos rfl] at hstep
        cases hstep
  obtain ⟨hread, hheard, hrx⟩ := h.idle hstarted
  obtain ⟨data, hdata⟩ : ∃ data : Option Bytes,
      handedOver.map (inFlight sender receiver).take = data := ⟨_, rfl⟩
  -- What is handed over is the beginning of the stream.
  have hahead : data.getD [] <+: sender.taken := by
    rw [← hdata]
    cases handedOver with
    | none => exact List.nil_prefix
    | some count =>
        have htake := List.take_prefix count (inFlight sender receiver)
        unfold inFlight at htake ⊢
        rw [hread] at htake ⊢
        exact htake
  have hmode : (receiver.peer.rx.start data).1.useTcpProtocol = useTcpProtocol := by
    rw [useTcpProtocol_start (by rw [hrx]; simp [BasePeer.new]) data]
    exact hown.mode
  have hheard' : reports receiver.heard =
      ((sender.sent.take 0).map Packet.event).filter (Event.seen codec useTcpProtocol) := hheard
  have hread' : receiver.read + (data.getD []).length ≤ sender.taken.length := by
    rw [hread, Nat.zero_add]
    exact hahead.length_le
  by_cases hfit : (data.getD []).length ≤ M
  · obtain ⟨n', hn', rest', hparse⟩ := parse_sent hM hsender.valid
      (hahead.trans hsender.taken_prefix)
    obtain ⟨hevents, hmatches⟩ := start_of_fitting hM receiver.isClosed data hfit hsender.valid
      hparse
    rw [← hrx] at hevents hmatches
    have hpackets : (sender.sent.take n').map Packet.event =
        [] ++ (receiver.peer.rx.start data).2 := hevents.symm
    obtain ⟨hcontrol, -⟩ := packets_events hpackets
    obtain ⟨r, hcalls, hown', htaken, hreports, hclosed⟩ := hown.turn codec _
      hcontrol hreplies hmode
    have hmore : ((sender.sent.take n').map Packet.event).filter
        (Event.seen codec useTcpProtocol) =
          ((sender.sent.take 0).map Packet.event).filter (Event.seen codec useTcpProtocol) ++
            reports r.2 := by
      rw [hreports, hevents, List.take_zero, List.map_nil, List.filter_nil, List.nil_append]
    obtain ⟨-, rfl⟩ := step_start (by rw [hdata]) hcalls hstep
    rw [hdata]
    refine ⟨hown' _ _, ?_, htaken, List.prefix_append _ _⟩
    cases hr : r.1.isClosed with
    | true => exact conveys_ends hr hread' _ hn' hheard' hmore
    | false =>
        have hopen : receiver.isClosed = false := by
          cases hc : receiver.isClosed with
          | false => rfl
          | true => exact (hclosed (.inl hc)).symm.trans hr
        have hmatches' := hmatches hopen
        refine ⟨hread', (fun hs => Bool.noConfusion hs), n', hn', ?_, fun _ _ => ⟨rest', ?_, ?_⟩⟩
        · rw [hmore, ← hheard']
          exact reports_append _ _
        · rw [hread, Nat.zero_add, ← List.prefix_iff_eq_take.mp hahead]
          exact hparse
        · have hsame : ({ (receiver.peer.rx.start data).1 with isClosed := r.1.isClosed } :
              BasePeer) = (receiver.peer.rx.start data).1 := by
            rw [hr, ← hmatches'.1.isClosed_eq]
          show Matches useTcpProtocol M ({ (receiver.peer.rx.start data).1 with
            isClosed := r.1.isClosed } : BasePeer) _
          rw [hsame]
          exact hmatches'
  · cases data with
    | none => exact absurd (Nat.zero_le M) hfit
    | some bytes =>
        have hevents := start_of_too_long useTcpProtocol receiver.isClosed
          (show M < bytes.length from Nat.lt_of_not_le hfit)
        rw [← hrx] at hevents
        have hclosings : ∀ e ∈ (receiver.peer.rx.start (some bytes)).2, isClosing e = true := by
          rw [hevents]
          intro e he
          split at he
          · cases he
          · rw [List.mem_singleton.mp he]
            rfl
        obtain ⟨hcontrol, hunseen⟩ := closings_events codec useTcpProtocol
          hclosings
        obtain ⟨r, hcalls, hown', htaken, hreports, hclosed⟩ := hown.turn codec _
          hcontrol hreplies hmode
        have hclosed' : r.1.isClosed = true := by
          apply hclosed
          rw [hevents]
          by_cases hc : receiver.isClosed = true
          · exact .inl hc
          · rw [if_neg hc]
            exact .inr ⟨_, List.mem_singleton_self _⟩
        obtain ⟨-, rfl⟩ := step_start (by rw [hdata]) hcalls hstep
        rw [hdata]
        refine ⟨hown' _ _, conveys_ends hclosed' hread' _ (Nat.zero_le _) hheard' ?_, htaken,
          List.prefix_append _ _⟩
        rw [hreports, hunseen, List.append_nil]

/-- **A step that has nothing to do with the receive path.** -/
theorem Conveys.acts {M' : Nat} (hown : Own useTcpProtocol M' receiver)
    (h : Conveys codec useTcpProtocol M sender receiver) {action : Peer.Action} {p : Peer}
    (hact : ((Peer.History.mk receiver.peer.tx []).step action).map Peer.History.peer = some p)
    (hkeep : receiver.isClosed = true → p.isClosed = true) {packets : List Packet}
    (hsends : Sends useTcpProtocol p (receiver.sent ++ packets))
    (hvalid : ∀ q ∈ packets, Valid useTcpProtocol M' q)
    (htaken : receiver.taken <+: p.socket.taken) {e : End}
    (hstep : receiver.advance codec (.act action) 0 packets = some e) :
    Own useTcpProtocol M' e ∧ Conveys codec useTcpProtocol M sender e ∧
      receiver.taken <+: e.taken ∧ receiver.sent <+: e.sent := by
  obtain ⟨h', hh, rfl⟩ := Option.map_eq_some_iff.mp hact
  unfold End.advance Duplex.step at hstep
  dsimp only at hstep
  rw [hh, Option.map_some, Option.map_some] at hstep
  rw [← Option.some.inj hstep]
  refine ⟨⟨hsends, ?_, rfl, hown.mode⟩, h.rests hown.joined hkeep _ (reports_closure _ _), htaken,
    List.prefix_append _ _⟩
  intro q hq
  rcases List.mem_append.mp hq with hq | hq
  · exact hown.valid q hq
  · exact hvalid q hq

/-- **One step of the receiver.** -/
theorem Conveys.receives {M' : Nat} (hM : 0 < M) (hsender : Own useTcpProtocol M sender)
    (hown : Own useTcpProtocol M' receiver)
    (h : Conveys codec useTcpProtocol M sender receiver) {deed : Deed}
    (hdeed : deed.Sends (Valid useTcpProtocol M')) {e : End}
    (hstep : receiver.step codec useTcpProtocol (inFlight sender receiver) deed = some e) :
    Own useTcpProtocol M' e ∧ Conveys codec useTcpProtocol M sender e ∧
      receiver.taken <+: e.taken ∧ receiver.sent <+: e.sent := by
  have hsound : receiver.peer.tx.Sound := ⟨_, hown.sends⟩
  cases deed with
  | start handedOver replies => exact h.starts hM hsender hown hdeed hstep
  | read waitEc count receiveEc replies => exact h.reads hM hsender hown hdeed hstep
  | send packet outcome =>
      obtain ⟨p, hwrite, hsends⟩ := hown.sends.write packet outcome
      refine h.acts hown ?_ (fun hc => Peer.write_of_closed hsound hc hwrite) hsends
        (List.forall_mem_singleton.mpr hdeed) (taken_write hown.sends.buffer _ _ _ hwrite) hstep
      rw [Peer.History.step, hwrite]
      rfl
  | finishWaitTx waitEc outcome =>
      obtain ⟨p, hfinish, hinv⟩ := Peer.Inv.finishWaitTx hown.sends waitEc outcome
      refine h.acts hown ?_ (fun hc => Peer.finishWaitTx_of_closed hsound hc hfinish) ?_
        (List.forall_mem_nil _) (taken_finishWaitTx _ _ hfinish) hstep
      · rw [Peer.History.step, hfinish]
        rfl
      · rw [List.append_nil]
        exact hinv
  | stop =>
      have hact : ((Peer.History.mk receiver.peer.tx []).step .stop).map Peer.History.peer =
          some receiver.peer.tx.stop := rfl
      refine h.acts hown hact id ?_ (List.forall_mem_nil _) (List.prefix_refl _) hstep
      rw [List.append_nil]
      exact Peer.Inv.stop hown.sends

end Packets

/-! ## Whole runs -/

/-- Both directions. -/
abbrev Good (codec : JsonCodec) (useTcpProtocol : Bool) (rxLeft rxRight : Nat) (c : Pair) : Prop :=
  Both (Own useTcpProtocol) (Conveys codec useTcpProtocol) rxLeft rxRight c

/-- Everything that the sender was told to send has been taken by its socket and
read by the receiver, and both peers are open. -/
structure Through (sender receiver : End) : Prop where
  sending : sender.isClosed = false
  empty : sender.peer.tx.txBuffer.empty = true
  started : receiver.started = true
  receiving : receiver.isClosed = false
  read : receiver.read = sender.taken.length

section Run

variable {codec : JsonCodec} {useTcpProtocol : Bool} {rxLeft rxRight : Nat} {c : Pair}

/-- **One step of either end.** -/
theorem Good.step (hleft : 0 < rxLeft) (hright : 0 < rxRight)
    (h : Good codec useTcpProtocol rxLeft rxRight c) (s : Side × Deed)
    (hdeed : s.2.Sends (Valid useTcpProtocol (room rxLeft rxRight s.1))) {c' : Pair}
    (hstep : Pair.step codec useTcpProtocol c s = some c') :
    Good codec useTcpProtocol rxLeft rxRight c' := by
  obtain ⟨side, deed⟩ := s
  apply Both.step h hstep
  intro e he
  obtain ⟨hown, hconveys, htaken, hsent⟩ := (h.receives side).receives
    (room_pos hleft hright side.other) (h.own side.other) (h.own side) hdeed he
  exact ⟨hown, hconveys, (h.conveys side).sends htaken hsent⟩

theorem own_new (useTcpProtocol : Bool) (rxBufferSize txBufferSize M : Nat) :
    Own useTcpProtocol M (.new useTcpProtocol rxBufferSize txBufferSize) :=
  ⟨Peer.inv_new useTcpProtocol txBufferSize, by simp [End.new], rfl, rfl⟩

theorem conveys_new (codec : JsonCodec) (useTcpProtocol : Bool) (sender : End)
    (rxBufferSize txBufferSize : Nat) :
    Conveys codec useTcpProtocol rxBufferSize sender
      (.new useTcpProtocol rxBufferSize txBufferSize) := by
  refine ⟨Nat.zero_le _, fun _ => ⟨rfl, rfl, rfl⟩, 0, Nat.zero_le _, rfl, ?_⟩
  intro hstarted
  cases hstarted

theorem Conveys.conveyed {M : Nat} {sender receiver : End} (hM : 0 < M)
    (hown : Own useTcpProtocol M sender) (h : Conveys codec useTcpProtocol M sender receiver) :
    Conveyed codec useTcpProtocol sender.toLog receiver.toLog (Through sender receiver) := by
  obtain ⟨n, hn, hreports, hwaits⟩ := h.heard
  refine ⟨n, hn, hreports, ?_⟩
  rintro ⟨hsender, hempty, hstarted, hopen, hread⟩
  obtain ⟨rest, hparse, -⟩ := hwaits hstarted hopen
  -- Nothing is left in the transmit buffer, so the socket has taken the whole stream.
  have hcontents : sender.peer.tx.txBuffer.contents = [] := by
    rw [DynamicBuffer.empty, beq_iff_eq, hown.sends.buffer.size_eq] at hempty
    exact List.length_eq_zero_iff.mp hempty
  have htaken := hown.sends.queued hsender
  rw [hcontents, List.append_nil, stream_written] at htaken
  have hall := parse_all hM hown.valid
  rw [← htaken] at hall
  rw [hread, List.take_length] at hparse
  have hlength := congrArg (fun r => r.1.length) (hparse.symm.trans hall)
  simp only [List.length_map, List.length_take, Nat.min_eq_left hn] at hlength
  exact hlength

end Run

/-- **A conversation conveys packets.**  In every run of two peers of this
implementation on the two ends of a connection, over either transport, in which
the other end can receive what is sent (`Valid`), whatever the sockets take,
however the streams are cut, and whatever fails or is stopped: each end hears the
first packets that the other one was told to send, those that its receive path
raises, in order, none left out, none twice, and nothing else, so that neither
ever replies to a control frame; and once everything is through, it has got to
the last packet. -/
theorem conversation_conveys (codec : JsonCodec) (useTcpProtocol : Bool)
    {rxLeft rxRight : Nat} (hleft : 0 < rxLeft) (hright : 0 < rxRight) (txLeft txRight : Nat)
    (steps : List (Side × Deed))
    (hpackets : ∀ s ∈ steps, s.2.Sends (Valid useTcpProtocol (room rxLeft rxRight s.1)))
    {c : Pair}
    (hrun : steps.foldlM (Pair.step codec useTcpProtocol)
      ⟨.new useTcpProtocol rxLeft txLeft, .new useTcpProtocol rxRight txRight⟩ = some c) :
    Conveyed codec useTcpProtocol c.left.toLog c.right.toLog (Through c.left c.right) ∧
      Conveyed codec useTcpProtocol c.right.toLog c.left.toLog (Through c.right c.left) := by
  have hgood : Good codec useTcpProtocol rxLeft rxRight c :=
    foldlM_preserves_of_meets
      (fun _ s _ h hdeed hstep => Good.step hleft hright h s hdeed hstep) steps _ _
      (both_new (own_new _ _ _ _) (own_new _ _ _ _) (conveys_new _ _ _ _ _)
        (conveys_new _ _ _ _ _)) (meetsOpt_of_inputs steps hpackets _) hrun
  exact ⟨(hgood.conveys .left).conveyed hright (hgood.own .left),
    (hgood.conveys .right).conveyed hleft (hgood.own .right)⟩

/-- A data packet of signal 1 and the answer to it. -/
def question : Packet := ⟨1, StreamingProtocol.packetTypeData, [[0x05]]⟩

/-- The socket of the left end takes two bytes of a packet and the others later;
the right end, which is handed over one of them, answers from its slot. -/
def exchange : List (Side × Deed) :=
  [(.left, .send question (.sent 2)),
    (.right, .start (some 1) fun _ => ⟨.sent 0, []⟩),
    (.left, .start none fun _ => ⟨.sent 0, []⟩),
    (.left, .finishWaitTx .success (.sent 3)),
    (.right, .read .success 4 .success fun _ => ⟨.sent 0, [.send question (.sent 16)]⟩),
    (.left, .read .success 16 .success fun _ => ⟨.sent 0, []⟩)]

theorem conversation_conveys_exchange :
    ∃ c, exchange.foldlM (Pair.step Duplex.noMetadata true) ⟨.new true 16 16, .new true 16 16⟩ =
        some c ∧
      c.left.heard = [.dataPacket 1 [0x05]] ∧ c.right.heard = [.dataPacket 1 [0x05]] ∧
      Conveyed Duplex.noMetadata true c.left.toLog c.right.toLog (Through c.left c.right) ∧
      Conveyed Duplex.noMetadata true c.right.toLog c.left.toLog (Through c.right c.left) := by
  have hvalid : Valid true 16 question :=
    ⟨⟨by decide, .inl rfl⟩, by decide, by decide⟩
  have hpackets : ∀ s ∈ exchange, s.2.Sends (Valid true (room 16 16 s.1)) := by
    intro s hs
    simp only [exchange, List.mem_cons, List.not_mem_nil, or_false] at hs
    rcases hs with rfl | rfl | rfl | rfl | rfl | rfl
    · exact hvalid
    · exact fun _ => List.forall_mem_nil _
    · exact fun _ => List.forall_mem_nil _
    · trivial
    · exact fun _ => List.forall_mem_singleton.mpr hvalid
    · exact fun _ => List.forall_mem_nil _
  have hheard : (exchange.foldlM (Pair.step Duplex.noMetadata true)
      ⟨.new true 16 16, .new true 16 16⟩).map (fun c => (c.left.heard, c.right.heard)) =
        some ([.dataPacket 1 [0x05]], [.dataPacket 1 [0x05]]) := by
    decide +kernel
  obtain ⟨c, hc, hboth⟩ := Option.map_eq_some_iff.mp hheard
  obtain ⟨hleft, hright⟩ := Prod.mk.inj hboth
  exact ⟨c, hc, hleft, hright,
    conversation_conveys Duplex.noMetadata true (by decide) (by decide) 16 16 exchange hpackets hc⟩

end Conversation

end WsStreaming.Ports
