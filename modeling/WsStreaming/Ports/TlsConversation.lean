import WsStreaming.Ports.PeerTlsQueue
import WsStreaming.Ports.Conversation

/-!
# Two TLS peers in conversation

The same over TLS, where a peer has another transmit path, which queues what it
sends and writes one message at a time, and another read handler.

One thing is different.  A read that is complete may have its handler run after
the peer was closed, and what it has read is then handed on behind `on_closed`;
it is the next part of the stream all the same.

## Main results

* `Conveys.turns` — what the receive path of an end hands on.
* `tls_conversation_conveys` — whole runs of both ends.
-/

namespace WsStreaming.Ports

open WsStreaming.Verified.Run
open WsStreaming.Verified.Wire WsStreaming.Verified.Blocks WsStreaming.Verified.Framing
open StreamingProtocol (widened)
open BasePeer

namespace TlsConversation

open Conversation (Side Log Ends Both Conveyed Valid answered mem_answered buffers flatten_buffers
  reports reports_append isClosing shut parse_sent parse_all read_on packets_events closings_events
  start_of_fitting start_of_too_long take_ahead room room_pos both_new)

/-! ## The two ends -/

/-- `peer_tls::finish_read`, when `data` was transferred. -/
def finishRead (p : BasePeer) (ec : ErrorCode) (data : Bytes) : BasePeer × List Event :=
  let p := { p with reading := false }
  if ec ≠ .success then p.close ec
  else if data.length = 0 then p.close .success
  else
    processBuffer { p with
      rxBuffer := overwrite p.rxBuffer p.rxBufferBytes data
      rxBufferBytes := p.rxBufferBytes + data.length }

/-- What a slot of an end does. -/
inductive Reply where
  | send (packet : Packet)
  | stop
deriving DecidableEq, Repr

/-- A write of these buffers, with their size. -/
def writing (buffers : List Bytes) (doShutdownAfter : Bool) : PeerTls.Action :=
  .write buffers (some buffers.flatten.length) doShutdownAfter

/-- What a slot does to its peer. -/
def Reply.action (useTcpProtocol : Bool) : Reply → PeerTls.Action
  | .send packet => writing (buffers useTcpProtocol packet) false
  | .stop => .stop

/-- The packet that a slot sends. -/
def Reply.packet? : Reply → Option Packet
  | .send packet => some packet
  | .stop => none

/-- What a call of the receive path does to the peer. -/
def callActions (useTcpProtocol : Bool) (isSeen : Event → Bool) (slots : List Reply) :
    Event → List PeerTls.Action
  | .controlFrame opcode payload shutdownAfter =>
      [writing (Peer.websocketFrame opcode [payload]) shutdownAfter]
  | .closed ec => [.close ec]
  | .dataPacket _ _ => slots.map (Reply.action useTcpProtocol)
  | .metadataPacket signo payload =>
      if isSeen (.metadataPacket signo payload) then slots.map (Reply.action useTcpProtocol) else []

/-- `on_closed`, if the peer was closed in between. -/
def closure (p p' : PeerTls) : List Event :=
  match p.closing, p'.closing with
  | none, some ec => [.closed ec]
  | _, _ => []

/-- The calls of the receive path in order, and what is raised and replied. -/
def calls (useTcpProtocol : Bool) (isSeen : Event → Bool) (h : PeerTls.History)
    (replies : Nat → List Reply) : List Event → Option (PeerTls.History × List Event)
  | [] => some (h, [])
  | e :: es =>
      ((callActions useTcpProtocol isSeen (replies 0) e).foldlM PeerTls.History.step h).bind
        fun h' =>
          (calls useTcpProtocol isSeen h' (fun n => replies (n + 1)) es).map fun r =>
            (r.1, (if isSeen e then [e] else []) ++ closure h.peer h'.peer ++ r.2)

/-- The packets that slots send. -/
def packetsOf (slots : List Reply) : List Packet := slots.filterMap Reply.packet?

/-- One end: its receive path, its transmit path and its log. -/
structure End extends Log where
  rx : BasePeer
  tx : PeerTls.History

/-- What can happen to an end. -/
inductive Deed where
  /-- The handler that `run()` or `run(data, size)` posts; the data that is
  handed over was read from the same stream. -/
  | start (handedOver : Option Nat) (replies : Nat → List Reply)
  /-- The handler of the read that was started; `count` bytes have arrived. -/
  | read (ec : ErrorCode) (count : Nat) (replies : Nat → List Reply)
  /-- `send_data` or `send_metadata`, from outside. -/
  | send (packet : Packet)
  | transmit (i n : Nat) (ec : ErrorCode)
  | finishWrite (i : Nat)
  | stop

namespace End

/-- A new end. -/
def new (useTcpProtocol : Bool) (rxBufferSize txBufferSize : Nat) : End :=
  { rx := .new useTcpProtocol rxBufferSize, tx := .new txBufferSize }

/-- The bytes that its stream has taken. -/
def taken (e : End) : Bytes := e.tx.peer.stream.taken

/-- `_is_closed`. -/
def isClosed (e : End) : Bool := e.tx.peer.isClosed

/-- Both paths with the same `_is_closed`. -/
def join (e : End) (rx : BasePeer) (tx : PeerTls.History) : End :=
  { e with rx := { rx with isClosed := tx.peer.isClosed }, tx := tx }

/-- A turn of the receive path, which has taken `consumed` bytes. -/
def turn (codec : JsonCodec) (useTcpProtocol : Bool) (e : End) (received : BasePeer × List Event)
    (consumed : Nat) (replies : Nat → List Reply) : Option End :=
  let isSeen := Event.seen codec useTcpProtocol
  (calls useTcpProtocol isSeen e.tx replies received.2).map fun r =>
    { e.join received.1 r.1 with
      started := true
      read := e.read + consumed
      sent := e.sent ++ answered isSeen (fun n => packetsOf (replies n)) received.2
      heard := e.heard ++ r.2 }

/-- A step of the transmit path. -/
def act (e : End) (action : PeerTls.Action) (packets : List Packet) : Option End :=
  (e.tx.step action).map fun tx =>
    { e.join e.rx tx with
      sent := e.sent ++ packets
      heard := e.heard ++ closure e.tx.peer tx.peer }

/-- One step, while `incoming` is on the way.  An end is started once, and no
handler runs of a read that was not started. -/
def step (codec : JsonCodec) (useTcpProtocol : Bool) (incoming : Bytes) (e : End) :
    Deed → Option End
  | .start handedOver replies =>
      if e.started then some e
      else
        let data := handedOver.map incoming.take
        e.turn codec useTcpProtocol (e.rx.start data) (data.getD []).length replies
  | .read ec count replies =>
      if e.rx.reading then
        let data := if ec = .success then incoming.take (min count e.rx.room) else []
        e.turn codec useTcpProtocol (finishRead e.rx ec data) data.length replies
      else some e
  | .send packet => e.act (writing (buffers useTcpProtocol packet) false) [packet]
  | .transmit i n ec => e.act (.transmit i n ec) []
  | .finishWrite i => e.act (.finishWrite i) []
  | .stop => e.act .stop []

end End

/-- The packets that a deed may send. -/
def Deed.Sends (P : Packet → Prop) : Deed → Prop
  | .start _ replies | .read _ _ replies => ∀ n, ∀ p ∈ packetsOf (replies n), P p
  | .send packet => P packet
  | .transmit _ _ _ | .finishWrite _ | .stop => True

/-- Both ends. -/
abbrev Pair := Ends End

/-- What of `sender` has not been read by `receiver`. -/
def inFlight (sender receiver : End) : Bytes := sender.taken.drop receiver.read

/-- One step of one end. -/
def Pair.step (codec : JsonCodec) (useTcpProtocol : Bool) (c : Pair) (s : Side × Deed) :
    Option Pair :=
  Ends.step (fun other e => e.step codec useTcpProtocol (inFlight other e)) c s

/-! ## The transmit path -/

section Transmit

variable {useTcpProtocol : Bool} {h h' : PeerTls.History} {sent : List Packet}

/-- The message of a packet, as it is logged. -/
def message (useTcpProtocol : Bool) (p : Packet) : TxMessage := ⟨p.bytes useTcpProtocol, false⟩

/-- A peer whose messages are packets. -/
structure Sends (useTcpProtocol : Bool) (h : PeerTls.History) (sent : List Packet) : Prop where
  inv : PeerTls.Inv h
  written : h.written = sent.map (message useTcpProtocol)

theorem written_writing (p : Packet) :
    (writing (buffers useTcpProtocol p) false).written = some (message useTcpProtocol p) := by
  show some (PeerTls.txMessage _ _ _) = _
  unfold PeerTls.txMessage bufferCopy
  rw [Option.getD_some, List.take_length, Nat.sub_self, List.replicate_zero, List.append_nil,
    flatten_buffers]
  rfl

theorem taken_doWrite {p q : PeerTls} (hp : p.doWrite = some q) :
    q.stream.taken = p.stream.taken := by
  unfold PeerTls.doWrite at hp
  split at hp
  · cases hp
  · rw [← Option.some.inj hp]
    rfl

theorem taken_close (p : PeerTls) (ec : ErrorCode) :
    (p.close ec).stream.taken = p.stream.taken := by
  unfold PeerTls.close
  split <;> rfl

/-- What the stream has taken, it keeps. -/
theorem taken_step {a : PeerTls.Action} (hstep : h.step a = some h') :
    h.peer.stream.taken <+: h'.peer.stream.taken := by
  have hsame (heq : h'.peer.stream.taken = h.peer.stream.taken) :
      h.peer.stream.taken <+: h'.peer.stream.taken := by
    rw [heq]
  cases a with
  | write buffers size doShutdownAfter =>
      obtain ⟨p, hp, rfl⟩ := Option.map_eq_some_iff.mp hstep
      unfold PeerTls.write at hp
      apply hsame
      split at hp
      · rw [← Option.some.inj hp]
      · dsimp only at hp
        split at hp
        · rw [← Option.some.inj hp]
          exact taken_close _ _
        · split at hp
          · rw [← Option.some.inj hp]
          · have htaken := taken_doWrite hp
            exact htaken
  | transmit i n ec =>
      obtain rfl := Option.some.inj hstep
      rw [PeerTls.History.transmit]
      split
      · exact List.prefix_refl _
      · split
        · exact List.prefix_append _ _
        · exact List.prefix_refl _
  | finishWrite i =>
      rw [PeerTls.History.step] at hstep
      apply hsame
      split at hstep
      · rw [← Option.some.inj hstep]
      · obtain ⟨p, hp, rfl⟩ := Option.map_eq_some_iff.mp hstep
        unfold PeerTls.finishWrite at hp
        dsimp only at hp
        split at hp
        · rw [← Option.some.inj hp]
          exact taken_close _ _
        · split at hp
          · cases hp
          · split at hp
            · rw [← Option.some.inj hp]
              exact taken_close _ _
            · split at hp
              · rw [← Option.some.inj hp]
              · have htaken := taken_doWrite hp
                exact htaken
  | close ec =>
      obtain rfl := Option.some.inj hstep
      exact hsame (taken_close _ _)
  | stop =>
      obtain rfl := Option.some.inj hstep
      exact List.prefix_refl _

theorem isClosed_step {a : PeerTls.Action} (hstep : h.step a = some h')
    (hclosed : h.peer.isClosed = true) : h'.peer.isClosed = true := by
  rw [PeerTls.isClosed_iff] at hclosed ⊢
  rw [PeerTls.step_closed hstep hclosed]
  exact hclosed

/-- **One step of the transmit path**, which writes packets or nothing. -/
theorem Sends.step (hsends : Sends useTcpProtocol h sent) {a : PeerTls.Action}
    {packets : List Packet} (ha : a.written.toList = packets.map (message useTcpProtocol)) :
    ∃ h', h.step a = some h' ∧ Sends useTcpProtocol h' (sent ++ packets) ∧
      h.peer.stream.taken <+: h'.peer.stream.taken ∧
      (h.peer.isClosed = true → h'.peer.isClosed = true) := by
  obtain ⟨h', hstep, hinv⟩ := hsends.inv.step a
  refine ⟨h', hstep, ⟨hinv, ?_⟩, taken_step hstep, isClosed_step hstep⟩
  rw [PeerTls.step_written hstep, hsends.written, ha, List.map_append]

/-- What the slots of a signal send. -/
theorem Sends.slots (slots : List Reply) :
    ∀ {h : PeerTls.History} {sent : List Packet}, Sends useTcpProtocol h sent →
      ∃ h', (slots.map (Reply.action useTcpProtocol)).foldlM PeerTls.History.step h = some h' ∧
        Sends useTcpProtocol h' (sent ++ packetsOf slots) ∧
        h.peer.stream.taken <+: h'.peer.stream.taken ∧
        (h.peer.isClosed = true → h'.peer.isClosed = true) := by
  induction slots with
  | nil =>
      intro h sent hsends
      rw [packetsOf, List.filterMap_nil, List.append_nil]
      exact ⟨h, rfl, hsends, List.prefix_refl _, id⟩
  | cons reply slots ih =>
      intro h sent hsends
      obtain ⟨h₁, hstep, hsends₁, htaken₁, hkeep₁⟩ :=
        hsends.step (show (reply.action useTcpProtocol).written.toList =
          reply.packet?.toList.map (message useTcpProtocol) by
          cases reply with
          | send packet =>
              rw [Reply.action, written_writing]
              rfl
          | stop => rfl)
      obtain ⟨h', hslots, hsends', htaken, hkeep⟩ := ih hsends₁
      refine ⟨h', ?_, ?_, htaken₁.trans htaken, hkeep ∘ hkeep₁⟩
      · rw [List.map_cons, List.foldlM_cons, hstep]
        exact hslots
      · rw [List.append_assoc] at hsends'
        cases reply with
        | send packet => exact hsends'
        | stop => exact hsends'

theorem reports_closure (p p' : PeerTls) : reports (closure p p') = [] := by
  unfold closure
  split <;> rfl

/-- **The calls of the receive path**, none of which is a reply: the slots send
their packets, and whatever is seen outside is raised. -/
theorem Sends.calls (isSeen : Event → Bool) (hunseen : ∀ ec, isSeen (.closed ec) = false)
    (events : List Event)
    (hevents : ∀ opcode payload shutdownAfter,
      Event.controlFrame opcode payload shutdownAfter ∉ events) :
    ∀ {h : PeerTls.History} {sent : List Packet} (replies : Nat → List Reply),
      Sends useTcpProtocol h sent →
      ∃ r, calls useTcpProtocol isSeen h replies events = some r ∧
        Sends useTcpProtocol r.1 (sent ++ answered isSeen (fun n => packetsOf (replies n)) events) ∧
        h.peer.stream.taken <+: r.1.peer.stream.taken ∧ reports r.2 = events.filter isSeen ∧
        (h.peer.isClosed = true ∨ (∃ ec, Event.closed ec ∈ events) → r.1.peer.isClosed = true) := by
  induction events with
  | nil =>
      intro h sent replies hsends
      refine ⟨(h, []), rfl, ?_, List.prefix_refl _, rfl, ?_⟩
      · rw [answered, List.append_nil]
        exact hsends
      · rintro (hclosed | ⟨ec, hec⟩)
        · exact hclosed
        · cases hec
  | cons e es ih =>
      intro h sent replies hsends
      -- One call, and then the others.
      have hcons (h₁ : PeerTls.History) (packets : List Packet)
          (hcall : (callActions useTcpProtocol isSeen (replies 0) e).foldlM PeerTls.History.step h =
            some h₁)
          (hsends₁ : Sends useTcpProtocol h₁ (sent ++ packets))
          (htaken : h.peer.stream.taken <+: h₁.peer.stream.taken)
          (hkeep : h.peer.isClosed = true ∨ (∃ ec, e = .closed ec) → h₁.peer.isClosed = true)
          (hanswered : answered isSeen (fun n => packetsOf (replies n)) (e :: es) =
            packets ++ answered isSeen (fun n => packetsOf (replies (n + 1))) es)
          (hseen : reports (if isSeen e then [e] else []) = [e].filter isSeen) :
          ∃ r, TlsConversation.calls useTcpProtocol isSeen h replies (e :: es) = some r ∧
            Sends useTcpProtocol r.1
              (sent ++ answered isSeen (fun n => packetsOf (replies n)) (e :: es)) ∧
            h.peer.stream.taken <+: r.1.peer.stream.taken ∧
            reports r.2 = (e :: es).filter isSeen ∧
            (h.peer.isClosed = true ∨ (∃ ec, Event.closed ec ∈ e :: es) →
              r.1.peer.isClosed = true) := by
        obtain ⟨r, hr, hsends', htaken', hreports, hclosed⟩ :=
          ih (fun opcode payload shutdownAfter hmem =>
            hevents opcode payload shutdownAfter (List.mem_cons_of_mem _ hmem))
            (fun n => replies (n + 1)) hsends₁
        refine ⟨(r.1, (if isSeen e then [e] else []) ++ closure h.peer h₁.peer ++ r.2), ?_, ?_,
          htaken.trans htaken', ?_, ?_⟩
        · rw [TlsConversation.calls, hcall, Option.bind_some, hr, Option.map_some]
        · rw [hanswered, ← List.append_assoc]
          exact hsends'
        · rw [reports_append, reports_append, hseen, reports_closure, hreports, List.append_nil,
            ← List.filter_append]
          rfl
        · rintro (hbefore | ⟨ec, hec⟩)
          · exact hclosed (.inl (hkeep (.inl hbefore)))
          · rcases List.mem_cons.mp hec with rfl | hec
            · exact hclosed (.inl (hkeep (.inr ⟨ec, rfl⟩)))
            · exact hclosed (.inr ⟨ec, hec⟩)
      cases e with
      | dataPacket signo payload =>
          obtain ⟨h₁, hslots, hsends₁, htaken, hkeep⟩ := hsends.slots (replies 0)
          refine hcons h₁ _ hslots hsends₁ htaken ?_ rfl ?_
          · rintro (hclosed | ⟨ec, hec⟩)
            · exact hkeep hclosed
            · cases hec
          · cases hseen : isSeen (.dataPacket signo payload) <;> simp [hseen, reports, isClosing]
      | metadataPacket signo payload =>
          cases hseen : isSeen (.metadataPacket signo payload) with
          | true =>
              obtain ⟨h₁, hslots, hsends₁, htaken, hkeep⟩ := hsends.slots (replies 0)
              refine hcons h₁ _ ?_ hsends₁ htaken ?_ ?_ ?_
              · rw [callActions, if_pos hseen]
                exact hslots
              · rintro (hclosed | ⟨ec, hec⟩)
                · exact hkeep hclosed
                · cases hec
              · rw [answered, if_pos hseen]
              · simp [hseen, reports, isClosing]
          | false =>
              refine hcons h [] ?_ ?_ (List.prefix_refl _) ?_ ?_ ?_
              · rw [callActions, hseen]
                rfl
              · rw [List.append_nil]
                exact hsends
              · rintro (hclosed | ⟨ec, hec⟩)
                · exact hclosed
                · cases hec
              · rw [answered, hseen]
                rfl
              · simp [hseen, reports]
      | controlFrame opcode payload shutdownAfter =>
          exact absurd List.mem_cons_self (hevents opcode payload shutdownAfter)
      | closed ec =>
          obtain ⟨h₁, hstep, hsends₁, htaken, -⟩ :=
            hsends.step (show (PeerTls.Action.close ec).written.toList =
              ([] : List Packet).map (message useTcpProtocol) from rfl)
          refine hcons h₁ [] ?_ hsends₁ htaken ?_ rfl ?_
          · rw [callActions, List.foldlM_cons, hstep]
            rfl
          · intro _
            rw [← Option.some.inj hstep]
            show (h.peer.close ec).isClosed = true
            unfold PeerTls.close
            split
            · assumption
            · rfl
          · rw [hunseen]
            simp [hunseen, reports]

end Transmit

/-! ## The receive path -/

section Receive

variable {useTcpProtocol : Bool} {M : Nat} {p : BasePeer}

/-- A read that transferred something, as it is for a plaintext peer. -/
theorem finishRead_success (p : BasePeer) (data : Bytes) :
    finishRead p .success data = p.finishWaitRx .success data .success := by
  unfold finishRead BasePeer.finishWaitRx
  dsimp only
  rw [if_neg (not_not.mpr rfl), if_neg (not_not.mpr rfl)]
  by_cases hempty : data.length = 0
  · rw [if_pos hempty, if_pos hempty, List.length_eq_zero_iff.mp hempty]
    simp [overwrite]
  · rw [if_neg hempty, if_neg hempty, if_neg fun h => h.1 rfl]

/-- An open peer that stays open hands on what a closed one hands on. -/
theorem readOn_shut (hopen : p.readOn.1.isClosed = false) :
    (shut p).readOn = (shut p.readOn.1, p.readOn.2) := by
  have hgrow : (shut p).growRxBuffer = p.growRxBuffer.map shut := by
    unfold growRxBuffer shut
    dsimp only
    split <;> rfl
  unfold readOn at hopen ⊢
  by_cases hfull : p.rxBufferBytes = p.rxBuffer.length
  · rw [if_pos hfull] at hopen ⊢
    rw [if_pos (by exact hfull), hgrow]
    cases hnone : p.growRxBuffer with
    | none =>
        rw [hnone] at hopen
        dsimp only at hopen
        unfold BasePeer.close at hopen
        split at hopen
        · rename_i hclosed
          rw [hclosed] at hopen
          cases hopen
        · cases hopen
    | some q => rfl
  · rw [if_neg hfull, if_neg (by exact hfull)]
    rfl

theorem processBuffer_shut (hopen : p.processBuffer.1.isClosed = false) :
    (shut p).processBuffer = (shut p.processBuffer.1, p.processBuffer.2) := by
  have hslide (q : BasePeer) (offset : Nat) : (shut q).slide offset = shut (q.slide offset) := by
    unfold slide
    split <;> rfl
  have hbuffer : (shut p).rxBuffer = p.rxBuffer := rfl
  have hbytes : (shut p).rxBufferBytes = p.rxBufferBytes := rfl
  unfold processBuffer at hopen ⊢
  by_cases hmode : p.useTcpProtocol = true
  · rw [if_pos hmode] at hopen ⊢
    rw [if_pos (by exact hmode)]
    unfold processBufferTcp at hopen ⊢
    dsimp only at hopen ⊢
    rw [hbuffer, hbytes, hslide, readOn_shut hopen]
  · rw [if_neg hmode] at hopen ⊢
    rw [if_neg (by exact hmode)]
    unfold processBufferWs at hopen ⊢
    rw [hbuffer, hbytes]
    dsimp only at hopen ⊢
    cases herror : (processFrames p.rxBuffer p.rxBufferBytes 0).error with
    | some ec =>
        rw [herror] at hopen
        dsimp only at hopen
        unfold BasePeer.close at hopen
        split at hopen
        · rename_i hclosed
          rw [hclosed] at hopen
          cases hopen
        · cases hopen
    | none =>
        rw [herror] at hopen
        dsimp only at hopen ⊢
        have hread := readOn_shut hopen
        rw [← hslide] at hread
        exact congrArg (fun r : BasePeer × List Event => (r.1, _ ++ r.2)) hread

/-- The receive buffer of a closed end. -/
theorem finishRead_shut {data : Bytes} (hne : data.length ≠ 0)
    (hopen : (p.finishWaitRx .success data .success).1.isClosed = false) :
    finishRead (shut p) .success data =
      (shut (p.finishWaitRx .success data .success).1,
        (p.finishWaitRx .success data .success).2) := by
  have hread (p : BasePeer) : finishRead p .success data = processBuffer { p with
      reading := false
      rxBuffer := overwrite p.rxBuffer p.rxBufferBytes data
      rxBufferBytes := p.rxBufferBytes + data.length } := by
    unfold finishRead
    dsimp only
    rw [if_neg (not_not.mpr rfl), if_neg hne]
  rw [← finishRead_success, hread] at hopen
  rw [← finishRead_success, hread, hread]
  exact processBuffer_shut hopen

theorem start_shut {data : Option Bytes} (hopen : (p.start data).1.isClosed = false) :
    (shut p).start data = (shut (p.start data).1, (p.start data).2) := by
  cases data with
  | none => rfl
  | some bytes =>
      unfold BasePeer.start runWith at hopen ⊢
      dsimp only at hopen ⊢
      rw [Conversation.makeRoom_shut]
      by_cases hlong : (p.makeRoom bytes.length).rxBuffer.length < bytes.length
      · rw [if_pos hlong] at hopen
        unfold BasePeer.close at hopen
        split at hopen
        · rename_i hclosed
          rw [hclosed] at hopen
          cases hopen
        · cases hopen
      · rw [if_neg hlong] at hopen ⊢
        rw [if_neg (by exact hlong)]
        exact processBuffer_shut hopen

end Receive

/-! ## Packets on the way -/

/-- An end whose messages are packets that fit the other end. -/
structure Own (useTcpProtocol : Bool) (M : Nat) (e : End) : Prop where
  sends : Sends useTcpProtocol e.tx e.sent
  valid : ∀ p ∈ e.sent, Valid useTcpProtocol M p
  joined : e.rx.isClosed = e.isClosed

/-- A receive path, whether or not the peer was closed. -/
def opened (p : BasePeer) : BasePeer := { p with isClosed := false }

/-- **One direction.**  What the receiver has raised are the first packets that
the sender was told to send; as long as it reads, these are the packets that are
complete in what it has read. -/
structure Conveys (codec : JsonCodec) (useTcpProtocol : Bool) (M : Nat) (sender receiver : End) :
    Prop where
  read_le : receiver.read ≤ sender.taken.length
  idle : receiver.started = false → receiver.read = 0 ∧ reports receiver.heard = [] ∧
    opened receiver.rx = .new useTcpProtocol M
  alive : receiver.started = true → receiver.isClosed = false → receiver.rx.reading = true
  heard : ∃ n ≤ sender.sent.length,
    reports receiver.heard =
        ((sender.sent.take n).map Packet.event).filter (Event.seen codec useTcpProtocol) ∧
      (receiver.rx.reading = true → ∃ rest,
        (framer useTcpProtocol widened).parse M (sender.taken.take receiver.read) =
            ((sender.sent.take n).map (Packet.toFrame useTcpProtocol), .waiting rest) ∧
          Matches useTcpProtocol M (opened receiver.rx) (.waiting rest))

section Packets

variable {codec : JsonCodec} {useTcpProtocol : Bool} {M M' : Nat} {sender receiver : End}

theorem contents_message (packets : List Packet) :
    PeerTls.contents (packets.map (message useTcpProtocol)) =
      packets.map (Packet.bytes useTcpProtocol) := by
  unfold PeerTls.contents
  rw [List.map_map]
  rfl

/-- What is taken is a part of the packets' stream. -/
theorem Own.taken_prefix (h : Own useTcpProtocol M sender) :
    sender.taken <+: (sender.sent.map (Packet.bytes useTcpProtocol)).flatten := by
  have htaken := h.sends.inv.taken.trans (PeerTls.isPrefix_flatten
    (PeerTls.isPrefix_contents (PeerTls.isPrefix_untilShutdown _)))
  rw [h.sends.written, contents_message] at htaken
  exact htaken

/-- **The sender goes on.** -/
theorem Conveys.sends (h : Conveys codec useTcpProtocol M sender receiver) {sender' : End}
    (htaken : sender.taken <+: sender'.taken) (hsent : sender.sent <+: sender'.sent) :
    Conveys codec useTcpProtocol M sender' receiver := by
  have hread : sender'.taken.take receiver.read = sender.taken.take receiver.read := by
    obtain ⟨more, hmore⟩ := htaken
    rw [← hmore, List.take_append_of_le_length h.read_le]
  obtain ⟨n, hn, hreports, hwaits⟩ := h.heard
  have htake : sender'.sent.take n = sender.sent.take n := by
    obtain ⟨more, hmore⟩ := hsent
    rw [← hmore, List.take_append_of_le_length hn]
  refine ⟨h.read_le.trans htaken.length_le, h.idle, h.alive, n, hn.trans hsent.length_le, ?_⟩
  rw [hread, htake]
  exact ⟨hreports, hwaits⟩

/-- **A turn of the receive path**: its slots send packets, and what is seen
outside is raised. -/
theorem Own.turn {e : End} (h : Own useTcpProtocol M' e) (codec : JsonCodec)
    {received : BasePeer × List Event}
    (hcontrol : ∀ opcode payload shutdownAfter,
      Event.controlFrame opcode payload shutdownAfter ∉ received.2)
    {replies : Nat → List Reply}
    (hreplies : ∀ n, ∀ p ∈ packetsOf (replies n), Valid useTcpProtocol M' p)
    (consumed : Nat) :
    ∃ e', e.turn codec useTcpProtocol received consumed replies = some e' ∧
      Own useTcpProtocol M' e' ∧ e.taken <+: e'.taken ∧ e.sent <+: e'.sent ∧
      e'.started = true ∧ e'.read = e.read + consumed ∧
      e'.rx = { received.1 with isClosed := e'.isClosed } ∧
      reports e'.heard = reports e.heard ++ received.2.filter (Event.seen codec useTcpProtocol) ∧
      (e.isClosed = true ∨ (∃ ec, Event.closed ec ∈ received.2) → e'.isClosed = true) := by
  obtain ⟨r, hcalls, hsends, htaken, hreports, hclosed⟩ :=
    Sends.calls (Event.seen codec useTcpProtocol) (fun _ => rfl) received.2 hcontrol replies h.sends
  refine ⟨{ e.join received.1 r.1 with
      started := true
      read := e.read + consumed
      sent := e.sent ++ answered (Event.seen codec useTcpProtocol)
        (fun n => packetsOf (replies n)) received.2
      heard := e.heard ++ r.2 }, ?_, ⟨hsends, ?_, rfl⟩, htaken, List.prefix_append _ _, rfl, rfl,
    rfl, ?_, hclosed⟩
  · unfold End.turn
    dsimp only
    rw [hcalls, Option.map_some]
  · intro p hp
    rcases List.mem_append.mp hp with hp | hp
    · exact h.valid p hp
    · obtain ⟨n, hn⟩ := mem_answered received.2 _ hp
      exact hreplies n p hn
  · rw [← hreports]
    exact reports_append _ _

/-- A turn that ends the receive path of the receiver. -/
theorem Conveys.closes (h : Conveys codec useTcpProtocol M sender receiver) {e : End}
    {received : BasePeer × List Event} {consumed : Nat} (hstarted : e.started = true)
    (hread : e.read = receiver.read + consumed)
    (hconsumed : receiver.read + consumed ≤ sender.taken.length)
    (hrx : e.rx = { received.1 with isClosed := e.isClosed }) (hidle : received.1.reading = false)
    (hclosed : e.isClosed = true)
    (hunseen : received.2.filter (Event.seen codec useTcpProtocol) = [])
    (hheard : reports e.heard =
      reports receiver.heard ++ received.2.filter (Event.seen codec useTcpProtocol)) :
    Conveys codec useTcpProtocol M sender e := by
  obtain ⟨n, hn, hreports, -⟩ := h.heard
  refine ⟨by rw [hread]; exact hconsumed, fun hs => ?_, fun _ hopen => ?_, n, hn, ?_, fun hr => ?_⟩
  · rw [hstarted] at hs
    cases hs
  · rw [hclosed] at hopen
    cases hopen
  · rw [hheard, hunseen, List.append_nil, hreports]
  · rw [hrx] at hr
    exact absurd (hidle.symm.trans hr) Bool.false_ne_true

/-- A turn after which the receiver reads on. -/
theorem conveys_continues {e : End} {received : BasePeer × List Event} {consumed n n' : Nat}
    {rest : Bytes} (hstarted : e.started = true) (hread : e.read = receiver.read + consumed)
    (hconsumed : receiver.read + consumed ≤ sender.taken.length)
    (hrx : e.rx = { received.1 with isClosed := e.isClosed })
    (hreports : reports receiver.heard =
      ((sender.sent.take n).map Packet.event).filter (Event.seen codec useTcpProtocol))
    (hheard : reports e.heard =
      reports receiver.heard ++ received.2.filter (Event.seen codec useTcpProtocol))
    (hn' : n' ≤ sender.sent.length)
    (hpackets : (sender.sent.take n').map Packet.event =
      (sender.sent.take n).map Packet.event ++ received.2)
    (hparse : (framer useTcpProtocol widened).parse M
      (sender.taken.take (receiver.read + consumed)) =
        ((sender.sent.take n').map (Packet.toFrame useTcpProtocol), .waiting rest))
    (hmatches : Matches useTcpProtocol M (opened received.1) (.waiting rest)) :
    Conveys codec useTcpProtocol M sender e := by
  have hreading : e.rx.reading = true := by
    rw [hrx]
    exact hmatches.2.1
  have hopened : opened e.rx = opened received.1 := by
    rw [hrx]
    rfl
  refine ⟨by rw [hread]; exact hconsumed, fun hs => ?_, fun _ _ => hreading, n', hn', ?_,
    fun _ => ⟨rest, ?_, ?_⟩⟩
  · rw [hstarted] at hs
    cases hs
  · rw [hheard, hreports, hpackets, List.filter_append]
  · rw [hread]
    exact hparse
  · rw [hopened]
    exact hmatches

theorem opened_of_open {p : BasePeer} (h : p.isClosed = false) : opened p = p := by
  unfold opened
  rw [← h]

/-- A receive path is open, or it was closed. -/
theorem opened_cases (p : BasePeer) : p = opened p ∨ p = shut (opened p) := by
  cases hclosed : p.isClosed with
  | false => exact .inl (opened_of_open hclosed).symm
  | true =>
      right
      unfold opened shut
      dsimp only
      rw [← hclosed]

/-- A read that transfers nothing closes the peer. -/
theorem finishRead_closes {rx : BasePeer} {ec : ErrorCode} {data : Bytes}
    (h : ec ≠ .success ∨ data = []) :
    ∃ ec', finishRead rx ec data = ({ rx with reading := false } : BasePeer).close ec' := by
  unfold finishRead
  dsimp only
  by_cases hec : ec ≠ .success
  · rw [if_pos hec]
    exact ⟨ec, rfl⟩
  · rw [if_neg hec, if_pos (List.length_eq_zero_iff.mpr (h.resolve_left hec))]
    exact ⟨.success, rfl⟩

/-- What closing a receive path does. -/
theorem close_spec (p : BasePeer) (ec : ErrorCode) :
    (p.close ec).1.reading = p.reading ∧
      (∀ e ∈ (p.close ec).2, isClosing e = true) ∧
        (p.isClosed = true ∨ ∃ ec', Event.closed ec' ∈ (p.close ec).2) := by
  unfold BasePeer.close
  split
  · rename_i hclosed
    exact ⟨rfl, List.forall_mem_nil _, .inl hclosed⟩
  · exact ⟨rfl, List.forall_mem_singleton.mpr rfl, .inr ⟨ec, List.mem_singleton_self _⟩⟩

/-- **The receiver reads.** -/
theorem Conveys.reads (hM : 0 < M) (hsender : Own useTcpProtocol M sender)
    (hown : Own useTcpProtocol M' receiver)
    (h : Conveys codec useTcpProtocol M sender receiver) {ec : ErrorCode} {count : Nat}
    {replies : Nat → List Reply}
    (hreplies : ∀ n, ∀ p ∈ packetsOf (replies n), Valid useTcpProtocol M' p) :
    ∃ e, receiver.step codec useTcpProtocol (inFlight sender receiver)
        (.read ec count replies) = some e ∧
      Own useTcpProtocol M' e ∧ Conveys codec useTcpProtocol M sender e ∧
      receiver.taken <+: e.taken ∧ receiver.sent <+: e.sent := by
  unfold End.step
  dsimp only
  cases hreading : receiver.rx.reading with
  | false => exact ⟨receiver, rfl, hown, h, List.prefix_refl _, List.prefix_refl _⟩
  | true =>
      rw [if_pos rfl]
      obtain ⟨data, hdata⟩ : ∃ data : Bytes, (if ec = .success then
          (inFlight sender receiver).take (min count receiver.rx.room) else []) = data :=
        ⟨_, rfl⟩
      rw [hdata]
      have hahead : data <+: inFlight sender receiver ∧ data.length ≤ receiver.rx.room := by
        rw [← hdata]
        split
        · refine ⟨List.take_prefix _ _, ?_⟩
          rw [List.length_take]
          omega
        · exact ⟨List.nil_prefix, Nat.zero_le _⟩
      obtain ⟨hconsumed, htake⟩ := take_ahead h.read_le hahead.1
      by_cases hcloses : ec ≠ .success ∨ data = []
      · obtain ⟨ec', hclose⟩ :
            ∃ ec', finishRead receiver.rx ec data =
              ({ receiver.rx with reading := false } : BasePeer).close ec' :=
          finishRead_closes hcloses
        obtain ⟨hidle, hclosings, hclosed⟩ := close_spec { receiver.rx with reading := false } ec'
        rw [← hclose] at hidle hclosings hclosed
        obtain ⟨hcontrol, hunseen⟩ := closings_events codec useTcpProtocol hclosings
        obtain ⟨e, he, hown', htaken, hsent, hstarted, hread, hrx, hheard, hkeep⟩ :=
          hown.turn codec hcontrol hreplies data.length
        have hclosed' : e.isClosed = true := by
          rcases hclosed with hclosed | hclosed
          · exact hkeep (.inl (hown.joined.symm.trans hclosed))
          · exact hkeep (.inr hclosed)
        exact ⟨e, he, hown', h.closes hstarted hread hconsumed hrx hidle hclosed' hunseen hheard,
          htaken, hsent⟩
      · have hec : ec = .success := by
          by_contra hne
          exact hcloses (.inl hne)
        have hne : data.length ≠ 0 := fun hzero =>
          hcloses (.inr (List.length_eq_zero_iff.mp hzero))
        rw [hec]
        obtain ⟨n, hn, hreports, hwaits⟩ := h.heard
        obtain ⟨rest, hparse, hmatches⟩ := hwaits hreading
        obtain ⟨n', hn', rest', hpackets, hparse', hmatches'⟩ := read_on hM hsender.valid
          hsender.taken_prefix hparse hmatches htake (Nat.pos_of_ne_zero hne) hahead.2
        -- A closed receiver does the same.
        have hreceived : (finishRead receiver.rx .success data).2 =
              ((opened receiver.rx).finishWaitRx .success data .success).2 ∧
            opened (finishRead receiver.rx .success data).1 =
              ((opened receiver.rx).finishWaitRx .success data .success).1 := by
          have hopen := hmatches'.1.isClosed_eq
          have hsame := opened_of_open hopen
          rcases opened_cases receiver.rx with heq | heq
          · rw [← heq, finishRead_success]
            rw [← heq] at hsame
            exact ⟨rfl, hsame⟩
          · have hshut := finishRead_shut hne hopen
            rw [← heq] at hshut
            rw [hshut]
            exact ⟨rfl, hsame⟩
        rw [← hreceived.1] at hpackets
        rw [← hreceived.2] at hmatches'
        obtain ⟨hcontrol, -⟩ := packets_events hpackets
        obtain ⟨e, he, hown', htaken, hsent, hstarted, hread, hrx, hheard, -⟩ :=
          hown.turn codec hcontrol hreplies data.length
        exact ⟨e, he, hown', conveys_continues hstarted hread hconsumed hrx hreports hheard hn'
          hpackets hparse' hmatches', htaken, hsent⟩

theorem reading_makeRoom (p : BasePeer) (size : Nat) :
    (p.makeRoom size).reading = p.reading := by
  induction p using makeRoom.induct size with
  | case1 p h hgrow =>
      rw [makeRoom, if_pos h]
      split
      · rfl
      · rename_i grown hgrown
        rw [hgrow] at hgrown
        cases hgrown
  | case2 p h grown hgrow ih =>
      obtain ⟨-, zeros, hgrown, -⟩ := growRxBuffer_eq_some hgrow
      have hkeep : grown.reading = p.reading := by rw [hgrown]
      rw [makeRoom, if_pos h]
      split
      · rfl
      · rename_i grown' hgrow'
        rw [hgrow] at hgrow'
        rw [← Option.some.inj hgrow', ih, hkeep]
  | case3 p h => rw [makeRoom, if_neg h]

/-- Data that the receive buffer cannot hold closes the peer. -/
theorem start_closes {rx : BasePeer} (hrx : opened rx = .new useTcpProtocol M) {data : Bytes}
    (hlong : M < data.length) :
    ∃ (p : BasePeer) (ec : ErrorCode), rx.start (some data) = p.close ec ∧ p.reading = false ∧
      p.isClosed = rx.isClosed := by
  have hlength : rx.rxBuffer = (opened rx).rxBuffer ∧ rx.rxBufferMax = (opened rx).rxBufferMax ∧
      rx.reading = (opened rx).reading := ⟨rfl, rfl, rfl⟩
  rw [hrx] at hlength
  obtain ⟨hbuffer, hmax, hreading⟩ := hlength
  have hroom := (Conversation.makeRoom_fields rx data.length (by
    rw [hbuffer, hmax]
    simp [BasePeer.new])).2
  have hshort : (rx.makeRoom data.length).rxBuffer.length < data.length := by
    rw [hmax] at hroom
    exact Nat.lt_of_le_of_lt hroom hlong
  refine ⟨rx.makeRoom data.length, .noBufferSpace, ?_, ?_, makeRoom_isClosed rx data.length⟩
  · unfold BasePeer.start runWith
    dsimp only
    rw [if_pos hshort]
  · rw [reading_makeRoom, hreading]
    rfl

/-- **The receiver begins.** -/
theorem Conveys.starts (hM : 0 < M) (hsender : Own useTcpProtocol M sender)
    (hown : Own useTcpProtocol M' receiver)
    (h : Conveys codec useTcpProtocol M sender receiver) {handedOver : Option Nat}
    {replies : Nat → List Reply}
    (hreplies : ∀ n, ∀ p ∈ packetsOf (replies n), Valid useTcpProtocol M' p) :
    ∃ e, receiver.step codec useTcpProtocol (inFlight sender receiver)
        (.start handedOver replies) = some e ∧
      Own useTcpProtocol M' e ∧ Conveys codec useTcpProtocol M sender e ∧
      receiver.taken <+: e.taken ∧ receiver.sent <+: e.sent := by
  unfold End.step
  dsimp only
  cases hstarted : receiver.started with
  | true => exact ⟨receiver, rfl, hown, h, List.prefix_refl _, List.prefix_refl _⟩
  | false =>
      rw [if_neg Bool.false_ne_true]
      obtain ⟨hread, hnone, hnew⟩ := h.idle hstarted
      have hheard : reports receiver.heard =
          ((sender.sent.take 0).map Packet.event).filter (Event.seen codec useTcpProtocol) := hnone
      obtain ⟨data, hdata⟩ : ∃ data : Option Bytes,
          handedOver.map (inFlight sender receiver).take = data := ⟨_, rfl⟩
      rw [hdata]
      have hahead : data.getD [] <+: inFlight sender receiver := by
        rw [← hdata]
        cases handedOver with
        | none => exact List.nil_prefix
        | some count => exact List.take_prefix _ _
      obtain ⟨hconsumed, htake⟩ := take_ahead h.read_le hahead
      by_cases hfit : (data.getD []).length ≤ M
      · -- What is handed over is the beginning of the stream.
        have hbegin : sender.taken.take (receiver.read + (data.getD []).length) = data.getD [] := by
          rw [htake, hread]
          rfl
        obtain ⟨n', hn', rest', hparse⟩ := parse_sent hM hsender.valid
          ((List.take_prefix (receiver.read + (data.getD []).length) _).trans hsender.taken_prefix)
        have hparse' := hparse
        rw [hbegin] at hparse'
        obtain ⟨hevents, hmatches⟩ := start_of_fitting hM false data hfit hsender.valid hparse'
        have hmatches := hmatches rfl
        rw [show ({ BasePeer.new useTcpProtocol M with isClosed := false } : BasePeer) =
          opened receiver.rx from hnew.symm] at hevents hmatches
        have hopen := hmatches.1.isClosed_eq
        have hreceived : (receiver.rx.start data).2 = ((opened receiver.rx).start data).2 ∧
            opened (receiver.rx.start data).1 = ((opened receiver.rx).start data).1 := by
          have hsame := opened_of_open hopen
          rcases opened_cases receiver.rx with heq | heq
          · rw [← heq]
            rw [← heq] at hsame
            exact ⟨rfl, hsame⟩
          · have hshut := start_shut hopen
            rw [← heq] at hshut
            rw [hshut]
            exact ⟨rfl, hsame⟩
        have hpackets : (sender.sent.take n').map Packet.event =
            (sender.sent.take 0).map Packet.event ++ (receiver.rx.start data).2 := by
          rw [hreceived.1, hevents]
          rfl
        rw [← hreceived.2] at hmatches
        obtain ⟨hcontrol, -⟩ := packets_events hpackets
        obtain ⟨e, he, hown', htaken, hsent, hstarted', hread', hrx, hheard', -⟩ :=
          hown.turn codec hcontrol hreplies (data.getD []).length
        exact ⟨e, he, hown', conveys_continues hstarted' hread' hconsumed hrx hheard hheard' hn'
          hpackets hparse hmatches, htaken, hsent⟩
      · cases data with
        | none => exact absurd (Nat.zero_le M) hfit
        | some bytes =>
            obtain ⟨p, ec, hclose, hidle, hsame⟩ :=
              start_closes hnew (show M < bytes.length from Nat.lt_of_not_le hfit)
            obtain ⟨hreading, hclosings, hclosed⟩ := close_spec p ec
            rw [← hclose] at hreading hclosings hclosed
            obtain ⟨hcontrol, hunseen⟩ := closings_events codec useTcpProtocol hclosings
            obtain ⟨e, he, hown', htaken, hsent, hstarted', hread', hrx, hheard', hkeep⟩ :=
              hown.turn codec hcontrol hreplies ((some bytes).getD []).length
            have hclosed' : e.isClosed = true := by
              rcases hclosed with hclosed | hclosed
              · exact hkeep (.inl (hown.joined.symm.trans (hsame.symm.trans hclosed)))
              · exact hkeep (.inr hclosed)
            exact ⟨e, he, hown', h.closes hstarted' hread' hconsumed hrx (hreading.trans hidle)
              hclosed' hunseen hheard', htaken, hsent⟩

/-- **A step that has nothing to do with the receive path.** -/
theorem Conveys.acts (hown : Own useTcpProtocol M' receiver)
    (h : Conveys codec useTcpProtocol M sender receiver) {action : PeerTls.Action}
    {packets : List Packet}
    (haction : action.written.toList = packets.map (message useTcpProtocol))
    (hvalid : ∀ q ∈ packets, Valid useTcpProtocol M' q) :
    ∃ e, receiver.act action packets = some e ∧
      Own useTcpProtocol M' e ∧ Conveys codec useTcpProtocol M sender e ∧
      receiver.taken <+: e.taken ∧ receiver.sent <+: e.sent := by
  obtain ⟨tx, hstep, hsends, htaken, hkeep⟩ := hown.sends.step haction
  have hact : receiver.act action packets = some { receiver.join receiver.rx tx with
      sent := receiver.sent ++ packets
      heard := receiver.heard ++ closure receiver.tx.peer tx.peer } := by
    unfold End.act
    rw [hstep, Option.map_some]
  have hheard : reports (receiver.heard ++ closure receiver.tx.peer tx.peer) =
      reports receiver.heard := by
    rw [reports_append, reports_closure, List.append_nil]
  obtain ⟨n, hn, hreports, hwaits⟩ := h.heard
  refine ⟨_, hact, ⟨hsends, ?_, rfl⟩, ⟨h.read_le, ?_, ?_, n, hn, hheard.trans hreports, hwaits⟩,
    htaken, List.prefix_append _ _⟩
  · intro q hq
    rcases List.mem_append.mp hq with hq | hq
    · exact hown.valid q hq
    · exact hvalid q hq
  · intro hstarted
    obtain ⟨hread, hnone, hrx⟩ := h.idle hstarted
    exact ⟨hread, hheard.trans hnone, hrx⟩
  · intro hstarted hopen
    apply h.alive hstarted
    cases hclosed : receiver.isClosed with
    | false => rfl
    | true => exact (hkeep hclosed).symm.trans hopen

/-- **One step of the receiver.** -/
theorem Conveys.receives (hM : 0 < M) (hsender : Own useTcpProtocol M sender)
    (hown : Own useTcpProtocol M' receiver)
    (h : Conveys codec useTcpProtocol M sender receiver) {deed : Deed}
    (hdeed : deed.Sends (Valid useTcpProtocol M')) :
    ∃ e, receiver.step codec useTcpProtocol (inFlight sender receiver) deed = some e ∧
      Own useTcpProtocol M' e ∧ Conveys codec useTcpProtocol M sender e ∧
      receiver.taken <+: e.taken ∧ receiver.sent <+: e.sent := by
  cases deed with
  | start handedOver replies => exact h.starts hM hsender hown hdeed
  | read ec count replies => exact h.reads hM hsender hown hdeed
  | send packet =>
      apply h.acts hown _ (List.forall_mem_singleton.mpr hdeed)
      rw [written_writing]
      rfl
  | transmit i n ec => exact h.acts hown rfl (List.forall_mem_nil _)
  | finishWrite i => exact h.acts hown rfl (List.forall_mem_nil _)
  | stop => exact h.acts hown rfl (List.forall_mem_nil _)

end Packets

/-! ## Whole runs -/

/-- Both directions. -/
abbrev Good (codec : JsonCodec) (useTcpProtocol : Bool) (rxLeft rxRight : Nat) (c : Pair) : Prop :=
  Both (Own useTcpProtocol) (Conveys codec useTcpProtocol) rxLeft rxRight c

/-- Everything that the sender was told to send has been written to its stream
and read by the receiver, and both peers are open. -/
structure Through (sender receiver : End) : Prop where
  sending : sender.isClosed = false
  empty : sender.tx.peer.txQueue = []
  started : receiver.started = true
  receiving : receiver.isClosed = false
  read : receiver.read = sender.taken.length

section Run

variable {codec : JsonCodec} {useTcpProtocol : Bool} {rxLeft rxRight : Nat} {c : Pair}

/-- **One step of either end.** -/
theorem Good.step (hleft : 0 < rxLeft) (hright : 0 < rxRight)
    (h : Good codec useTcpProtocol rxLeft rxRight c) (s : Side × Deed)
    (hdeed : s.2.Sends (Valid useTcpProtocol (room rxLeft rxRight s.1))) :
    ∃ c', Pair.step codec useTcpProtocol c s = some c' ∧
      Good codec useTcpProtocol rxLeft rxRight c' := by
  obtain ⟨side, deed⟩ := s
  obtain ⟨e, he, hown, hconveys, htaken, hsent⟩ := (h.receives side).receives
    (room_pos hleft hright side.other) (h.own side.other) (h.own side) hdeed
  have hstep : Pair.step codec useTcpProtocol c (side, deed) = some (c.put e side) :=
    congrArg (Option.map fun e => c.put e side) he
  refine ⟨_, hstep, Both.step h hstep ?_⟩
  intro e' he'
  rw [he] at he'
  rw [← Option.some.inj he']
  exact ⟨hown, hconveys, (h.conveys side).sends htaken hsent⟩

theorem own_new (useTcpProtocol : Bool) (rxBufferSize txBufferSize M : Nat) :
    Own useTcpProtocol M (.new useTcpProtocol rxBufferSize txBufferSize) :=
  ⟨⟨PeerTls.inv_new txBufferSize, rfl⟩, List.forall_mem_nil _, rfl⟩

theorem conveys_new (codec : JsonCodec) (useTcpProtocol : Bool) (sender : End)
    (rxBufferSize txBufferSize : Nat) :
    Conveys codec useTcpProtocol rxBufferSize sender
      (.new useTcpProtocol rxBufferSize txBufferSize) := by
  refine ⟨Nat.zero_le _, fun _ => ⟨rfl, rfl, rfl⟩, fun hstarted => ?_, 0, Nat.zero_le _, rfl,
    fun hreading => ?_⟩
  · cases hstarted
  · cases hreading

/-- An open peer with nothing in its queue has had everything taken. -/
theorem Own.taken_all {M : Nat} {e : End} (h : Own useTcpProtocol M e)
    (hopen : e.isClosed = false) (hqueue : e.tx.peer.txQueue = []) :
    e.taken = (e.sent.map (Packet.bytes useTcpProtocol)).flatten := by
  have hnone : e.tx.peer.closing = none := by
    by_contra hne
    have hclosed := PeerTls.isClosed_iff.mpr hne
    rw [show e.tx.peer.isClosed = false from hopen] at hclosed
    cases hclosed
  have hidle : e.tx.peer.stream.pending = [] := by
    apply h.sends.inv.idle
    cases hbusy : e.tx.peer.writeInFlight with
    | false => rfl
    | true =>
        obtain ⟨front, rest, w, hcons, -⟩ := h.sends.inv.busy hbusy
        rw [hqueue] at hcons
        cases hcons
  obtain ⟨finished, dropped, hprogress⟩ := h.sends.inv.progress
  have hwritten := hprogress.written
  rw [hqueue, hprogress.kept hnone, List.append_nil, List.append_nil, h.sends.written] at hwritten
  have htransmitted := hprogress.transmitted
  rw [hidle, List.filterMap_nil, List.append_nil, ← hwritten, contents_message] at htransmitted
  have htaken := (hprogress.going (.inr hnone)).2 (by
    rw [hidle]
    exact List.forall_mem_nil _)
  rw [htransmitted] at htaken
  exact htaken

theorem Conveys.conveyed {M : Nat} {sender receiver : End} (hM : 0 < M)
    (hown : Own useTcpProtocol M sender) (h : Conveys codec useTcpProtocol M sender receiver) :
    Conveyed codec useTcpProtocol sender.toLog receiver.toLog (Through sender receiver) := by
  obtain ⟨n, hn, hreports, hwaits⟩ := h.heard
  refine ⟨n, hn, hreports, ?_⟩
  rintro ⟨hsender, hqueue, hstarted, hopen, hread⟩
  obtain ⟨rest, hparse, -⟩ := hwaits (h.alive hstarted hopen)
  have hall := parse_all hM hown.valid
  rw [← hown.taken_all hsender hqueue] at hall
  rw [hread, List.take_length] at hparse
  have hlength := congrArg (fun r => r.1.length) (hparse.symm.trans hall)
  simp only [List.length_map, List.length_take, Nat.min_eq_left hn] at hlength
  exact hlength

end Run

/-- **A conversation over TLS conveys packets.**  Every step of two TLS peers of
this implementation is defined, over either protocol, if the other end can
receive what is sent (`Valid`), whatever becomes of their writes and reads,
however the streams are cut, and whatever fails or is stopped: each end hears the
first packets that the other one was told to send, those that its receive path
raises, in order, none left out, none twice, and nothing else; and once everything
is through, it has got to the last packet. -/
theorem tls_conversation_conveys (codec : JsonCodec) (useTcpProtocol : Bool)
    {rxLeft rxRight : Nat} (hleft : 0 < rxLeft) (hright : 0 < rxRight) (txLeft txRight : Nat)
    (steps : List (Side × Deed))
    (hpackets : ∀ s ∈ steps,
      s.2.Sends (Valid useTcpProtocol (room rxLeft rxRight s.1))) :
    ∃ c, steps.foldlM (Pair.step codec useTcpProtocol)
        ⟨.new useTcpProtocol rxLeft txLeft, .new useTcpProtocol rxRight txRight⟩ = some c ∧
      Conveyed codec useTcpProtocol c.left.toLog c.right.toLog (Through c.left c.right) ∧
        Conveyed codec useTcpProtocol c.right.toLog c.left.toLog (Through c.right c.left) := by
  have hnew : Good codec useTcpProtocol rxLeft rxRight
      ⟨.new useTcpProtocol rxLeft txLeft, .new useTcpProtocol rxRight txRight⟩ :=
    both_new (own_new _ _ _ _) (own_new _ _ _ _) (conveys_new _ _ _ _ _) (conveys_new _ _ _ _ _)
  obtain ⟨c, hrun, hgood⟩ := foldlM_invariant_of_meets
    (fun _ s h hdeed => Good.step hleft hright h s hdeed) steps _ hnew
    (meetsOpt_of_inputs steps hpackets _)
  exact ⟨c, hrun, (hgood.conveys .left).conveyed hright (hgood.own .left),
    (hgood.conveys .right).conveyed hleft (hgood.own .right)⟩

/-- The right end is handed over a part of a packet, answers from its slot, and
is stopped while the answer is being written. -/
def exchange : List (Side × Deed) :=
  [(.left, .send Conversation.question), (.left, .transmit 0 0 .success), (.left, .finishWrite 0),
    (.right, .start (some 1) fun _ => []), (.left, .start none fun _ => []),
    (.right, .read .success 4 fun _ => [.send Conversation.question, .send Conversation.question]),
    (.right, .transmit 0 0 .success), (.left, .read .success 2 fun _ => []),
    (.left, .read .success 9 fun _ => []), (.right, .stop), (.right, .finishWrite 0),
    (.right, .transmit 0 2 .noBufferSpace), (.right, .finishWrite 0)]

theorem tls_conversation_conveys_exchange :
    ∃ c, exchange.foldlM (Pair.step Duplex.noMetadata true) ⟨.new true 16 16, .new true 16 16⟩ =
        some c ∧
      Conveyed Duplex.noMetadata true c.left.toLog c.right.toLog (Through c.left c.right) ∧
        Conveyed Duplex.noMetadata true c.right.toLog c.left.toLog (Through c.right c.left) := by
  have hvalid : Valid true 16 Conversation.question :=
    ⟨⟨by decide, .inl rfl⟩, by decide, by decide⟩
  have hpackets : ∀ s ∈ exchange, s.2.Sends (Valid true (room 16 16 s.1)) := by
    intro s hs
    simp only [exchange, List.mem_cons, List.not_mem_nil, or_false] at hs
    rcases hs with rfl | rfl | rfl | rfl | rfl | rfl | rfl | rfl | rfl | rfl | rfl | rfl | rfl
    · exact hvalid
    · trivial
    · trivial
    · exact fun _ => List.forall_mem_nil _
    · exact fun _ => List.forall_mem_nil _
    · exact fun _ => List.forall_mem_cons.mpr ⟨hvalid, List.forall_mem_singleton.mpr hvalid⟩
    · trivial
    · exact fun _ => List.forall_mem_nil _
    · exact fun _ => List.forall_mem_nil _
    · trivial
    · trivial
    · trivial
    · trivial
  exact tls_conversation_conveys Duplex.noMetadata true (by decide) (by decide) 16 16 exchange
    hpackets

example : (exchange.foldlM (Pair.step Duplex.noMetadata true)
    ⟨.new true 16 16, .new true 16 16⟩).map (fun c => (reports c.left.heard, c.right.heard)) =
      some ([.dataPacket 1 [0x05]], [.dataPacket 1 [0x05], .closed .noBufferSpace]) := by
  decide +kernel

end TlsConversation

end WsStreaming.Ports
