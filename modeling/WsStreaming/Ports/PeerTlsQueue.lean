import Mathlib.Data.List.Infix
import WsStreaming.Verified.Run
import WsStreaming.Ports.PeerTls

/-!
# The transmit queue of the TLS peer

Every run of a TLS peer: messages are written, the `async_write` operations it
has started come to their ends and their handlers run, in any order.  The
queue, the byte counter, the in-flight flag and the closed flag agree in every
state, and the stream gets the messages in the order they were written, none
twice and none left out, up to the first one with `shutdown_after`.

## Main results

* `Inv.step` — no step of a run is undefined, and each keeps the invariant.
* `transmit_queue_exact` — what holds after every run, and which steps close
  the peer with `no_buffer_space`.
-/

namespace WsStreaming.Ports.PeerTls

open WsStreaming.Verified.Wire WsStreaming.Verified.Run

/-- What can happen to a peer. -/
inductive Action where
  /-- A message is passed to `write`. -/
  | write (buffers : List Bytes) (size : Option Nat) (doShutdownAfter : Bool)
  /-- The `i`-th of the started operations ends with `ec`, after `n` bytes if
  it fails. -/
  | transmit (i n : Nat) (ec : ErrorCode)
  /-- The handler of the `i`-th of the started operations runs. -/
  | finishWrite (i : Nat)
  /-- The receive path closes the peer. -/
  | close (ec : ErrorCode)
  /-- The owner stops the peer. -/
  | stop
deriving Repr, DecidableEq

/-- A peer, the messages that were written to it so far, and those whose
`async_write` has succeeded. -/
structure History where
  peer : PeerTls
  written : List TxMessage
  transmitted : List Bytes
deriving Repr, DecidableEq

/-- The operation whose handler can run, and its error code. -/
def ended (pending : List AsyncWrite) (i : Nat) : Option ErrorCode :=
  (pending[i]?).bind AsyncWrite.result

/-- The `i`-th operation ends, if it has been started and can end so. -/
def History.transmit (h : History) (i n : Nat) (ec : ErrorCode) : History :=
  match h.peer.stream.pending[i]? with
  | none => h
  | some w =>
      if h.peer.stream.MayEnd w ec then
        { h with
          peer := { h.peer with stream := h.peer.stream.transmit i w n ec }
          transmitted := h.transmitted ++ if ec = .success then [w.message] else [] }
      else h

/-- One step of a run; `none` if it is undefined.  An action that cannot happen
in a state changes nothing. -/
def History.step (h : History) : Action → Option History
  | .write buffers size doShutdownAfter =>
      (h.peer.write buffers size doShutdownAfter).map fun p =>
        { h with
          peer := p
          written := h.written ++ [txMessage buffers size doShutdownAfter] }
  | .transmit i n ec => some (h.transmit i n ec)
  | .finishWrite i =>
      match ended h.peer.stream.pending i with
      | none => some h
      | some ec =>
          let stream := { h.peer.stream with pending := h.peer.stream.pending.eraseIdx i }
          ({ h.peer with stream := stream }.finishWrite ec).map fun p => { h with peer := p }
  | .close ec => some { h with peer := h.peer.close ec }
  | .stop => some { h with peer := h.peer.stop }

/-- A new peer, to which nothing was written yet. -/
def History.new (txBufferSize : Nat) : History := ⟨PeerTls.new txBufferSize, [], []⟩

/-- The message an action writes. -/
def Action.written : Action → Option TxMessage
  | .write buffers size doShutdownAfter => some (txMessage buffers size doShutdownAfter)
  | _ => none

/-- The sum of the sizes of messages. -/
def totalSize (ms : List TxMessage) : Nat := (ms.map fun m => m.data.length).sum

/-- The bytes of messages. -/
def contents (ms : List TxMessage) : List Bytes := ms.map TxMessage.data

/-- The messages up to the first one with `shutdown_after`, that one included. -/
def untilShutdown : List TxMessage → List TxMessage
  | [] => []
  | m :: ms => if m.shutdownAfter then [m] else m :: untilShutdown ms

/-- Whether an action is a write that takes the sum of the sizes of the queued
messages over the limit. -/
def Action.takesOver (p : PeerTls) : Action → Bool
  | .write buffers size _ =>
      p.txBufferLimit < totalSize p.txQueue + size.getD buffers.flatten.length
  | _ => false

/-- The error an action brings from outside the transmit queue: that of the
operation whose handler runs, or the one the receive path closes with. -/
def Action.brings (p : PeerTls) : Action → Option ErrorCode
  | .finishWrite i => ended p.stream.pending i
  | .close ec => some ec
  | _ => none

@[simp] theorem totalSize_nil : totalSize [] = 0 := rfl

@[simp] theorem totalSize_cons (m : TxMessage) (ms : List TxMessage) :
    totalSize (m :: ms) = m.data.length + totalSize ms := by
  simp [totalSize]

@[simp] theorem totalSize_append (ms ns : List TxMessage) :
    totalSize (ms ++ ns) = totalSize ms + totalSize ns := by
  simp [totalSize]

@[simp] theorem contents_nil : contents [] = [] := rfl

@[simp] theorem contents_append (ms ns : List TxMessage) :
    contents (ms ++ ns) = contents ms ++ contents ns := by
  simp [contents]

@[simp] theorem contents_cons (m : TxMessage) (ms : List TxMessage) :
    contents (m :: ms) = m.data :: contents ms := rfl

theorem isPrefix_contents {ms ns : List TxMessage} (h : ms <+: ns) :
    contents ms <+: contents ns := by
  rw [contents, contents]
  exact h.map _

theorem isPrefix_flatten {ms ns : List Bytes} (h : ms <+: ns) :
    ms.flatten <+: ns.flatten := by
  obtain ⟨rest, rfl⟩ := h
  rw [List.flatten_append]
  exact List.prefix_append _ _

/-! ## Messages up to a shutdown -/

theorem isPrefix_untilShutdown (ms : List TxMessage) : untilShutdown ms <+: ms := by
  induction ms with
  | nil => exact List.prefix_refl _
  | cons m ms ih =>
      rw [untilShutdown]
      by_cases hm : m.shutdownAfter = true
      · rw [if_pos hm]
        exact ⟨ms, rfl⟩
      · rw [if_neg hm]
        exact List.cons_prefix_cons.mpr ⟨rfl, ih⟩

theorem untilShutdown_mono (ms more : List TxMessage) :
    untilShutdown ms <+: untilShutdown (ms ++ more) := by
  induction ms with
  | nil => exact List.nil_prefix
  | cons m ms ih =>
      rw [List.cons_append, untilShutdown, untilShutdown]
      by_cases hm : m.shutdownAfter = true
      · rw [if_pos hm, if_pos hm]
      · rw [if_neg hm, if_neg hm]
        exact List.cons_prefix_cons.mpr ⟨rfl, ih⟩

/-- Behind messages without `shutdown_after`, one more is still within. -/
theorem append_singleton_prefix_untilShutdown {ms : List TxMessage} (m : TxMessage)
    (rest : List TxMessage) (hms : ∀ x ∈ ms, x.shutdownAfter = false) :
    ms ++ [m] <+: untilShutdown (ms ++ m :: rest) := by
  induction ms with
  | nil =>
      rw [List.nil_append, List.nil_append, untilShutdown]
      by_cases hm : m.shutdownAfter = true
      · rw [if_pos hm]
      · rw [if_neg hm]
        exact List.cons_prefix_cons.mpr ⟨rfl, List.nil_prefix⟩
  | cons x xs ih =>
      have hx : x.shutdownAfter = false := hms x List.mem_cons_self
      have hxs := ih fun y hy => hms y (List.mem_cons_of_mem _ hy)
      rw [List.cons_append, List.cons_append, untilShutdown, hx, if_neg Bool.false_ne_true]
      exact List.cons_prefix_cons.mpr ⟨rfl, hxs⟩

/-! ## The invariant -/

/-- How far the messages written have come: those that have left the queue are
`finished`, and those written to a closed peer are `dropped`. -/
structure Progress (h : History) (finished dropped : List TxMessage) : Prop where
  written : h.written = finished ++ h.peer.txQueue ++ dropped
  kept : h.peer.closing = none → dropped = []
  transmitted : h.transmitted =
    contents finished ++ h.peer.stream.pending.filterMap AsyncWrite.delivered
  /-- As long as anything is going to be transmitted, no message with
  `shutdown_after` is through, and the stream has whole messages only. -/
  going : h.peer.writeInFlight = true ∨ h.peer.closing = none →
    (∀ m ∈ finished, m.shutdownAfter = false) ∧
    ((∀ w ∈ h.peer.stream.pending, w.sound) →
      h.peer.stream.taken = h.transmitted.flatten)

/-- What holds in every state of a run. -/
structure Inv (h : History) : Prop where
  bytes : h.peer.txQueuedBytes = totalSize h.peer.txQueue
  limit : h.peer.closing = none → h.peer.txQueuedBytes ≤ h.peer.txBufferLimit
  socket : h.peer.closing ≠ none → h.peer.stream.isOpen = false
  idle : h.peer.writeInFlight = false → h.peer.stream.pending = []
  busy : h.peer.writeInFlight = true → ∃ front rest w,
    h.peer.txQueue = front :: rest ∧ h.peer.stream.pending = [w] ∧ w.message = front.data
  queued : h.peer.closing = none → h.peer.txQueue ≠ [] → h.peer.writeInFlight = true
  progress : ∃ finished dropped, Progress h finished dropped
  transmitted : h.transmitted <+: contents (untilShutdown h.written)
  taken : h.peer.stream.taken <+: (contents (untilShutdown h.written)).flatten

theorem inv_new (txBufferSize : Nat) : Inv (History.new txBufferSize) where
  bytes := rfl
  limit _ := Nat.zero_le _
  socket h := absurd rfl h
  idle _ := rfl
  busy h := absurd h Bool.false_ne_true
  queued _ h := absurd rfl h
  progress := by
    refine ⟨[], [], rfl, fun _ => rfl, rfl, fun _ => ⟨?_, fun _ => rfl⟩⟩
    intro m hm
    cases hm
  transmitted := List.prefix_refl _
  taken := List.prefix_refl _

/-! ## Between two writes -/

/-- What holds when no `async_write` is started and nothing stands against
starting one. -/
structure Ready (h : History) : Prop where
  bytes : h.peer.txQueuedBytes = totalSize h.peer.txQueue
  limit : h.peer.closing = none → h.peer.txQueuedBytes ≤ h.peer.txBufferLimit
  socket : h.peer.closing ≠ none → h.peer.stream.isOpen = false
  idle : h.peer.writeInFlight = false
  pending : h.peer.stream.pending = []
  progress : ∃ finished dropped,
    h.written = finished ++ h.peer.txQueue ++ dropped ∧
    (h.peer.closing = none → dropped = []) ∧ h.transmitted = contents finished ∧
    ∀ m ∈ finished, m.shutdownAfter = false
  whole : h.peer.stream.taken = h.transmitted.flatten
  transmitted : h.transmitted <+: contents (untilShutdown h.written)

theorem Ready.taken {h : History} (hready : Ready h) :
    h.peer.stream.taken <+: (contents (untilShutdown h.written)).flatten := by
  rw [hready.whole]
  exact isPrefix_flatten hready.transmitted

/-- With nothing queued, or on a closed peer, nothing has to be started. -/
theorem Ready.inv {h : History} (hready : Ready h)
    (hqueue : h.peer.closing = none → h.peer.txQueue = []) : Inv h where
  bytes := hready.bytes
  limit := hready.limit
  socket := hready.socket
  idle _ := hready.pending
  busy hbusy := by
    rw [hready.idle] at hbusy
    cases hbusy
  queued ho hne := absurd (hqueue ho) hne
  progress := by
    obtain ⟨finished, dropped, hwritten, hkept, htrans, hflags⟩ := hready.progress
    refine ⟨finished, dropped, hwritten, hkept, ?_, fun _ => ⟨hflags, fun _ => hready.whole⟩⟩
    rw [htrans, hready.pending, List.filterMap_nil, List.append_nil]
  transmitted := hready.transmitted
  taken := hready.taken

/-- Otherwise `do_write` starts the front of the queue. -/
theorem Ready.doWrite {h : History} (hready : Ready h) (hqueue : h.peer.txQueue ≠ []) :
    ∃ p, h.peer.doWrite = some p ∧ Inv { h with peer := p } := by
  obtain ⟨front, rest, hcons⟩ := List.exists_cons_of_ne_nil hqueue
  have hstart : h.peer.doWrite =
      some { h.peer with
        writeInFlight := true
        stream := h.peer.stream.asyncWrite front.data } := by
    simp only [PeerTls.doWrite, hcons]
  have hpending : (h.peer.stream.asyncWrite front.data).pending = [⟨front.data, none⟩] := by
    rw [SslStream.asyncWrite, hready.pending, List.nil_append]
  refine ⟨_, hstart, ?_⟩
  obtain ⟨finished, dropped, hwritten, hkept, htrans, hflags⟩ := hready.progress
  exact
    { bytes := hready.bytes
      limit := hready.limit
      socket := hready.socket
      idle := fun h => absurd h (by simp)
      busy := fun _ => ⟨front, rest, _, hcons, hpending, rfl⟩
      queued := fun _ _ => rfl
      progress := by
        refine ⟨finished, dropped, hwritten, hkept, ?_, fun _ => ⟨hflags, fun _ => hready.whole⟩⟩
        show h.transmitted =
          contents finished ++
            (h.peer.stream.asyncWrite front.data).pending.filterMap AsyncWrite.delivered
        rw [hpending, htrans]
        exact (List.append_nil _).symm
      transmitted := hready.transmitted
      taken := hready.taken }

/-! ## The steps -/

theorem isClosed_iff {p : PeerTls} : p.isClosed = true ↔ p.closing ≠ none := by
  rw [isClosed, Option.isSome_iff_ne_none]

theorem close_of_closed {p : PeerTls} (hc : p.closing ≠ none) (ec : ErrorCode) :
    p.close ec = p := by
  rw [close, if_pos (isClosed_iff.mpr hc)]

theorem close_of_open {p : PeerTls} (ho : p.closing = none) (ec : ErrorCode) :
    p.close ec =
      { p with closing := some ec, stream := { p.stream with isOpen := false } } := by
  rw [close, if_neg (by rw [isClosed_iff, ho]; exact fun h => h rfl)]

/-- The data and the place of messages written later. -/
theorem transmitted_written (h : History) (m : TxMessage)
    (htrans : h.transmitted <+: contents (untilShutdown h.written)) :
    h.transmitted <+: contents (untilShutdown (h.written ++ [m])) :=
  htrans.trans (isPrefix_contents (untilShutdown_mono h.written [m]))

theorem taken_written (h : History) (m : TxMessage)
    (htaken : h.peer.stream.taken <+: (contents (untilShutdown h.written)).flatten) :
    h.peer.stream.taken <+: (contents (untilShutdown (h.written ++ [m]))).flatten :=
  htaken.trans (isPrefix_flatten (isPrefix_contents (untilShutdown_mono h.written [m])))

/-- Closing keeps the invariant, also of a peer with too much in its queue. -/
theorem Inv.closing {h : History} (ho : h.peer.closing = none) (ec : ErrorCode)
    (hbytes : h.peer.txQueuedBytes = totalSize h.peer.txQueue)
    (hidle : h.peer.writeInFlight = false → h.peer.stream.pending = [])
    (hbusy : h.peer.writeInFlight = true → ∃ front rest w,
      h.peer.txQueue = front :: rest ∧ h.peer.stream.pending = [w] ∧ w.message = front.data)
    (hprogress : ∃ finished dropped, Progress h finished dropped)
    (htrans : h.transmitted <+: contents (untilShutdown h.written))
    (htaken : h.peer.stream.taken <+: (contents (untilShutdown h.written)).flatten) :
    Inv { h with peer := h.peer.close ec } := by
  rw [close_of_open ho]
  exact
    { bytes := hbytes
      limit := fun hc => absurd hc (by simp)
      socket := fun _ => rfl
      idle := hidle
      busy := hbusy
      queued := fun hc => absurd hc (by simp)
      progress := by
        obtain ⟨finished, dropped, hp⟩ := hprogress
        exact ⟨finished, dropped, hp.written, fun hc => absurd hc (by simp), hp.transmitted,
          fun _ => hp.going (.inr ho)⟩
      transmitted := htrans
      taken := htaken }

/-- A peer closes, or is closed already, and its last `async_write` is through. -/
theorem Inv.stopped {h : History} (ec : ErrorCode)
    (hsocket : h.peer.closing ≠ none → h.peer.stream.isOpen = false)
    (hidle : h.peer.writeInFlight = false) (hpending : h.peer.stream.pending = [])
    (hbytes : h.peer.txQueuedBytes = totalSize h.peer.txQueue)
    (hprogress : ∃ finished dropped, h.written = finished ++ h.peer.txQueue ++ dropped ∧
      h.transmitted = contents finished)
    (htrans : h.transmitted <+: contents (untilShutdown h.written))
    (htaken : h.peer.stream.taken <+: (contents (untilShutdown h.written)).flatten) :
    Inv { h with peer := h.peer.close ec } := by
  obtain ⟨finished, dropped, hwritten, hfinished⟩ := hprogress
  have hclosed : ∃ q, h.peer.close ec = q ∧ q.closing ≠ none ∧ q.stream.isOpen = false ∧
      q.txQueue = h.peer.txQueue ∧ q.txQueuedBytes = h.peer.txQueuedBytes ∧
      q.writeInFlight = false ∧ q.stream.pending = [] ∧
      q.stream.taken = h.peer.stream.taken := by
    by_cases ho : h.peer.closing = none
    · rw [close_of_open ho]
      exact ⟨_, rfl, by simp, rfl, rfl, rfl, hidle, hpending, rfl⟩
    · rw [close_of_closed ho]
      exact ⟨_, rfl, ho, hsocket ho, rfl, rfl, hidle, hpending, rfl⟩
  obtain ⟨q, hq, hclosing, hopen, hqueue, hqbytes, hqidle, hqpending, hqtaken⟩ := hclosed
  rw [hq]
  exact
    { bytes := by rw [hqbytes, hqueue, hbytes]
      limit := fun ho => absurd ho hclosing
      socket := fun _ => hopen
      idle := fun _ => hqpending
      busy := fun hbusy => absurd hbusy (by rw [hqidle]; exact Bool.false_ne_true)
      queued := fun ho => absurd ho hclosing
      progress := by
        refine ⟨finished, dropped, ?_, fun ho => absurd ho hclosing, ?_, ?_⟩
        · rw [hqueue, hwritten]
        · rw [hqpending, List.filterMap_nil, List.append_nil, hfinished]
        · rintro (hbusy | ho)
          · rw [hqidle] at hbusy
            cases hbusy
          · exact absurd ho hclosing
      transmitted := htrans
      taken := by rw [hqtaken]; exact htaken }

theorem Inv.close {h : History} (hinv : Inv h) (ec : ErrorCode) :
    Inv { h with peer := h.peer.close ec } := by
  by_cases ho : h.peer.closing = none
  · exact Inv.closing ho ec hinv.bytes hinv.idle hinv.busy hinv.progress hinv.transmitted
      hinv.taken
  · rw [close_of_closed ho]
    exact hinv

theorem Inv.stop {h : History} (hinv : Inv h) : Inv { h with peer := h.peer.stop } :=
  { bytes := hinv.bytes
    limit := hinv.limit
    socket := fun _ => rfl
    idle := hinv.idle
    busy := hinv.busy
    queued := hinv.queued
    progress := by
      obtain ⟨finished, dropped, hp⟩ := hinv.progress
      exact ⟨finished, dropped, hp.written, hp.kept, hp.transmitted, hp.going⟩
    transmitted := hinv.transmitted
    taken := hinv.taken }

/-- Writing to a closed peer changes nothing but what was asked for. -/
theorem Inv.write_closed {h : History} (hinv : Inv h) (hc : h.peer.closing ≠ none)
    (m : TxMessage) : Inv { h with written := h.written ++ [m] } :=
  { bytes := hinv.bytes
    limit := hinv.limit
    socket := hinv.socket
    idle := hinv.idle
    busy := hinv.busy
    queued := hinv.queued
    progress := by
      obtain ⟨finished, dropped, hp⟩ := hinv.progress
      refine ⟨finished, dropped ++ [m], ?_, fun ho => absurd ho hc, hp.transmitted, hp.going⟩
      show h.written ++ [m] = _
      rw [hp.written, List.append_assoc]
    transmitted := transmitted_written h m hinv.transmitted
    taken := taken_written h m hinv.taken }

/-- A message is pushed to the queue of an open peer. -/
def History.push (h : History) (m : TxMessage) : History :=
  { h with
    peer := { h.peer with
      txQueuedBytes := h.peer.txQueuedBytes + m.data.length
      txQueue := h.peer.txQueue ++ [m] }
    written := h.written ++ [m] }

theorem Inv.push_progress {h : History} (hinv : Inv h) (ho : h.peer.closing = none)
    (m : TxMessage) : ∃ finished dropped, Progress (h.push m) finished dropped := by
  obtain ⟨finished, dropped, hp⟩ := hinv.progress
  obtain rfl := hp.kept ho
  refine ⟨finished, [], ?_, fun _ => rfl, hp.transmitted, hp.going⟩
  show h.written ++ [m] = finished ++ (h.peer.txQueue ++ [m]) ++ []
  rw [hp.written, List.append_nil, List.append_nil, List.append_assoc]

theorem Inv.push_bytes {h : History} (hinv : Inv h) (m : TxMessage) :
    (h.push m).peer.txQueuedBytes = totalSize (h.push m).peer.txQueue := by
  show h.peer.txQueuedBytes + m.data.length = totalSize (h.peer.txQueue ++ [m])
  rw [hinv.bytes, totalSize_append, totalSize_cons, totalSize_nil, Nat.add_zero]

theorem Inv.push_busy {h : History} (hinv : Inv h) (m : TxMessage)
    (hbusy : (h.push m).peer.writeInFlight = true) : ∃ front rest w,
    (h.push m).peer.txQueue = front :: rest ∧ (h.push m).peer.stream.pending = [w] ∧
      w.message = front.data := by
  obtain ⟨front, rest, w, hqueue, hpending, hw⟩ := hinv.busy hbusy
  refine ⟨front, rest ++ [m], w, ?_, hpending, hw⟩
  show h.peer.txQueue ++ [m] = _
  rw [hqueue, List.cons_append]

/-- Within the limit, a message is queued behind the operation under way, or
started if there is none. -/
theorem Inv.push {h : History} (hinv : Inv h) (ho : h.peer.closing = none) (m : TxMessage)
    (hlimit : (h.push m).peer.txQueuedBytes ≤ (h.push m).peer.txBufferLimit) :
    (h.peer.writeInFlight = true → Inv (h.push m)) ∧
    (h.peer.writeInFlight = false → Ready (h.push m)) := by
  constructor
  · intro hbusy
    exact
      { bytes := hinv.push_bytes m
        limit := fun _ => hlimit
        socket := hinv.socket
        idle := hinv.idle
        busy := hinv.push_busy m
        queued := fun _ _ => hbusy
        progress := hinv.push_progress ho m
        transmitted := transmitted_written h m hinv.transmitted
        taken := taken_written h m hinv.taken }
  · intro hidle
    have hpending := hinv.idle hidle
    obtain ⟨finished, dropped, hp⟩ := hinv.push_progress ho m
    obtain ⟨hflags, hwhole⟩ := hp.going (.inr ho)
    have hsound : ∀ w ∈ (h.push m).peer.stream.pending, w.sound := by
      intro w hw
      rw [show (h.push m).peer.stream.pending = [] from hpending] at hw
      cases hw
    have htrans := hp.transmitted
    rw [show (h.push m).peer.stream.pending = [] from hpending, List.filterMap_nil,
      List.append_nil] at htrans
    exact
      { bytes := hinv.push_bytes m
        limit := fun _ => hlimit
        socket := hinv.socket
        idle := hidle
        pending := hpending
        progress := ⟨finished, dropped, hp.written, hp.kept, htrans, hflags⟩
        whole := hwhole hsound
        transmitted := transmitted_written h m hinv.transmitted }

theorem Inv.write {h : History} (hinv : Inv h) (buffers : List Bytes) (size : Option Nat)
    (doShutdownAfter : Bool) : ∃ p, h.peer.write buffers size doShutdownAfter = some p ∧
      Inv { h with
        peer := p
        written := h.written ++ [txMessage buffers size doShutdownAfter] } := by
  have hdata : (txMessage buffers size doShutdownAfter).data.length =
      size.getD buffers.flatten.length := length_bufferCopy _ _
  unfold PeerTls.write
  by_cases ho : h.peer.closing = none
  · rw [if_neg (by rw [isClosed_iff, ho]; exact fun h => h rfl)]
    simp only [← hdata]
    by_cases hover : h.peer.txQueuedBytes +
        (txMessage buffers size doShutdownAfter).data.length > h.peer.txBufferLimit
    · rw [if_pos hover]
      refine ⟨_, rfl, ?_⟩
      exact Inv.closing (h := h.push (txMessage buffers size doShutdownAfter)) ho .noBufferSpace
        (hinv.push_bytes _) hinv.idle (hinv.push_busy _) (hinv.push_progress ho _)
        (transmitted_written h _ hinv.transmitted) (taken_written h _ hinv.taken)
    · rw [if_neg hover]
      obtain ⟨hqueue, hstart⟩ := hinv.push ho (txMessage buffers size doShutdownAfter)
        (Nat.le_of_not_lt hover)
      by_cases hflight : h.peer.writeInFlight = true
      · rw [if_pos hflight]
        exact ⟨_, rfl, hqueue hflight⟩
      · rw [if_neg hflight]
        have hready := hstart (Bool.eq_false_iff.mpr hflight)
        exact hready.doWrite (List.append_ne_nil_of_right_ne_nil _ (by simp))
  · rw [if_pos (isClosed_iff.mpr ho)]
    exact ⟨_, rfl, hinv.write_closed ho _⟩

/-- The operation under way, if the handler of one can run. -/
theorem Inv.ended {h : History} (hinv : Inv h) {i : Nat} {ec : ErrorCode}
    (hended : ended h.peer.stream.pending i = some ec) :
    i = 0 ∧ h.peer.writeInFlight = true ∧ ∃ front rest w, h.peer.txQueue = front :: rest ∧
      h.peer.stream.pending = [w] ∧ w.message = front.data ∧ w.result = some ec := by
  have hbusy : h.peer.writeInFlight = true := by
    by_contra hidle
    rw [hinv.idle (Bool.eq_false_iff.mpr hidle)] at hended
    cases hended
  obtain ⟨front, rest, w, hqueue, hpending, hw⟩ := hinv.busy hbusy
  rw [hpending] at hended
  cases i with
  | zero => exact ⟨rfl, hbusy, front, rest, w, hqueue, hpending, hw, hended⟩
  | succ i => cases hended

theorem transmission_spec {s : SslStream} {w : AsyncWrite} {ec : ErrorCode}
    (hmay : s.MayEnd w ec) (n : Nat) :
    (ec = .success → s.transmission w.message n ec = w.message) ∧
    s.transmission w.message n ec <+: w.message := by
  rw [SslStream.transmission]
  cases hopen : s.isOpen with
  | false =>
      rw [if_neg Bool.false_ne_true]
      exact ⟨fun hec => (hmay.2 hopen hec).symm, List.nil_prefix⟩
  | true =>
      rw [if_pos rfl]
      by_cases hec : ec = .success
      · rw [if_pos hec]
        exact ⟨fun _ => rfl, List.prefix_refl _⟩
      · rw [if_neg hec]
        exact ⟨fun h => absurd h hec, List.take_prefix n _⟩

/-- An operation comes to its end. -/
theorem Inv.transmit {h : History} (hinv : Inv h) (i n : Nat) (ec : ErrorCode) :
    Inv (h.transmit i n ec) := by
  rw [History.transmit]
  cases hop : h.peer.stream.pending[i]? with
  | none => exact hinv
  | some w =>
      dsimp only
      by_cases hmay : h.peer.stream.MayEnd w ec
      · rw [if_pos hmay]
        obtain ⟨hresult, hempty⟩ := hmay
        have hbusy : h.peer.writeInFlight = true := by
          by_contra hidle
          rw [hinv.idle (Bool.eq_false_iff.mpr hidle)] at hop
          cases hop
        obtain ⟨front, rest, w', hqueue, hpending, hw⟩ := hinv.busy hbusy
        obtain ⟨finished, dropped, hp⟩ := hinv.progress
        obtain ⟨hflags, hwhole⟩ := hp.going (.inl hbusy)
        -- The operation is the one of the front of the queue.
        rw [hpending] at hop
        obtain ⟨rfl, rfl⟩ : i = 0 ∧ w' = w := by
          cases i with
          | zero => exact ⟨rfl, Option.some.inj hop⟩
          | succ i => cases hop
        have htrans : h.transmitted = contents finished := by
          rw [hp.transmitted, hpending]
          simp [AsyncWrite.delivered, hresult]
        have htaken : h.peer.stream.taken = (contents finished).flatten := by
          rw [← htrans]
          apply hwhole
          rw [hpending]
          intro w hw
          rw [List.mem_singleton.mp hw]
          exact .inl hresult
        have hwithin : contents (finished ++ [front]) <+: contents (untilShutdown h.written) := by
          apply isPrefix_contents
          rw [hp.written, hqueue, List.append_assoc, List.cons_append]
          exact append_singleton_prefix_untilShutdown front _ hflags
        have hset : h.peer.stream.pending.set 0 { w' with result := some ec } =
            [{ w' with result := some ec }] := by
          rw [hpending, List.set_cons_zero]
        obtain ⟨hall, hpart⟩ := transmission_spec ⟨hresult, hempty⟩ n
        exact
          { bytes := hinv.bytes
            limit := hinv.limit
            socket := hinv.socket
            idle := fun hidle => absurd hbusy (by rw [hidle]; exact Bool.false_ne_true)
            busy := fun _ => ⟨front, rest, _, hqueue, hset, hw⟩
            queued := hinv.queued
            progress := by
              refine ⟨finished, dropped, hp.written, hp.kept, ?_, fun _ => ⟨hflags, ?_⟩⟩
              · show h.transmitted ++ _ = _ ++ List.filterMap _ (h.peer.stream.pending.set 0 _)
                rw [hset, htrans]
                by_cases hec : ec = .success <;> simp [AsyncWrite.delivered, hec]
              · intro hsound
                have hmem : ({ w' with result := some ec } : AsyncWrite) ∈
                    h.peer.stream.pending.set 0 { w' with result := some ec } := by
                  rw [hset]
                  exact List.mem_singleton_self _
                have hec : ec = .success := by
                  rcases hsound _ hmem with hnone | hsome
                  · cases hnone
                  · exact Option.some.inj hsome
                show h.peer.stream.taken ++ _ = _
                rw [hall hec, htaken, htrans, if_pos hec, List.flatten_append]
                simp
            transmitted := by
              refine List.IsPrefix.trans ?_ hwithin
              rw [htrans, contents_append]
              by_cases hec : ec = .success
              · rw [if_pos hec, hw]
                exact List.prefix_refl _
              · rw [if_neg hec, List.append_nil]
                exact List.prefix_append _ _
            taken := by
              refine List.IsPrefix.trans ?_ (isPrefix_flatten hwithin)
              show h.peer.stream.taken ++ _ <+: _
              rw [htaken, contents_append, List.flatten_append]
              apply (List.prefix_append_right_inj _).mpr
              rw [contents_cons, contents_nil, List.flatten_singleton, ← hw]
              exact hpart }
      · rw [if_neg hmay]
        exact hinv

/-- The handler of an operation runs. -/
theorem Inv.finishWrite {h : History} (hinv : Inv h) {i : Nat} {ec : ErrorCode}
    (hended : PeerTls.ended h.peer.stream.pending i = some ec) :
    ∃ p, { h.peer with stream :=
        { h.peer.stream with pending := h.peer.stream.pending.eraseIdx i } }.finishWrite ec =
        some p ∧ Inv { h with peer := p } := by
  obtain ⟨rfl, hbusy, front, rest, w, hqueue, hpending, hw, hresult⟩ := hinv.ended hended
  obtain ⟨finished, dropped, hp⟩ := hinv.progress
  obtain ⟨hflags, hwhole⟩ := hp.going (.inl hbusy)
  have herase : h.peer.stream.pending.eraseIdx 0 = [] := by
    rw [hpending, List.eraseIdx_cons_zero]
  have hwritten : h.written = finished ++ [front] ++ rest ++ dropped := by
    rw [hp.written, hqueue, ← List.append_cons]
  rw [herase]
  unfold PeerTls.finishWrite
  by_cases hec : ec = .success
  · have htrans : h.transmitted = contents (finished ++ [front]) := by
      rw [hp.transmitted, hpending, contents_append, contents_cons, contents_nil, ← hw]
      simp [AsyncWrite.delivered, hresult, hec]
    have htaken : h.peer.stream.taken = h.transmitted.flatten := by
      apply hwhole
      rw [hpending]
      intro w' hw'
      rw [List.mem_singleton.mp hw', AsyncWrite.sound, hresult, hec]
      exact .inr rfl
    have hbytes : h.peer.txQueuedBytes - front.data.length = totalSize rest := by
      rw [hinv.bytes, hqueue, totalSize_cons, Nat.add_sub_cancel_left]
    rw [if_neg (not_not.mpr hec)]
    simp only [hqueue]
    by_cases hshutdown : front.shutdownAfter = true
    · rw [if_pos hshutdown]
      exact ⟨_, rfl, Inv.stopped (h := { h with peer := _ }) .success hinv.socket rfl rfl hbytes
        ⟨_, dropped, hwritten, htrans⟩ hinv.transmitted hinv.taken⟩
    · rw [if_neg hshutdown]
      have hready : Ready { h with
          peer := { h.peer with
            stream := { h.peer.stream with pending := [] }
            txQueue := rest
            txQueuedBytes := h.peer.txQueuedBytes - front.data.length
            writeInFlight := false } } :=
        { bytes := hbytes
          limit := fun ho => Nat.le_trans (Nat.sub_le _ _) (hinv.limit ho)
          socket := hinv.socket
          idle := rfl
          pending := rfl
          progress := by
            refine ⟨_, dropped, hwritten, hp.kept, htrans, ?_⟩
            intro m hm
            rcases List.mem_append.mp hm with hm | hm
            · exact hflags m hm
            · rw [List.mem_singleton.mp hm]
              exact Bool.eq_false_iff.mpr hshutdown
          whole := htaken
          transmitted := hinv.transmitted }
      by_cases hrest : rest = []
      · rw [if_pos (by rw [hrest]; rfl)]
        exact ⟨_, rfl, hready.inv fun _ => hrest⟩
      · rw [if_neg (by rw [List.isEmpty_iff]; exact hrest)]
        exact hready.doWrite hrest
  · rw [if_pos hec]
    have htrans : h.transmitted = contents finished := by
      rw [hp.transmitted, hpending]
      simp [AsyncWrite.delivered, hresult, hec]
    exact ⟨_, rfl, Inv.stopped (h := { h with peer := _ }) ec hinv.socket rfl rfl hinv.bytes
      ⟨finished, dropped, hp.written, htrans⟩ hinv.transmitted hinv.taken⟩

/-- **Every step is defined and keeps the invariant.** -/
theorem Inv.step {h : History} (hinv : Inv h) (a : Action) :
    ∃ h', h.step a = some h' ∧ Inv h' := by
  cases a with
  | write buffers size doShutdownAfter =>
      obtain ⟨p, hp, hpinv⟩ := hinv.write buffers size doShutdownAfter
      exact ⟨_, by rw [History.step, hp, Option.map_some], hpinv⟩
  | transmit i n ec => exact ⟨_, rfl, hinv.transmit i n ec⟩
  | finishWrite i =>
      rw [History.step]
      cases hended : PeerTls.ended h.peer.stream.pending i with
      | none => exact ⟨h, rfl, hinv⟩
      | some ec =>
          obtain ⟨p, hp, hpinv⟩ := hinv.finishWrite hended
          exact ⟨_, Option.map_eq_some_iff.mpr ⟨p, hp, rfl⟩, hpinv⟩
  | close ec => exact ⟨_, rfl, hinv.close ec⟩
  | stop => exact ⟨_, rfl, hinv.stop⟩

/-! ## What closes a peer -/

theorem doWrite_closing {p q : PeerTls} (hp : p.doWrite = some q) : q.closing = p.closing := by
  unfold PeerTls.doWrite at hp
  cases hqueue : p.txQueue with
  | nil =>
      rw [hqueue] at hp
      cases hp
  | cons front rest =>
      simp only [hqueue] at hp
      obtain rfl := Option.some.inj hp
      rfl

/-- `write` closes an open peer exactly when it takes the sum over the limit. -/
theorem write_closing {p q : PeerTls} {buffers : List Bytes} {size : Option Nat}
    {doShutdownAfter : Bool} (ho : p.closing = none)
    (hp : p.write buffers size doShutdownAfter = some q) :
    q.closing =
      if p.txBufferLimit < p.txQueuedBytes + size.getD buffers.flatten.length
      then some .noBufferSpace else none := by
  unfold PeerTls.write at hp
  rw [if_neg (by rw [isClosed_iff, ho]; exact fun h => h rfl)] at hp
  dsimp only at hp
  by_cases hover : p.txBufferLimit < p.txQueuedBytes + size.getD buffers.flatten.length
  · rw [if_pos hover] at hp
    obtain rfl := Option.some.inj hp
    rw [if_pos hover, close_of_open (by exact ho)]
  · rw [if_neg hover] at hp
    rw [if_neg hover]
    by_cases hflight : p.writeInFlight = true
    · rw [if_pos hflight] at hp
      obtain rfl := Option.some.inj hp
      exact ho
    · rw [if_neg hflight] at hp
      rw [doWrite_closing hp]
      exact ho

/-- `finish_write` closes an open peer with the error of the operation, or
with none after a message with `shutdown_after`. -/
theorem finishWrite_closing {p q : PeerTls} {ec : ErrorCode} (ho : p.closing = none)
    (hp : p.finishWrite ec = some q) :
    (ec ≠ .success → q.closing = some ec) ∧
    (ec = .success → q.closing = none ∨ q.closing = some .success) := by
  unfold PeerTls.finishWrite at hp
  by_cases hec : ec = .success
  · rw [if_neg (not_not.mpr hec)] at hp
    refine ⟨fun hne => absurd hec hne, fun _ => ?_⟩
    cases hqueue : p.txQueue with
    | nil =>
        simp only [hqueue] at hp
        cases hp
    | cons entry rest =>
        simp only [hqueue] at hp
        by_cases hshutdown : entry.shutdownAfter = true
        · rw [if_pos hshutdown] at hp
          obtain rfl := Option.some.inj hp
          right
          rw [close_of_open (by exact ho)]
        · rw [if_neg hshutdown] at hp
          left
          by_cases hrest : rest.isEmpty = true
          · rw [if_pos hrest] at hp
            obtain rfl := Option.some.inj hp
            exact ho
          · rw [if_neg hrest] at hp
            rw [doWrite_closing hp]
            exact ho
  · rw [if_pos hec] at hp
    obtain rfl := Option.some.inj hp
    rw [close_of_open (by exact ho)]
    exact ⟨fun _ => rfl, fun h => absurd h hec⟩

theorem History.transmit_closing (h : History) (i n : Nat) (ec : ErrorCode) :
    (h.transmit i n ec).peer.closing = h.peer.closing := by
  rw [History.transmit]
  cases h.peer.stream.pending[i]? with
  | none => rfl
  | some w =>
      dsimp only
      split <;> rfl

/-- What closes an open peer with `no_buffer_space`. -/
theorem Inv.closes_iff {h h' : History} (hinv : Inv h) {a : Action}
    (hstep : h.step a = some h') (ho : h.peer.closing = none) :
    h'.peer.closing = some .noBufferSpace ↔
      a.takesOver h.peer = true ∨ a.brings h.peer = some .noBufferSpace := by
  cases a with
  | write buffers size doShutdownAfter =>
      obtain ⟨p, hp, rfl⟩ := Option.map_eq_some_iff.mp hstep
      have hclosing := write_closing ho hp
      rw [hinv.bytes] at hclosing
      simp only [Action.takesOver, Action.brings, decide_eq_true_eq, hclosing]
      split
      · rename_i hover
        exact ⟨fun _ => .inl hover, fun _ => rfl⟩
      · rename_i hover
        exact ⟨fun h => absurd h (by simp), fun h => absurd (h.resolve_right (by simp)) hover⟩
  | transmit i n ec =>
      obtain rfl := Option.some.inj hstep
      rw [History.transmit_closing, ho]
      simp [Action.takesOver, Action.brings]
  | finishWrite i =>
      rw [History.step] at hstep
      simp only [Action.takesOver, Action.brings, Bool.false_eq_true, false_or]
      cases hended : PeerTls.ended h.peer.stream.pending i with
      | none =>
          rw [hended] at hstep
          obtain rfl := Option.some.inj hstep
          rw [ho]
      | some ec =>
          rw [hended] at hstep
          obtain ⟨p, hp, rfl⟩ := Option.map_eq_some_iff.mp hstep
          obtain ⟨herror, hsuccess⟩ := finishWrite_closing (by exact ho) hp
          by_cases hec : ec = .success
          · rcases hsuccess hec with hclosing | hclosing <;> simp [hclosing, hec]
          · rw [herror hec]
  | close ec =>
      obtain rfl := Option.some.inj hstep
      rw [close_of_open ho]
      simp [Action.takesOver, Action.brings]
  | stop =>
      obtain rfl := Option.some.inj hstep
      rw [show h.peer.stop.closing = none from ho]
      simp [Action.takesOver, Action.brings]

/-! ## What no step changes -/

@[simp] theorem close_limit (p : PeerTls) (ec : ErrorCode) :
    (p.close ec).txBufferLimit = p.txBufferLimit := by
  rw [close]
  split <;> rfl

theorem doWrite_limit {p q : PeerTls} (hp : p.doWrite = some q) :
    q.txBufferLimit = p.txBufferLimit := by
  unfold PeerTls.doWrite at hp
  split at hp
  · cases hp
  · obtain rfl := Option.some.inj hp
    rfl

theorem write_limit {p q : PeerTls} {buffers : List Bytes} {size : Option Nat}
    {doShutdownAfter : Bool} (hp : p.write buffers size doShutdownAfter = some q) :
    q.txBufferLimit = p.txBufferLimit := by
  unfold PeerTls.write at hp
  by_cases hc : p.isClosed = true
  · rw [if_pos hc] at hp
    rw [Option.some.inj hp]
  · rw [if_neg hc] at hp
    dsimp only at hp
    split at hp
    · rw [← Option.some.inj hp, close_limit]
    · split at hp
      · rw [← Option.some.inj hp]
      · rw [doWrite_limit hp]

theorem finishWrite_limit {p q : PeerTls} {ec : ErrorCode} (hp : p.finishWrite ec = some q) :
    q.txBufferLimit = p.txBufferLimit := by
  unfold PeerTls.finishWrite at hp
  dsimp only at hp
  split at hp
  · rw [← Option.some.inj hp, close_limit]
  · split at hp
    · cases hp
    · split at hp
      · rw [← Option.some.inj hp, close_limit]
      · split at hp
        · rw [← Option.some.inj hp]
        · rw [doWrite_limit hp]

/-- The limit is the one the peer was made with. -/
theorem step_limit {h h' : History} {a : Action} (hstep : h.step a = some h') :
    h'.peer.txBufferLimit = h.peer.txBufferLimit := by
  cases a with
  | write buffers size doShutdownAfter =>
      obtain ⟨p, hp, rfl⟩ := Option.map_eq_some_iff.mp hstep
      exact write_limit hp
  | transmit i n ec =>
      obtain rfl := Option.some.inj hstep
      rw [History.transmit]
      split
      · rfl
      · split <;> rfl
  | finishWrite i =>
      rw [History.step] at hstep
      split at hstep
      · rw [← Option.some.inj hstep]
      · obtain ⟨p, hp, rfl⟩ := Option.map_eq_some_iff.mp hstep
        have hlimit := finishWrite_limit hp
        exact hlimit
  | close ec =>
      obtain rfl := Option.some.inj hstep
      exact close_limit _ _
  | stop =>
      obtain rfl := Option.some.inj hstep
      rfl

/-- A step logs the message its action writes. -/
theorem step_written {h h' : History} {a : Action} (hstep : h.step a = some h') :
    h'.written = h.written ++ a.written.toList := by
  cases a with
  | write buffers size doShutdownAfter =>
      obtain ⟨p, -, rfl⟩ := Option.map_eq_some_iff.mp hstep
      rfl
  | transmit i n ec =>
      obtain rfl := Option.some.inj hstep
      rw [show Action.written (.transmit i n ec) = none from rfl, Option.toList_none,
        List.append_nil, History.transmit]
      split
      · rfl
      · split <;> rfl
  | finishWrite i =>
      rw [show Action.written (.finishWrite i) = none from rfl, Option.toList_none,
        List.append_nil]
      rw [History.step] at hstep
      split at hstep
      · rw [← Option.some.inj hstep]
      · obtain ⟨p, -, rfl⟩ := Option.map_eq_some_iff.mp hstep
        rfl
  | close ec =>
      obtain rfl := Option.some.inj hstep
      exact (List.append_nil _).symm
  | stop =>
      obtain rfl := Option.some.inj hstep
      exact (List.append_nil _).symm

/-- A closed peer stays closed with the error it was closed with. -/
theorem step_closed {h h' : History} {a : Action} (hstep : h.step a = some h')
    (hc : h.peer.closing ≠ none) : h'.peer.closing = h.peer.closing := by
  cases a with
  | write buffers size doShutdownAfter =>
      obtain ⟨p, hp, rfl⟩ := Option.map_eq_some_iff.mp hstep
      rw [PeerTls.write, if_pos (isClosed_iff.mpr hc)] at hp
      rw [Option.some.inj hp]
  | transmit i n ec =>
      obtain rfl := Option.some.inj hstep
      exact h.transmit_closing i n ec
  | finishWrite i =>
      rw [History.step] at hstep
      split at hstep
      · rw [← Option.some.inj hstep]
      · obtain ⟨p, hp, rfl⟩ := Option.map_eq_some_iff.mp hstep
        unfold PeerTls.finishWrite at hp
        dsimp only at hp
        split at hp
        · rw [← Option.some.inj hp, close_of_closed (by exact hc)]
        · split at hp
          · cases hp
          · split at hp
            · rw [← Option.some.inj hp, close_of_closed (by exact hc)]
            · split at hp
              · rw [← Option.some.inj hp]
              · rw [doWrite_closing hp]
  | close ec =>
      obtain rfl := Option.some.inj hstep
      rw [close_of_closed hc]
  | stop =>
      obtain rfl := Option.some.inj hstep
      rfl

/-! ## Runs -/

/-- What a run keeps beside the invariant. -/
theorem run_frame (actions : List Action) :
    ∀ {h h' : History}, actions.foldlM History.step h = some h' →
      h'.peer.txBufferLimit = h.peer.txBufferLimit ∧
      h'.written = h.written ++ actions.filterMap Action.written := by
  induction actions with
  | nil =>
      intro h h' hrun
      obtain rfl := Option.some.inj hrun
      exact ⟨rfl, (List.append_nil _).symm⟩
  | cons a actions ih =>
      intro h h' hrun
      rw [List.foldlM_cons] at hrun
      obtain ⟨t, hstep, hrun⟩ := Option.bind_eq_some_iff.mp hrun
      obtain ⟨hlimit, hwritten⟩ := ih hrun
      refine ⟨hlimit.trans (step_limit hstep), ?_⟩
      rw [hwritten, step_written hstep, List.append_assoc]
      cases ha : a.written with
      | none => simp [ha]
      | some m => simp [ha]

/-- **The transmit queue is exact in every run.**  At most one `async_write` is
under way, and it is that of the front of the queue; the counter is the sum of
the sizes of the queued messages, and an open peer keeps it within the limit;
the messages that were transmitted are the first ones written, in order, and
on an open peer something is queued exactly while a write is in flight;
nothing behind a message with `shutdown_after` is transmitted, not even in
part; and an open peer closes with `no_buffer_space` exactly when a write takes
the sum over the limit, or when that very error comes from outside the queue. -/
theorem transmit_queue_exact (txBufferSize : Nat) (actions : List Action) :
    ∃ h, actions.foldlM History.step (History.new txBufferSize) = some h ∧
      h.written = actions.filterMap Action.written ∧
      (h.peer.stream.pending.length ≤ 1 ∧ ∀ w ∈ h.peer.stream.pending,
        ∃ front rest, h.peer.txQueue = front :: rest ∧ w.message = front.data) ∧
      (h.peer.writeInFlight = true ↔ h.peer.stream.pending ≠ []) ∧
      h.peer.txQueuedBytes = totalSize h.peer.txQueue ∧
      (h.peer.closing = none → h.peer.txQueuedBytes ≤ txBufferSize) ∧
      h.transmitted <+: contents h.written ∧
      (h.peer.closing = none → (h.peer.txQueue ≠ [] ↔ h.peer.writeInFlight = true)) ∧
      (h.transmitted <+: contents (untilShutdown h.written) ∧
        h.peer.stream.taken <+: (contents (untilShutdown h.written)).flatten) ∧
      ∀ a h', h.step a = some h' →
        (h.peer.closing = none →
          (h'.peer.closing = some .noBufferSpace ↔
            a.takesOver h.peer = true ∨ a.brings h.peer = some .noBufferSpace)) ∧
        (h.peer.closing ≠ none → h'.peer.closing = h.peer.closing) := by
  obtain ⟨h, hrun, hinv⟩ :=
    foldlM_invariant (fun _ a hi => Inv.step hi a) actions _ (inv_new txBufferSize)
  obtain ⟨hlimit, hwritten⟩ := run_frame actions hrun
  have hfront : h.peer.writeInFlight = true → ∃ front rest w, h.peer.txQueue = front :: rest ∧
      h.peer.stream.pending = [w] ∧ w.message = front.data := hinv.busy
  have hflight : h.peer.writeInFlight = true ↔ h.peer.stream.pending ≠ [] := by
    constructor
    · intro hbusy
      obtain ⟨front, rest, w, -, hpending, -⟩ := hfront hbusy
      rw [hpending]
      exact List.cons_ne_nil _ _
    · intro hne
      by_contra hidle
      exact hne (hinv.idle (Bool.eq_false_iff.mpr hidle))
  refine ⟨h, hrun, hwritten, ?_, hflight, hinv.bytes, ?_, ?_, ?_, ?_, ?_⟩
  · by_cases hbusy : h.peer.writeInFlight = true
    · obtain ⟨front, rest, w, hqueue, hpending, hw⟩ := hfront hbusy
      rw [hpending]
      refine ⟨Nat.le_refl 1, fun v hv => ⟨front, rest, hqueue, ?_⟩⟩
      rw [List.mem_singleton.mp hv, hw]
    · rw [hinv.idle (Bool.eq_false_iff.mpr hbusy)]
      exact ⟨Nat.zero_le 1, fun w hw => by cases hw⟩
  · intro ho
    rw [show txBufferSize = h.peer.txBufferLimit from hlimit.symm]
    exact hinv.limit ho
  · exact hinv.transmitted.trans (isPrefix_contents (isPrefix_untilShutdown _))
  · intro ho
    refine ⟨hinv.queued ho, fun hbusy => ?_⟩
    obtain ⟨front, rest, w, hqueue, -, -⟩ := hfront hbusy
    rw [hqueue]
    exact List.cons_ne_nil _ _
  · exact ⟨hinv.transmitted, hinv.taken⟩
  · exact fun a h' hstep => ⟨hinv.closes_iff hstep, step_closed hstep⟩

/-- The error of an operation is handed on as it is: a peer far from its limit
closes with `no_buffer_space` if that is how an `async_write` ends. -/
theorem transport_reports_no_buffer_space :
    ¬ ∀ (txBufferSize : Nat) (actions : List Action) (a : Action) (h h' : History),
      actions.foldlM History.step (History.new txBufferSize) = some h →
      h.step a = some h' → h.peer.closing = none →
      (h'.peer.closing = some .noBufferSpace ↔ a.takesOver h.peer = true) := by
  intro hclaim
  have hcase := hclaim 100
    [.write [[0x82, 0x00]] none false, .transmit 0 0 .noBufferSpace] (.finishWrite 0)
    _ _ rfl rfl rfl
  exact absurd (hcase.mp (by decide)) (by decide)

end WsStreaming.Ports.PeerTls
