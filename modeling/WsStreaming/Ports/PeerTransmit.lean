import WsStreaming.Verified.Run
import WsStreaming.Ports.Peer
import WsStreaming.Ports.DynamicBufferQueue

/-!
# What the socket has taken

The direct path and the buffered path of `peer` share one socket, and only
`_waiting_tx` keeps them apart.  Here is what that achieves: in every run the
bytes the socket has taken, followed by the bytes in `_tx_buffer`, are the
frames in the order they were written.

A run is a list of `Action`s, each with the behaviour of the socket for it.
`History` adds the frames written so far to the state of the peer.
-/

namespace WsStreaming.Ports.Peer

open WsStreaming.Verified.Wire WsStreaming.Verified.Run

/-- What can happen to a peer. -/
inductive Action where
  /-- A frame is passed to `write`. -/
  | write (buffers : List Bytes) (doShutdownAfter : Bool) (outcome : SendOutcome)
  /-- The wait for writeability ends. -/
  | finishWaitTx (waitEc : ErrorCode) (outcome : SendOutcome)
  /-- The receive path closes the peer. -/
  | close (ec : ErrorCode)
  /-- The owner stops the peer. -/
  | stop
deriving Repr, DecidableEq

/-- A frame that was written, and whether the peer is to close after it. -/
structure Written where
  bytes : Bytes
  doShutdownAfter : Bool
deriving Repr, DecidableEq

/-- A peer, and what was written to it so far. -/
structure History where
  peer : Peer
  written : List Written
deriving Repr, DecidableEq

/-- The concatenation of frames. -/
def stream (frames : List Written) : Bytes := frames.flatMap Written.bytes

@[simp] theorem stream_append (fs gs : List Written) :
    stream (fs ++ gs) = stream fs ++ stream gs := by
  simp [stream]

@[simp] theorem stream_singleton (bytes : Bytes) (doShutdownAfter : Bool) :
    stream [⟨bytes, doShutdownAfter⟩] = bytes := by
  simp [stream]

/-- One step of a run; `none` if a loop of the buffer does not end. -/
def History.step (h : History) : Action → Option History
  | .write buffers doShutdownAfter outcome =>
      (h.peer.write buffers doShutdownAfter outcome).map fun p =>
        ⟨p, h.written ++ [⟨buffers.flatten, doShutdownAfter⟩]⟩
  | .finishWaitTx waitEc outcome =>
      (h.peer.finishWaitTx waitEc outcome).map fun p => ⟨p, h.written⟩
  | .close ec =>
      some ⟨h.peer.close { ec := ec, afterShutdownFrame := false }, h.written⟩
  | .stop => some ⟨h.peer.stop, h.written⟩

/-- The frame an action writes. -/
def Action.written : Action → Option Written
  | .write buffers doShutdownAfter _ => some ⟨buffers.flatten, doShutdownAfter⟩
  | .finishWaitTx _ _ => none
  | .close _ => none
  | .stop => none

theorem step_written {h h' : History} {a : Action} (hstep : h.step a = some h') :
    h'.written = h.written ++ a.written.toList := by
  cases a with
  | write buffers doShutdownAfter outcome =>
      obtain ⟨p, -, rfl⟩ := Option.map_eq_some_iff.mp hstep
      rfl
  | finishWaitTx waitEc outcome =>
      obtain ⟨p, -, rfl⟩ := Option.map_eq_some_iff.mp hstep
      exact (List.append_nil _).symm
  | close ec =>
      obtain rfl := Option.some.inj hstep
      exact (List.append_nil _).symm
  | stop =>
      obtain rfl := Option.some.inj hstep
      exact (List.append_nil _).symm

/-- A run logs the frames its actions write, in order. -/
theorem run_written (actions : List Action) :
    ∀ {h h' : History}, actions.foldlM History.step h = some h' →
      h'.written = h.written ++ actions.filterMap Action.written := by
  induction actions with
  | nil =>
      intro h h' hrun
      obtain rfl := Option.some.inj hrun
      simp
  | cons a actions ih =>
      intro h h' hrun
      rw [List.foldlM_cons] at hrun
      obtain ⟨t, hstep, hrun⟩ := Option.bind_eq_some_iff.mp hrun
      rw [ih hrun, step_written hstep, List.append_assoc]
      cases ha : a.written with
      | none => simp [ha]
      | some w => simp [ha]

/-- Every byte of a frame with `do_shutdown_after` is among those taken. -/
def ShutdownFrameTaken (written : List Written) (taken : Bytes) : Prop :=
  ∃ before frame after, written = before ++ ⟨frame, true⟩ :: after ∧
    stream before ++ frame <+: taken

/-- What holds in every state of a run. -/
structure Inv (h : History) : Prop where
  buffer : h.peer.txBuffer.Inv
  /-- While the peer is open, nothing is lost, doubled or out of order. -/
  queued : h.peer.isClosed = false →
    h.peer.socket.taken ++ h.peer.txBuffer.contents = stream h.written
  waiting : h.peer.isClosed = false → h.peer.txBuffer.contents ≠ [] →
    h.peer.waitingTx = true
  shutdown : h.peer.isClosed = false → h.peer.shutdownWhenEmpty = true →
    ∃ f ∈ h.written, f.doShutdownAfter = true
  /-- A closed peer has closed its socket. -/
  socket : h.peer.isClosed = true → h.peer.socket.isOpen = false
  taken : h.peer.socket.taken <+: stream h.written
  shutdownTaken : ∀ c, h.peer.closing = some c → c.afterShutdownFrame = true →
    ShutdownFrameTaken h.written h.peer.socket.taken

/-! ## The pieces of a step -/

theorem flatten_suffix (buffers : List Bytes) (n : Nat) :
    (suffix buffers n).flatten = buffers.flatten.drop n := by
  induction buffers generalizing n with
  | nil => simp [suffix]
  | cons b bs ih =>
      rw [suffix, List.flatten_cons, List.drop_append]
      split
      · rename_i hlt
        rw [List.flatten_cons, Nat.sub_eq_zero_of_le (by omega), List.drop_zero]
      · rename_i hge
        have hdrop : b.drop n = [] := List.drop_eq_nil_of_le (by omega)
        rw [ih, hdrop, List.nil_append]

/-- A send takes a prefix of what it is offered, and nothing if it reports an
error; a closed socket reports one. -/
theorem send_spec (s : Socket) (offered : Bytes) (outcome : SendOutcome) :
    ∃ n ec, s.send offered outcome =
        ({ s with taken := s.taken ++ offered.take n }, n, ec) ∧
      n ≤ offered.length ∧ (ec.genuine = true → n = 0) ∧
      (s.isOpen = false → ec.genuine = true) := by
  obtain ⟨isOpen, taken⟩ := s
  cases isOpen with
  | false => exact ⟨0, badDescriptor, by simp [Socket.send], by simp, by simp, fun _ => rfl⟩
  | true =>
      cases outcome with
      | sent n =>
          refine ⟨min n offered.length, .success, ?_, Nat.min_le_right _ _,
            fun h => by simp [ErrorCode.genuine] at h, fun h => by simp at h⟩
          simp only [Socket.send, if_true, List.length_take]
          rw [← List.take_take, List.take_length]
      | wouldBlock =>
          exact ⟨0, .wouldBlock, by simp [Socket.send], by simp, by simp, fun h => by simp at h⟩
      | failed ec =>
          exact ⟨0, ec, by simp [Socket.send], by simp, by simp, fun h => by simp at h⟩

theorem close_of_open {p : Peer} (h : p.isClosed = false) (c : Closing) :
    p.close c =
      { p with closing := some c, socket := { p.socket with isOpen := false } } := by
  simp [Peer.close, h]

theorem close_of_closed {p : Peer} (h : p.isClosed = true) (c : Closing) : p.close c = p := by
  simp [Peer.close, h]

theorem finishEnqueue_eq (p : Peer) (doShutdownAfter : Bool) :
    p.finishEnqueue doShutdownAfter =
      { p with
        shutdownWhenEmpty := p.shutdownWhenEmpty || doShutdownAfter
        waitingTx := true } := by
  obtain ⟨useTcp, socket, txBuffer, waitingTx, shutdownWhenEmpty, closing⟩ := p
  cases doShutdownAfter <;> cases waitingTx <;> simp [finishEnqueue, doWaitTx]

/-- `enqueue` keeps everything that is to be sent, or closes the peer. -/
theorem enqueue_spec {p : Peer} (hbuf : p.txBuffer.Inv) (buffers : List Bytes) {size : Nat}
    (hsize : size = buffers.flatten.length) (doShutdownAfter : Bool) :
    ∃ p', p.enqueue buffers size doShutdownAfter = some p' ∧ p'.txBuffer.Inv ∧
      p'.socket.taken = p.socket.taken ∧
      (p.isClosed = true → p'.closing = p.closing ∧ p'.socket = p.socket) ∧
      (p.isClosed = false →
        (p'.closing = none ∧
          p'.txBuffer.contents = p.txBuffer.contents ++ buffers.flatten ∧
          p'.waitingTx = true ∧
          p'.shutdownWhenEmpty = (p.shutdownWhenEmpty || doShutdownAfter)) ∨
        (p'.closing = some { ec := .noBufferSpace, afterShutdownFrame := false } ∧
          p'.socket.isOpen = false)) := by
  obtain ⟨b, n, hwrite, hinv, hn, hcontents, -⟩ := DynamicBuffer.write_spec hbuf buffers
  unfold enqueue
  simp only [hwrite, Option.bind_eq_bind, Option.bind_some]
  by_cases hfull : n < size
  · rw [if_pos hfull]
    cases hc : p.isClosed with
    | true =>
        have hclosed : ({ p with txBuffer := b } : Peer).isClosed = true := hc
        refine ⟨_, rfl, ?_⟩
        rw [close_of_closed hclosed]
        exact ⟨hinv, rfl, fun _ => ⟨rfl, rfl⟩, fun h => by simp at h⟩
    | false =>
        have hopen : ({ p with txBuffer := b } : Peer).isClosed = false := hc
        refine ⟨_, rfl, ?_⟩
        rw [close_of_open hopen]
        exact ⟨hinv, rfl, fun h => by simp at h, fun _ => .inr ⟨rfl, rfl⟩⟩
  · rw [if_neg hfull]
    have hall : b.contents = p.txBuffer.contents ++ buffers.flatten := by
      rw [hcontents, List.take_of_length_le (by omega)]
    rw [finishEnqueue_eq]
    refine ⟨_, rfl, hinv, rfl, fun _ => ⟨rfl, rfl⟩, fun hopen => .inl ⟨?_, hall, rfl, rfl⟩⟩
    simpa [isClosed] using hopen

/-! ## The invariant -/

/-- The invariant of an open peer. -/
theorem Inv.of_open {h : History} (hopen : h.peer.closing = none)
    (hbuf : h.peer.txBuffer.Inv)
    (hqueued : h.peer.socket.taken ++ h.peer.txBuffer.contents = stream h.written)
    (hwaiting : h.peer.txBuffer.contents ≠ [] → h.peer.waitingTx = true)
    (hshutdown : h.peer.shutdownWhenEmpty = true →
      ∃ f ∈ h.written, f.doShutdownAfter = true) : Inv h where
  buffer := hbuf
  queued _ := hqueued
  waiting _ := hwaiting
  shutdown _ := hshutdown
  socket hc := by simp [isClosed, hopen] at hc
  taken := ⟨_, hqueued⟩
  shutdownTaken c hc := by rw [hopen] at hc; cases hc

/-- The invariant of a closed peer. -/
theorem Inv.of_closed {h : History} {c : Closing} (hclosed : h.peer.closing = some c)
    (hbuf : h.peer.txBuffer.Inv) (hsocket : h.peer.socket.isOpen = false)
    (htaken : h.peer.socket.taken <+: stream h.written)
    (hshutdown : c.afterShutdownFrame = true →
      ShutdownFrameTaken h.written h.peer.socket.taken) : Inv h where
  buffer := hbuf
  queued ho := by simp [isClosed, hclosed] at ho
  waiting ho := by simp [isClosed, hclosed] at ho
  shutdown ho := by simp [isClosed, hclosed] at ho
  socket _ := hsocket
  taken := htaken
  shutdownTaken d hd := by
    rw [hclosed] at hd
    cases hd
    exact hshutdown

/-- What was taken before more is written is still a prefix afterwards. -/
theorem ShutdownFrameTaken.append {written : List Written} {taken : Bytes}
    (h : ShutdownFrameTaken written taken) (more : List Written) :
    ShutdownFrameTaken (written ++ more) taken := by
  obtain ⟨before, frame, after, rfl, hpre⟩ := h
  exact ⟨before, frame, after ++ more, by simp, hpre⟩

/-- When everything is taken, so is every frame with `do_shutdown_after`. -/
theorem ShutdownFrameTaken.of_mem {written : List Written} {f : Written}
    (hf : f ∈ written) (hflag : f.doShutdownAfter = true) :
    ShutdownFrameTaken written (stream written) := by
  obtain ⟨before, after, rfl⟩ := List.append_of_mem hf
  obtain ⟨frame, flag⟩ := f
  simp only at hflag
  subst hflag
  exact ⟨before, frame, after, rfl, stream after, by simp [stream]⟩

/-- A closed peer stays closed, whatever else is done to it, and its socket
takes nothing more. -/
theorem Inv.closed_frame {h : History} (hinv : Inv h) {c : Closing}
    (hc : h.peer.closing = some c) {p : Peer} (hbuf : p.txBuffer.Inv)
    (hclosing : p.closing = h.peer.closing) (hsocket : p.socket = h.peer.socket)
    (more : List Written) : Inv ⟨p, h.written ++ more⟩ := by
  have hclosed : h.peer.isClosed = true := by simp [isClosed, hc]
  refine Inv.of_closed (c := c) (by rw [hclosing, hc]) hbuf ?_ ?_ ?_
  · rw [hsocket]
    exact hinv.socket hclosed
  · rw [hsocket, stream_append]
    exact hinv.taken.trans (List.prefix_append _ _)
  · intro hflag
    rw [hsocket]
    exact (hinv.shutdownTaken c hc hflag).append more

/-- Closing an open peer that has sent a prefix of what was written. -/
theorem Inv.close_error {p : Peer} {written : List Written} (hbuf : p.txBuffer.Inv)
    (hopen : p.isClosed = false) (htaken : p.socket.taken <+: stream written)
    (ec : ErrorCode) :
    Inv ⟨p.close { ec := ec, afterShutdownFrame := false }, written⟩ := by
  rw [close_of_open hopen]
  exact Inv.of_closed rfl hbuf rfl htaken (fun h => by simp at h)

/-- Closing an open peer that has sent everything that was written. -/
theorem Inv.close_shutdown {p : Peer} {written : List Written} (hbuf : p.txBuffer.Inv)
    (hopen : p.isClosed = false) (htaken : p.socket.taken = stream written)
    (hflag : ∃ f ∈ written, f.doShutdownAfter = true) :
    Inv ⟨p.close { ec := .success, afterShutdownFrame := true }, written⟩ := by
  obtain ⟨f, hf, hflag⟩ := hflag
  rw [close_of_open hopen]
  refine Inv.of_closed rfl hbuf rfl ?_ (fun _ => ?_)
  · simp only [htaken]
    exact List.prefix_refl _
  · simp only [htaken]
    exact .of_mem hf hflag

/-- Queueing the rest of what was written on an open peer. -/
theorem Inv.enqueue {p : Peer} {written : List Written} (hbuf : p.txBuffer.Inv)
    (hopen : p.closing = none) {buffers : List Bytes} {size : Nat} {doShutdownAfter : Bool}
    (hsize : size = buffers.flatten.length)
    (hqueued : p.socket.taken ++ p.txBuffer.contents ++ buffers.flatten = stream written)
    (hshutdown : p.shutdownWhenEmpty = true ∨ doShutdownAfter = true →
      ∃ f ∈ written, f.doShutdownAfter = true) :
    ∃ p', p.enqueue buffers size doShutdownAfter = some p' ∧ Inv ⟨p', written⟩ := by
  obtain ⟨p', hp, hpbuf, htaken, -, hcases⟩ := enqueue_spec hbuf _ hsize doShutdownAfter
  refine ⟨p', hp, ?_⟩
  rcases hcases (by simp [isClosed, hopen]) with
    ⟨hclosing, hcontents, hwaiting, hflag⟩ | ⟨hclosing, hsocket⟩
  · refine Inv.of_open hclosing hpbuf ?_ (fun _ => hwaiting) ?_
    · rw [htaken, hcontents, ← List.append_assoc, hqueued]
    · rw [hflag, Bool.or_eq_true]
      exact hshutdown
  · refine Inv.of_closed hclosing hpbuf hsocket ?_ (fun h => by simp at h)
    simp only [htaken, ← hqueued, List.append_assoc]
    exact List.prefix_append _ _

/-! ## The steps -/

theorem Inv.write {h : History} (hinv : Inv h) (buffers : List Bytes)
    (doShutdownAfter : Bool) (outcome : SendOutcome) :
    ∃ p, h.peer.write buffers doShutdownAfter outcome = some p ∧
      Inv ⟨p, h.written ++ [⟨buffers.flatten, doShutdownAfter⟩]⟩ := by
  have hbuf := hinv.buffer
  obtain ⟨n, ec, hsend, hn, hgenuine, hbad⟩ :=
    send_spec h.peer.socket buffers.flatten outcome
  unfold Peer.write
  rcases Option.eq_none_or_eq_some h.peer.closing with hc | ⟨c, hc⟩
  · have hopen : h.peer.isClosed = false := by simp [isClosed, hc]
    have hqueued := hinv.queued hopen
    have hshutdown : h.peer.shutdownWhenEmpty = true ∨ doShutdownAfter = true →
        ∃ f ∈ h.written ++ [⟨buffers.flatten, doShutdownAfter⟩], f.doShutdownAfter = true := by
      rintro (hs | hs)
      · obtain ⟨f, hf, hflag⟩ := hinv.shutdown hopen hs
        exact ⟨f, List.mem_append_left _ hf, hflag⟩
      · exact ⟨_, List.mem_append_right _ (List.mem_singleton.mpr rfl), hs⟩
    by_cases hw : h.peer.waitingTx = true
    · -- Something may be buffered: the frame goes behind it.
      rw [if_pos hw]
      exact Inv.enqueue hbuf hc rfl (by simp [hqueued]) hshutdown
    · rw [if_neg hw]
      -- Nothing is buffered, so the socket has taken all earlier frames.
      have hempty : h.peer.txBuffer.contents = [] := by
        by_contra hne
        exact hw (hinv.waiting hopen hne)
      rw [hempty, List.append_nil] at hqueued
      simp only [hsend]
      by_cases hec : ec.genuine = true
      · obtain rfl := hgenuine hec
        rw [if_pos hec]
        refine ⟨_, rfl, ?_⟩
        apply Inv.close_error
        · exact hbuf
        · exact hopen
        · simp [hqueued]
      · rw [if_neg hec]
        by_cases hall : n = buffers.flatten.length
        · have htaken : h.peer.socket.taken ++ buffers.flatten.take n =
              stream (h.written ++ [⟨buffers.flatten, doShutdownAfter⟩]) := by
            rw [hall, List.take_length, hqueued]
            simp
          rw [if_pos hall]
          refine ⟨_, rfl, ?_⟩
          by_cases hflag : doShutdownAfter = true
          · rw [if_pos hflag]
            apply Inv.close_shutdown
            · exact hbuf
            · exact hopen
            · exact htaken
            · exact hshutdown (.inr hflag)
          · rw [if_neg hflag]
            apply Inv.of_open
            · exact hc
            · exact hbuf
            · simp only [hempty, List.append_nil]
              exact htaken
            · exact fun hne => absurd hempty hne
            · exact fun hs => hshutdown (.inl hs)
        · rw [if_neg hall]
          apply Inv.enqueue
          · exact hbuf
          · exact hc
          · rw [flatten_suffix, List.length_drop]
          · simp only [hempty, List.append_nil, flatten_suffix]
            rw [List.append_assoc, List.take_append_drop, hqueued]
            simp
          · exact hshutdown
  · -- A closed peer takes the frame, but its socket does not.
    have hclosed : h.peer.isClosed = true := by simp [isClosed, hc]
    by_cases hw : h.peer.waitingTx = true
    · obtain ⟨p, hp, hpbuf, -, hkeep, -⟩ :=
        enqueue_spec hbuf buffers rfl doShutdownAfter
      obtain ⟨hclosing, hsocket⟩ := hkeep hclosed
      rw [if_pos hw]
      exact ⟨p, hp, hinv.closed_frame hc hpbuf hclosing hsocket _⟩
    · have hec := hbad (hinv.socket hclosed)
      obtain rfl := hgenuine hec
      rw [if_neg hw]
      simp only [hsend, if_pos hec]
      refine ⟨_, rfl, ?_⟩
      rw [close_of_closed (by exact hclosed)]
      apply hinv.closed_frame hc
      · exact hbuf
      · rfl
      · simp

theorem Inv.finishWaitTx {h : History} (hinv : Inv h) (waitEc : ErrorCode)
    (outcome : SendOutcome) :
    ∃ p, h.peer.finishWaitTx waitEc outcome = some p ∧ Inv ⟨p, h.written⟩ := by
  have hbuf := hinv.buffer
  obtain ⟨hoffered, -, -⟩ := DynamicBuffer.data_spec hbuf.toShape
  obtain ⟨n, ec, hsend, hn, hgenuine, hbad⟩ := send_spec h.peer.socket
    (DynamicBuffer.describe h.peer.txBuffer.blocks h.peer.txBuffer.data) outcome
  obtain ⟨b, hconsume, hbinv, hcontents, -, -⟩ := DynamicBuffer.consume_spec hbuf n
  unfold Peer.finishWaitTx
  rcases Option.eq_none_or_eq_some h.peer.closing with hc | ⟨c, hc⟩
  · have hopen : h.peer.isClosed = false := by simp [isClosed, hc]
    have hqueued := hinv.queued hopen
    by_cases hwait : waitEc ≠ .success
    · rw [if_pos hwait]
      refine ⟨_, rfl, ?_⟩
      apply Inv.close_error
      · exact hbuf
      · exact hopen
      · exact hinv.taken
    · rw [if_neg hwait]
      simp only [hsend]
      by_cases hec : ec.genuine = true
      · obtain rfl := hgenuine hec
        rw [if_pos hec]
        refine ⟨_, rfl, ?_⟩
        apply Inv.close_error
        · exact hbuf
        · exact hopen
        · simpa using hinv.taken
      · rw [if_neg hec]
        -- What the socket takes is the front of the buffer.
        have htake : (DynamicBuffer.describe h.peer.txBuffer.blocks
            h.peer.txBuffer.data).take n = h.peer.txBuffer.contents.take n := by
          obtain ⟨rest, hrest⟩ := hoffered
          rw [← hrest, List.take_append_of_le_length hn]
        have hmoved : h.peer.socket.taken ++ h.peer.txBuffer.contents.take n ++ b.contents =
            stream h.written := by
          rw [hcontents, List.append_assoc, List.take_append_drop, hqueued]
        simp only [hconsume, htake, Option.bind_eq_bind, Option.bind_some]
        have hempty : b.empty = true ↔ b.contents = [] := by
          rw [DynamicBuffer.empty, beq_iff_eq, hbinv.size_eq, List.length_eq_zero_iff]
        by_cases hs : h.peer.shutdownWhenEmpty = true ∧ b.empty = true
        · rw [if_pos hs]
          refine ⟨_, rfl, Inv.close_shutdown hbinv hopen ?_ (hinv.shutdown hopen hs.1)⟩
          simp only
          rw [← hmoved, hempty.mp hs.2, List.append_nil]
        · rw [if_neg hs]
          refine ⟨_, rfl, ?_⟩
          by_cases he : b.empty = true
          · rw [if_pos he]
            exact Inv.of_open hc hbinv hmoved (fun hne => absurd (hempty.mp he) hne)
              (hinv.shutdown hopen)
          · rw [if_neg he]
            exact Inv.of_open hc hbinv hmoved (fun _ => rfl) (hinv.shutdown hopen)
  · have hclosed : h.peer.isClosed = true := by simp [isClosed, hc]
    have hkeep : ∀ p : Peer, p.txBuffer.Inv → p.closing = h.peer.closing →
        p.socket = h.peer.socket → Inv ⟨p, h.written⟩ := by
      intro p hpbuf hclosing hsocket
      have hframe := hinv.closed_frame hc hpbuf hclosing hsocket []
      rwa [List.append_nil] at hframe
    by_cases hwait : waitEc ≠ .success
    · rw [if_pos hwait]
      refine ⟨_, rfl, ?_⟩
      rw [close_of_closed (by exact hclosed)]
      exact hkeep _ hbuf rfl rfl
    · have hec := hbad (hinv.socket hclosed)
      obtain rfl := hgenuine hec
      rw [if_neg hwait]
      simp only [hsend, hec, if_true]
      refine ⟨_, rfl, ?_⟩
      rw [close_of_closed (by exact hclosed)]
      exact hkeep _ hbuf rfl (by simp)

theorem Inv.close {h : History} (hinv : Inv h) (ec : ErrorCode) :
    Inv ⟨h.peer.close { ec := ec, afterShutdownFrame := false }, h.written⟩ := by
  cases hc : h.peer.isClosed with
  | true =>
      rw [close_of_closed hc]
      exact hinv
  | false => exact Inv.close_error hinv.buffer hc hinv.taken ec

theorem Inv.stop {h : History} (hinv : Inv h) : Inv ⟨h.peer.stop, h.written⟩ :=
  { buffer := hinv.buffer
    queued := hinv.queued
    waiting := hinv.waiting
    shutdown := hinv.shutdown
    socket := fun _ => rfl
    taken := hinv.taken
    shutdownTaken := hinv.shutdownTaken }

/-- **Every step keeps the invariant**, and no loop of the buffer runs on. -/
theorem Inv.step {h : History} (hinv : Inv h) (a : Action) :
    ∃ h', h.step a = some h' ∧ Inv h' := by
  cases a with
  | write buffers doShutdownAfter outcome =>
      obtain ⟨p, hp, hinv'⟩ := hinv.write buffers doShutdownAfter outcome
      exact ⟨_, by simp only [History.step, hp, Option.map_some], hinv'⟩
  | finishWaitTx waitEc outcome =>
      obtain ⟨p, hp, hinv'⟩ := hinv.finishWaitTx waitEc outcome
      exact ⟨_, by simp only [History.step, hp, Option.map_some], hinv'⟩
  | close ec => exact ⟨_, rfl, hinv.close ec⟩
  | stop => exact ⟨_, rfl, hinv.stop⟩

/-- A new peer, to which nothing was written yet. -/
def History.new (useTcpProtocol : Bool) (txBufferSize : Nat) : History :=
  ⟨Peer.new useTcpProtocol txBufferSize, []⟩

theorem inv_new (useTcpProtocol : Bool) (txBufferSize : Nat) :
    Inv (History.new useTcpProtocol txBufferSize) := by
  apply Inv.of_open
  · rfl
  · exact DynamicBuffer.inv_new _ _
  · exact DynamicBuffer.contents_new _ _
  · exact fun hne => absurd (DynamicBuffer.contents_new _ _) hne
  · intro hs
    simp [History.new, Peer.new] at hs

/-- **The transmit stream is intact in every run**: for every sequence of
frames, completions and closes and every behaviour of the socket, an open peer
has given the socket, or holds in its buffer, exactly what was written, in
order, and waits whenever it holds something; a closed one has given the
socket a prefix of it; and if it closed because a frame with
`do_shutdown_after` was through, every byte of that frame was taken. -/
theorem transmit_stream_intact (useTcpProtocol : Bool) (txBufferSize : Nat)
    (actions : List Action) :
    ∃ h, actions.foldlM History.step (History.new useTcpProtocol txBufferSize) = some h ∧
      h.written = actions.filterMap Action.written ∧
      (h.peer.isClosed = false →
        h.peer.socket.taken ++ h.peer.txBuffer.contents = stream h.written ∧
        (h.peer.txBuffer.empty = false → h.peer.waitingTx = true)) ∧
      (h.peer.isClosed = true → h.peer.socket.taken <+: stream h.written) ∧
      (∀ c, h.peer.closing = some c → c.afterShutdownFrame = true →
        ShutdownFrameTaken h.written h.peer.socket.taken) := by
  obtain ⟨h, hrun, hinv⟩ :=
    foldlM_invariant (fun _ a hi => Inv.step hi a) actions _
      (inv_new useTcpProtocol txBufferSize)
  refine ⟨h, hrun, run_written actions hrun,
    fun hopen => ⟨hinv.queued hopen, fun hne => ?_⟩, fun _ => hinv.taken,
    hinv.shutdownTaken⟩
  apply hinv.waiting hopen
  intro hnil
  rw [DynamicBuffer.empty, hinv.buffer.size_eq, hnil] at hne
  cases hne

end WsStreaming.Ports.Peer
