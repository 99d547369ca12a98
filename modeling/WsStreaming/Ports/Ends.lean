import WsStreaming.Ports.PacketStream
import WsStreaming.Ports.PeerClosing

/-!
# The two ends of a connection

What a conversation is, whatever the peers on its two ends are made of: two
ends that take steps, one at a time, each with a log of the packets that it was
told to send and of what it has raised.

An invariant of a conversation speaks of each end and of each direction.  It is
kept if a step keeps what is said of the end that takes it, of what this end
receives and of what it sends.

## Main results

* `Both.step` — an invariant of both directions is kept.
-/

namespace WsStreaming.Ports

open WsStreaming.Verified.Wire (Bytes)

namespace Conversation

inductive Side where
  | left
  | right
deriving DecidableEq, Repr

def Side.other : Side → Side
  | .left => .right
  | .right => .left

@[simp] theorem Side.other_other (side : Side) : side.other.other = side := by
  cases side <;> rfl

theorem Side.eq_or_other (side j : Side) : j = side ∨ j = side.other := by
  cases side <;> cases j <;> simp [Side.other]

/-- The receive buffer of the other end. -/
def room (rxLeft rxRight : Nat) : Side → Nat
  | .left => rxRight
  | .right => rxLeft

theorem room_pos {rxLeft rxRight : Nat} (hleft : 0 < rxLeft) (hright : 0 < rxRight) (side : Side) :
    0 < room rxLeft rxRight side := by
  cases side with
  | left => exact hright
  | right => exact hleft

/-! ## Logs -/

/-- What is logged of an end: whether it was started, how many bytes of the other
end it has read, the packets it was told to send, and what it has raised and
replied. -/
structure Log where
  started : Bool := false
  read : Nat := 0
  sent : List Packet := []
  heard : List Event := []

/-- Whether a call of the receive path raises `on_closed`. -/
def isClosing : Event → Bool
  | .closed _ => true
  | _ => false

/-- What was raised and replied, without `on_closed`. -/
def reports (events : List Event) : List Event := events.filter fun e => !isClosing e

@[simp] theorem reports_append (es more : List Event) :
    reports (es ++ more) = reports es ++ reports more := List.filter_append ..

/-- The packets that are sent in answer to the calls of the receive path, of
which only some reach a slot. -/
def answered (isSeen : Event → Bool) (packets : Nat → List Packet) : List Event → List Packet
  | [] => []
  | e :: es =>
      (match e with
        | .dataPacket _ _ => packets 0
        | .metadataPacket signo payload =>
            if isSeen (.metadataPacket signo payload) then packets 0 else []
        | _ => []) ++ answered isSeen (fun n => packets (n + 1)) es

/-- What is sent in answer is what a slot sends. -/
theorem mem_answered {isSeen : Event → Bool} {p : Packet} (events : List Event) :
    ∀ packets : Nat → List Packet, p ∈ answered isSeen packets events → ∃ n, p ∈ packets n := by
  induction events with
  | nil =>
      intro _ hp
      cases hp
  | cons e es ih =>
      intro packets hp
      rcases List.mem_append.mp hp with hp | hp
      · cases e with
        | dataPacket signo payload => exact ⟨0, hp⟩
        | metadataPacket signo payload =>
            dsimp only at hp
            split at hp
            · exact ⟨0, hp⟩
            · cases hp
        | controlFrame opcode payload shutdownAfter => cases hp
        | closed ec => cases hp
      · obtain ⟨n, hn⟩ := ih _ hp
        exact ⟨n + 1, hn⟩

/-- What the receiver has heard are the first packets that the sender was told
to send, as far as they are seen outside; and once everything is through, it has
heard them all. -/
def Conveyed (codec : JsonCodec) (useTcpProtocol : Bool) (sender receiver : Log)
    (isThrough : Prop) : Prop :=
  ∃ n ≤ sender.sent.length,
    reports receiver.heard =
        ((sender.sent.take n).map Packet.event).filter (Event.seen codec useTcpProtocol) ∧
      (isThrough → n = sender.sent.length)

/-- A packet that may be sent to an end with a receive buffer of `M` bytes. -/
structure Valid (useTcpProtocol : Bool) (M : Nat) (p : Packet) : Prop where
  sendable : p.Sendable
  readable : p.Readable
  fits : (p.bytes useTcpProtocol).length ≤ M

/-- What is read next of a stream. -/
theorem take_ahead {taken chunk : Bytes} {read : Nat} (h : read ≤ taken.length)
    (hchunk : chunk <+: taken.drop read) :
    read + chunk.length ≤ taken.length ∧
      taken.take (read + chunk.length) = taken.take read ++ chunk := by
  have hlength := hchunk.length_le
  rw [List.length_drop] at hlength
  refine ⟨by omega, ?_⟩
  rw [List.take_add, ← List.prefix_iff_eq_take.mp hchunk]

/-! ## Two ends -/

/-- Both ends. -/
structure Ends (ε : Type) where
  left : ε
  right : ε

section Ends

variable {ε δ : Type} {c c' : Ends ε}

/-- The end of a side. -/
def Ends.on (c : Ends ε) : Side → ε
  | .left => c.left
  | .right => c.right

/-- Another end on a side. -/
def Ends.put (c : Ends ε) (e : ε) : Side → Ends ε
  | .left => { c with left := e }
  | .right => { c with right := e }

/-- One step of one end, which finds the other one as it is. -/
def Ends.step (f : ε → ε → δ → Option ε) (c : Ends ε) (s : Side × δ) : Option (Ends ε) :=
  (f (c.on s.1.other) (c.on s.1) s.2).map fun e => c.put e s.1

@[simp] theorem Ends.on_put (c : Ends ε) (e : ε) (side : Side) : (c.put e side).on side = e := by
  cases side <;> rfl

@[simp] theorem Ends.on_other_put (c : Ends ε) (e : ε) (side : Side) :
    (c.put e side).on side.other = c.on side.other := by
  cases side <;> rfl

/-- The other end stays as it is. -/
theorem Ends.step_eq_some {f : ε → ε → δ → Option ε} {side : Side} {deed : δ}
    (h : c.step f (side, deed) = some c') :
    f (c.on side.other) (c.on side) deed = some (c'.on side) ∧
      c'.on side.other = c.on side.other := by
  obtain ⟨e, he, rfl⟩ := Option.map_eq_some_iff.mp h
  rw [on_put, on_other_put]
  exact ⟨he, rfl⟩

/-- What holds of each end, and of each direction. -/
structure Both (own : Nat → ε → Prop) (conveys : Nat → ε → ε → Prop) (rxLeft rxRight : Nat)
    (c : Ends ε) : Prop where
  own : ∀ side, own (room rxLeft rxRight side) (c.on side)
  conveys : ∀ side, conveys (room rxLeft rxRight side) (c.on side) (c.on side.other)

variable {own : Nat → ε → Prop} {conveys : Nat → ε → ε → Prop} {rxLeft rxRight : Nat}

/-- What an end receives. -/
theorem Both.receives (h : Both own conveys rxLeft rxRight c) (side : Side) :
    conveys (room rxLeft rxRight side.other) (c.on side.other) (c.on side) := by
  have hconveys := h.conveys side.other
  rw [Side.other_other] at hconveys
  exact hconveys

/-- **One step of either end.** -/
theorem Both.step (h : Both own conveys rxLeft rxRight c) {f : ε → ε → δ → Option ε} {side : Side}
    {deed : δ} (hstep : c.step f (side, deed) = some c')
    (hone : ∀ e, f (c.on side.other) (c.on side) deed = some e →
      own (room rxLeft rxRight side) e ∧
        conveys (room rxLeft rxRight side.other) (c.on side.other) e ∧
        conveys (room rxLeft rxRight side) e (c.on side.other)) :
    Both own conveys rxLeft rxRight c' := by
  obtain ⟨hend, hother⟩ := Ends.step_eq_some hstep
  obtain ⟨hown, hreceives, hsends⟩ := hone _ hend
  constructor
  · intro j
    rcases Side.eq_or_other side j with rfl | rfl
    · exact hown
    · rw [hother]
      exact h.own side.other
  · intro j
    rcases Side.eq_or_other side j with rfl | rfl
    · rw [hother]
      exact hsends
    · rw [hother, Side.other_other]
      exact hreceives

/-- Two new ends. -/
theorem both_new {left right : ε} (hleft : own rxRight left) (hright : own rxLeft right)
    (hrightward : conveys rxRight left right) (hleftward : conveys rxLeft right left) :
    Both own conveys rxLeft rxRight ⟨left, right⟩ := by
  constructor
  · intro side
    cases side with
    | left => exact hleft
    | right => exact hright
  · intro side
    cases side with
    | left => exact hrightward
    | right => exact hleftward

end Ends

end Conversation

end WsStreaming.Ports
