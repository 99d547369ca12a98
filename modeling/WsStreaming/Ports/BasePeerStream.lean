import WsStreaming.Verified.Framing
import WsStreaming.Ports.BasePeer

/-!
# The receive path against a one-pass parser

The stream a peer receives is a sequence of frames: streaming-protocol
packets over TCP, WebSocket frames otherwise, the binary ones holding packets
again.  `framer` says so, once, for any reading `size` of a packet's length
word: `framer useTcp id` is the protocol, and `framer useTcp widened` is what
`decode_header` makes of it.

The receive buffer, its slide and its growth are then refined away: a peer
behaves as `Framer.feed` of the second framer, whatever the reads
(`deliver_eq_codeEvents`), and the two framers take the same frames as long
as no packet has a payload of `2 ^ 31` bytes or more.
-/

namespace WsStreaming.Ports.BasePeer

open WsStreaming.Verified.Wire WsStreaming.Verified.Blocks WsStreaming.Verified.Framing
open StreamingProtocol (widened le_widened packetTypeData packetTypeMetadata)
open WebsocketProtocol (flagFin opcodeText opcodeBinary opcodeClose opcodePing opcodePong)

/-! ## Frames -/

/-- What a frame says. -/
inductive Item where
  | packet (signo type : UInt32) (payload : Bytes)
  | control (opcode : UInt32) (payload : Bytes) (shutdownAfter : Bool)
  | unsupported
deriving Repr, DecidableEq

/-- What is to be handed on for it. -/
def Item.events : Item → List Event
  | .packet signo type payload =>
      if type = packetTypeData then [.dataPacket signo payload]
      else if type = packetTypeMetadata then [.metadataPacket signo payload]
      else []
  | .control opcode payload shutdownAfter => [.controlFrame opcode payload shutdownAfter]
  | .unsupported => [.closed .operationNotSupported]

/-- The header of a packet. -/
def packetHeader : Header UInt8 StreamingProtocol.DecodedHeader where
  read := StreamingProtocol.readHeader
  size h := h.headerSize
  size_pos hr := Nat.lt_of_lt_of_le (by decide) (StreamingProtocol.readHeader_bounds hr).1
  size_le hr := (StreamingProtocol.readHeader_bounds hr).2.1
  append t hr := StreamingProtocol.readHeader_append hr t
  take n hr := StreamingProtocol.readHeader_take hr n

/-- The header of a WebSocket frame. -/
def websocketHeader : Header UInt8 WebsocketProtocol.DecodedHeader where
  read := WebsocketProtocol.readHeader
  size h := h.headerSize
  size_pos hr := Nat.lt_of_lt_of_le (by decide) (WebsocketProtocol.readHeader_bounds hr).1
  size_le hr := (WebsocketProtocol.readHeader_bounds hr).2
  append t hr := WebsocketProtocol.readHeader_append hr t
  take n hr := WebsocketProtocol.readHeader_take hr n

/-- Streaming-protocol packets, their length word read by `size`. -/
def packetFramer (size : Nat → Nat) : Framer UInt8 Item :=
  .ofHeader packetHeader (fun h => size h.payloadSize)
    (fun h data => [.packet h.signo h.type data]) (fun _ => false)

theorem packetFramer_next {size : Nat → Nat} {s : Bytes} {f : Frame Item} :
    (packetFramer size).next s = some f ↔
      ∃ h, StreamingProtocol.readHeader s = some h ∧
        h.headerSize + size h.payloadSize ≤ s.length ∧
        f = { items := [.packet h.signo h.type
                ((s.drop h.headerSize).take (size h.payloadSize))]
              length := h.headerSize + size h.payloadSize
              stop := false } :=
  Framer.nextOf_eq_some ..

/-- The payload of a frame, unmasked. -/
def unmasked (h : WebsocketProtocol.DecodedHeader) (data : Bytes) : Bytes :=
  if h.isMasked then xorKey (fun i => h.maskingKey.getD i 0) 0 data else data

/-- What a WebSocket frame says. -/
def frameItems (size : Nat → Nat) (h : WebsocketProtocol.DecodedHeader) (data : Bytes) :
    List Item :=
  if h.flags &&& flagFin = 0 then [.unsupported]
  else if h.opcode = opcodeClose then [.control opcodeClose [] true]
  else if h.opcode = opcodePing then [.control opcodePong (unmasked h data) false]
  else if h.opcode = opcodeBinary then
    ((packetFramer size).drain (unmasked h data)).flatMap Frame.items
  else []

/-- WebSocket frames; the receiver stops at one that is not final. -/
def websocketFramer (size : Nat → Nat) : Framer UInt8 Item :=
  .ofHeader websocketHeader (fun h => h.payloadSize) (frameItems size)
    (fun h => h.flags &&& flagFin = 0)

theorem websocketFramer_next {size : Nat → Nat} {s : Bytes} {f : Frame Item} :
    (websocketFramer size).next s = some f ↔
      ∃ h, WebsocketProtocol.readHeader s = some h ∧
        h.headerSize + h.payloadSize ≤ s.length ∧
        f = { items := frameItems size h ((s.drop h.headerSize).take h.payloadSize)
              length := h.headerSize + h.payloadSize
              stop := h.flags &&& flagFin = 0 } :=
  Framer.nextOf_eq_some ..

/-- The frames of a transport. -/
def framer (useTcpProtocol : Bool) (size : Nat → Nat) : Framer UInt8 Item :=
  if useTcpProtocol then packetFramer size else websocketFramer size

/-! ## Frames as they are generated -/

/-- The packet a generated header and its payload make. -/
theorem packetFramer_next_generated {size : Nat → Nat} {signo type : UInt32}
    {header payload : Bytes} (hs : signo.toNat < 2 ^ 20) (ht : type.toNat < 16)
    (hne : payload.length ≠ 0) (hsize : size payload.length = payload.length)
    (hgen : StreamingProtocol.generateHeader signo type payload.length = .ok header)
    (rest : Bytes) :
    (packetFramer size).next (header ++ payload ++ rest) =
      some { items := [.packet signo type payload]
             length := header.length + payload.length
             stop := false } := by
  have hread := StreamingProtocol.readHeader_generateHeader hs ht hne hgen (payload ++ rest)
  rw [← List.append_assoc] at hread
  refine packetFramer_next.mpr ⟨_, hread, ?_, ?_⟩
  · rw [hsize, List.length_append, List.length_append]
    exact Nat.le_add_right _ _
  · rw [hsize, List.append_assoc, List.drop_left, List.take_left]

/-- The frame a generated header and its payload make. -/
theorem websocketFramer_next_generated (size : Nat → Nat) {data : Bytes}
    (hlen : data.length < 2 ^ 64) (rest : Bytes) :
    (websocketFramer size).next
        (WebsocketProtocol.generateHeader opcodeBinary flagFin data.length ++ data ++ rest) =
      some { items := ((packetFramer size).drain data).flatMap Frame.items
             length :=
               (WebsocketProtocol.generateHeader opcodeBinary flagFin data.length).length +
                 data.length
             stop := false } := by
  have hopcode : opcodeBinary.toNat < 16 := by decide
  have hflags : ∃ k < 16, flagFin.toNat = 16 * k := ⟨8, by decide, by decide⟩
  have hread := WebsocketProtocol.readHeader_generateHeader hopcode hflags hlen (data ++ rest)
  rw [← List.append_assoc] at hread
  refine websocketFramer_next.mpr ⟨_, hread, ?_, ?_⟩
  · rw [List.length_append, List.length_append]
    exact Nat.le_add_right _ _
  · have hfin : ¬ flagFin &&& flagFin = 0 := by decide
    have hclose : ¬ opcodeBinary = opcodeClose := by decide
    have hping : ¬ opcodeBinary = opcodePing := by decide
    rw [List.append_assoc, List.drop_left, List.take_left]
    simp only [frameItems, unmasked, if_neg hfin, if_neg hclose, if_neg hping, if_true,
      Bool.false_eq_true, if_false, decide_eq_false hfin]

/-! ## Events -/

/-- What frames hand on, in order. -/
def eventsOf (frames : List (Frame Item)) : List Event :=
  frames.flatMap fun f => f.items.flatMap Item.events

/-- What giving up hands on. -/
def closing : Verified.Framing.Status UInt8 → List Event
  | .overflow => [.closed .noBufferSpace]
  | _ => []

/-- The events of one pass over a whole stream. -/
def parseEvents (F : Framer UInt8 Item) (rxBufferSize : Nat) (stream : Bytes) :
    List Event :=
  eventsOf (F.parse rxBufferSize stream).1 ++ closing (F.parse rxBufferSize stream).2

/-- **The reference parser**: frames of the protocol are taken one after
another, as far as the buffer allows. -/
def referenceEvents (useTcpProtocol : Bool) (rxBufferSize : Nat) (stream : Bytes) :
    List Event :=
  parseEvents (framer useTcpProtocol id) rxBufferSize stream

@[simp] theorem eventsOf_nil : eventsOf [] = [] := rfl

@[simp] theorem eventsOf_cons (f : Frame Item) (fs : List (Frame Item)) :
    eventsOf (f :: fs) = f.items.flatMap Item.events ++ eventsOf fs := rfl

@[simp] theorem eventsOf_append (fs gs : List (Frame Item)) :
    eventsOf (fs ++ gs) = eventsOf fs ++ eventsOf gs := by
  simp [eventsOf]

theorem parseEvents_none {F : Framer UInt8 Item} {M : Nat} {s : Bytes} (h : F.next s = none) :
    parseEvents F M s = closing (if M ≤ s.length then .overflow else .waiting s) := by
  rw [parseEvents, F.parse_none h]
  rfl

theorem parseEvents_long {F : Framer UInt8 Item} {M : Nat} {s : Bytes} {f : Frame Item}
    (h : F.next s = some f) (hM : M < f.length) :
    parseEvents F M s = closing .overflow := by
  rw [parseEvents, F.parse_some h, if_pos hM]
  rfl

theorem parseEvents_some {F : Framer UInt8 Item} {M : Nat} {s : Bytes} {f : Frame Item}
    (h : F.next s = some f) (hM : f.length ≤ M) (hstop : f.stop = false) :
    parseEvents F M s =
      f.items.flatMap Item.events ++ parseEvents F M (s.drop f.length) := by
  rw [parseEvents, F.parse_some h, if_neg (by omega), hstop, if_neg (by decide), parseEvents,
    ← List.append_assoc]
  rfl

/-! ## The loops -/

/-- What a loop over a buffer must come to: from `data` it has taken `frames`
and left `rest`, an incomplete frame. -/
def Takes (F : Framer UInt8 Item) (data : Bytes) (frames : List (Frame Item))
    (rest : Bytes) : Prop :=
  F.next rest = none ∧ ∀ M, data.length ≤ M →
    F.parse M data =
      (frames, if M ≤ rest.length then .overflow else .waiting rest)

theorem Takes.nil {F : Framer UInt8 Item} {data : Bytes} (h : F.next data = none) :
    Takes F data [] data :=
  ⟨h, fun _ _ => F.parse_none h⟩

theorem Takes.cons {F : Framer UInt8 Item} {data rest : Bytes} {f : Frame Item}
    {frames : List (Frame Item)} (h : F.next data = some f) (hstop : f.stop = false)
    (htakes : Takes F (data.drop f.length) frames rest) :
    Takes F data (f :: frames) rest := by
  refine ⟨htakes.1, fun M hM => ?_⟩
  have hle := F.length_le h
  have hlt := F.length_drop_lt h
  rw [F.parse_some h, if_neg (by omega), hstop, if_neg (by decide),
    htakes.2 M (by omega)]

/-- `process_packet` takes the next packet as its decoder reads it. -/
theorem processPacket_eq (data : Bytes) :
    match (packetFramer widened).next data with
    | none => processPacket data = (0, [])
    | some f => processPacket data = (f.length, f.items.flatMap Item.events) ∧
        f.stop = false := by
  cases hnext : (packetFramer widened).next data with
  | none =>
      have hsize : (StreamingProtocol.decodeHeader data).headerSize = 0 := by
        cases hr : StreamingProtocol.readHeader data with
        | none => exact StreamingProtocol.decodeHeader_of_none hr
        | some d =>
            rw [StreamingProtocol.decodeHeader_of_some hr]
            simp only
            rw [if_neg]
            intro hfit
            rw [packetFramer_next.mpr ⟨d, hr, hfit, rfl⟩] at hnext
            cases hnext
      simp only [processPacket, hsize, if_true]
  | some f =>
      obtain ⟨d, hr, hfit, rfl⟩ := packetFramer_next.mp hnext
      have hbounds := StreamingProtocol.readHeader_bounds hr
      have hdecode := StreamingProtocol.decodeHeader_of_some hr
      rw [if_pos hfit] at hdecode
      refine ⟨?_, rfl⟩
      simp only [processPacket, hdecode, if_neg (show ¬ d.headerSize = 0 by omega),
        List.flatMap_cons, List.flatMap_nil, List.append_nil, Item.events]

/-- **The packet loop** takes the packets its decoder finds, one after another. -/
theorem processPackets_takes (data : Bytes) :
    ∃ frames, Takes (packetFramer widened) data frames (data.drop (processPackets data).1) ∧
      (processPackets data).2 = eventsOf frames ∧ (processPackets data).1 ≤ data.length := by
  induction data using (packetFramer widened).stream_induction with
  | none data h =>
      have hpacket := processPacket_eq data
      rw [h] at hpacket
      have hstop : processPackets data = (0, []) := by
        rw [processPackets, hpacket]
        rfl
      rw [hstop]
      exact ⟨[], Takes.nil h, rfl, by simp⟩
  | some data f h ih =>
      obtain ⟨frames, htakes, hevents, hoffset⟩ := ih
      have hpacket := processPacket_eq data
      rw [h] at hpacket
      obtain ⟨hpacket, hstop⟩ := hpacket
      have hpos := (packetFramer widened).length_pos h
      have hle := (packetFramer widened).length_le h
      have hloop : processPackets data =
          (f.length + (processPackets (data.drop f.length)).1,
            f.items.flatMap Item.events ++ (processPackets (data.drop f.length)).2) := by
        rw [processPackets, hpacket]
        exact if_neg (by omega)
      rw [List.length_drop] at hoffset
      rw [hloop]
      refine ⟨f :: frames, ?_, by rw [hevents, eventsOf_cons], by omega⟩
      simp only [← List.drop_drop]
      exact htakes.cons h hstop

theorem processPackets_events (data : Bytes) :
    (processPackets data).2 = eventsOf ((packetFramer widened).drain data) := by
  obtain ⟨frames, htakes, hevents, -⟩ := processPackets_takes data
  rw [hevents, Framer.drain, htakes.2 _ (Nat.le_succ _)]

theorem length_unmasked (h : WebsocketProtocol.DecodedHeader) (data : Bytes) :
    (unmasked h data).length = data.length := by
  unfold unmasked
  split <;> simp

/-- `process_websocket_frame` refuses a frame that is not final, and hands on
what any other frame says. -/
theorem processWebsocketFrame_eq (h : WebsocketProtocol.DecodedHeader) (data : Bytes) :
    processWebsocketFrame h data =
      if h.flags &&& flagFin = 0 then .error .operationNotSupported
      else .ok (unmasked h data, (frameItems widened h data).flatMap Item.events) := by
  unfold processWebsocketFrame frameItems
  by_cases hfin : h.flags &&& flagFin = 0
  · rw [if_pos hfin, if_pos hfin]
  · simp only [if_neg hfin, processPackets_events, eventsOf]
    by_cases hclose : h.opcode = opcodeClose
    · simp only [if_pos hclose]
      rfl
    · simp only [if_neg hclose]
      by_cases hping : h.opcode = opcodePing
      · simp only [if_pos hping]
        rfl
      · simp only [if_neg hping]
        by_cases htext : h.opcode = opcodeText
        · simp only [if_pos htext, if_neg (show ¬ h.opcode = opcodeBinary by rw [htext]; decide)]
          rfl
        · simp only [if_neg htext]
          by_cases hbinary : h.opcode = opcodeBinary
          · simp only [if_pos hbinary, List.flatMap_assoc]
            rfl
          · simp only [if_neg hbinary]
            rfl

/-- The bytes the loop of `process_buffer_ws` still has to walk over. -/
def ahead (buffer : Bytes) (bytes offset : Nat) : Bytes := (buffer.take bytes).drop offset

theorem length_ahead {buffer : Bytes} {bytes : Nat} (h : bytes ≤ buffer.length) (offset : Nat) :
    (ahead buffer bytes offset).length = bytes - offset := by
  rw [ahead, List.length_drop, List.length_take, Nat.min_eq_left h]

/-- Unmasking a payload in place does not touch what lies ahead of it. -/
theorem ahead_overwrite {buffer data : Bytes} {bytes start : Nat}
    (hfit : start + data.length ≤ bytes) (hbytes : bytes ≤ buffer.length) :
    ahead (overwrite buffer start data) bytes (start + data.length) =
      (buffer.take bytes).drop (start + data.length) := by
  rw [ahead, List.drop_take, List.drop_take, drop_overwrite_end (by omega)]

section Turn

variable {buffer : Bytes} {bytes offset : Nat} {h : WebsocketProtocol.DecodedHeader}
  (hd : WebsocketProtocol.decodeHeader (ahead buffer bytes offset) = h)

include hd

theorem processFrames_incomplete (hs : h.headerSize = 0) :
    processFrames buffer bytes offset = ⟨buffer, offset, [], none⟩ := by
  rw [ahead] at hd
  rw [processFrames]
  simp only [hd, if_pos hs]

theorem processFrames_refused (hs : h.headerSize ≠ 0) (hfin : h.flags &&& flagFin = 0) :
    processFrames buffer bytes offset =
      ⟨buffer, offset, [], some .operationNotSupported⟩ := by
  rw [ahead] at hd
  rw [processFrames]
  simp only [hd, if_neg hs, processWebsocketFrame_eq, if_pos hfin]

theorem processFrames_frame (hs : h.headerSize ≠ 0) (hfin : h.flags &&& flagFin ≠ 0)
    {payload : Bytes} (hp : payload = (buffer.drop (offset + h.headerSize)).take h.payloadSize)
    {walk : Walk}
    (hwalk : walk = processFrames
      (overwrite buffer (offset + h.headerSize) (unmasked h payload)) bytes
      (offset + h.headerSize + h.payloadSize)) :
    processFrames buffer bytes offset =
      { walk with
        events := (frameItems widened h payload).flatMap Item.events ++ walk.events } := by
  rw [ahead] at hd
  rw [processFrames]
  simp only [hd, if_neg hs, processWebsocketFrame_eq, if_neg hfin, ← hp, ← hwalk]

end Turn

/-- What the loop of `process_buffer_ws` comes to. -/
structure Walked (buffer : Bytes) (bytes offset : Nat) (walk : Walk) : Prop where
  length_buffer : walk.buffer.length = buffer.length
  offset_le : walk.offset ≤ bytes
  frames : ∃ frames,
    match walk.error with
    | none =>
        Takes (websocketFramer widened) (ahead buffer bytes offset) frames
          (ahead walk.buffer bytes walk.offset) ∧
        walk.events = eventsOf frames
    | some ec =>
        (∀ M, (ahead buffer bytes offset).length ≤ M →
          (websocketFramer widened).parse M (ahead buffer bytes offset) =
            (frames, .stopped)) ∧
        walk.events ++ [.closed ec] = eventsOf frames

/-- **The frame loop** takes the frames one after another, up to the first that
is not final, and what it unmasks in place it never looks at again. -/
theorem processFrames_walked {bytes : Nat} (n : Nat) :
    ∀ {buffer : Bytes} {offset : Nat}, bytes - offset = n → bytes ≤ buffer.length →
      offset ≤ bytes →
      Walked buffer bytes offset (processFrames buffer bytes offset) := by
  induction n using Nat.strongRecOn with
  | ind n ih =>
      intro buffer offset hn hbytes hoffset
      have hlen := length_ahead hbytes offset
      cases hnext : (websocketFramer widened).next (ahead buffer bytes offset) with
      | none =>
          have hsize : (WebsocketProtocol.decodeHeader
              (ahead buffer bytes offset)).headerSize = 0 := by
            cases hr : WebsocketProtocol.readHeader (ahead buffer bytes offset) with
            | none => exact WebsocketProtocol.decodeHeader_of_none hr
            | some d =>
                rw [WebsocketProtocol.decodeHeader_of_some hr]
                simp only
                rw [if_neg]
                intro hfit
                rw [websocketFramer_next.mpr ⟨d, hr, hfit, rfl⟩] at hnext
                cases hnext
          rw [processFrames_incomplete rfl hsize]
          exact ⟨rfl, hoffset, [], Takes.nil hnext, rfl⟩
      | some f =>
          obtain ⟨d, hr, hfit, hf⟩ := websocketFramer_next.mp hnext
          have hbounds := WebsocketProtocol.readHeader_bounds hr
          have hd := WebsocketProtocol.decodeHeader_of_some hr
          rw [if_pos hfit] at hd
          have hs : d.headerSize ≠ 0 := by omega
          -- The payload lies inside the received bytes.
          have hpayload : ((ahead buffer bytes offset).drop d.headerSize).take d.payloadSize =
              (buffer.drop (offset + d.headerSize)).take d.payloadSize := by
            rw [ahead, List.drop_drop, List.drop_take, List.take_take, Nat.min_eq_left]
            omega
          by_cases hfin : d.flags &&& flagFin = 0
          · rw [processFrames_refused hd hs hfin]
            refine ⟨rfl, hoffset, [f], fun M hM => ?_, ?_⟩
            · have hstop : f.stop = true := by simp [hf, hfin]
              have hle := (websocketFramer widened).length_le hnext
              rw [Framer.parse_some _ hnext, if_neg (by omega), if_pos hstop]
            · simp [hf, frameItems, hfin, Item.events]
          · generalize hp : (buffer.drop (offset + d.headerSize)).take d.payloadSize = payload
              at hpayload
            have hplen : (unmasked d payload).length = d.payloadSize := by
              rw [length_unmasked, ← hp, List.length_take, List.length_drop]
              omega
            have hwalked : Walked
                (overwrite buffer (offset + d.headerSize) (unmasked d payload)) bytes
                (offset + d.headerSize + d.payloadSize) _ :=
              ih (bytes - (offset + d.headerSize + d.payloadSize)) (by omega) rfl
                (by rw [length_overwrite (by omega)]; exact hbytes) (by omega)
            rw [processFrames_frame hd hs hfin hp.symm rfl]
            have hahead : ahead (overwrite buffer (offset + d.headerSize) (unmasked d payload))
                bytes (offset + d.headerSize + d.payloadSize) =
                  (ahead buffer bytes offset).drop f.length := by
              have hinside : offset + d.headerSize + (unmasked d payload).length ≤ bytes := by
                omega
              have h := ahead_overwrite hinside hbytes
              rw [hplen] at h
              rw [h, ahead, List.drop_drop, hf, Nat.add_assoc]
            have hstop : f.stop = false := by simp [hf, hfin]
            have hitems : f.items = frameItems widened d payload := by rw [hf, hpayload]
            obtain ⟨hlenb, hoff, frames, hframes⟩ := hwalked
            rw [length_overwrite (by omega)] at hlenb
            refine ⟨hlenb, hoff, f :: frames, ?_⟩
            simp only
            cases herr : (processFrames (overwrite buffer (offset + d.headerSize)
                (unmasked d payload)) bytes (offset + d.headerSize + d.payloadSize)).error with
            | none =>
                rw [herr, hahead] at hframes
                exact ⟨hframes.1.cons hnext hstop, by rw [hframes.2, eventsOf_cons, hitems]⟩
            | some ec =>
                rw [herr, hahead] at hframes
                refine ⟨fun M hM => ?_, by
                  rw [List.append_assoc, hframes.2, eventsOf_cons, hitems]⟩
                have hle := (websocketFramer widened).length_le hnext
                have hlt := (websocketFramer widened).length_drop_lt hnext
                rw [Framer.parse_some _ hnext, if_neg (by omega), hstop, if_neg (by decide),
                  hframes.1 M (by omega)]

/-! ## The buffer -/

section Buffer

variable {useTcpProtocol : Bool} {M : Nat}

/-- An open peer whose receive buffer holds `data`. -/
structure Holds (useTcpProtocol : Bool) (M : Nat) (p : BasePeer) (data : Bytes) : Prop where
  useTcpProtocol_eq : p.useTcpProtocol = useTcpProtocol
  rxBufferMax_eq : p.rxBufferMax = M
  isClosed_eq : p.isClosed = false
  length_pos : 0 < p.rxBuffer.length
  length_le : p.rxBuffer.length ≤ M
  bytes_le : p.rxBufferBytes ≤ p.rxBuffer.length
  data_eq : p.rxBuffer.take p.rxBufferBytes = data

theorem Holds.length_eq {p : BasePeer} {data : Bytes} (h : Holds useTcpProtocol M p data) :
    data.length = p.rxBufferBytes := by
  rw [← h.data_eq, List.length_take, Nat.min_eq_left h.bytes_le]

/-- How the status of a receiver shows in a peer: one that waits has the rest
in its buffer, has room for more and reads; any other has stopped reading. -/
def Matches (useTcpProtocol : Bool) (M : Nat) (p : BasePeer) : Verified.Framing.Status UInt8 → Prop
  | .waiting rest =>
      Holds useTcpProtocol M p rest ∧ p.reading = true ∧
        p.rxBufferBytes < p.rxBuffer.length
  | .stopped => p.reading = false
  | .overflow => p.reading = false

/-- The slide leaves what lies behind `offset`. -/
theorem Holds.slide {p : BasePeer} {data : Bytes} {offset : Nat}
    (h : Holds useTcpProtocol M p data) (hoffset : offset ≤ data.length) :
    Holds useTcpProtocol M (p.slide offset) (data.drop offset) := by
  have hlen := h.length_eq
  have hbytes := h.bytes_le
  unfold BasePeer.slide
  by_cases hzero : offset = 0
  · rw [if_pos hzero, hzero, List.drop_zero]
    exact h
  · rw [if_neg hzero]
    have hkept : (p.rxBuffer.drop offset).take (p.rxBufferBytes - offset) =
        data.drop offset := by
      rw [← h.data_eq, List.drop_take]
    have hkeptLength : (data.drop offset).length = p.rxBufferBytes - offset := by
      rw [List.length_drop, hlen]
    have hfit : 0 + (data.drop offset).length ≤ p.rxBuffer.length := by omega
    constructor
    · exact h.useTcpProtocol_eq
    · exact h.rxBufferMax_eq
    · exact h.isClosed_eq
    · simp only [hkept, length_overwrite hfit]
      exact h.length_pos
    · simp only [hkept, length_overwrite hfit]
      exact h.length_le
    · simp only [hkept, length_overwrite hfit]
      omega
    · have htake := take_overwrite_end (data.drop offset) (Nat.zero_le p.rxBuffer.length)
      rw [Nat.zero_add, List.take_zero, List.nil_append, hkeptLength] at htake
      simp only [hkept]
      exact htake

theorem reading_slide (p : BasePeer) (offset : Nat) :
    (p.slide offset).reading = p.reading := by
  unfold BasePeer.slide
  split <;> rfl

/-- After a loop, a full buffer is grown or the peer gives up; in any other
case it has room for the next read. -/
theorem Holds.readOn {p : BasePeer} {rest : Bytes} (h : Holds useTcpProtocol M p rest)
    (hreading : p.reading = false) {status : Verified.Framing.Status UInt8}
    (hstatus : status = if M ≤ rest.length then .overflow else .waiting rest) :
    p.readOn.2 = closing status ∧ Matches useTcpProtocol M p.readOn.1 status := by
  have hlen := h.length_eq
  have hbytes := h.bytes_le
  have hle := h.length_le
  have hpos := h.length_pos
  have hmax := h.rxBufferMax_eq
  unfold BasePeer.readOn
  by_cases hfull : p.rxBufferBytes = p.rxBuffer.length
  · rw [if_pos hfull]
    cases hgrow : p.growRxBuffer with
    | none =>
        have hM : M ≤ rest.length := by
          unfold growRxBuffer at hgrow
          split at hgrow
          · omega
          · cases hgrow
        rw [hstatus, if_pos hM]
        simp only [BasePeer.close, h.isClosed_eq]
        exact ⟨rfl, hreading⟩
    | some q =>
        obtain ⟨hlt, zeros, hq, hqlen⟩ := growRxBuffer_eq_some hgrow
        rw [hstatus, if_neg (by omega)]
        refine ⟨rfl, ?_, rfl, ?_⟩
        · subst hq
          simp only at hqlen
          constructor
          · exact h.useTcpProtocol_eq
          · exact hmax
          · exact h.isClosed_eq
          · simp only [doRead]
            omega
          · simp only [doRead]
            omega
          · simp only [doRead]
            omega
          · simp only [doRead]
            rw [List.take_append_of_le_length hbytes, h.data_eq]
        · have hqbytes : q.rxBufferBytes = p.rxBufferBytes := by rw [hq]
          simp only [doRead]
          omega
  · rw [if_neg hfull, hstatus, if_neg (by omega)]
    refine ⟨rfl, ?_, rfl, ?_⟩
    · exact ⟨h.useTcpProtocol_eq, hmax, h.isClosed_eq, hpos, hle, hbytes, h.data_eq⟩
    · simp only [doRead]
      omega

/-- **Processing the buffer is parsing what it holds.** -/
theorem Holds.processBuffer {p : BasePeer} {data : Bytes}
    (h : Holds useTcpProtocol M p data) (hreading : p.reading = false) :
    p.processBuffer.2 = parseEvents (framer useTcpProtocol widened) M data ∧
      Matches useTcpProtocol M p.processBuffer.1
        ((framer useTcpProtocol widened).parse M data).2 := by
  have hlen := h.length_eq
  have hbytes := h.bytes_le
  have hle := h.length_le
  unfold BasePeer.processBuffer parseEvents
  cases hmode : useTcpProtocol with
  | true =>
      subst hmode
      rw [h.useTcpProtocol_eq, if_pos rfl]
      obtain ⟨frames, htakes, hevents, hoffset⟩ := processPackets_takes data
      have hparse : (framer true widened).parse M data = _ := htakes.2 M (by omega)
      obtain ⟨hclosing, hmatches⟩ := (h.slide hoffset).readOn
        (by rw [reading_slide]; exact hreading) rfl
      simp only [processBufferTcp, h.data_eq, hparse]
      exact ⟨by rw [hevents, hclosing], hmatches⟩
  | false =>
      subst hmode
      rw [h.useTcpProtocol_eq, if_neg (by decide)]
      have hahead : ahead p.rxBuffer p.rxBufferBytes 0 = data := by
        rw [ahead, List.drop_zero, h.data_eq]
      obtain ⟨hlenb, hoff, frames, hframes⟩ :=
        processFrames_walked (p.rxBufferBytes - 0) rfl hbytes (Nat.zero_le _)
      rw [hahead] at hframes
      simp only [processBufferWs]
      generalize processFrames p.rxBuffer p.rxBufferBytes 0 = walk at hlenb hoff hframes ⊢
      cases herr : walk.error with
      | none =>
          rw [herr] at hframes
          obtain ⟨htakes, hevents⟩ := hframes
          have hparse : (framer false widened).parse M data = _ := htakes.2 M (by omega)
          -- The loop leaves the length of the buffer and its own tail behind.
          have hwalk : Holds false M { p with rxBuffer := walk.buffer }
              (walk.buffer.take p.rxBufferBytes) :=
            ⟨h.useTcpProtocol_eq, h.rxBufferMax_eq, h.isClosed_eq,
              by simp only [hlenb]; exact h.length_pos, by simp only [hlenb]; exact hle,
              by simp only [hlenb]; exact hbytes, rfl⟩
          have hwithin : walk.offset ≤ (walk.buffer.take p.rxBufferBytes).length := by
            rw [hwalk.length_eq]
            exact hoff
          obtain ⟨hclosing, hmatches⟩ := (hwalk.slide hwithin).readOn
            (by rw [reading_slide]; exact hreading) rfl
          simp only [hparse]
          exact ⟨by rw [hevents, hclosing]; rfl, hmatches⟩
      | some ec =>
          rw [herr] at hframes
          obtain ⟨hstopped, hevents⟩ := hframes
          have hparse : (framer false widened).parse M data = _ := hstopped M (by omega)
          simp only [hparse, BasePeer.close, h.isClosed_eq]
          exact ⟨hevents.trans (List.append_nil _).symm, hreading⟩

/-! ## Reads -/

/-- A read is a piece fed to the receiver. -/
theorem Matches.finishWaitRx {p : BasePeer} {rest chunk : Bytes}
    (h : Matches useTcpProtocol M p (.waiting rest)) (hpos : 0 < chunk.length)
    (hroom : chunk.length ≤ p.room) :
    (p.finishWaitRx .success chunk .success).2 =
        parseEvents (framer useTcpProtocol widened) M (rest ++ chunk) ∧
      Matches useTcpProtocol M (p.finishWaitRx .success chunk .success).1
        ((framer useTcpProtocol widened).parse M (rest ++ chunk)).2 := by
  obtain ⟨hholds, -, hlt⟩ := h
  have hfit : p.rxBufferBytes + chunk.length ≤ p.rxBuffer.length := by
    unfold room at hroom
    omega
  have hread : p.finishWaitRx .success chunk .success =
      BasePeer.processBuffer { p with
        reading := false
        rxBuffer := overwrite p.rxBuffer p.rxBufferBytes chunk
        rxBufferBytes := p.rxBufferBytes + chunk.length } := by
    simp only [BasePeer.finishWaitRx, ne_eq, not_true, if_false,
      if_neg (show ¬ chunk.length = 0 by omega), false_and]
  rw [hread]
  refine Holds.processBuffer ?_ rfl
  constructor
  · exact hholds.useTcpProtocol_eq
  · exact hholds.rxBufferMax_eq
  · exact hholds.isClosed_eq
  · simp only [length_overwrite hfit]
    exact hholds.length_pos
  · simp only [length_overwrite hfit]
    exact hholds.length_le
  · simp only [length_overwrite hfit]
    exact hfit
  · simp only
    rw [take_overwrite_end _ hholds.bytes_le, hholds.data_eq]

theorem reads_of_not_reading {p : BasePeer} (h : p.reading = false) (chunks : List Bytes) :
    (p.reads chunks).2 = [] := by
  cases chunks with
  | nil => rfl
  | cons chunk chunks => simp [BasePeer.reads, h]

/-- **Reads simulate feeding**: from any point of a stream on, the reads add
the events that feeding the pieces adds. -/
theorem Matches.reads (chunks : List Bytes) :
    ∀ {p : BasePeer} {r : List (Frame Item) × Verified.Framing.Status UInt8},
      Matches useTcpProtocol M p r.2 → ReadsFit p chunks →
      let r' := chunks.foldl ((framer useTcpProtocol widened).feed M) r
      eventsOf r.1 ++ closing r.2 ++ (p.reads chunks).2 =
        eventsOf r'.1 ++ closing r'.2 := by
  induction chunks with
  | nil => intro p r _ _; simp [BasePeer.reads]
  | cons chunk chunks ih =>
      intro p r hmatches hfit
      obtain ⟨frames, status⟩ := r
      cases status with
      | waiting rest =>
          have hreading : p.reading = true := hmatches.2.1
          obtain ⟨hpos, hroom, hrest⟩ := hfit hreading
          obtain ⟨hevents, hnext⟩ := Matches.finishWaitRx hmatches hpos hroom
          have hih := ih (r := (framer useTcpProtocol widened).feed M
            (frames, .waiting rest) chunk) hnext hrest
          simp only [List.foldl_cons, BasePeer.reads, hreading, if_true]
          rw [← hih, hevents, parseEvents]
          simp [Framer.feed, closing]
      | stopped =>
          simp only [Framer.foldl_feed_of_not_waiting _ .stopped (by simp),
            reads_of_not_reading hmatches, List.append_nil]
      | overflow =>
          simp only [Framer.foldl_feed_of_not_waiting _ .overflow (by simp),
            reads_of_not_reading hmatches, List.append_nil]

/-- Growing makes room for whatever the maximum allows. -/
theorem makeRoom_spec {p : BasePeer} {size n : Nat} (hn : p.rxBufferMax - p.rxBuffer.length = n)
    (hpos : 0 < p.rxBuffer.length) (hle : p.rxBuffer.length ≤ p.rxBufferMax)
    (hsize : size ≤ p.rxBufferMax) :
    ∃ zeros, p.makeRoom size = { p with rxBuffer := p.rxBuffer ++ zeros } ∧
      size ≤ (p.rxBuffer ++ zeros).length ∧ (p.rxBuffer ++ zeros).length ≤ p.rxBufferMax := by
  induction n using Nat.strongRecOn generalizing p with
  | ind n ih =>
      rw [makeRoom]
      by_cases hmore : p.rxBuffer.length < size
      · rw [if_pos ⟨hmore, by omega⟩]
        split
        · rename_i hgrow
          unfold growRxBuffer at hgrow
          split at hgrow
          · omega
          · cases hgrow
        · rename_i grown hgrow
          obtain ⟨hlt, zeros, rfl, hlen⟩ := growRxBuffer_eq_some hgrow
          simp only at hlen
          obtain ⟨more, hroom, hfit, hmax⟩ :=
            ih (p.rxBufferMax - (p.rxBuffer ++ zeros).length) (by omega)
            (p := { p with rxBuffer := p.rxBuffer ++ zeros }) rfl
            (by simp only; omega) (by simp only; omega) hsize
          refine ⟨zeros ++ more, ?_, ?_, ?_⟩
          · rw [hroom, List.append_assoc]
          · rw [← List.append_assoc]
            exact hfit
          · rw [← List.append_assoc]
            exact hmax
      · rw [if_neg (by omega)]
        exact ⟨[], by simp, by simp; omega, by simpa using hle⟩

/-- A new peer, started with or without handed-over data. -/
theorem start_spec (useTcpProtocol : Bool) (hM : 0 < M) (handedOver : Option Bytes)
    (hsize : (handedOver.getD []).length ≤ M) :
    ((new useTcpProtocol M).start handedOver).2 =
        parseEvents (framer useTcpProtocol widened) M (handedOver.getD []) ∧
      Matches useTcpProtocol M ((new useTcpProtocol M).start handedOver).1
        ((framer useTcpProtocol widened).parse M (handedOver.getD [])).2 := by
  have hnew : (new useTcpProtocol M).rxBuffer.length = min initialRxBufferSize M := by
    simp [new]
  have hinit : 0 < initialRxBufferSize := by decide
  cases handedOver with
  | none =>
      simp only [Option.getD_none, parseEvents, Framer.parse_none _ (Framer.next_nil _),
        List.length_nil, if_neg (show ¬ M ≤ 0 by omega)]
      refine ⟨rfl, ⟨rfl, rfl, rfl, ?_, ?_, Nat.zero_le _, rfl⟩, rfl, ?_⟩
      · simp only [start, run, doRead]
        omega
      · simp only [start, run, doRead]
        omega
      · simp only [start, run, doRead, hnew]
        simp only [new]
        omega
  | some data =>
      have hmax : (new useTcpProtocol M).rxBufferMax = M := rfl
      rw [Option.getD_some] at hsize ⊢
      obtain ⟨zeros, hroom, hfit, hle⟩ := makeRoom_spec (p := new useTcpProtocol M) rfl
        (by omega) (by omega) hsize
      simp only [start, runWith, hroom, if_neg (Nat.not_lt.mpr hfit)]
      refine Holds.processBuffer ?_ rfl
      have hstore : 0 + data.length ≤ ((new useTcpProtocol M).rxBuffer ++ zeros).length := by
        omega
      constructor
      · rfl
      · rfl
      · rfl
      · simp only [length_overwrite hstore, List.length_append]
        omega
      · simp only [length_overwrite hstore]
        exact hle
      · simp only [length_overwrite hstore]
        exact hfit
      · have htake := take_overwrite_end data (Nat.zero_le
          ((new useTcpProtocol M).rxBuffer ++ zeros).length)
        simpa using htake

/-- **The reads do not matter**: what a peer hands on is what one pass over the
stream hands on, with the lengths read as `decode_header` reads them. -/
theorem deliver_eq_parseEvents (hM : 0 < M) {d : Delivery}
    (hfits : d.Fits useTcpProtocol M) :
    deliver useTcpProtocol M d =
      parseEvents (framer useTcpProtocol widened) M d.stream := by
  obtain ⟨hevents, hmatches⟩ := start_spec useTcpProtocol hM d.handedOver hfits.1
  have hreads := Matches.reads d.chunks hmatches hfits.2
  simp only [Framer.foldl_feed] at hreads
  simp only [deliver]
  rw [hevents, parseEvents, hreads, parseEvents, Delivery.stream]

/-- Every stream can be delivered: byte by byte, for example. -/
theorem exists_delivery (useTcpProtocol : Bool) (hM : 0 < M) (stream : Bytes) :
    ∃ d : Delivery, d.stream = stream ∧ d.Fits useTcpProtocol M := by
  have hfit : ∀ (bytes : Bytes) (p : BasePeer) (status : Verified.Framing.Status UInt8),
      Matches useTcpProtocol M p status → ReadsFit p (bytes.map fun b => [b]) := by
    intro bytes
    induction bytes with
    | nil => intro p status _; trivial
    | cons b bytes ih =>
        intro p status hmatches hreading
        cases status with
        | waiting rest =>
            have hroom : [b].length ≤ p.room := by
              have hlt := hmatches.2.2
              rw [List.length_singleton, room]
              omega
            obtain ⟨-, hnext⟩ := Matches.finishWaitRx hmatches (by simp) hroom
            exact ⟨by simp, hroom, ih _ _ hnext⟩
        | stopped =>
            have hstop : p.reading = false := hmatches
            rw [hstop] at hreading
            cases hreading
        | overflow =>
            have hstop : p.reading = false := hmatches
            rw [hstop] at hreading
            cases hreading
  obtain ⟨-, hmatches⟩ := start_spec useTcpProtocol hM none (Nat.zero_le _)
  refine ⟨{ handedOver := none, chunks := stream.map fun b => [b] }, ?_,
    Nat.zero_le _, hfit stream _ _ hmatches⟩
  simp only [Delivery.stream, Option.getD_none, List.nil_append]
  induction stream with
  | nil => rfl
  | cons b bytes ih => simpa using ih

end Buffer

end WsStreaming.Ports.BasePeer
