import Mathlib.Tactic.IntervalCases
import WsStreaming.Ports.BasePeer

/-!
# The two header codecs

What `generate_header` and `decode_header` promise together, for the packets
of the streaming protocol and for WebSocket frames: a generated header is
decoded to the fields it was made from, and a header size of zero means
exactly that the packet or frame is not all there.

For packets this holds as far as the `int` goes in which `decode_header`
assembles the second word.  For frames it holds of all lengths, and it is
shown for masked frames too, together with the offsets the decoder loads.

## Main results

* `StreamingProtocol.header_codec_iff` — the codec of packets is right exactly
  for sizes below `2 ^ 31`.
* `WebsocketProtocol.frame_codec` — the codec of frames is right.
-/

namespace WsStreaming.Ports

open WsStreaming.Verified.Wire

namespace StreamingProtocol

/-- The bytes hold the header word or words, and the payload whose length
these announce, read as an unsigned number. -/
def Complete (bs : Bytes) : Prop :=
  ∃ h, readHeader bs = some h ∧ h.headerSize + h.payloadSize ≤ bs.length

/-- If the bytes hold a complete packet, then one whose announced size fits an
`int`, or they go on for as long as the sign extension of it asks for. -/
def SizeFits (bs : Bytes) : Prop :=
  ∀ h, readHeader bs = some h → h.headerSize + h.payloadSize ≤ bs.length →
    h.payloadSize < 2 ^ 31 ∨
      h.headerSize + h.payloadSize + (2 ^ 64 - 2 ^ 32) ≤ bs.length

theorem widened_of_lt {n : Nat} (h : n < 2 ^ 31) : widened n = n := if_pos h

theorem widened_of_le {n : Nat} (h : 2 ^ 31 ≤ n) : widened n = n + (2 ^ 64 - 2 ^ 32) :=
  if_neg (by omega)

/-- The test of `decode_header` for a header that is there. -/
theorem headerSize_eq_zero_iff {bs : Bytes} {h : DecodedHeader}
    (hr : readHeader bs = some h) :
    (decodeHeader bs).headerSize = 0 ↔ bs.length < h.headerSize + widened h.payloadSize := by
  have hpos := (readHeader_bounds hr).1
  rw [decodeHeader_of_some hr]
  by_cases hfit : h.headerSize + widened h.payloadSize ≤ bs.length
  · simp only [if_pos hfit]
    omega
  · rw [if_neg hfit]
    exact iff_of_true rfl (by omega)

/-- A generated header is decoded to its fields if the size fits an `int`, and
only then. -/
theorem decodeHeader_generated_iff {signo type : UInt32} (hs : signo.toNat < 2 ^ 20)
    (ht : type.toNat < 16) {payload : Bytes} (hne : payload ≠ [])
    (hlt : payload.length < 2 ^ 32) (rest : Bytes) :
    (∃ header, generateHeader signo type payload.length = .ok header ∧
      decodeHeader (header ++ payload ++ rest) =
        { headerSize := header.length, signo := signo, type := type
          payloadSize := payload.length }) ↔ payload.length < 2 ^ 31 := by
  have hlen : payload.length ≠ 0 := by simpa using hne
  have hdecode (header : Bytes)
      (hgen : generateHeader signo type payload.length = .ok header) :=
    decodeHeader_of_some (readHeader_generateHeader hs ht hlen hgen (payload ++ rest))
  constructor
  · rintro ⟨header, hgen, heq⟩
    have hsize := hdecode header hgen
    rw [← List.append_assoc, heq] at hsize
    have hwidened : payload.length = widened payload.length :=
      congrArg DecodedHeader.payloadSize hsize
    by_cases hsmall : payload.length < 2 ^ 31
    · exact hsmall
    · rw [widened_of_le (by omega)] at hwidened
      omega
  · intro hsmall
    obtain ⟨header, hgen, -⟩ := generateHeader_ok signo type hlt
    refine ⟨header, hgen, ?_⟩
    have hfit : header.length + payload.length ≤ (header ++ (payload ++ rest)).length := by
      simp only [List.length_append]
      omega
    rw [List.append_assoc, hdecode header hgen]
    simp only [widened_of_lt hsmall, if_pos hfit]

/-- A header size of zero means that the packet is not complete if the size
fits, and only then. -/
theorem headerSize_complete_iff (bs : Bytes) :
    ((decodeHeader bs).headerSize = 0 ↔ ¬ Complete bs) ↔ SizeFits bs := by
  cases hr : readHeader bs with
  | none =>
      have hzero := decodeHeader_of_none hr
      have hnot : ¬ Complete bs := by
        rintro ⟨h, hread, -⟩
        rw [hr] at hread
        cases hread
      have hfits : SizeFits bs := by
        intro h hread
        rw [hr] at hread
        cases hread
      exact iff_of_true (iff_of_true hzero hnot) hfits
  | some h =>
      have hcomplete : Complete bs ↔ h.headerSize + h.payloadSize ≤ bs.length := by
        simp only [Complete, hr, Option.some.injEq, exists_eq_left']
      have hfits : SizeFits bs ↔ (h.headerSize + h.payloadSize ≤ bs.length →
          h.payloadSize < 2 ^ 31 ∨
            h.headerSize + h.payloadSize + (2 ^ 64 - 2 ^ 32) ≤ bs.length) := by
        simp only [SizeFits, hr, Option.some.injEq, forall_eq']
      rw [headerSize_eq_zero_iff hr, hcomplete, hfits]
      by_cases hsmall : h.payloadSize < 2 ^ 31
      · rw [widened_of_lt hsmall]
        omega
      · rw [widened_of_le (by omega)]
        omega

/-- What follows a complete packet does not change how it is decoded if the
size fits, and only then. -/
theorem decodeHeader_append_iff {bs : Bytes} (hc : Complete bs) :
    (∀ more, decodeHeader (bs ++ more) = decodeHeader bs) ↔ SizeFits bs := by
  obtain ⟨h, hr, hle⟩ := hc
  have happend (more : Bytes) := decodeHeader_of_some (readHeader_append hr more)
  constructor
  · intro hsame
    have hfit : h.headerSize + widened h.payloadSize ≤ bs.length := by
      -- Appending as much as the extended size asks for completes the packet.
      have hlong := hsame (List.replicate (2 ^ 64) 0)
      by_cases hlt : bs.length < h.headerSize + widened h.payloadSize
      · rw [← headerSize_eq_zero_iff hr, ← hlong,
          headerSize_eq_zero_iff (readHeader_append hr (List.replicate (2 ^ 64) 0)),
          List.length_append, List.length_replicate] at hlt
        unfold widened at hlt
        split at hlt <;> omega
      · omega
    intro d hread _
    rw [hr] at hread
    cases hread
    by_cases hsmall : h.payloadSize < 2 ^ 31
    · exact .inl hsmall
    · have hsize := widened_of_le (n := h.payloadSize) (by omega)
      rw [hsize, ← Nat.add_assoc] at hfit
      exact .inr hfit
  · intro hfits more
    have hfit : h.headerSize + widened h.payloadSize ≤ bs.length := by
      cases hfits h hr hle with
      | inl hsmall =>
          rw [widened_of_lt hsmall]
          exact hle
      | inr hlong =>
          have hextends : widened h.payloadSize ≤ h.payloadSize + (2 ^ 64 - 2 ^ 32) := by
            unfold widened
            split <;> omega
          omega
    have hfit' : h.headerSize + widened h.payloadSize ≤ (bs ++ more).length := by
      rw [List.length_append]
      omega
    rw [happend more, decodeHeader_of_some hr]
    simp only [if_pos hfit, if_pos hfit']

/-- **The codec of packet headers, exactly**: the round trip, the test for
completeness and its independence of what follows, each right if and only if
the announced size fits the `int` it is assembled in. -/
theorem header_codec_iff {signo type : UInt32} (hs : signo.toNat < 2 ^ 20)
    (ht : type.toNat < 16) {payload : Bytes} (hne : payload ≠ [])
    (hlt : payload.length < 2 ^ 32) (rest bs : Bytes) :
    ((∃ header, generateHeader signo type payload.length = .ok header ∧
        decodeHeader (header ++ payload ++ rest) =
          { headerSize := header.length, signo := signo, type := type
            payloadSize := payload.length }) ↔ payload.length < 2 ^ 31) ∧
      (((decodeHeader bs).headerSize = 0 ↔ ¬ Complete bs) ↔ SizeFits bs) ∧
      (Complete bs →
        ((∀ more, decodeHeader (bs ++ more) = decodeHeader bs) ↔ SizeFits bs)) :=
  ⟨decodeHeader_generated_iff hs ht hne hlt rest, headerSize_complete_iff bs,
    decodeHeader_append_iff⟩

/-- The codec on a data packet of three bytes, and on one that lacks its last
byte. -/
theorem header_codec_short :
    (∃ header, generateHeader 7 packetTypeData 3 = .ok header ∧
        decodeHeader (header ++ [1, 2, 3] ++ [9]) =
          { headerSize := header.length, signo := 7, type := packetTypeData
            payloadSize := 3 }) ∧
      ((decodeHeader [7, 0, 0x30, 0x10, 1, 2]).headerSize = 0 ↔
        ¬ Complete [7, 0, 0x30, 0x10, 1, 2]) := by
  have hs : (7 : UInt32).toNat < 2 ^ 20 := by decide
  have ht : packetTypeData.toNat < 16 := by decide
  have hne : ([1, 2, 3] : Bytes) ≠ [] := by decide
  have h := header_codec_iff hs ht hne (by decide) [9] [7, 0, 0x30, 0x10, 1, 2]
  have hfits : SizeFits [7, 0, 0x30, 0x10, 1, 2] := by
    intro d hread hle
    have hd : readHeader [7, 0, 0x30, 0x10, 1, 2] =
        some { headerSize := 4, signo := 7, type := 1, payloadSize := 3 } := by decide
    rw [hd] at hread
    cases hread
    exact .inl (by decide)
  exact ⟨h.1.mpr (by decide), h.2.1.mpr hfits⟩

/-- **A payload of `2 ^ 31` bytes is not decoded**: its complete packet comes
back with a header size of zero and another payload size. -/
theorem large_payload_is_incomplete :
    ¬ ∀ (signo type : UInt32) (payload rest : Bytes), signo.toNat < 2 ^ 20 →
        type.toNat < 16 → payload ≠ [] → payload.length < 2 ^ 32 →
        ∃ header, generateHeader signo type payload.length = .ok header ∧
          decodeHeader (header ++ payload ++ rest) =
            { headerSize := header.length, signo := signo, type := type
              payloadSize := payload.length } := by
  intro hclaim
  have hlen : (List.replicate (2 ^ 31) (0 : UInt8)).length = 2 ^ 31 := List.length_replicate
  have hne : List.replicate (2 ^ 31) (0 : UInt8) ≠ [] := by
    intro hnil
    rw [hnil] at hlen
    exact absurd hlen (by decide)
  have hs : (1 : UInt32).toNat < 2 ^ 20 := by decide
  have ht : packetTypeData.toNat < 16 := by decide
  have hlt : (List.replicate (2 ^ 31) (0 : UInt8)).length < 2 ^ 32 := by omega
  have h := (decodeHeader_generated_iff hs ht hne hlt []).mp (hclaim _ _ _ [] hs ht hne hlt)
  omega

end StreamingProtocol

namespace WebsocketProtocol

/-- The bytes hold the header they announce and the payload after it. -/
def Complete (bs : Bytes) : Prop :=
  ∃ h, readHeader bs = some h ∧ h.headerSize + h.payloadSize ≤ bs.length

/-- A header size of zero means exactly that the frame is not complete. -/
theorem headerSize_eq_zero_iff (bs : Bytes) :
    (decodeHeader bs).headerSize = 0 ↔ ¬ Complete bs := by
  cases hr : readHeader bs with
  | none =>
      refine iff_of_true (decodeHeader_of_none hr) ?_
      rintro ⟨h, hread, -⟩
      rw [hr] at hread
      cases hread
  | some h =>
      have hpos := (readHeader_bounds hr).1
      have hcomplete : Complete bs ↔ h.headerSize + h.payloadSize ≤ bs.length := by
        simp only [Complete, hr, Option.some.injEq, exists_eq_left']
      rw [decodeHeader_of_some hr, hcomplete]
      by_cases hfit : h.headerSize + h.payloadSize ≤ bs.length
      · simp only [if_pos hfit]
        omega
      · rw [if_neg hfit]
        exact iff_of_true rfl hfit

/-! ## Masked frames -/

/-- The header `generate_header` makes, with the mask bit set and the key
after it, as a client of the protocol sends it. -/
def generateMaskedHeader (opcode flags : UInt32) (payloadSize : Nat) (key : Bytes) : Bytes :=
  match generateHeader opcode flags payloadSize with
  | b0 :: b1 :: ext => b0 :: (b1 ||| 0x80) :: (ext ++ key)
  | header => header

/-- The payload as it is sent under a key. -/
def maskPayload (key payload : Bytes) : Bytes :=
  xorKey (fun i => key.getD i 0) 0 payload

theorem maskPayload_maskPayload (key payload : Bytes) :
    maskPayload key (maskPayload key payload) = payload :=
  xorKey_xorKey _ 0 payload

@[simp] theorem length_maskPayload (key payload : Bytes) :
    (maskPayload key payload).length = payload.length :=
  length_xorKey _ 0 payload

private theorem or_128 : ∀ n : Fin 128, n.val ||| 128 = n.val + 128 := by
  decide +kernel

/-- The mask bit is above the seven bits of the length. -/
private theorem set_mask_bit {b : UInt8} (h : b.toNat < 128) :
    (b ||| 0x80).toNat = b.toNat + 128 := by
  rw [UInt8.toNat_or]
  exact or_128 ⟨b.toNat, h⟩

/-- Setting the mask bit of a header and adding a key to it changes what is
read in these two places only. -/
private theorem readHeader_set_mask {b0 b1 : UInt8} {ext key : Bytes} {h : DecodedHeader}
    (hb : b1.toNat < 128) (hext : ext.length = extendedLength b1.toNat)
    (hkey : key.length = 4) (rest : Bytes)
    (hr : readHeader (b0 :: b1 :: (ext ++ rest)) = some h) :
    readHeader (b0 :: (b1 ||| 0x80) :: (ext ++ key ++ rest)) =
      some { h with
        headerSize := h.headerSize + 4, isMasked := true, maskingKey := key } := by
  have hset := set_mask_bit hb
  have hlen7 : (b1 ||| 0x80).toNat % 128 = b1.toNat := by omega
  have hsame : b1.toNat % 128 = b1.toNat := Nat.mod_eq_of_lt hb
  have hmasked : decide (128 ≤ (b1 ||| 0x80).toNat) = true := by
    rw [hset]
    exact decide_eq_true (by omega)
  have hplain : decide (128 ≤ b1.toNat) = false := decide_eq_false (by omega)
  have htake : takeBytes (extendedLength b1.toNat) (ext ++ rest) = some (ext, rest) :=
    takeBytes_eq_some.mpr ⟨hext, rfl⟩
  have hnone : takeBytes 0 rest = some ([], rest) := takeBytes_eq_some.mpr ⟨rfl, rfl⟩
  simp only [readHeader, Option.bind_eq_bind, hsame, hplain, htake, keyLength, cond_false,
    Option.bind_some, hnone, Option.some.injEq] at hr
  subst hr
  refine readHeader_eq_some.mpr ⟨b0, b1 ||| 0x80, ext, key, rest, ?_, ?_, ?_, ?_⟩
  · rw [List.append_assoc]
  · rw [hlen7, hext]
  · rw [hmasked, hkey]
    rfl
  · rw [hmasked, hlen7, hkey]
    rfl

/-- The parts of a generated header. -/
private theorem generateHeader_parts (opcode flags : UInt32) (n : Nat) :
    ∃ b0 b1 ext, generateHeader opcode flags n = b0 :: b1 :: ext ∧ b1.toNat < 128 ∧
      ext.length = extendedLength b1.toNat := by
  unfold generateHeader
  by_cases h125 : n ≤ 125
  · have hlen : (UInt8.ofNat n).toNat = n := by
      rw [UInt8.toNat_ofNat', Nat.mod_eq_of_lt (by omega)]
    have hext : extendedLength n = 0 := by
      unfold extendedLength
      rw [if_neg (by omega), if_neg (by omega)]
    refine ⟨_, _, [], by rw [if_pos h125], ?_, ?_⟩
    · rw [hlen]
      omega
    · rw [hlen, hext]
      rfl
  · by_cases h16 : n ≤ 65535
    · exact ⟨_, 126, be16 (UInt16.ofNat n), by rw [if_neg h125, if_pos h16]; rfl,
        by decide, rfl⟩
    · exact ⟨_, 127, be64 (UInt64.ofNat n), by rw [if_neg h125, if_neg h16]; rfl,
        by decide, rfl⟩

/-- A masked header reads back, with its key. -/
theorem readHeader_generateMaskedHeader {opcode flags : UInt32} {n : Nat} {key : Bytes}
    (ho : opcode.toNat < 16) (hf : ∃ k < 16, flags.toNat = 16 * k) (hn : n < 2 ^ 64)
    (hkey : key.length = 4) (rest : Bytes) :
    readHeader (generateMaskedHeader opcode flags n key ++ rest) =
      some { headerSize := (generateMaskedHeader opcode flags n key).length
             flags := flags, opcode := opcode, payloadSize := n, isMasked := true
             maskingKey := key } := by
  have hread := readHeader_generateHeader ho hf hn rest
  obtain ⟨b0, b1, ext, hgen, hb, hext⟩ := generateHeader_parts opcode flags n
  have hmasked : generateMaskedHeader opcode flags n key =
      b0 :: (b1 ||| 0x80) :: (ext ++ key) := by
    unfold generateMaskedHeader
    rw [hgen]
  rw [hgen] at hread
  have hset := readHeader_set_mask hb hext hkey rest hread
  have hlen : (b0 :: b1 :: ext).length + 4 =
      (b0 :: (b1 ||| 0x80) :: (ext ++ key)).length := by
    simp only [List.length_cons, List.length_append, hkey]
  rw [hmasked, ← hlen]
  exact hset

/-! ## Loads

`decode_header` once more, on a memory of which `size` bytes belong to the
caller: next to the header, the offsets it dereferences. -/

/-- The bytes of a memory from an offset on. -/
def bytesAt (memory : Nat → UInt8) (data : Nat) : Nat → Bytes
  | 0 => []
  | size + 1 => memory data :: bytesAt memory (data + 1) size

@[simp] theorem length_bytesAt (memory : Nat → UInt8) (data size : Nat) :
    (bytesAt memory data size).length = size := by
  induction size generalizing data with
  | zero => rfl
  | succ size ih => rw [bytesAt, List.length_cons, ih]

/-- `decode_header` from the masking key on, with `size` bytes left at `data`. -/
def loadKey (memory : Nat → UInt8) (data size : Nat) (header : DecodedHeader) :
    DecodedHeader × List Nat :=
  if header.isMasked then
    if size < 4 then (header, [])
    else
      ({ header with
         maskingKey := [memory data, memory (data + 1), memory (data + 2), memory (data + 3)]
         headerSize := if header.payloadSize ≤ size - 4 then data + 4 else 0 },
       [data, data + 1, data + 2, data + 3])
  else ({ header with headerSize := if header.payloadSize ≤ size then data else 0 }, [])

/-- `decode_header` on the `size` bytes at offset 0 of a memory. -/
def loadHeader (memory : Nat → UInt8) (size : Nat) : DecodedHeader × List Nat :=
  if size < 2 then ({}, [])
  else
    let header : DecodedHeader :=
      { opcode := (memory 0 &&& 0xF).toUInt32
        flags := (memory 0 &&& 0xF0).toUInt32
        isMasked := memory 1 &&& 0x80 ≠ 0
        payloadSize := (memory 1 &&& 0x7F).toNat }
    if header.payloadSize = 126 then
      if size - 2 < 2 then (header, [0, 1])
      else
        let payloadSize := ((memory 2).toUInt32 <<< 8) ||| (memory 3).toUInt32
        let (header, loads) := loadKey memory 4 (size - 2 - 2)
          { header with payloadSize := payloadSize.toNat }
        (header, [0, 1, 2, 3] ++ loads)
    else if header.payloadSize = 127 then
      if size - 2 < 8 then (header, [0, 1])
      else
        let payloadSize := ((memory 2).toUInt64 <<< 56) ||| ((memory 3).toUInt64 <<< 48) |||
          ((memory 4).toUInt64 <<< 40) ||| ((memory 5).toUInt64 <<< 32) |||
          ((memory 6).toUInt64 <<< 24) ||| ((memory 7).toUInt64 <<< 16) |||
          ((memory 8).toUInt64 <<< 8) ||| (memory 9).toUInt64
        let (header, loads) := loadKey memory 10 (size - 2 - 8)
          { header with payloadSize := payloadSize.toNat }
        (header, [0, 1, 2, 3, 4, 5, 6, 7, 8, 9] ++ loads)
    else
      let (header, loads) := loadKey memory 2 (size - 2) header
      (header, [0, 1] ++ loads)

theorem loadKey_spec (memory : Nat → UInt8) (data size : Nat) (header : DecodedHeader) :
    (loadKey memory data size header).1 = decodeKey header data (bytesAt memory data size) ∧
      ∀ i ∈ (loadKey memory data size header).2, i < data + size := by
  unfold loadKey decodeKey
  by_cases hm : header.isMasked
  · rw [if_pos hm, if_pos hm]
    match size with
    | 0 | 1 | 2 | 3 => exact ⟨rfl, by simp⟩
    | size + 4 =>
        rw [if_neg (by omega)]
        constructor
        · simp only [bytesAt, finishHeader, length_bytesAt, Nat.add_sub_cancel]
        · simp only [List.mem_cons, List.not_mem_nil, or_false]
          omega
  · rw [if_neg hm, if_neg hm]
    constructor
    · simp only [finishHeader, length_bytesAt]
    · simp

/-- **Nothing past the given size is read**, and what is read decides the
header as `decode_header` does on the bytes themselves. -/
theorem loadHeader_spec (memory : Nat → UInt8) (size : Nat) :
    (loadHeader memory size).1 = decodeHeader (bytesAt memory 0 size) ∧
      ∀ i ∈ (loadHeader memory size).2, i < size := by
  rcases Nat.lt_or_ge size 2 with hsmall | hlarge
  · interval_cases size <;> exact ⟨rfl, by simp [loadHeader]⟩
  · obtain ⟨size, rfl⟩ := Nat.exists_eq_add_of_le' hlarge
    unfold loadHeader
    rw [if_neg (by omega)]
    simp only [bytesAt, decodeHeader, Nat.add_sub_cancel]
    by_cases h126 : (memory 1 &&& 0x7F).toNat = 126
    · rw [if_pos h126, if_pos h126]
      rcases Nat.lt_or_ge size 2 with hsmall | hlarge
      · interval_cases size <;> simp [bytesAt]
      · obtain ⟨size, rfl⟩ := Nat.exists_eq_add_of_le' hlarge
        rw [if_neg (by omega)]
        obtain ⟨hkey, hloads⟩ := loadKey_spec memory 4 size
          { opcode := (memory 0 &&& 0xF).toUInt32
            flags := (memory 0 &&& 0xF0).toUInt32
            isMasked := memory 1 &&& 0x80 ≠ 0
            payloadSize := (((memory 2).toUInt32 <<< 8) ||| (memory 3).toUInt32).toNat }
        constructor
        · exact hkey
        · intro i hi
          rcases List.mem_append.mp hi with hi | hi
          · simp only [List.mem_cons, List.not_mem_nil, or_false] at hi
            omega
          · have hlt := hloads i hi
            omega
    · rw [if_neg h126, if_neg h126]
      by_cases h127 : (memory 1 &&& 0x7F).toNat = 127
      · rw [if_pos h127, if_pos h127]
        rcases Nat.lt_or_ge size 8 with hsmall | hlarge
        · interval_cases size <;> simp [bytesAt]
        · obtain ⟨size, rfl⟩ := Nat.exists_eq_add_of_le' hlarge
          rw [if_neg (by omega)]
          obtain ⟨hkey, hloads⟩ := loadKey_spec memory 10 size
            { opcode := (memory 0 &&& 0xF).toUInt32
              flags := (memory 0 &&& 0xF0).toUInt32
              isMasked := memory 1 &&& 0x80 ≠ 0
              payloadSize := (((memory 2).toUInt64 <<< 56) |||
                ((memory 3).toUInt64 <<< 48) ||| ((memory 4).toUInt64 <<< 40) |||
                ((memory 5).toUInt64 <<< 32) ||| ((memory 6).toUInt64 <<< 24) |||
                ((memory 7).toUInt64 <<< 16) ||| ((memory 8).toUInt64 <<< 8) |||
                (memory 9).toUInt64).toNat }
          constructor
          · exact hkey
          · intro i hi
            rcases List.mem_append.mp hi with hi | hi
            · simp only [List.mem_cons, List.not_mem_nil, or_false] at hi
              omega
            · have hlt := hloads i hi
              omega
      · rw [if_neg h127, if_neg h127]
        obtain ⟨hkey, hloads⟩ := loadKey_spec memory 2 size
          { opcode := (memory 0 &&& 0xF).toUInt32
            flags := (memory 0 &&& 0xF0).toUInt32
            isMasked := memory 1 &&& 0x80 ≠ 0
            payloadSize := (memory 1 &&& 0x7F).toNat }
        constructor
        · exact hkey
        · intro i hi
          rcases List.mem_append.mp hi with hi | hi
          · simp only [List.mem_cons, List.not_mem_nil, or_false] at hi
            omega
          · have hlt := hloads i hi
            omega

/-! ## The codec -/

/-- Unmasking recovers what was masked: a masked frame is processed as the
frame that was not masked. -/
theorem processWebsocketFrame_masked (header : DecodedHeader) (payload : Bytes) :
    BasePeer.processWebsocketFrame { header with isMasked := true }
        (maskPayload header.maskingKey payload) =
      BasePeer.processWebsocketFrame { header with isMasked := false } payload := by
  have hunmask : xorKey (fun i => header.maskingKey.getD i 0) 0
      (maskPayload header.maskingKey payload) = payload :=
    maskPayload_maskPayload header.maskingKey payload
  simp only [BasePeer.processWebsocketFrame, hunmask, if_true, Bool.false_eq_true, if_false]

/-- A final frame leaves the unmasked payload in the buffer. -/
theorem processWebsocketFrame_buffer {header : DecodedHeader} (payload : Bytes)
    (hfin : header.flags &&& flagFin ≠ 0) (hplain : header.isMasked = false) :
    ∃ events, BasePeer.processWebsocketFrame header payload = .ok (payload, events) := by
  unfold BasePeer.processWebsocketFrame
  simp only [if_neg hfin, hplain, Bool.false_eq_true, if_false]
  split
  · exact ⟨_, rfl⟩
  · split
    · exact ⟨_, rfl⟩
    · split
      · exact ⟨_, rfl⟩
      · split <;> exact ⟨_, rfl⟩

/-- **The codec of frame headers**: a generated header is decoded to its
fields, so is a masked one with its key, unmasking recovers the payload, a
header size of zero means that the frame is not complete, and no byte past the
given size is read. -/
theorem frame_codec {opcode flags : UInt32} (ho : opcode.toNat < 16)
    (hf : ∃ k < 16, flags.toNat = 16 * k) {payload : Bytes} (hn : payload.length < 2 ^ 64)
    {key : Bytes} (hkey : key.length = 4) (rest bs : Bytes) (memory : Nat → UInt8)
    (size : Nat) :
    let header := generateHeader opcode flags payload.length
    let maskedHeader := generateMaskedHeader opcode flags payload.length key
    let decoded : DecodedHeader :=
      { headerSize := header.length, flags := flags, opcode := opcode
        payloadSize := payload.length, isMasked := false }
    let decodedMasked : DecodedHeader :=
      { headerSize := maskedHeader.length, flags := flags, opcode := opcode
        payloadSize := payload.length, isMasked := true, maskingKey := key }
    decodeHeader (header ++ payload ++ rest) = decoded ∧
      decodeHeader (maskedHeader ++ maskPayload key payload ++ rest) = decodedMasked ∧
      BasePeer.processWebsocketFrame decodedMasked (maskPayload key payload) =
        BasePeer.processWebsocketFrame { decodedMasked with isMasked := false } payload ∧
      (flags &&& flagFin ≠ 0 →
        ∃ events, BasePeer.processWebsocketFrame decodedMasked (maskPayload key payload) =
          .ok (payload, events)) ∧
      ((decodeHeader bs).headerSize = 0 ↔ ¬ Complete bs) ∧
      (loadHeader memory size).1 = decodeHeader (bytesAt memory 0 size) ∧
      ∀ i ∈ (loadHeader memory size).2, i < size := by
  intro header maskedHeader decoded decodedMasked
  have hread : readHeader (header ++ payload ++ rest) = some decoded := by
    rw [List.append_assoc]
    exact readHeader_generateHeader ho hf hn (payload ++ rest)
  have hreadMasked :
      readHeader (maskedHeader ++ maskPayload key payload ++ rest) = some decodedMasked := by
    rw [List.append_assoc]
    exact readHeader_generateMaskedHeader ho hf hn hkey (maskPayload key payload ++ rest)
  have hmasked : BasePeer.processWebsocketFrame decodedMasked (maskPayload key payload) =
      BasePeer.processWebsocketFrame { decodedMasked with isMasked := false } payload :=
    processWebsocketFrame_masked decodedMasked payload
  obtain ⟨hload, hloads⟩ := loadHeader_spec memory size
  refine ⟨?_, ?_, hmasked, ?_, headerSize_eq_zero_iff bs, hload, hloads⟩
  · have hfit : decoded.headerSize + decoded.payloadSize ≤
        (header ++ payload ++ rest).length := by
      simp only [decoded, List.length_append]
      omega
    rw [decodeHeader_of_some hread, if_pos hfit]
  · have hfit : decodedMasked.headerSize + decodedMasked.payloadSize ≤
        (maskedHeader ++ maskPayload key payload ++ rest).length := by
      simp only [decodedMasked, List.length_append, length_maskPayload]
      omega
    rw [decodeHeader_of_some hreadMasked, if_pos hfit]
  · intro hfin
    rw [hmasked]
    exact processWebsocketFrame_buffer payload hfin rfl

/-- The codec on a binary frame of 126 bytes, the first length that needs the
extended form, and on a memory that ends inside the header. -/
theorem frame_codec_extended :
    decodeHeader (generateHeader opcodeBinary flagFin 126 ++ List.replicate 126 7 ++ [1]) =
        { headerSize := 4, flags := flagFin, opcode := opcodeBinary, payloadSize := 126 } ∧
      decodeHeader (generateMaskedHeader opcodeBinary flagFin 126 [1, 2, 3, 4] ++
          maskPayload [1, 2, 3, 4] (List.replicate 126 7) ++ [1]) =
        { headerSize := 8, flags := flagFin, opcode := opcodeBinary, payloadSize := 126
          isMasked := true, maskingKey := [1, 2, 3, 4] } ∧
      ((decodeHeader [0x82, 126, 0]).headerSize = 0 ↔ ¬ Complete [0x82, 126, 0]) ∧
      ∀ i ∈ (loadHeader (fun _ => 126) 3).2, i < 3 := by
  have hlen : (List.replicate 126 (7 : UInt8)).length = 126 := List.length_replicate
  have hopcode : opcodeBinary.toNat < 16 := by decide
  have hflags : ∃ k < 16, flagFin.toNat = 16 * k := ⟨8, by decide, by decide⟩
  have hlt : (List.replicate 126 (7 : UInt8)).length < 2 ^ 64 := by omega
  have hkey : ([1, 2, 3, 4] : Bytes).length = 4 := rfl
  have h := frame_codec hopcode hflags hlt hkey [1] [0x82, 126, 0] (fun _ => 126) 3
  simp only [hlen] at h
  exact ⟨h.1, h.2.1, h.2.2.2.2.1, h.2.2.2.2.2.2⟩

end WebsocketProtocol

end WsStreaming.Ports
