import WsStreaming.Verified.Wire

/-!
# The frame header of the WebSocket protocol

`websocket_protocol::generate_header` and `decode_header`, next to
`readHeader`, the header as RFC 6455 defines it: a flags/opcode byte, a mask
bit with a 7-bit length, an extended length of two or eight big-endian bytes,
and the masking key.  Decoding is exact for all lengths
(`decodeHeader_of_some`).
-/

namespace WsStreaming.Ports.WebsocketProtocol

open WsStreaming.Verified.Wire

/-- `flags::FIN`. -/
def flagFin : UInt32 := 0x80

/-- `opcodes::TEXT`. -/
def opcodeText : UInt32 := 1

/-- `opcodes::BINARY`. -/
def opcodeBinary : UInt32 := 2

/-- `opcodes::CLOSE`. -/
def opcodeClose : UInt32 := 8

/-- `opcodes::PING`. -/
def opcodePing : UInt32 := 9

/-- `opcodes::PONG`. -/
def opcodePong : UInt32 := 10

/-- `websocket_protocol::decoded_header`. -/
structure DecodedHeader where
  headerSize : Nat := 0
  flags : UInt32 := 0
  opcode : UInt32 := 0
  payloadSize : Nat := 0
  isMasked : Bool := false
  maskingKey : Bytes := [0, 0, 0, 0]
deriving Repr, DecidableEq

/-- `websocket_protocol::generate_header`: the bytes of the header of an
unmasked frame. -/
def generateHeader (opcode flags : UInt32) (payloadSize : Nat) : Bytes :=
  let first := (opcode ||| flags).toUInt8
  if payloadSize ≤ 125 then
    [first, UInt8.ofNat payloadSize]
  else if payloadSize ≤ 65535 then
    [first, 126] ++ be16 (UInt16.ofNat payloadSize)
  else
    [first, 127] ++ be64 (UInt64.ofNat payloadSize)

/-- The end of `decode_header`: the header is complete, `consumed` bytes long,
and `data` is what follows it. -/
def finishHeader (header : DecodedHeader) (consumed : Nat) (data : Bytes) :
    DecodedHeader :=
  { header with headerSize := if header.payloadSize ≤ data.length then consumed else 0 }

/-- `decode_header` from the masking key on. -/
def decodeKey (header : DecodedHeader) (consumed : Nat) (data : Bytes) :
    DecodedHeader :=
  if header.isMasked then
    match data with
    | k0 :: k1 :: k2 :: k3 :: data =>
        finishHeader { header with maskingKey := [k0, k1, k2, k3] } (consumed + 4) data
    | _ => header
  else finishHeader header consumed data

/-- `websocket_protocol::decode_header` on the `size` bytes at `data`. -/
def decodeHeader : Bytes → DecodedHeader
  | b0 :: b1 :: data =>
      let header : DecodedHeader :=
        { opcode := (b0 &&& 0xF).toUInt32
          flags := (b0 &&& 0xF0).toUInt32
          isMasked := b1 &&& 0x80 ≠ 0
          payloadSize := (b1 &&& 0x7F).toNat }
      if header.payloadSize = 126 then
        match data with
        | d0 :: d1 :: data =>
            let size := (d0.toUInt32 <<< 8) ||| d1.toUInt32
            decodeKey { header with payloadSize := size.toNat } 4 data
        | _ => header
      else if header.payloadSize = 127 then
        match data with
        | d0 :: d1 :: d2 :: d3 :: d4 :: d5 :: d6 :: d7 :: data =>
            let size := (d0.toUInt64 <<< 56) ||| (d1.toUInt64 <<< 48) |||
              (d2.toUInt64 <<< 40) ||| (d3.toUInt64 <<< 32) ||| (d4.toUInt64 <<< 24) |||
              (d5.toUInt64 <<< 16) ||| (d6.toUInt64 <<< 8) ||| d7.toUInt64
            decodeKey { header with payloadSize := size.toNat } 10 data
        | _ => header
      else decodeKey header 2 data
  | _ => {}

/-- How many bytes of extended length follow, for a 7-bit length field. -/
def extendedLength (len7 : Nat) : Nat :=
  if len7 = 126 then 2 else if len7 = 127 then 8 else 0

/-- The length of the masking key. -/
def keyLength (masked : Bool) : Nat := bif masked then 4 else 0

/-- The header as RFC 6455 defines it; `none` while it is incomplete.  Whether
the payload is there too is not looked at. -/
def readHeader : Bytes → Option DecodedHeader
  | b0 :: b1 :: data => do
      let len7 := b1.toNat % 128
      let (ext, data) ← takeBytes (extendedLength len7) data
      let masked := decide (128 ≤ b1.toNat)
      let (key, _) ← takeBytes (keyLength masked) data
      some
        { headerSize := 2 + ext.length + key.length
          flags := UInt32.ofNat (b0.toNat / 16 * 16)
          opcode := UInt32.ofNat (b0.toNat % 16)
          payloadSize := if ext = [] then len7 else ofBE ext
          isMasked := masked
          maskingKey := bif masked then key else [0, 0, 0, 0] }
  | _ => none

/-! ## The bit manipulations as arithmetic -/

private theorem and_240 : ∀ n : Fin 256, n.val &&& 240 = n.val / 16 * 16 := by
  decide +kernel

private theorem and_128 : ∀ n : Fin 256, n.val &&& 128 = 0 ↔ n.val < 128 := by
  decide +kernel

private theorem opcode_bits (b : UInt8) :
    (b &&& 0xF).toUInt32 = UInt32.ofNat (b.toNat % 16) := by
  apply UInt32.toNat_inj.mp
  have hmask : b.toNat &&& 15 = b.toNat % 16 := Nat.and_two_pow_sub_one_eq_mod _ 4
  simp only [UInt8.toNat_toUInt32, UInt8.toNat_and, UInt32.toNat_ofNat',
    UInt8.reduceToNat, hmask]
  omega

private theorem flags_bits (b : UInt8) :
    (b &&& 0xF0).toUInt32 = UInt32.ofNat (b.toNat / 16 * 16) := by
  apply UInt32.toNat_inj.mp
  have h := b.toNat_lt
  have hmask : b.toNat &&& 240 = b.toNat / 16 * 16 := and_240 ⟨b.toNat, h⟩
  simp only [UInt8.toNat_toUInt32, UInt8.toNat_and, UInt32.toNat_ofNat',
    UInt8.reduceToNat, hmask]
  omega

private theorem mask_bit (b : UInt8) :
    decide (b &&& 0x80 ≠ 0) = decide (128 ≤ b.toNat) := by
  have hmask : b.toNat &&& 128 = 0 ↔ b.toNat < 128 := and_128 ⟨b.toNat, b.toNat_lt⟩
  have hzero : b &&& 0x80 = 0 ↔ b.toNat &&& 128 = 0 := by
    rw [← UInt8.toNat_inj, UInt8.toNat_and]
    rfl
  rw [decide_eq_decide, ne_eq, hzero, hmask, Nat.not_lt]

private theorem len7_bits (b : UInt8) : (b &&& 0x7F).toNat = b.toNat % 128 := by
  simp only [UInt8.toNat_and, UInt8.reduceToNat]
  exact Nat.and_two_pow_sub_one_eq_mod _ 7

private theorem size16_bits (d0 d1 : UInt8) :
    ((d0.toUInt32 <<< 8) ||| d1.toUInt32).toNat = ofBE [d0, d1] := by
  have h0 := d0.toNat_lt; have h1 := d1.toNat_lt
  simp only [UInt32.toNat_or, UInt32.toNat_shiftLeft, UInt8.toNat_toUInt32,
    UInt32.reduceToNat, Nat.reduceMod]
  rw [Nat.mod_eq_of_lt (by rw [Nat.shiftLeft_eq]; omega), shiftLeft_or_eq (by omega)]
  simp only [ofBE, List.foldl_cons, List.foldl_nil]
  omega

private theorem size64_bits (d0 d1 d2 d3 d4 d5 d6 d7 : UInt8) :
    ((d0.toUInt64 <<< 56) ||| (d1.toUInt64 <<< 48) ||| (d2.toUInt64 <<< 40) |||
      (d3.toUInt64 <<< 32) ||| (d4.toUInt64 <<< 24) ||| (d5.toUInt64 <<< 16) |||
      (d6.toUInt64 <<< 8) ||| d7.toUInt64).toNat =
      ofBE [d0, d1, d2, d3, d4, d5, d6, d7] := by
  have h0 := d0.toNat_lt; have h1 := d1.toNat_lt
  have h2 := d2.toNat_lt; have h3 := d3.toNat_lt
  have h4 := d4.toNat_lt; have h5 := d5.toNat_lt
  have h6 := d6.toNat_lt; have h7 := d7.toNat_lt
  -- Shifted bytes do not leave the 64 bits.
  have hfit (d : UInt8) (i : Nat) (hi : i ≤ 56) :
      (d.toNat <<< i) % 2 ^ 64 = d.toNat <<< i := by
    apply Nat.mod_eq_of_lt
    rw [Nat.shiftLeft_eq]
    have hd := d.toNat_lt
    calc d.toNat * 2 ^ i < 2 ^ 8 * 2 ^ i := Nat.mul_lt_mul_of_pos_right hd (Nat.two_pow_pos i)
      _ = 2 ^ (8 + i) := (Nat.pow_add 2 8 i).symm
      _ ≤ 2 ^ 64 := Nat.pow_le_pow_right (by decide) (by omega)
  simp only [UInt64.toNat_or, UInt64.toNat_shiftLeft, UInt8.toNat_toUInt64,
    UInt64.reduceToNat, Nat.reduceMod]
  rw [hfit d0 56 (by omega), hfit d1 48 (by omega), hfit d2 40 (by omega),
    hfit d3 32 (by omega), hfit d4 24 (by omega), hfit d5 16 (by omega),
    hfit d6 8 (by omega)]
  simp only [Nat.or_assoc]
  -- From the right, each byte is above everything already assembled.
  have e6 : d6.toNat <<< 8 ||| d7.toNat = d6.toNat * 2 ^ 8 + d7.toNat :=
    shiftLeft_or_eq h7
  have e5 := shiftLeft_or_eq (a := d5.toNat) (b := d6.toNat * 2 ^ 8 + d7.toNat) (i := 16)
    (by omega)
  have e4 := shiftLeft_or_eq (a := d4.toNat)
    (b := d5.toNat * 2 ^ 16 + (d6.toNat * 2 ^ 8 + d7.toNat)) (i := 24) (by omega)
  have e3 := shiftLeft_or_eq (a := d3.toNat)
    (b := d4.toNat * 2 ^ 24 + (d5.toNat * 2 ^ 16 + (d6.toNat * 2 ^ 8 + d7.toNat)))
    (i := 32) (by omega)
  have e2 := shiftLeft_or_eq (a := d2.toNat)
    (b := d3.toNat * 2 ^ 32 + (d4.toNat * 2 ^ 24 +
      (d5.toNat * 2 ^ 16 + (d6.toNat * 2 ^ 8 + d7.toNat)))) (i := 40) (by omega)
  have e1 := shiftLeft_or_eq (a := d1.toNat)
    (b := d2.toNat * 2 ^ 40 + (d3.toNat * 2 ^ 32 + (d4.toNat * 2 ^ 24 +
      (d5.toNat * 2 ^ 16 + (d6.toNat * 2 ^ 8 + d7.toNat))))) (i := 48) (by omega)
  rw [e6, e5, e4, e3, e2, e1, shiftLeft_or_eq (by omega)]
  simp only [ofBE, List.foldl_cons, List.foldl_nil]
  omega

/-! ## Decoding against the protocol -/

/-- From the masking key on, decoding follows the protocol. -/
private theorem decodeKey_eq (header : DecodedHeader) (consumed : Nat) (data : Bytes)
    (hkey : header.maskingKey = [0, 0, 0, 0]) :
    decodeKey header consumed data =
      match takeBytes (keyLength header.isMasked) data with
      | none => header
      | some (key, rest) =>
          { header with
            maskingKey := bif header.isMasked then key else [0, 0, 0, 0]
            headerSize :=
              if header.payloadSize ≤ rest.length then consumed + key.length else 0 } := by
  unfold decodeKey
  cases hm : header.isMasked with
  | true =>
      match data with
      | [] | [_] | [_, _] | [_, _, _] => simp [takeBytes, keyLength]
      | k0 :: k1 :: k2 :: k3 :: data => simp [takeBytes, keyLength, finishHeader]
  | false => simp [takeBytes, keyLength, finishHeader, hkey, hm]

/-- The fields of a header whose length fields are known. -/
def headerOf (b0 b1 : UInt8) (size : Nat) : DecodedHeader :=
  { flags := UInt32.ofNat (b0.toNat / 16 * 16)
    opcode := UInt32.ofNat (b0.toNat % 16)
    payloadSize := size
    isMasked := decide (128 ≤ b1.toNat) }

/-- `decode_header`, with the extended length taken as one field. -/
theorem decodeHeader_cons (b0 b1 : UInt8) (data : Bytes) :
    decodeHeader (b0 :: b1 :: data) =
      match takeBytes (extendedLength (b1.toNat % 128)) data with
      | none => headerOf b0 b1 (b1.toNat % 128)
      | some (ext, rest) =>
          decodeKey (headerOf b0 b1 (if ext = [] then b1.toNat % 128 else ofBE ext))
            (2 + ext.length) rest := by
  simp only [decodeHeader, opcode_bits, flags_bits, mask_bit, len7_bits]
  by_cases h126 : b1.toNat % 128 = 126
  · rw [if_pos h126, extendedLength, if_pos h126]
    match data with
    | [] | [_] => simp [takeBytes, headerOf]
    | d0 :: d1 :: data =>
        simp only [size16_bits]
        simp [takeBytes, headerOf]
  · rw [if_neg h126]
    by_cases h127 : b1.toNat % 128 = 127
    · rw [if_pos h127, extendedLength, if_neg h126, if_pos h127]
      match data with
      | [] | [_] | [_, _] | [_, _, _] | [_, _, _, _] | [_, _, _, _, _]
      | [_, _, _, _, _, _] | [_, _, _, _, _, _, _] => simp [takeBytes, headerOf]
      | d0 :: d1 :: d2 :: d3 :: d4 :: d5 :: d6 :: d7 :: data =>
          simp only [size64_bits]
          simp [takeBytes, headerOf]
    · rw [if_neg h127, extendedLength, if_neg h126, if_neg h127]
      simp [takeBytes, headerOf]

/-- While the header is incomplete, `decode_header` reports so. -/
theorem decodeHeader_of_none {bs : Bytes} (h : readHeader bs = none) :
    (decodeHeader bs).headerSize = 0 := by
  match bs with
  | [] | [_] => rfl
  | b0 :: b1 :: data =>
      rw [decodeHeader_cons]
      simp only [readHeader, Option.bind_eq_bind] at h
      cases hext : takeBytes (extendedLength (b1.toNat % 128)) data with
      | none => rfl
      | some p =>
          obtain ⟨ext, rest⟩ := p
          rw [hext, Option.bind_some] at h
          simp only
          rw [decodeKey_eq _ _ _ rfl]
          cases hkey : takeBytes (keyLength (decide (128 ≤ b1.toNat))) rest with
          | none => simp only [headerOf, hkey]
          | some q => rw [hkey] at h; simp at h

/-- **Decoding is exact**: the fields are those of the protocol, and the header
size is reported once the payload is there too. -/
theorem decodeHeader_of_some {bs : Bytes} {h : DecodedHeader}
    (hr : readHeader bs = some h) :
    decodeHeader bs =
      { h with headerSize :=
          if h.headerSize + h.payloadSize ≤ bs.length then h.headerSize else 0 } := by
  match bs with
  | [] | [_] => simp [readHeader] at hr
  | b0 :: b1 :: data =>
      rw [decodeHeader_cons]
      simp only [readHeader, Option.bind_eq_bind] at hr
      cases hext : takeBytes (extendedLength (b1.toNat % 128)) data with
      | none => rw [hext] at hr; simp at hr
      | some p =>
          obtain ⟨ext, rest⟩ := p
          rw [hext, Option.bind_some] at hr
          simp only at hr ⊢
          rw [decodeKey_eq _ _ _ rfl]
          cases hkey : takeBytes (keyLength (decide (128 ≤ b1.toNat))) rest with
          | none => rw [hkey] at hr; simp at hr
          | some q =>
              obtain ⟨key, rest'⟩ := q
              rw [hkey, Option.bind_some] at hr
              simp only [Option.some.injEq] at hr
              subst hr
              obtain ⟨-, hdata⟩ := takeBytes_eq_some.mp hext
              obtain ⟨-, hrest⟩ := takeBytes_eq_some.mp hkey
              have hfits (n : Nat) : n ≤ rest'.length ↔
                  2 + ext.length + key.length + n ≤ (b0 :: b1 :: data).length := by
                rw [hdata, hrest]
                simp only [List.length_cons, List.length_append]
                omega
              simp only [headerOf, hkey, hfits]

/-- The parts a complete header consists of. -/
theorem readHeader_eq_some {bs : Bytes} {h : DecodedHeader} :
    readHeader bs = some h ↔ ∃ b0 b1 ext key rest,
      bs = b0 :: b1 :: (ext ++ (key ++ rest)) ∧
      ext.length = extendedLength (b1.toNat % 128) ∧
      key.length = keyLength (decide (128 ≤ b1.toNat)) ∧
      h = { headerSize := 2 + ext.length + key.length
            flags := UInt32.ofNat (b0.toNat / 16 * 16)
            opcode := UInt32.ofNat (b0.toNat % 16)
            payloadSize := if ext = [] then b1.toNat % 128 else ofBE ext
            isMasked := decide (128 ≤ b1.toNat)
            maskingKey :=
              bif decide (128 ≤ b1.toNat) then key else [0, 0, 0, 0] } := by
  constructor
  · intro hr
    match bs with
    | [] | [_] => simp [readHeader] at hr
    | b0 :: b1 :: data =>
        simp only [readHeader, Option.bind_eq_bind, Option.bind_eq_some_iff] at hr
        obtain ⟨⟨ext, data'⟩, hext, ⟨key, rest⟩, hkey, hr⟩ := hr
        obtain ⟨hlen, rfl⟩ := takeBytes_eq_some.mp hext
        obtain ⟨hlen', hrest⟩ := takeBytes_eq_some.mp hkey
        have hdata : data' = key ++ rest := hrest
        subst hdata
        exact ⟨b0, b1, ext, key, rest, rfl, hlen, hlen', (Option.some.inj hr).symm⟩
  · rintro ⟨b0, b1, ext, key, rest, rfl, hlen, hlen', rfl⟩
    simp only [readHeader, Option.bind_eq_bind, takeBytes_eq_some.mpr ⟨hlen, rfl⟩,
      Option.bind_some, takeBytes_eq_some.mpr ⟨hlen', rfl⟩]

theorem readHeader_bounds {bs : Bytes} {h : DecodedHeader}
    (hr : readHeader bs = some h) : 2 ≤ h.headerSize ∧ h.headerSize ≤ bs.length := by
  obtain ⟨b0, b1, ext, key, rest, rfl, -, -, rfl⟩ := readHeader_eq_some.mp hr
  simp only [List.length_cons, List.length_append]
  omega

/-- What `decode_header` reports as complete lies inside the bytes it was
given. -/
theorem decodeHeader_fits {bs : Bytes} (h : (decodeHeader bs).headerSize ≠ 0) :
    2 ≤ (decodeHeader bs).headerSize ∧
      (decodeHeader bs).headerSize + (decodeHeader bs).payloadSize ≤ bs.length := by
  cases hr : readHeader bs with
  | none => exact absurd (decodeHeader_of_none hr) h
  | some d =>
      have hbounds := readHeader_bounds hr
      rw [decodeHeader_of_some hr] at h ⊢
      simp only at h ⊢
      split at h
      · rename_i hfit
        rw [if_pos hfit]
        exact ⟨hbounds.1, hfit⟩
      · exact absurd rfl h

/-- A complete header is not changed by what follows it. -/
theorem readHeader_append {bs : Bytes} {h : DecodedHeader}
    (hr : readHeader bs = some h) (more : Bytes) :
    readHeader (bs ++ more) = some h := by
  obtain ⟨b0, b1, ext, key, rest, rfl, hlen, hlen', rfl⟩ := readHeader_eq_some.mp hr
  exact readHeader_eq_some.mpr
    ⟨b0, b1, ext, key, rest ++ more, by simp, hlen, hlen', rfl⟩

/-- A header needs no more than its own bytes. -/
theorem readHeader_take {bs : Bytes} {h : DecodedHeader}
    (hr : readHeader bs = some h) (n : Nat) :
    readHeader (bs.take (h.headerSize + n)) = some h := by
  obtain ⟨b0, b1, ext, key, rest, rfl, hlen, hlen', rfl⟩ := readHeader_eq_some.mp hr
  refine readHeader_eq_some.mpr ⟨b0, b1, ext, key, rest.take n, ?_, hlen, hlen', rfl⟩
  have hcount : 2 + ext.length + key.length + n = ext.length + (key.length + n) + 2 := by
    omega
  simp only [hcount, List.take_succ_cons, List.take_length_add_append]

/-- A payload of `2 ^ 16` bytes or more needs the eight-byte length. -/
theorem headerSize_of_large {bs : Bytes} {h : DecodedHeader}
    (hr : readHeader bs = some h) (hlarge : 2 ^ 16 ≤ h.payloadSize) :
    10 ≤ h.headerSize := by
  obtain ⟨b0, b1, ext, key, rest, rfl, hlen, -, rfl⟩ := readHeader_eq_some.mp hr
  simp only at hlarge ⊢
  unfold extendedLength at hlen
  split at hlarge
  · omega
  · split at hlen
    · obtain ⟨x, y, rfl⟩ := List.length_eq_two.mp hlen
      have hx := x.toNat_lt
      have hy := y.toNat_lt
      simp only [ofBE, List.foldl_cons, List.foldl_nil] at hlarge
      omega
    · split at hlen
      · omega
      · rename_i hext _ _
        exact absurd (List.length_eq_zero_iff.mp hlen) hext

/-! ## Generating against the protocol -/

theorem length_generateHeader (opcode flags : UInt32) (n : Nat) :
    (generateHeader opcode flags n).length =
      if n ≤ 125 then 2 else if n ≤ 65535 then 4 else 10 := by
  unfold generateHeader
  split
  · rfl
  · split <;> rfl

/-- **A generated header reads back**, whatever follows it. -/
theorem readHeader_generateHeader {opcode flags : UInt32} {n : Nat}
    (ho : opcode.toNat < 16) (hf : ∃ k < 16, flags.toNat = 16 * k) (hn : n < 2 ^ 64)
    (rest : Bytes) :
    readHeader (generateHeader opcode flags n ++ rest) =
      some { headerSize := (generateHeader opcode flags n).length
             flags := flags, opcode := opcode, payloadSize := n } := by
  obtain ⟨k, hk, hflags⟩ := hf
  have hfirst : (opcode ||| flags).toUInt8.toNat = flags.toNat + opcode.toNat := by
    have hor : k <<< 4 ||| opcode.toNat = k * 2 ^ 4 + opcode.toNat := shiftLeft_or_eq ho
    have hshift : k <<< 4 = flags.toNat := by rw [Nat.shiftLeft_eq]; omega
    rw [UInt32.toNat_toUInt8, UInt32.toNat_or, Nat.or_comm, ← hshift, hor, hshift]
    omega
  have hop : UInt32.ofNat ((opcode ||| flags).toUInt8.toNat % 16) = opcode := by
    apply UInt32.toNat_inj.mp
    rw [UInt32.toNat_ofNat', hfirst]
    omega
  have hfl : UInt32.ofNat ((opcode ||| flags).toUInt8.toNat / 16 * 16) = flags := by
    apply UInt32.toNat_inj.mp
    rw [UInt32.toNat_ofNat', hfirst]
    omega
  rw [length_generateHeader]
  unfold generateHeader
  by_cases h125 : n ≤ 125
  · have hlen : (UInt8.ofNat n).toNat = n := by
      rw [UInt8.toNat_ofNat', Nat.mod_eq_of_lt (by omega)]
    rw [if_pos h125, if_pos h125]
    simp only [List.cons_append, List.nil_append, readHeader, hlen, hop, hfl,
      Nat.mod_eq_of_lt (show n < 128 by omega), extendedLength,
      if_neg (show ¬ n = 126 by omega), if_neg (show ¬ n = 127 by omega)]
    simp [takeBytes, keyLength, show ¬ 128 ≤ n by omega]
  · rw [if_neg h125, if_neg h125]
    by_cases h16 : n ≤ 65535
    · have hval : ofBE (be16 (UInt16.ofNat n)) = n := by
        rw [ofBE_be16, UInt16.toNat_ofNat', Nat.mod_eq_of_lt (by omega)]
      have htake : takeBytes 2 (be16 (UInt16.ofNat n) ++ rest) =
          some (be16 (UInt16.ofNat n), rest) := takeBytes_eq_some.mpr ⟨rfl, rfl⟩
      rw [if_pos h16, if_pos h16]
      simp only [List.cons_append, List.nil_append, readHeader, hop, hfl,
        UInt8.reduceToNat, Nat.reduceMod, extendedLength, if_true, htake]
      simp [takeBytes, keyLength, hval]
      simp [be16]
    · have hval : ofBE (be64 (UInt64.ofNat n)) = n := by
        rw [ofBE_be64, UInt64.toNat_ofNat', Nat.mod_eq_of_lt (by omega)]
      have htake : takeBytes 8 (be64 (UInt64.ofNat n) ++ rest) =
          some (be64 (UInt64.ofNat n), rest) := takeBytes_eq_some.mpr ⟨rfl, rfl⟩
      rw [if_neg h16, if_neg h16]
      simp only [List.cons_append, List.nil_append, readHeader, hop, hfl,
        UInt8.reduceToNat, Nat.reduceMod, extendedLength, Nat.reduceEqDiff, if_true,
        if_false, htake]
      simp [takeBytes, keyLength, hval]
      simp [be64]

end WsStreaming.Ports.WebsocketProtocol
