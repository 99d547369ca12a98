import WsStreaming.Verified.Wire

/-!
# The packet header of the streaming protocol

`streaming_protocol::generate_header` and `decode_header`, translated bit by
bit, next to `readHeader`, the header as the protocol defines it: a
little-endian word with the signal number in its low 20 bits, the payload
size in the next 8 and the packet type above, followed by a second word with
the size when the size field is zero.

The two differ in one place.  `decode_header` assembles the second word in an
`int` and widens that to `std::size_t`, so a size of `2 ^ 31` or more comes
out sign-extended (`widened`); below it, decoding is exact
(`decodeHeader_of_some`).
-/

namespace WsStreaming.Ports.StreamingProtocol

open WsStreaming.Verified.Wire

/-- `packet_type::DATA`. -/
def packetTypeData : UInt32 := 1

/-- `packet_type::METADATA`. -/
def packetTypeMetadata : UInt32 := 2

/-- `streaming_protocol::decoded_header`. -/
structure DecodedHeader where
  headerSize : Nat := 0
  signo : UInt32 := 0
  type : UInt32 := 0
  payloadSize : Nat := 0
deriving Repr, DecidableEq

/-- `streaming_protocol::generate_header`: the bytes of the header.  The
fields are ORed together unmasked, in 32-bit arithmetic. -/
def generateHeader (signo type : UInt32) (payloadSize : Nat) : Except String Bytes :=
  if payloadSize < 256 then
    .ok (le32 (signo ||| (UInt32.ofNat payloadSize <<< 20) ||| (type <<< 28)))
  else if payloadSize ≤ 2 ^ 32 - 1 then
    .ok (le32 (signo ||| (type <<< 28)) ++ le32 (UInt32.ofNat payloadSize))
  else
    .error "Asked to generate a WebSocket Streaming Protocol packet > 2^32 bytes"

/-- The conversion of an `int` with the given bits to `std::size_t`. -/
def sizeOfInt (bits : UInt32) : Nat :=
  bits.toInt32.toInt64.toUInt64.toNat

/-- `streaming_protocol::decode_header` on the `size` bytes at `data`. -/
def decodeHeader : Bytes → DecodedHeader
  | b0 :: b1 :: b2 :: b3 :: data =>
      let header : DecodedHeader :=
        { type := (b3 >>> 4).toUInt32
          signo := ((b2.toUInt32 &&& 0xF) <<< 16) ||| (b1.toUInt32 <<< 8) |||
            b0.toUInt32
          payloadSize := (((b3.toUInt32 &&& 0xF) <<< 4) |||
            (b2 >>> 4).toUInt32).toNat }
      if header.payloadSize = 0 then
        match data with
        | c0 :: c1 :: c2 :: c3 :: data =>
            let payloadSize := sizeOfInt ((c3.toUInt32 <<< 24) |||
              (c2.toUInt32 <<< 16) ||| (c1.toUInt32 <<< 8) ||| c0.toUInt32)
            { header with
              payloadSize := payloadSize
              headerSize := if payloadSize ≤ data.length then 8 else 0 }
        | _ => header
      else
        { header with
          headerSize := if header.payloadSize ≤ data.length then 4 else 0 }
  | _ => {}

/-- The header as the protocol defines it; `none` while it is incomplete.
Whether the payload is there too is not looked at. -/
def readHeader (bs : Bytes) : Option DecodedHeader := do
  let (word, data) ← takeWord bs
  let signo := UInt32.ofNat (word % 2 ^ 20)
  let type := UInt32.ofNat (word / 2 ^ 28)
  if word / 2 ^ 20 % 256 = 0 then
    let (size, _) ← takeWord data
    some { headerSize := 8, signo := signo, type := type, payloadSize := size }
  else
    some { headerSize := 4, signo := signo, type := type
           payloadSize := word / 2 ^ 20 % 256 }

/-! ## The bit manipulations as arithmetic -/

section Bits

variable (b0 b1 b2 b3 : UInt8)

private theorem type_bits :
    (b3 >>> 4).toUInt32 = UInt32.ofNat (ofLE [b0, b1, b2, b3] / 2 ^ 28) := by
  apply UInt32.toNat_inj.mp
  have h0 := b0.toNat_lt; have h1 := b1.toNat_lt
  have h2 := b2.toNat_lt; have h3 := b3.toNat_lt
  rw [UInt8.toNat_toUInt32, UInt8.toNat_shiftRight, UInt32.toNat_ofNat']
  simp only [ofLE, UInt8.reduceToNat, Nat.reduceMod, Nat.shiftRight_eq_div_pow]
  omega

private theorem signo_bits :
    ((b2.toUInt32 &&& 0xF) <<< 16) ||| (b1.toUInt32 <<< 8) ||| b0.toUInt32 =
      UInt32.ofNat (ofLE [b0, b1, b2, b3] % 2 ^ 20) := by
  apply UInt32.toNat_inj.mp
  have h0 := b0.toNat_lt; have h1 := b1.toNat_lt
  have h2 := b2.toNat_lt; have h3 := b3.toNat_lt
  have hmask : b2.toNat &&& 15 = b2.toNat % 16 := Nat.and_two_pow_sub_one_eq_mod _ 4
  have hlow : b1.toNat <<< 8 ||| b0.toNat = b1.toNat * 2 ^ 8 + b0.toNat :=
    shiftLeft_or_eq h0
  rw [UInt32.toNat_ofNat']
  simp only [UInt32.toNat_or, UInt32.toNat_shiftLeft, UInt32.toNat_and,
    UInt8.toNat_toUInt32, UInt32.reduceToNat, Nat.reduceMod, hmask]
  rw [Nat.mod_eq_of_lt (a := (b2.toNat % 16) <<< 16) (by rw [Nat.shiftLeft_eq]; omega),
    Nat.mod_eq_of_lt (a := b1.toNat <<< 8) (by rw [Nat.shiftLeft_eq]; omega),
    Nat.or_assoc, hlow, shiftLeft_or_eq (by omega)]
  simp only [ofLE]
  omega

private theorem size_bits :
    (((b3.toUInt32 &&& 0xF) <<< 4) ||| (b2 >>> 4).toUInt32).toNat =
      ofLE [b0, b1, b2, b3] / 2 ^ 20 % 256 := by
  have h0 := b0.toNat_lt; have h1 := b1.toNat_lt
  have h2 := b2.toNat_lt; have h3 := b3.toNat_lt
  have hmask : b3.toNat &&& 15 = b3.toNat % 16 := Nat.and_two_pow_sub_one_eq_mod _ 4
  simp only [UInt32.toNat_or, UInt32.toNat_shiftLeft, UInt32.toNat_and,
    UInt8.toNat_toUInt32, UInt8.toNat_shiftRight, UInt32.reduceToNat,
    UInt8.reduceToNat, Nat.reduceMod, hmask, Nat.shiftRight_eq_div_pow]
  rw [Nat.mod_eq_of_lt (by rw [Nat.shiftLeft_eq]; omega), shiftLeft_or_eq (by omega)]
  simp only [ofLE]
  omega

private theorem word_bits :
    ((b3.toUInt32 <<< 24) ||| (b2.toUInt32 <<< 16) ||| (b1.toUInt32 <<< 8) |||
      b0.toUInt32).toNat = ofLE [b0, b1, b2, b3] := by
  have h0 := b0.toNat_lt; have h1 := b1.toNat_lt
  have h2 := b2.toNat_lt; have h3 := b3.toNat_lt
  have hlow : b1.toNat <<< 8 ||| b0.toNat = b1.toNat * 2 ^ 8 + b0.toNat :=
    shiftLeft_or_eq h0
  have hmid : b2.toNat <<< 16 ||| (b1.toNat * 2 ^ 8 + b0.toNat) =
      b2.toNat * 2 ^ 16 + (b1.toNat * 2 ^ 8 + b0.toNat) :=
    shiftLeft_or_eq (by omega)
  simp only [UInt32.toNat_or, UInt32.toNat_shiftLeft, UInt8.toNat_toUInt32,
    UInt32.reduceToNat, Nat.reduceMod]
  rw [Nat.mod_eq_of_lt (a := b3.toNat <<< 24) (by rw [Nat.shiftLeft_eq]; omega),
    Nat.mod_eq_of_lt (a := b2.toNat <<< 16) (by rw [Nat.shiftLeft_eq]; omega),
    Nat.mod_eq_of_lt (a := b1.toNat <<< 8) (by rw [Nat.shiftLeft_eq]; omega),
    Nat.or_assoc, Nat.or_assoc, hlow, hmid, shiftLeft_or_eq (by omega)]
  simp only [ofLE]
  omega

end Bits

/-- What an `int` holding the bits of `n` becomes as a `std::size_t`. -/
def widened (n : Nat) : Nat := if n < 2 ^ 31 then n else n + (2 ^ 64 - 2 ^ 32)

theorem le_widened (n : Nat) : n ≤ widened n := by
  unfold widened
  split <;> omega

/-- Widening an `int` is exact below `2 ^ 31` and sign-extends from there on. -/
theorem sizeOfInt_eq (w : UInt32) : sizeOfInt w = widened w.toNat := by
  unfold widened
  have hw := w.toNat_lt
  have hext : sizeOfInt w = (w.toBitVec.signExtend 64).toNat := rfl
  have hnat : w.toBitVec.toNat = w.toNat := rfl
  rw [hext, BitVec.toNat_signExtend, BitVec.toNat_setWidth, BitVec.msb_eq_decide, hnat]
  simp only [decide_eq_true_eq]
  split
  · split
    · omega
    · omega
  · split
    · omega
    · omega

/-! ## Decoding against the protocol -/

/-- What a complete header consists of: one word, or two if the size field of
the first is zero. -/
theorem readHeader_cases {bs : Bytes} {h : DecodedHeader} (hr : readHeader bs = some h) :
    ∃ word data, takeWord bs = some (word, data) ∧
      h.signo = UInt32.ofNat (word % 2 ^ 20) ∧ h.type = UInt32.ofNat (word / 2 ^ 28) ∧
      ((word / 2 ^ 20 % 256 = 0 ∧ h.headerSize = 8 ∧
          ∃ rest, takeWord data = some (h.payloadSize, rest)) ∨
        (word / 2 ^ 20 % 256 ≠ 0 ∧ h.headerSize = 4 ∧
          h.payloadSize = word / 2 ^ 20 % 256)) := by
  simp only [readHeader, Option.bind_eq_bind, Option.bind_eq_some_iff] at hr
  obtain ⟨⟨word, data⟩, hword, hr⟩ := hr
  refine ⟨word, data, hword, ?_⟩
  simp only at hr
  split at hr
  · rename_i hzero
    obtain ⟨⟨size, rest⟩, hsize, hr⟩ := Option.bind_eq_some_iff.mp hr
    simp only [Option.some.injEq] at hr
    subst hr
    exact ⟨rfl, rfl, .inl ⟨hzero, rfl, rest, hsize⟩⟩
  · rename_i hsize
    simp only [Option.some.injEq] at hr
    subst hr
    exact ⟨rfl, rfl, .inr ⟨hsize, rfl, rfl⟩⟩

/-- While the header is incomplete, `decode_header` reports so. -/
theorem decodeHeader_of_none {bs : Bytes} (h : readHeader bs = none) :
    (decodeHeader bs).headerSize = 0 := by
  rcases bs with _ | ⟨b0, _ | ⟨b1, _ | ⟨b2, _ | ⟨b3, data⟩⟩⟩⟩
  · rfl
  · rfl
  · rfl
  · rfl
  · simp only [readHeader, takeWord, Option.bind_eq_bind, Option.bind_some] at h
    simp only [decodeHeader, size_bits b0 b1 b2 b3]
    split at h
    · rename_i hzero
      rw [if_pos hzero]
      rcases data with _ | ⟨c0, _ | ⟨c1, _ | ⟨c2, _ | ⟨c3, data⟩⟩⟩⟩
      · rfl
      · rfl
      · rfl
      · rfl
      · simp at h
    · simp at h

/-- A complete header: `decode_header` returns its fields, with the size
widened, and reports the header size once the payload is there. -/
theorem decodeHeader_of_some {bs : Bytes} {h : DecodedHeader}
    (hr : readHeader bs = some h) :
    decodeHeader bs =
      { h with
        payloadSize := widened h.payloadSize
        headerSize :=
          if h.headerSize + widened h.payloadSize ≤ bs.length then h.headerSize
          else 0 } := by
  rcases bs with _ | ⟨b0, _ | ⟨b1, _ | ⟨b2, _ | ⟨b3, data⟩⟩⟩⟩
  · simp [readHeader, takeWord] at hr
  · simp [readHeader, takeWord] at hr
  · simp [readHeader, takeWord] at hr
  · simp [readHeader, takeWord] at hr
  · simp only [readHeader, takeWord, Option.bind_eq_bind, Option.bind_some] at hr
    simp only [decodeHeader, size_bits b0 b1 b2 b3, signo_bits b0 b1 b2 b3,
      type_bits b0 b1 b2 b3]
    split at hr
    · rename_i hzero
      rw [if_pos hzero]
      rcases data with _ | ⟨c0, _ | ⟨c1, _ | ⟨c2, _ | ⟨c3, data⟩⟩⟩⟩
      · simp at hr
      · simp at hr
      · simp at hr
      · simp at hr
      · simp only [Option.bind_some, Option.some.injEq] at hr
        subst hr
        have hfits (n : Nat) : n ≤ data.length ↔
            8 + n ≤ (b0 :: b1 :: b2 :: b3 :: c0 :: c1 :: c2 :: c3 :: data).length := by
          simp only [List.length_cons]
          omega
        simp only [sizeOfInt_eq, word_bits c0 c1 c2 c3, hfits]
    · rename_i hsize
      simp only [Option.some.injEq] at hr
      subst hr
      rw [if_neg hsize]
      have hsmall : widened (ofLE [b0, b1, b2, b3] / 2 ^ 20 % 256) =
          ofLE [b0, b1, b2, b3] / 2 ^ 20 % 256 := if_pos (by omega)
      have hfits (n : Nat) : n ≤ data.length ↔
          4 + n ≤ (b0 :: b1 :: b2 :: b3 :: data).length := by
        simp only [List.length_cons]
        omega
      simp only [hsmall, hfits]

theorem readHeader_bounds {bs : Bytes} {h : DecodedHeader}
    (hr : readHeader bs = some h) :
    4 ≤ h.headerSize ∧ h.headerSize ≤ bs.length ∧ h.payloadSize < 2 ^ 32 := by
  obtain ⟨word, data, hword, -, -, hcases⟩ := readHeader_cases hr
  have hlen := takeWord_length hword
  rcases hcases with ⟨-, hsize, rest, hrest⟩ | ⟨-, hsize, hpay⟩
  · have := takeWord_length hrest
    have := takeWord_lt hrest
    omega
  · omega

/-- What `decode_header` reports as complete lies inside the bytes it was
given. -/
theorem decodeHeader_fits {bs : Bytes} (h : (decodeHeader bs).headerSize ≠ 0) :
    4 ≤ (decodeHeader bs).headerSize ∧
      (decodeHeader bs).headerSize + (decodeHeader bs).payloadSize ≤ bs.length := by
  cases hr : readHeader bs with
  | none => exact absurd (decodeHeader_of_none hr) h
  | some d =>
      have hbounds := readHeader_bounds hr
      rw [decodeHeader_of_some hr] at h ⊢
      simp only at h ⊢
      split at h
      · rename_i hfit
        rw [if_pos hfit]
        exact ⟨hbounds.1, hfit⟩
      · exact absurd rfl h

/-- A complete header is not changed by what follows it. -/
theorem readHeader_append {bs : Bytes} {h : DecodedHeader}
    (hr : readHeader bs = some h) (more : Bytes) :
    readHeader (bs ++ more) = some h := by
  obtain ⟨word, data, hword, hsig, htype, hcases⟩ := readHeader_cases hr
  have hword' := takeWord_append hword more
  obtain ⟨headerSize, signo, type, payloadSize⟩ := h
  simp only at hsig htype hcases
  subst hsig htype
  rcases hcases with ⟨hzero, rfl, rest, hrest⟩ | ⟨hne, rfl, rfl⟩
  · simp only [readHeader, hword', Option.bind_eq_bind, Option.bind_some, if_pos hzero,
      takeWord_append hrest more]
  · simp only [readHeader, hword', Option.bind_eq_bind, Option.bind_some, if_neg hne]

/-- A header needs no more than its own bytes. -/
theorem readHeader_take {bs : Bytes} {h : DecodedHeader}
    (hr : readHeader bs = some h) (n : Nat) :
    readHeader (bs.take (h.headerSize + n)) = some h := by
  obtain ⟨word, data, hword, hsig, htype, hcases⟩ := readHeader_cases hr
  obtain ⟨headerSize, signo, type, payloadSize⟩ := h
  simp only at hsig htype hcases
  subst hsig htype
  rcases hcases with ⟨hzero, rfl, rest, hrest⟩ | ⟨hne, rfl, rfl⟩
  · have hword' := takeWord_take (n := 4 + n) hword
    rw [← Nat.add_assoc] at hword'
    simp only [readHeader, hword', Option.bind_eq_bind, Option.bind_some, if_pos hzero,
      takeWord_take hrest]
  · simp only [readHeader, takeWord_take hword, Option.bind_eq_bind, Option.bind_some,
      if_neg hne]

/-- Only a second word can say that a payload is long. -/
theorem headerSize_of_large {bs : Bytes} {h : DecodedHeader}
    (hr : readHeader bs = some h) (hlarge : 256 ≤ h.payloadSize) : h.headerSize = 8 := by
  obtain ⟨word, data, -, -, -, ⟨-, hsize, -⟩ | ⟨-, -, hpay⟩⟩ := readHeader_cases hr
  · exact hsize
  · omega

/-! ## Generating against the protocol -/

/-- The first word of a generated header, as a number. -/
private theorem header_word {signo type : UInt32} {n : Nat}
    (hs : signo.toNat < 2 ^ 20) (ht : type.toNat < 16) (hn : n < 256) :
    (signo ||| (UInt32.ofNat n <<< 20) ||| (type <<< 28)).toNat =
      signo.toNat + n * 2 ^ 20 + type.toNat * 2 ^ 28 := by
  have hlow : n <<< 20 ||| signo.toNat = n * 2 ^ 20 + signo.toNat := shiftLeft_or_eq hs
  simp only [UInt32.toNat_or, UInt32.toNat_shiftLeft, UInt32.toNat_ofNat',
    UInt32.reduceToNat, Nat.reduceMod]
  rw [Nat.mod_eq_of_lt (a := n) (by omega),
    Nat.mod_eq_of_lt (a := n <<< 20) (by rw [Nat.shiftLeft_eq]; omega),
    Nat.mod_eq_of_lt (a := type.toNat <<< 28) (by rw [Nat.shiftLeft_eq]; omega),
    Nat.or_comm signo.toNat, hlow, Nat.or_comm, shiftLeft_or_eq (by omega)]
  omega

private theorem header_word_large {signo type : UInt32}
    (hs : signo.toNat < 2 ^ 20) (ht : type.toNat < 16) :
    (signo ||| (type <<< 28)).toNat = signo.toNat + type.toNat * 2 ^ 28 := by
  have h := header_word hs ht (n := 0) (by omega)
  simpa using h

/-- The first word of a generated header carries the type in its top bits. -/
theorem takeWord_generateHeader {signo type : UInt32} {n : Nat} {header : Bytes}
    (hs : signo.toNat < 2 ^ 20) (ht : type.toNat < 16)
    (hgen : generateHeader signo type n = .ok header) (rest : Bytes) :
    ∃ w data, takeWord (header ++ rest) = some (w, data) ∧ w / 2 ^ 28 = type.toNat := by
  unfold generateHeader at hgen
  split at hgen
  · rename_i hsmall
    injection hgen with hgen
    refine ⟨_, rest, by rw [← hgen]; exact takeWord_le32 _ rest, ?_⟩
    rw [header_word hs ht hsmall]
    omega
  · split at hgen
    · injection hgen with hgen
      refine ⟨_, _, by rw [← hgen, List.append_assoc]; exact takeWord_le32 _ _, ?_⟩
      rw [header_word_large hs ht]
      omega
    · cases hgen

/-- Reading a header word followed by anything. -/
private theorem readHeader_word {signo type w : UInt32} {n : Nat}
    (hs : signo.toNat < 2 ^ 20) (ht : type.toNat < 16) (hn : n < 256)
    (hw : w.toNat = signo.toNat + n * 2 ^ 20 + type.toNat * 2 ^ 28) (rest : Bytes) :
    readHeader (le32 w ++ rest) =
      if n = 0 then
        (takeWord rest).map fun second =>
          { headerSize := 8, signo := signo, type := type, payloadSize := second.1 }
      else some { headerSize := 4, signo := signo, type := type, payloadSize := n } := by
  have hsig : UInt32.ofNat (w.toNat % 2 ^ 20) = signo := by
    apply UInt32.toNat_inj.mp
    rw [UInt32.toNat_ofNat']
    omega
  have htype : UInt32.ofNat (w.toNat / 2 ^ 28) = type := by
    apply UInt32.toNat_inj.mp
    rw [UInt32.toNat_ofNat']
    omega
  have hsize : w.toNat / 2 ^ 20 % 256 = n := by omega
  simp only [readHeader, takeWord_le32, Option.bind_eq_bind, Option.bind_some, hsig,
    htype, hsize]
  split
  · cases takeWord rest <;> rfl
  · rfl

/-- **A generated header reads back**, whatever follows it, for every payload
that is not empty. -/
theorem readHeader_generateHeader {signo type : UInt32} {n : Nat} {header : Bytes}
    (hs : signo.toNat < 2 ^ 20) (ht : type.toNat < 16) (hn : n ≠ 0)
    (hgen : generateHeader signo type n = .ok header) (rest : Bytes) :
    readHeader (header ++ rest) =
      some { headerSize := header.length, signo := signo, type := type
             payloadSize := n } := by
  unfold generateHeader at hgen
  split at hgen
  · rename_i hsmall
    injection hgen with hgen
    rw [← hgen, readHeader_word hs ht hsmall (header_word hs ht hsmall), if_neg hn]
    rfl
  · split at hgen
    · injection hgen with hgen
      rename_i hle
      have hsecond : (UInt32.ofNat n).toNat = n := by
        rw [UInt32.toNat_ofNat', Nat.mod_eq_of_lt (by omega)]
      have hw : (signo ||| (type <<< 28)).toNat =
          signo.toNat + 0 * 2 ^ 20 + type.toNat * 2 ^ 28 := by
        rw [header_word_large hs ht]
        omega
      rw [← hgen, List.append_assoc, readHeader_word hs ht (by omega) hw, if_pos rfl]
      rw [takeWord_le32, hsecond]
      rfl
    · simp at hgen

/-- **The header of an empty payload does not read back**: its size field is
the escape value, so the next four bytes are taken for the size. -/
theorem readHeader_generateHeader_empty {signo type : UInt32} {header : Bytes}
    (hs : signo.toNat < 2 ^ 20) (ht : type.toNat < 16)
    (hgen : generateHeader signo type 0 = .ok header) (rest : Bytes) :
    readHeader (header ++ rest) =
      (takeWord rest).map fun second =>
        { headerSize := 8, signo := signo, type := type, payloadSize := second.1 } := by
  unfold generateHeader at hgen
  rw [if_pos (by omega)] at hgen
  injection hgen with hgen
  rw [← hgen, readHeader_word hs ht (by omega) (header_word hs ht (by omega)), if_pos rfl]

/-- A header can be generated for every payload of fewer than `2 ^ 32` bytes. -/
theorem generateHeader_ok (signo type : UInt32) {n : Nat} (hn : n < 2 ^ 32) :
    ∃ header, generateHeader signo type n = .ok header ∧
      header.length = if n < 256 then 4 else 8 := by
  unfold generateHeader
  by_cases hsmall : n < 256
  · exact ⟨_, by rw [if_pos hsmall], by rw [if_pos hsmall]; rfl⟩
  · exact ⟨_, by rw [if_neg hsmall, if_pos (by omega)], by rw [if_neg hsmall]; rfl⟩

theorem generateHeader_error (signo type : UInt32) {n : Nat} (hn : ¬ n < 2 ^ 32) :
    ∃ e, generateHeader signo type n = .error e := by
  unfold generateHeader
  rw [if_neg (by omega), if_neg (by omega)]
  exact ⟨_, rfl⟩

end WsStreaming.Ports.StreamingProtocol
