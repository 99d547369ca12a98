import WsStreaming.Ports.DynamicBufferQueue

/-!
# The capacity of the transmit buffer

How much a `dynamic_buffer` takes depends on its past through two numbers only:
the bytes that are stored, and the bytes that were consumed from the block that
is now the first.  A `Gauge` keeps these two, and knows nothing of blocks,
tails, recycling and lazy allocation; the buffer follows it.

## Main results

* `gauge_run` — the buffer follows the gauge through every history.
* `write_accepts_exactly` — what `write` takes, and that no block beyond the
  limit is ever allocated.
-/

namespace WsStreaming.Ports.DynamicBuffer

open WsStreaming.Verified
open WsStreaming.Verified.Wire

/-! ## The gauge -/

/-- The size of a block. -/
def blockBytes (maxSize blockSize : Nat) : Nat := min blockSize maxSize

/-- The number of blocks that there may be. -/
def blockCount (maxSize blockSize : Nat) : Nat :=
  if blockBytes maxSize blockSize = 0 then 0 else maxSize / blockBytes maxSize blockSize

/-- The bytes consumed from the first block that holds data, and the bytes
stored. -/
structure Gauge where
  consumed : Nat := 0
  stored : Nat := 0
deriving DecidableEq, Repr

/-- The room that is left in `count` blocks of `bytes` bytes. -/
def Gauge.room (g : Gauge) (bytes count : Nat) : Nat := bytes * count - g.consumed - g.stored

/-- What a call does to the gauge. -/
def Gauge.call (bytes count : Nat) (g : Gauge) : Call → Gauge
  | .write buffers =>
      { g with stored := g.stored + min buffers.flatten.length (g.room bytes count) }
  | .consume size =>
      -- A block that empties is filled from its start again.
      if g.stored ≤ size then {} else ⟨(g.consumed + size) % bytes, g.stored - size⟩

/-- What it does to the buffer. -/
def call (b : DynamicBuffer) : Call → Option DynamicBuffer
  | .write buffers => (b.write buffers).map Prod.fst
  | .consume size => b.consume size

/-! ## The buffer follows -/

section Follow

variable {b b' : DynamicBuffer}

theorem readOffset_lt (h : Shape b) (hu : b.used ≠ 0) : b.readOffset < b.blockSize := by
  have hfront := h.front hu
  have hback := h.back hu
  split at hfront
  · omega
  · exact hfront

theorem used_of_size (h : Inv b) : b.used = 0 ↔ b.size = 0 := by
  have hsize := h.sizeEq
  constructor
  · intro hu
    have htail := tail_of_idle h.toShape hu
    omega
  · intro hzero
    by_contra hu
    -- The first byte of the data lies before the last one.
    have hfront := h.front hu
    have hmul : 1 * b.blockSize ≤ (b.used - 1) * b.blockSize ∨ b.used = 1 := by
      by_cases hone : b.used = 1
      · exact .inr hone
      · exact .inl (Nat.mul_le_mul_right _ (by omega))
    unfold tail at hsize
    rcases hmul with hmul | hone
    · have hlt := readOffset_lt h.toShape hu
      have hback := h.back hu
      omega
    · rw [if_pos hone] at hfront
      rw [hone] at hsize
      omega

/-- Where the data ends in its last block is left alone while some are left. -/
theorem consumeLoop_writeOffset (fuel : Nat) : ∀ (b b' : DynamicBuffer) (size : Nat), Shape b →
    size ≤ b.contents.length → consumeLoop fuel b size = some b' → b'.used ≠ 0 →
      b'.writeOffset = b.writeOffset := by
  induction fuel with
  | zero =>
      intro b b' size h hsize hrun hu
      cases size with
      | zero =>
          rw [consumeLoop] at hrun
          rw [Option.some.inj hrun]
      | succ size => cases hrun
  | succ fuel ih =>
      intro b b' size h hsize hrun hu
      cases size with
      | zero =>
          rw [consumeLoop] at hrun
          rw [Option.some.inj hrun]
      | succ size =>
          obtain ⟨hpos, hshape, hcontents, -⟩ := consume_step h hsize
          rw [consumeLoop] at hrun
          dsimp only at hpos hshape hcontents hrun
          generalize hlast : (if b.used = 1 then b.writeOffset else b.blockSize) = last
            at hpos hshape hcontents hrun
          generalize hcount : min (size + 1) (last - b.readOffset) = count
            at hpos hshape hcontents hrun
          have hlength := congrArg List.length hcontents
          rw [List.length_drop] at hlength
          have hrest := ih _ b' _ hshape (by omega) hrun hu
          rw [hrest]
          split
          · unfold recycleFrontBlock
            dsimp only
            by_cases hone : b.used - 1 = 0
            · -- The last block is empty, so nothing is left to consume.
              rename_i hend
              rw [if_pos hend] at hshape hlength hrun
              have hidle : (recycleFrontBlock
                  { b with readOffset := b.readOffset + count }).used = 0 := hone
              have hempty := length_contents hshape
              rw [tail_of_idle hshape hidle] at hempty
              rw [show size + 1 - count = 0 by omega, show consumeLoop fuel (recycleFrontBlock
                { b with readOffset := b.readOffset + count }) 0 = some (recycleFrontBlock
                  { b with readOffset := b.readOffset + count }) by cases fuel <;> rfl] at hrun
              rw [← Option.some.inj hrun] at hu
              exact absurd hidle hu
            · rw [if_neg hone]
          · rfl

/-- **Consuming some of the data** moves on in the first block, or to another
one. -/
theorem readOffset_consume (h : Inv b) {size : Nat} (hsize : size < b.size)
    (hrun : b.consume size = some b') (h' : Inv b') :
    b'.readOffset = (b.readOffset + size) % b.blockSize := by
  have hlen := h.size_eq
  obtain ⟨c, hc, -, hcontents, hB, -⟩ := consume_spec h size
  obtain rfl : c = b' := Option.some.inj (hc.symm.trans hrun)
  have hleft : c.size = b.size - size := by
    rw [h'.size_eq, hcontents, List.length_drop, ← hlen]
  have hu' : c.used ≠ 0 := by
    intro hidle
    have hzero := (used_of_size h').mp hidle
    omega
  have hu : b.used ≠ 0 := by
    intro hidle
    have hzero := (used_of_size h).mp hidle
    omega
  have hback : c.writeOffset = b.writeOffset := by
    unfold consume at hrun
    rw [show min size b.size = size by omega] at hrun
    have hshape : Shape { b with size := b.size - size } :=
      ⟨h.uniform, h.limit, h.positive, h.usedLe, h.idle, h.front, h.back⟩
    have hroom : size ≤ ({ b with size := b.size - size } : DynamicBuffer).contents.length := by
      show size ≤ b.contents.length
      omega
    exact consumeLoop_writeOffset size { b with size := b.size - size } c size hshape hroom hrun hu'
  have hlt := readOffset_lt h'.toShape hu'
  have hends := h.sizeEq
  have hends' := h'.sizeEq
  unfold tail at hends hends'
  rw [hB] at hlt hends'
  rw [hback] at hends'
  -- The two ends of the data are whole blocks apart.
  calc c.readOffset
      = c.readOffset % b.blockSize := (Nat.mod_eq_of_lt hlt).symm
    _ = (c.readOffset + (b.used - 1) * b.blockSize) % b.blockSize := by
        rw [Nat.add_mul_mod_self_right]
    _ = (b.readOffset + size + (c.used - 1) * b.blockSize) % b.blockSize := by
        congr 1
        omega
    _ = (b.readOffset + size) % b.blockSize := by rw [Nat.add_mul_mod_self_right]

theorem readOffset_commitLoop (fuel : Nat) : ∀ (b b' : DynamicBuffer) (size : Nat),
    commitLoop fuel b size = some b' → b'.readOffset = b.readOffset := by
  induction fuel with
  | zero =>
      intro b b' size hrun
      cases size with
      | zero =>
          rw [commitLoop] at hrun
          rw [Option.some.inj hrun]
      | succ size => cases hrun
  | succ fuel ih =>
      intro b b' size hrun
      cases size with
      | zero =>
          rw [commitLoop] at hrun
          rw [Option.some.inj hrun]
      | succ size =>
          rw [commitLoop] at hrun
          have hrest := ih { b with used := b.used + 1, writeOffset := min (size + 1) b.blockSize }
            b' (size + 1 - min (size + 1) b.blockSize) hrun
          exact hrest

/-- **Writing** leaves the front of the data alone. -/
theorem readOffset_write (h : Inv b) {buffers : List Bytes} {n : Nat}
    (hrun : b.write buffers = some (b', n)) : b'.readOffset = b.readOffset := by
  obtain ⟨p, spans, hprepare, hprepared⟩ := prepare_spec h.toShape buffers.flatten.length
  obtain ⟨k, hp⟩ := hprepared.blocks
  unfold write at hrun
  rw [hprepare, Option.bind_eq_bind, Option.bind_some] at hrun
  obtain ⟨c, hcommit, hpair⟩ := Option.bind_eq_some_iff.mp hrun
  obtain ⟨rfl, -⟩ := Prod.mk.inj (Option.some.inj hpair)
  have hfront : c.readOffset = p.readOffset := by
    unfold commit at hcommit
    dsimp only at hcommit
    split at hcommit
    · have hloop := readOffset_commitLoop _ _ c _ hcommit
      exact hloop
    · have hloop := readOffset_commitLoop _ _ c _ hcommit
      exact hloop
  rw [hfront, hp]

end Follow

/-! ## Histories -/

/-- The buffer is as the gauge says. -/
structure Gauged (bytes count : Nat) (b : DynamicBuffer) (g : Gauge) : Prop where
  inv : Inv b
  blockSize : b.blockSize = bytes
  maxBlocks : b.maxBlocks = count
  consumed : b.readOffset = g.consumed
  stored : b.size = g.stored

section Gauged

variable {bytes count : Nat} {b : DynamicBuffer} {g : Gauge}

/-- **What `write` takes.** -/
theorem Gauged.write (h : Gauged bytes count b g) (buffers : List Bytes) :
    ∃ b', b.write buffers = some (b', min buffers.flatten.length (g.room bytes count)) ∧
      Gauged bytes count b' (g.call bytes count (.write buffers)) := by
  obtain ⟨b', n, hrun, hinv, hcount, hcontents, hkept, hB, hK⟩ := write_spec h.inv buffers
  have hends := h.inv.sizeEq
  have hroom : b.maxBlocks * b.blockSize - b.tail = g.room bytes count := by
    unfold Gauge.room
    rw [← hends, h.blockSize, h.maxBlocks, h.consumed, h.stored, Nat.mul_comm]
    omega
  rw [hroom] at hcount
  rw [hcount] at hrun hcontents
  have hsize : b'.size = g.stored + min buffers.flatten.length (g.room bytes count) := by
    rw [hinv.size_eq, hcontents, List.length_append, ← h.inv.size_eq, h.stored, List.length_take]
    omega
  exact ⟨b', hrun, hinv, hB.trans h.blockSize, hK.trans h.maxBlocks,
    (readOffset_write h.inv hrun).trans h.consumed, hsize⟩

/-- **What `consume` leaves.** -/
theorem Gauged.consume (h : Gauged bytes count b g) (size : Nat) :
    ∃ b', b.consume size = some b' ∧
      Gauged bytes count b' (g.call bytes count (.consume size)) := by
  obtain ⟨b', hrun, hinv, hcontents, hB, hK⟩ := consume_spec h.inv size
  have hleft : b'.size = g.stored - size := by
    rw [hinv.size_eq, hcontents, List.length_drop, ← h.inv.size_eq, h.stored]
  refine ⟨b', hrun, hinv, hB.trans h.blockSize, hK.trans h.maxBlocks, ?_, ?_⟩
  · by_cases hall : g.stored ≤ size
    · have hempty : b'.size = 0 := hleft.trans (Nat.sub_eq_zero_of_le hall)
      have hidle := (used_of_size hinv).mpr hempty
      rw [show g.call bytes count (.consume size) = {} from if_pos hall]
      exact (hinv.idle hidle).1
    · have hsome : size < b.size := by
        rw [h.stored]
        exact Nat.lt_of_not_le hall
      rw [show g.call bytes count (.consume size) = _ from if_neg hall,
        readOffset_consume h.inv hsome hrun hinv, h.consumed, h.blockSize]
  · by_cases hall : g.stored ≤ size
    · rw [show g.call bytes count (.consume size) = {} from if_pos hall, hleft]
      exact Nat.sub_eq_zero_of_le hall
    · rw [show g.call bytes count (.consume size) = _ from if_neg hall, hleft]

theorem Gauged.call (h : Gauged bytes count b g) (c : Call) :
    ∃ b', b.call c = some b' ∧ Gauged bytes count b' (g.call bytes count c) := by
  cases c with
  | write buffers =>
      obtain ⟨b', hrun, hgauged⟩ := h.write buffers
      refine ⟨b', ?_, hgauged⟩
      show (b.write buffers).map Prod.fst = some b'
      rw [hrun]
      rfl
  | consume size => exact h.consume size

/-- What was consumed lies in one block, and what is stored in the others and
the rest of it. -/
theorem Gauged.bounds (h : Gauged bytes count b g) :
    g.consumed ≤ bytes - 1 ∧ g.consumed + g.stored ≤ bytes * count ∧
      (g.stored = 0 → g.consumed = 0) := by
  have hends := h.inv.sizeEq
  have hflat := tail_le_flat h.inv.toShape
  rw [Blocks.length_flatten h.inv.uniform] at hflat
  have hlimit : b.blocks.length * b.blockSize ≤ b.maxBlocks * b.blockSize :=
    Nat.mul_le_mul_right _ h.inv.limit
  rw [h.blockSize, h.maxBlocks, Nat.mul_comm count] at hlimit
  rw [h.blockSize] at hflat
  rw [← h.consumed, ← h.stored]
  refine ⟨?_, by omega, ?_⟩
  · by_cases hu : b.used = 0
    · rw [(h.inv.idle hu).1]
      exact Nat.zero_le _
    · have hlt := readOffset_lt h.inv.toShape hu
      rw [h.blockSize] at hlt
      omega
  · intro hzero
    exact (h.inv.idle ((used_of_size h.inv).mpr hzero)).1

end Gauged

theorem gauged_new (maxSize blockSize : Nat) :
    Gauged (blockBytes maxSize blockSize) (blockCount maxSize blockSize)
      (new maxSize blockSize) {} := by
  refine ⟨inv_new maxSize blockSize, rfl, ?_, rfl, rfl⟩
  show (if min blockSize maxSize ≠ 0 then _ else 0) = _
  unfold blockCount blockBytes
  by_cases hzero : min blockSize maxSize = 0
  · rw [if_neg (fun h => h hzero), if_pos hzero]
  · rw [if_pos hzero, if_neg hzero]

/-- **The buffer follows the gauge** through every history. -/
theorem gauge_run {bytes count : Nat} (calls : List Call) :
    ∀ {b : DynamicBuffer} {g : Gauge}, Gauged bytes count b g →
      ∃ b', calls.foldlM DynamicBuffer.call b = some b' ∧
        Gauged bytes count b' (calls.foldl (Gauge.call bytes count) g) := by
  induction calls with
  | nil => exact fun h => ⟨_, rfl, h⟩
  | cons c calls ih =>
      intro b g h
      obtain ⟨b₁, hcall, hgauged⟩ := h.call c
      obtain ⟨b', hrun, hgauged'⟩ := ih hgauged
      refine ⟨b', ?_, hgauged'⟩
      rw [List.foldlM_cons, hcall]
      exact hrun

/-- **The capacity is exact.**  For every limit and block size and after every
history: with `R` bytes consumed from the first block that holds data and `S`
bytes stored, `write` takes as much of its input as the `K` blocks of `B` bytes
hold beyond `R + S`; no more than `K` blocks are allocated, and no smaller or
larger ones; at most `B - 1` bytes of them cannot be used, and none when nothing
is stored. -/
theorem write_accepts_exactly (maxSize blockSize : Nat) (calls : List Call) :
    ∃ b g, calls.foldlM DynamicBuffer.call (new maxSize blockSize) = some b ∧
      g = calls.foldl (Gauge.call (blockBytes maxSize blockSize) (blockCount maxSize blockSize))
        {} ∧
      b.readOffset = g.consumed ∧ b.contents.length = g.stored ∧
      b.blocks.length ≤ blockCount maxSize blockSize ∧
      (∀ block ∈ b.blocks, block.length = blockBytes maxSize blockSize) ∧
      (∀ buffers, ∃ b', b.write buffers = some (b', min buffers.flatten.length
        (blockBytes maxSize blockSize * blockCount maxSize blockSize -
          g.consumed - g.stored))) ∧
      g.consumed ≤ blockBytes maxSize blockSize - 1 ∧
      g.consumed + g.stored ≤ blockBytes maxSize blockSize * blockCount maxSize blockSize ∧
      (b.empty = true → ∀ buffers, ∃ b', b.write buffers = some (b', min buffers.flatten.length
        (blockCount maxSize blockSize * blockBytes maxSize blockSize))) := by
  obtain ⟨b, hrun, hgauged⟩ := gauge_run calls (gauged_new maxSize blockSize)
  obtain ⟨hconsumed, hstored, hfresh⟩ := hgauged.bounds
  have hlimit := hgauged.inv.limit
  have huniform := hgauged.inv.uniform
  rw [hgauged.maxBlocks] at hlimit
  rw [hgauged.blockSize] at huniform
  refine ⟨b, _, hrun, rfl, hgauged.consumed, ?_, hlimit, huniform, ?_, hconsumed, hstored, ?_⟩
  · rw [← hgauged.inv.size_eq, hgauged.stored]
  · intro buffers
    obtain ⟨b', hwrite, -⟩ := hgauged.write buffers
    exact ⟨b', hwrite⟩
  · intro hempty buffers
    obtain ⟨b', hwrite, -⟩ := hgauged.write buffers
    have hzero : b.size = 0 := beq_iff_eq.mp hempty
    rw [hgauged.stored] at hzero
    refine ⟨b', ?_⟩
    rw [hwrite, Gauge.room, hfresh hzero, hzero, Nat.sub_zero, Nat.sub_zero, Nat.mul_comm]

end WsStreaming.Ports.DynamicBuffer
