import WsStreaming.Ports.DynamicBuffer
import WsStreaming.Verified.Run

/-!
# The transmit buffer is a byte queue

The representation invariant of `dynamic_buffer`, and the proof that under it
every operation is the corresponding operation on a plain byte queue.

Laid end to end, the blocks are one flat array.  The occupied part of that
array is the interval from `readOffset` to `tail`; writing extends it at the
end, consuming shortens it at the front, and recycling the front block
rotates the array by one block (`WsStreaming.Verified.Blocks`).

## Main results

* `consume_spec` — `consume` ends and drops bytes from the front.
* `write_spec` — `write` ends, appends a prefix of its input and reports the
  length of that prefix; the prefix is as long as the block limit allows.
* `data_spec` — `data` describes the contents, up to the descriptor limit.
* `queue_refinement` — all of it together, after every history.
-/

namespace WsStreaming.Ports.DynamicBuffer

open WsStreaming.Verified.Blocks
open WsStreaming.Verified.Wire
open WsStreaming.Verified

private theorem drop_min_length (q : Bytes) (n : Nat) :
    q.drop (min n q.length) = q.drop n := by
  rcases Nat.le_total n q.length with hle | hle
  · rw [Nat.min_eq_left hle]
  · rw [Nat.min_eq_right hle, List.drop_length, List.drop_eq_nil_of_le hle]

/-! ## The representation invariant -/

/-- Where the data ends in the flat array. -/
def tail (b : DynamicBuffer) : Nat :=
  (b.used - 1) * b.blockSize + b.writeOffset

/-- The bytes held: the flat array from `readOffset` to `tail`. -/
def contents (b : DynamicBuffer) : Bytes :=
  (b.blocks.flatten.take b.tail).drop b.readOffset

/-- The part of the invariant that also holds inside the loops. -/
structure Shape (b : DynamicBuffer) : Prop where
  uniform : Uniform b.blockSize b.blocks
  limit : b.blocks.length ≤ b.maxBlocks
  positive : b.maxBlocks ≠ 0 → 0 < b.blockSize
  usedLe : b.used ≤ b.blocks.length
  idle : b.used = 0 → b.readOffset = 0 ∧ b.writeOffset = 0
  front : b.used ≠ 0 →
    b.readOffset < if b.used = 1 then b.writeOffset else b.blockSize
  back : b.used ≠ 0 → 0 < b.writeOffset ∧ b.writeOffset ≤ b.blockSize

/-- The representation invariant: the shape, and the byte count. -/
structure Inv (b : DynamicBuffer) : Prop extends Shape b where
  sizeEq : b.size + b.readOffset = b.tail

theorem tail_of_idle {b : DynamicBuffer} (h : Shape b) (hu : b.used = 0) :
    b.tail = 0 := by
  simp [tail, hu, (h.idle hu).2]

/-- With at least one used block, the data ends inside the last of them. -/
theorem tail_bounds {b : DynamicBuffer} (h : Shape b) (hu : b.used ≠ 0) :
    (b.used - 1) * b.blockSize < b.tail ∧ b.tail ≤ b.used * b.blockSize := by
  obtain ⟨hpos, hle⟩ := h.back hu
  have hmul : b.used * b.blockSize = (b.used - 1) * b.blockSize + b.blockSize := by
    obtain ⟨k, hk⟩ := Nat.exists_eq_succ_of_ne_zero hu
    rw [hk, Nat.succ_sub_one, Nat.succ_mul]
  simp only [tail]
  omega

theorem readOffset_le_tail {b : DynamicBuffer} (h : Shape b) :
    b.readOffset ≤ b.tail := by
  by_cases hu : b.used = 0
  · simp [(h.idle hu).1]
  · have hfront := h.front hu
    by_cases h1 : b.used = 1
    · rw [if_pos h1] at hfront
      simp only [tail, h1]
      omega
    · rw [if_neg h1] at hfront
      have hone : 1 * b.blockSize ≤ (b.used - 1) * b.blockSize :=
        Nat.mul_le_mul_right _ (by omega)
      simp only [tail]
      omega

theorem tail_le_flat {b : DynamicBuffer} (h : Shape b) :
    b.tail ≤ b.blocks.flatten.length := by
  rw [length_flatten h.uniform]
  by_cases hu : b.used = 0
  · simp [tail_of_idle h hu]
  · exact Nat.le_trans (tail_bounds h hu).2 (Nat.mul_le_mul_right _ h.usedLe)

theorem length_contents {b : DynamicBuffer} (h : Shape b) :
    b.contents.length = b.tail - b.readOffset := by
  rw [contents, List.length_drop, List.length_take,
    Nat.min_eq_left (tail_le_flat h)]

theorem Inv.size_eq {b : DynamicBuffer} (h : Inv b) :
    b.size = b.contents.length := by
  rw [length_contents h.toShape]
  have := h.sizeEq
  omega

/-- Rebuilding the invariant from the shape and the byte count. -/
theorem Shape.inv {b : DynamicBuffer} (h : Shape b)
    (hsize : b.size = b.contents.length) : Inv b := by
  have hle := readOffset_le_tail h
  rw [length_contents h] at hsize
  exact { toShape := h, sizeEq := by omega }

/-- The constructor establishes the invariant, for every limit and block
size. -/
theorem inv_new (maxSize blockSize : Nat) : Inv (new maxSize blockSize) := by
  refine { uniform := ?_, limit := ?_, positive := ?_, usedLe := ?_, idle := ?_,
           front := ?_, back := ?_, sizeEq := ?_ }
  · intro b hb; simp [new] at hb
  · simp [new]
  · simp only [new]
    split <;> omega
  all_goals simp [new, tail]

@[simp] theorem contents_new (maxSize blockSize : Nat) :
    (new maxSize blockSize).contents = [] := by
  simp [contents, new]

/-! ## Consuming -/

/-- Recycling the exhausted front block rotates the flat array: the data that
followed the block is now at the front. -/
theorem contents_recycle {b : DynamicBuffer} (h : Shape b) (hu : 1 < b.used) :
    (recycleFrontBlock b).contents =
      (b.blocks.flatten.take b.tail).drop b.blockSize := by
  obtain ⟨c, cs, hcs⟩ : ∃ c cs, b.blocks = c :: cs := by
    cases hb : b.blocks with
    | nil => have := h.usedLe; rw [hb] at this; simp at this; omega
    | cons c cs => exact ⟨c, cs, rfl⟩
  have hc : c.length = b.blockSize := h.uniform c (by rw [hcs]; simp)
  have htail : (recycleFrontBlock b).tail = b.tail - b.blockSize := by
    obtain ⟨k, hk⟩ : ∃ k, b.used = k + 2 := ⟨b.used - 2, by omega⟩
    simp only [tail, recycleFrontBlock, hk]
    rw [if_neg (by omega), show k + 2 - 1 - 1 = k by omega,
      show k + 2 - 1 = k + 1 by omega, Nat.succ_mul]
    omega
  have hle := tail_le_flat h
  have hblk : b.blockSize ≤ b.tail := by
    have h1 := (tail_bounds h (by omega)).1
    have h2 : 1 * b.blockSize ≤ (b.used - 1) * b.blockSize :=
      Nat.mul_le_mul_right _ (by omega)
    omega
  have hflat : (recycleFrontBlock b).blocks.flatten =
      b.blocks.flatten.drop b.blockSize ++ c := by
    simp only [recycleFrontBlock, hcs, List.tail_cons, List.head?_cons,
      Option.toList_some]
    rw [flatten_rotate, hc]
  have hro : (recycleFrontBlock b).readOffset = 0 := rfl
  rw [contents, htail, hflat, hro, List.drop_zero,
    List.take_append_of_le_length (by rw [List.length_drop]; omega), ← List.drop_take]

theorem shape_recycle {b : DynamicBuffer} (h : Shape b) (hu : b.used ≠ 0) :
    Shape (recycleFrontBlock b) := by
  obtain ⟨c, cs, hcs⟩ : ∃ c cs, b.blocks = c :: cs := by
    cases hb : b.blocks with
    | nil => have := h.usedLe; rw [hb] at this; simp at this; omega
    | cons c cs => exact ⟨c, cs, rfl⟩
  have hlen : (recycleFrontBlock b).blocks.length = b.blocks.length := by
    simp [recycleFrontBlock, hcs]
  obtain ⟨hpos, hle⟩ := h.back hu
  refine { uniform := ?_, limit := ?_, positive := h.positive, usedLe := ?_,
           idle := ?_, front := ?_, back := ?_ }
  · intro d hd
    apply h.uniform d
    simp only [recycleFrontBlock, hcs, List.tail_cons, List.head?_cons,
      Option.toList_some, List.mem_append, List.mem_singleton] at hd
    rw [hcs]
    rcases hd with hd | rfl
    · exact List.mem_cons_of_mem _ hd
    · simp
  · rw [hlen]; exact h.limit
  · rw [hlen]
    have := h.usedLe
    simp only [recycleFrontBlock]
    omega
  · intro h0
    simp only [recycleFrontBlock] at h0 ⊢
    simp [h0]
  · intro (h0 : b.used - 1 ≠ 0)
    show 0 < if b.used - 1 = 1 then (if b.used - 1 = 0 then 0 else b.writeOffset)
      else b.blockSize
    rw [if_neg h0]
    split
    · exact hpos
    · omega
  · intro h0
    simp only [recycleFrontBlock] at h0 ⊢
    rw [if_neg h0]
    exact ⟨hpos, hle⟩

/-- One iteration of `consume`: at least one byte goes, and the shape stays. -/
theorem consume_step {b : DynamicBuffer} (h : Shape b) {size : Nat}
    (hsize : size + 1 ≤ b.contents.length) :
    let last := if b.used = 1 then b.writeOffset else b.blockSize
    let consumed := min (size + 1) (last - b.readOffset)
    let b' := { b with readOffset := b.readOffset + consumed }
    let b'' := if b'.readOffset = last then recycleFrontBlock b' else b'
    0 < consumed ∧ Shape b'' ∧ b''.contents = b.contents.drop consumed ∧
      b''.size = b.size ∧ b''.blockSize = b.blockSize ∧
      b''.maxBlocks = b.maxBlocks := by
  have hlen := length_contents h
  have hu : b.used ≠ 0 := by
    intro hu
    have := tail_of_idle h hu
    omega
  have hfront := h.front hu
  intro last consumed b' b''
  have hlast : b.readOffset < last := hfront
  have hcons : 0 < consumed := by
    simp only [consumed]
    omega
  have hro : b.readOffset + consumed ≤ last := by
    simp only [consumed]
    omega
  have hshift : (b.blocks.flatten.take b.tail).drop (b.readOffset + consumed) =
      b.contents.drop consumed := by
    rw [contents, List.drop_drop]
  refine ⟨hcons, ?_⟩
  by_cases hend : b.readOffset + consumed = last
  · have hb'' : b'' = recycleFrontBlock b' := if_pos hend
    rw [hb'']
    by_cases h1 : b.used = 1
    · -- The last block: everything is gone, and both offsets are cleared.
      have htail : b.tail = last := by simp [tail, h1, last]
      refine ⟨?_, ?_, rfl, rfl, rfl⟩
      · refine { uniform := ?_, limit := ?_, positive := h.positive, usedLe := ?_,
                 idle := ?_, front := ?_, back := ?_ }
        · exact (shape_recycle h hu).uniform
        · exact (shape_recycle h hu).limit
        · exact (shape_recycle h hu).usedLe
        all_goals simp [recycleFrontBlock, b', h1]
      · rw [← hshift, hend, ← htail]
        have hnil : (recycleFrontBlock b').contents = [] := by
          simp [contents, tail, recycleFrontBlock, b', h1]
        rw [hnil, List.drop_eq_nil_of_le (List.length_take_le _ _)]
    · have hblk : last = b.blockSize := if_neg h1
      refine ⟨?_, ?_, rfl, rfl, rfl⟩
      · have hs := shape_recycle h hu
        exact ⟨hs.uniform, hs.limit, hs.positive, hs.usedLe, hs.idle, hs.front, hs.back⟩
      · have hrot := contents_recycle h (by omega)
        have hsame : (recycleFrontBlock b').contents = (recycleFrontBlock b).contents :=
          rfl
        rw [hsame, hrot, ← hshift, hend, hblk]
  · have hb'' : b'' = b' := if_neg hend
    rw [hb'']
    refine ⟨?_, hshift, rfl, rfl, rfl⟩
    refine { uniform := h.uniform, limit := h.limit, positive := h.positive,
             usedLe := h.usedLe, idle := fun h0 => absurd h0 hu, front := ?_,
             back := h.back }
    intro _
    show b.readOffset + consumed < last
    omega

theorem consumeLoop_spec (fuel : Nat) :
    ∀ (b : DynamicBuffer) (size : Nat), Shape b → size ≤ b.contents.length →
      size ≤ fuel → ∃ b', consumeLoop fuel b size = some b' ∧ Shape b' ∧
        b'.contents = b.contents.drop size ∧ b'.size = b.size ∧
        b'.blockSize = b.blockSize ∧ b'.maxBlocks = b.maxBlocks := by
  induction fuel with
  | zero =>
      intro b size h _ hf
      obtain rfl : size = 0 := by omega
      exact ⟨b, by simp [consumeLoop], h, by simp, rfl, rfl, rfl⟩
  | succ fuel ih =>
      intro b size h hsize hf
      cases size with
      | zero => exact ⟨b, by simp [consumeLoop], h, by simp, rfl, rfl, rfl⟩
      | succ size =>
          obtain ⟨hpos, hshape, hcont, hsz, hbs, hmb⟩ := consume_step h hsize
          obtain ⟨b', hb', hs', hc', hz', hbs', hmb'⟩ := ih _
            (size + 1 - min (size + 1)
              ((if b.used = 1 then b.writeOffset else b.blockSize) - b.readOffset))
            hshape (by rw [hcont, List.length_drop]; omega) (by omega)
          refine ⟨b', by rw [consumeLoop]; exact hb', hs', ?_, ?_, ?_, ?_⟩
          · rw [hc', hcont, List.drop_drop]
            congr 1
            omega
          · rw [hz', hsz]
          · rw [hbs', hbs]
          · rw [hmb', hmb]

/-- **`consume` ends and drops bytes from the front of the queue.** -/
theorem consume_spec {b : DynamicBuffer} (h : Inv b) (n : Nat) :
    ∃ b', consume b n = some b' ∧ Inv b' ∧ b'.contents = b.contents.drop n ∧
      b'.blockSize = b.blockSize ∧ b'.maxBlocks = b.maxBlocks := by
  have hsize := h.size_eq
  have hshape : Shape { b with size := b.size - min n b.size } :=
    ⟨h.uniform, h.limit, h.positive, h.usedLe, h.idle, h.front, h.back⟩
  obtain ⟨b', hb', hs', hc', hz', hbs', hmb'⟩ :=
    consumeLoop_spec (min n b.size) _ (min n b.size) hshape
      (by show _ ≤ b.contents.length; omega) (Nat.le_refl _)
  have hcont : b'.contents = b.contents.drop (min n b.size) := hc'
  refine ⟨b', hb', hs'.inv ?_, ?_, hbs', hmb'⟩
  · rw [hz', hcont, List.length_drop]
    show b.size - min n b.size = _
    omega
  · rw [hcont, hsize, drop_min_length]

/-! ## Writing -/

/-- Descriptors that are adjacent in the flat array from `pos` on, each
inside its block. -/
def Adjacent (B : Nat) : Nat → List Span → Prop
  | _, [] => True
  | pos, s :: spans =>
      s.block * B + s.offset = pos ∧ s.offset + s.length ≤ B ∧
        Adjacent B (pos + s.length) spans

/-- The number of bytes a descriptor sequence describes. -/
def spanLength (spans : List Span) : Nat := (spans.map Span.length).sum

@[simp] theorem spanLength_nil : spanLength [] = 0 := rfl

@[simp] theorem spanLength_cons (s : Span) (spans : List Span) :
    spanLength (s :: spans) = s.length + spanLength spans := rfl

/-- Adjacent descriptors into `n` blocks end inside these. -/
theorem Adjacent.end_le {B n : Nat} {spans : List Span} {pos : Nat}
    (hadj : Adjacent B pos spans) (hin : ∀ s ∈ spans, s.block < n)
    (hpos : pos ≤ n * B) : pos + spanLength spans ≤ n * B := by
  induction spans generalizing pos with
  | nil => simpa using hpos
  | cons s spans ih =>
      obtain ⟨hat, hfit, hrest⟩ := hadj
      have hmul : s.block * B + B ≤ n * B := by
        rw [← Nat.succ_mul]; exact Nat.mul_le_mul_right _ (hin s (by simp))
      have := ih hrest (fun t ht => hin t (by simp [ht])) (by omega)
      rw [spanLength_cons]
      omega

/-- Copying into adjacent descriptors is one store in the flat array. -/
theorem bufferCopy_spec {B : Nat} (spans : List Span) :
    ∀ (blocks : List Bytes) (pos : Nat) (src : Bytes), Uniform B blocks →
      Adjacent B pos spans → (∀ s ∈ spans, s.block < blocks.length) →
      spanLength spans ≤ src.length → pos ≤ blocks.flatten.length →
      (bufferCopy blocks spans src).1.flatten =
          overwrite blocks.flatten pos (src.take (spanLength spans)) ∧
        (bufferCopy blocks spans src).2 = spanLength spans ∧
        (bufferCopy blocks spans src).1.length = blocks.length ∧
        Uniform B (bufferCopy blocks spans src).1 := by
  induction spans with
  | nil =>
      intro blocks pos src hB _ _ _ _
      exact ⟨by simp [bufferCopy], rfl, rfl, hB⟩
  | cons s spans ih =>
      intro blocks pos src hB hadj hblk hlen hpos
      obtain ⟨hat, hfit, hrest⟩ := hadj
      rw [spanLength_cons] at hlen
      have hchunk : (src.take s.length).length = s.length := by
        rw [List.length_take]; omega
      have hs : s.block < blocks.length := hblk s (by simp)
      have hflat : (storeAt blocks s.block s.offset (src.take s.length)).flatten =
          overwrite blocks.flatten pos (src.take s.length) := by
        rw [flatten_storeAt hB hs (by omega), hat]
      have hend : pos + s.length ≤ blocks.flatten.length := by
        have hmul : s.block * B + B ≤ blocks.length * B := by
          rw [← Nat.succ_mul]; exact Nat.mul_le_mul_right _ hs
        rw [length_flatten hB]
        omega
      obtain ⟨hcopy, hcount, hlen', hB'⟩ := ih
        (storeAt blocks s.block s.offset (src.take s.length)) (pos + s.length)
        (src.drop s.length) (hB.storeAt (by omega)) hrest
        (by intro t ht; rw [length_storeAt]; exact hblk t (by simp [ht]))
        (by rw [List.length_drop]; omega)
        (by rw [hflat, length_overwrite (by omega)]; exact hend)
      refine ⟨?_, ?_, by simp only [bufferCopy]; rw [hlen', length_storeAt],
        by simp only [bufferCopy]; exact hB'⟩
      · have hsplit : src.take (spanLength (s :: spans)) =
            src.take s.length ++ (src.drop s.length).take (spanLength spans) := by
          rw [spanLength_cons, List.take_add]
        simp only [bufferCopy]
        rw [hcopy, hflat, hsplit]
        have happ : overwrite (overwrite blocks.flatten pos (src.take s.length))
            (pos + (src.take s.length).length)
            ((src.drop s.length).take (spanLength spans)) =
          overwrite blocks.flatten pos
            (src.take s.length ++ (src.drop s.length).take (spanLength spans)) :=
          overwrite_append hpos
        rw [hchunk] at happ
        exact happ
      · simp only [bufferCopy]
        rw [hcount, hchunk, spanLength_cons]

/-- What `prepare` hands out from block `i` on: descriptors adjacent in the
flat array, as many bytes as asked for or as the block limit leaves, and
freshly allocated blocks behind the existing ones. -/
structure Prepared (b : DynamicBuffer) (pos size room : Nat)
    (b' : DynamicBuffer) (spans : List Span) : Prop where
  blocks : ∃ k, b' =
    { b with blocks := b.blocks ++ List.replicate k (List.replicate b.blockSize 0) }
  limit : b'.blocks.length ≤ b.maxBlocks
  adjacent : Adjacent b.blockSize pos spans
  inside : ∀ s ∈ spans, s.block < b'.blocks.length
  count : spanLength spans = min size room

theorem Prepared.nil {b : DynamicBuffer} {pos size room : Nat}
    (hlimit : b.blocks.length ≤ b.maxBlocks) (hcount : min size room = 0) :
    Prepared b pos size room b [] :=
  { blocks := ⟨0, by simp⟩, limit := hlimit, adjacent := trivial
    inside := by simp, count := by simp [hcount] }

/-- Blocks allocated before the loop went on count as allocated by it. -/
theorem Prepared.of_append {b b' : DynamicBuffer} {pos size room : Nat}
    {spans : List Span} (h : Prepared
      { b with blocks := b.blocks ++ [List.replicate b.blockSize 0] }
      pos size room b' spans) : Prepared b pos size room b' spans := by
  obtain ⟨k, hk⟩ := h.blocks
  refine { blocks := ⟨k + 1, ?_⟩, limit := h.limit, adjacent := h.adjacent,
           inside := h.inside, count := h.count }
  rw [hk, List.replicate_succ]
  simp

/-- One iteration of the allocation loop, at a block that exists: the loop goes
on behind it, or the request is served. -/
private theorem prepareLoop_next {fuel : Nat} {b : DynamicBuffer} {i size : Nat}
    (scatter : List Span)
    (ih : ∀ (size : Nat) (scatter : List Span), size < fuel →
      ∃ b' spans, prepareLoop fuel b (i + 1) size scatter =
          some (b', scatter ++ spans) ∧
        Prepared b ((i + 1) * b.blockSize) size
          ((b.maxBlocks - (i + 1)) * b.blockSize) b' spans)
    (hB : 0 < b.blockSize) (hi : i < b.blocks.length)
    (hlimit : b.blocks.length ≤ b.maxBlocks) (hf : size < fuel) :
    ∃ b' spans, prepareLoop fuel b (i + 1) (size + 1 - min (size + 1) b.blockSize)
          (scatter ++ [⟨i, 0, min (size + 1) b.blockSize⟩]) =
        some (b', scatter ++ spans) ∧
      Prepared b (i * b.blockSize) (size + 1) ((b.maxBlocks - i) * b.blockSize)
        b' spans := by
  have hroom : (b.maxBlocks - i) * b.blockSize =
      b.blockSize + (b.maxBlocks - (i + 1)) * b.blockSize := by
    rw [show b.maxBlocks - i = (b.maxBlocks - (i + 1)) + 1 by omega, Nat.succ_mul]
    omega
  have hnext : (i + 1) * b.blockSize = i * b.blockSize + b.blockSize :=
    Nat.succ_mul _ _
  by_cases hlast : size + 1 ≤ b.blockSize
  · -- The request ends in this block.
    rw [Nat.min_eq_left hlast, Nat.sub_self]
    refine ⟨b, [⟨i, 0, size + 1⟩], by cases fuel <;> simp [prepareLoop], ?_⟩
    refine { blocks := ⟨0, by simp⟩, limit := hlimit, adjacent := ?_, inside := ?_,
             count := ?_ }
    · exact ⟨rfl, by simpa using hlast, trivial⟩
    · intro s hs
      rw [List.mem_singleton] at hs
      rw [hs]
      exact hi
    · simp only [spanLength_cons, spanLength_nil]
      omega
  · rw [Nat.min_eq_right (by omega)]
    obtain ⟨b', spans, hrun, hprep⟩ := ih (size + 1 - b.blockSize)
      (scatter ++ [⟨i, 0, b.blockSize⟩]) (by omega)
    refine ⟨b', ⟨i, 0, b.blockSize⟩ :: spans, by simpa using hrun, ?_⟩
    refine { blocks := hprep.blocks, limit := hprep.limit, adjacent := ?_,
             inside := ?_, count := ?_ }
    · refine ⟨rfl, by simp, ?_⟩
      rw [← hnext]
      exact hprep.adjacent
    · intro s hs
      rcases List.mem_cons.mp hs with rfl | hs
      · obtain ⟨k, hk⟩ := hprep.blocks
        rw [hk]
        simp
        omega
      · exact hprep.inside s hs
    · have := hprep.count
      rw [spanLength_cons]
      show b.blockSize + spanLength spans = _
      omega

theorem prepareLoop_spec (fuel : Nat) :
    ∀ (b : DynamicBuffer) (i size : Nat) (scatter : List Span),
      (b.maxBlocks ≠ 0 → 0 < b.blockSize) → i ≤ b.blocks.length →
      b.blocks.length ≤ b.maxBlocks → size < fuel →
      ∃ b' spans, prepareLoop fuel b i size scatter = some (b', scatter ++ spans) ∧
        Prepared b (i * b.blockSize) size ((b.maxBlocks - i) * b.blockSize)
          b' spans := by
  induction fuel with
  | zero => intro b i size scatter _ _ _ hf; omega
  | succ fuel ih =>
      intro b i size scatter hpos hi hlimit hf
      cases size with
      | zero =>
          exact ⟨b, [], by simp [prepareLoop], Prepared.nil hlimit (by simp)⟩
      | succ size =>
          by_cases hnew : i = b.blocks.length
          · by_cases hfull : b.blocks.length = b.maxBlocks
            · refine ⟨b, [], ?_, Prepared.nil hlimit ?_⟩
              · rw [prepareLoop, if_pos hnew, if_pos hfull, List.append_nil]
              · rw [show b.maxBlocks - i = 0 by omega]
                simp
            · obtain ⟨b', spans, hrun, hprep⟩ := prepareLoop_next
                (b := { b with blocks := b.blocks ++ [List.replicate b.blockSize 0] })
                scatter
                (fun size scatter h => ih _ (i + 1) size scatter hpos
                  (by simp; omega) (by simp; omega) h)
                (hpos (by omega)) (by simp; omega) (by simp; omega)
                (Nat.lt_of_succ_lt_succ hf)
              refine ⟨b', spans, ?_, hprep.of_append⟩
              rw [prepareLoop, if_pos hnew, if_neg hfull]
              exact hrun
          · obtain ⟨b', spans, hrun, hprep⟩ := prepareLoop_next scatter
              (fun size scatter h => ih b (i + 1) size scatter hpos
                (by omega) hlimit h)
              (hpos (by omega)) (by omega) hlimit (Nat.lt_of_succ_lt_succ hf)
            refine ⟨b', spans, ?_, hprep⟩
            rw [prepareLoop, if_neg hnew]
            exact hrun

theorem tail_eq_of_not_partial {b : DynamicBuffer} (h : Shape b)
    (hfull : ¬ (b.used ≠ 0 ∧ b.writeOffset < b.blockSize)) :
    b.tail = b.used * b.blockSize := by
  by_cases hu : b.used = 0
  · simp [tail_of_idle h hu, hu]
  · have hback := h.back hu
    have hwo : b.writeOffset = b.blockSize := by omega
    obtain ⟨k, hk⟩ := Nat.exists_eq_succ_of_ne_zero hu
    rw [tail, hwo, hk, Nat.succ_sub_one, Nat.succ_mul]

theorem tail_eq_of_partial {b : DynamicBuffer} (h : Shape b) (hu : b.used ≠ 0) :
    b.tail + (b.blockSize - b.writeOffset) = b.used * b.blockSize := by
  have hback := h.back hu
  obtain ⟨k, hk⟩ := Nat.exists_eq_succ_of_ne_zero hu
  rw [tail, hk, Nat.succ_sub_one, Nat.succ_mul]
  omega

/-- `prepare` hands out the flat array from `tail` on. -/
theorem prepare_spec {b : DynamicBuffer} (h : Shape b) (size : Nat) :
    ∃ b' spans, prepare b size = some (b', spans) ∧
      Prepared b b.tail size (b.maxBlocks * b.blockSize - b.tail) b' spans := by
  have hroom : (b.maxBlocks - b.used) * b.blockSize =
      b.maxBlocks * b.blockSize - b.used * b.blockSize := Nat.sub_mul _ _ _
  by_cases htail : b.used ≠ 0 ∧ b.writeOffset < b.blockSize
  · have hpart := tail_eq_of_partial h htail.1
    have hcap : b.used * b.blockSize ≤ b.maxBlocks * b.blockSize :=
      Nat.mul_le_mul_right _ (Nat.le_trans h.usedLe h.limit)
    have hat : (b.used - 1) * b.blockSize + b.writeOffset = b.tail := rfl
    have hused := h.usedLe
    by_cases h0 : size = 0
    · refine ⟨b, [], ?_, Prepared.nil h.limit (by simp [h0])⟩
      simp [prepare, h0, prepareLoop]
    by_cases hlast : size ≤ b.blockSize - b.writeOffset
    · -- The tail of the last occupied block is enough.
      refine ⟨b, [⟨b.used - 1, b.writeOffset, size⟩], ?_, ?_⟩
      · rw [prepare, if_pos ⟨h0, htail⟩, Nat.min_eq_left hlast]
        simp [prepareLoop]
      · refine { blocks := ⟨0, by simp⟩, limit := h.limit, adjacent := ?_,
                 inside := ?_, count := ?_ }
        · exact ⟨hat, by show b.writeOffset + size ≤ _; omega, trivial⟩
        · intro s hs
          rw [List.mem_singleton] at hs
          rw [hs]
          show b.used - 1 < _
          omega
        · simp only [spanLength_cons, spanLength_nil]
          omega
    · obtain ⟨b', spans, hrun, hprep⟩ := prepareLoop_spec (size + 1) b b.used
        (size - (b.blockSize - b.writeOffset))
        [⟨b.used - 1, b.writeOffset, b.blockSize - b.writeOffset⟩]
        h.positive h.usedLe h.limit (by omega)
      refine ⟨b', ⟨b.used - 1, b.writeOffset, b.blockSize - b.writeOffset⟩ :: spans,
        ?_, ?_⟩
      · rw [prepare, if_pos ⟨h0, htail⟩, Nat.min_eq_right (by omega)]
        exact hrun
      · refine { blocks := hprep.blocks, limit := hprep.limit, adjacent := ?_,
                 inside := ?_, count := ?_ }
        · refine ⟨hat, by show b.writeOffset + (b.blockSize - b.writeOffset) ≤ _; omega, ?_⟩
          show Adjacent _ (b.tail + (b.blockSize - b.writeOffset)) spans
          rw [hpart]
          exact hprep.adjacent
        · intro s hs
          rcases List.mem_cons.mp hs with rfl | hs
          · obtain ⟨k, hk⟩ := hprep.blocks
            rw [hk]
            simp
            omega
          · exact hprep.inside s hs
        · have := hprep.count
          rw [spanLength_cons]
          show b.blockSize - b.writeOffset + spanLength spans = _
          omega
  · obtain ⟨b', spans, hrun, hprep⟩ := prepareLoop_spec (size + 1) b b.used size []
      h.positive h.usedLe h.limit (by omega)
    have heq := tail_eq_of_not_partial h htail
    refine ⟨b', spans, ?_, ?_⟩
    · rw [prepare, if_neg (fun hc => htail hc.2)]
      exact hrun
    · rw [heq, ← hroom]
      exact hprep

/-- The loop of `commit`, from a block boundary on. -/
theorem commitLoop_spec (fuel : Nat) :
    ∀ (b : DynamicBuffer) (size : Nat), 0 < b.blockSize → size + 1 ≤ fuel →
      ∃ used writeOffset, commitLoop fuel b (size + 1) =
          some { b with used := used, writeOffset := writeOffset } ∧
        b.used < used ∧ 0 < writeOffset ∧ writeOffset ≤ b.blockSize ∧
        (used - 1) * b.blockSize + writeOffset = b.used * b.blockSize + (size + 1) := by
  induction fuel with
  | zero => intro b size _ hf; omega
  | succ fuel ih =>
      intro b size hB hf
      by_cases hlast : size + 1 ≤ b.blockSize
      · refine ⟨b.used + 1, size + 1, ?_, by omega, by omega, hlast, ?_⟩
        · rw [commitLoop, Nat.min_eq_left hlast, Nat.sub_self]
          cases fuel <;> simp [commitLoop]
        · rw [Nat.add_sub_cancel]
      · obtain ⟨rest, hrest⟩ : ∃ rest, size + 1 - b.blockSize = rest + 1 :=
          ⟨size - b.blockSize, by omega⟩
        obtain ⟨used, wo, hrun, hlt, hpos, hle, heq⟩ := ih
          { b with used := b.used + 1, writeOffset := b.blockSize } rest hB (by omega)
        refine ⟨used, wo, ?_, by simp at hlt; omega, hpos, hle, ?_⟩
        · rw [commitLoop, Nat.min_eq_right (by omega), hrest]
          exact hrun
        · simp only [Nat.succ_mul] at heq
          omega

/-- `commit` ends with the data `n` bytes longer. -/
theorem commit_spec {b : DynamicBuffer} (h : Inv b) {n : Nat}
    (hn : b.tail + n ≤ b.blocks.length * b.blockSize) :
    ∃ b', commit b n = some b' ∧ Inv b' ∧ b'.blocks = b.blocks ∧
      b'.tail = b.tail + n ∧ b'.readOffset = b.readOffset ∧
      b'.blockSize = b.blockSize ∧ b'.maxBlocks = b.maxBlocks := by
  have hsize := h.sizeEq
  -- Whatever the loops did, these facts about the new end are enough.
  have hbuild : ∀ used wo, b.used ≤ used → used ≠ 0 →
      (b.used = used → b.writeOffset ≤ wo) → 0 < wo → wo ≤ b.blockSize →
      (used - 1) * b.blockSize + wo = b.tail + n →
      Inv { b with size := b.size + n, used := used, writeOffset := wo } := by
    intro used wo hle hne hgrow hpos hwo heq
    refine { uniform := h.uniform, limit := h.limit, positive := h.positive,
             usedLe := ?_, idle := fun h0 => absurd h0 hne, front := ?_,
             back := fun _ => ⟨hpos, hwo⟩, sizeEq := ?_ }
    · have hlt : (used - 1) * b.blockSize < b.blocks.length * b.blockSize := by omega
      have := Nat.lt_of_mul_lt_mul_right hlt
      show used ≤ b.blocks.length
      omega
    · intro _
      show b.readOffset < if used = 1 then wo else b.blockSize
      by_cases h0 : b.used = 0
      · rw [(h.idle h0).1]
        split <;> omega
      · have hfront := h.front h0
        by_cases h1 : b.used = 1
        · rw [if_pos h1] at hfront
          have hback := h.back h0
          split
          · have := hgrow (by omega)
            omega
          · omega
        · rw [if_neg h1] at hfront
          rw [if_neg (by omega)]
          exact hfront
    · show b.size + n + b.readOffset = (used - 1) * b.blockSize + wo
      omega
  by_cases hn0 : n = 0
  · subst hn0
    refine ⟨b, ?_, h, rfl, rfl, rfl, rfl, rfl⟩
    simp only [commit, Nat.add_zero, Nat.zero_min, Nat.sub_self]
    split <;> simp [commitLoop]
  · have hB : 0 < b.blockSize := by
      rcases Nat.eq_zero_or_pos b.blockSize with h0 | h0
      · rw [h0] at hn; omega
      · exact h0
    by_cases hpart : b.used ≠ 0 ∧ b.writeOffset < b.blockSize
    · have htail := tail_eq_of_partial h.toShape hpart.1
      have hback := h.back hpart.1
      by_cases hlast : n ≤ b.blockSize - b.writeOffset
      · refine ⟨_, ?_, hbuild b.used (b.writeOffset + n) (Nat.le_refl _) hpart.1
          (fun _ => by omega) (by omega) (by omega) ?_, rfl, ?_, rfl, rfl, rfl⟩
        · simp only [commit]
          rw [if_pos hpart, Nat.min_eq_left hlast, Nat.sub_self]
          cases n <;> simp [commitLoop]
        · simp only [tail]; omega
        · simp only [tail]; omega
      · obtain ⟨rest, hrest⟩ : ∃ rest, n - (b.blockSize - b.writeOffset) = rest + 1 :=
          ⟨n - (b.blockSize - b.writeOffset) - 1, by omega⟩
        obtain ⟨used, wo, hrun, hlt, hpos, hle, heq⟩ := commitLoop_spec n
          { b with size := b.size + n,
                   writeOffset := b.writeOffset + (b.blockSize - b.writeOffset) }
          rest hB (by omega)
        simp only at hlt hle heq
        refine ⟨_, ?_, hbuild used wo (by omega) (by omega) (fun h' => by omega) hpos
          hle (by omega), rfl, by simp only [tail] at *; omega, rfl, rfl, rfl⟩
        simp only [commit]
        rw [if_pos hpart, Nat.min_eq_right (by omega), hrest]
        exact hrun
    · have htail := tail_eq_of_not_partial h.toShape hpart
      obtain ⟨rest, hrest⟩ := Nat.exists_eq_succ_of_ne_zero hn0
      obtain ⟨used, wo, hrun, hlt, hpos, hle, heq⟩ := commitLoop_spec n
        { b with size := b.size + n } rest hB (by omega)
      simp only at hlt hle heq
      refine ⟨_, ?_, hbuild used wo (by omega) (by omega) (fun h' => by omega) hpos
        hle (by omega), rfl, by simp only [tail] at *; omega, rfl, rfl, rfl⟩
      simp only [commit]
      rw [if_neg hpart]
      rw [hrest] at hrun ⊢
      exact hrun

/-- Allocating blocks changes neither the contents nor the invariant. -/
theorem Prepared.inv {b b' : DynamicBuffer} {pos size room : Nat}
    {spans : List Span} (hp : Prepared b pos size room b' spans) (h : Inv b) :
    Inv b' := by
  obtain ⟨k, hk⟩ := hp.blocks
  have hlimit := hp.limit
  rw [hk] at hlimit ⊢
  refine { uniform := ?_, limit := hlimit, positive := h.positive, usedLe := ?_,
           idle := h.idle, front := h.front, back := h.back, sizeEq := h.sizeEq }
  · refine h.uniform.append ?_
    intro c hc
    rw [List.eq_of_mem_replicate hc, List.length_replicate]
  · have := h.usedLe
    simp
    omega

/-- **`write` ends and appends exactly the reported prefix of its input.**  The
prefix is as long as the block limit allows, and no cell that held data before
is touched. -/
theorem write_spec {b : DynamicBuffer} (h : Inv b) (buffers : List Bytes) :
    ∃ b' n, write b buffers = some (b', n) ∧ Inv b' ∧
      n = min buffers.flatten.length (b.maxBlocks * b.blockSize - b.tail) ∧
      b'.contents = b.contents ++ buffers.flatten.take n ∧
      b'.blocks.flatten.take b.tail = b.blocks.flatten.take b.tail ∧
      b'.blockSize = b.blockSize ∧ b'.maxBlocks = b.maxBlocks := by
  obtain ⟨p, spans, hrun, hprep⟩ := prepare_spec h.toShape buffers.flatten.length
  have hinv := hprep.inv h
  obtain ⟨k, hk⟩ := hprep.blocks
  have hcount := hprep.count
  have hB : p.blockSize = b.blockSize := by rw [hk]
  have hmax : p.maxBlocks = b.maxBlocks := by rw [hk]
  have htail : p.tail = b.tail := by rw [hk]; rfl
  have hro : p.readOffset = b.readOffset := by rw [hk]
  have hadj : Adjacent p.blockSize p.tail spans := by
    rw [hB, htail]; exact hprep.adjacent
  have htle := tail_le_flat hinv.toShape
  obtain ⟨hflat, hcopied, hlen, huni⟩ := bufferCopy_spec spans p.blocks p.tail
    buffers.flatten hinv.uniform hadj hprep.inside (by omega) htle
  set c := bufferCopy p.blocks spans buffers.flatten with hc
  have hfit : p.tail + spanLength spans ≤ p.blocks.length * p.blockSize :=
    hadj.end_le hprep.inside (by rw [← length_flatten hinv.uniform]; exact htle)
  have hinvc : Inv { p with blocks := c.1 } :=
    { uniform := huni, limit := by rw [hlen]; exact hinv.limit
      positive := hinv.positive, usedLe := by rw [hlen]; exact hinv.usedLe
      idle := hinv.idle, front := hinv.front, back := hinv.back
      sizeEq := hinv.sizeEq }
  obtain ⟨b', hcommit, hinv', hblocks', htail', hro', hB', hmax'⟩ :=
    commit_spec hinvc (n := c.2) (by
      show p.tail + c.2 ≤ c.1.length * p.blockSize
      rw [hlen, hcopied]; exact hfit)
  have hold : p.blocks.flatten.take p.tail = b.blocks.flatten.take b.tail := by
    rw [htail, hk]
    simp only [List.flatten_append]
    rw [List.take_append_of_le_length (tail_le_flat h.toShape)]
  refine ⟨b', c.2, ?_, hinv', by rw [hcopied, hcount], ?_, ?_, hB'.trans hB,
    hmax'.trans hmax⟩
  · simp only [write, hrun, Option.bind_eq_bind, Option.bind_some, ← hc, hcommit]
    rfl
  · have hcont : p.contents = b.contents := by
      rw [contents, contents, hold, hro]
    have htaken : (buffers.flatten.take (spanLength spans)).length = spanLength spans := by
      rw [List.length_take]; omega
    have hend : (overwrite p.blocks.flatten p.tail
        (buffers.flatten.take (spanLength spans))).take (p.tail + spanLength spans) =
        p.blocks.flatten.take p.tail ++ buffers.flatten.take (spanLength spans) := by
      have hcut : (overwrite p.blocks.flatten p.tail
          (buffers.flatten.take (spanLength spans))).take
            (p.tail + (buffers.flatten.take (spanLength spans)).length) =
          p.blocks.flatten.take p.tail ++ buffers.flatten.take (spanLength spans) :=
        take_overwrite_end _ htle
      rwa [htaken] at hcut
    have hle := readOffset_le_tail hinv.toShape
    rw [contents, hblocks', htail', hro']
    show (c.1.flatten.take (p.tail + c.2)).drop p.readOffset = _
    rw [hflat, hcopied, hend, ← hcont, contents,
      List.drop_append_of_le_length (by rw [List.length_take]; omega)]
  · rw [hblocks', ← hold, ← htail]
    show c.1.flatten.take p.tail = _
    rw [hflat, take_overwrite_of_le (Nat.le_refl _) htle]

/-! ## Describing the data -/

/-- Where the data of block `i` starts in the flat array. -/
private def start (b : DynamicBuffer) (i : Nat) : Nat :=
  if i = 0 then b.readOffset else i * b.blockSize

private theorem start_lt {b : DynamicBuffer} (h : Shape b) (hu : b.used ≠ 0)
    {i : Nat} (hi : i ≠ 0) : b.start 0 < b.start i := by
  have hfront := h.front hu
  have hback := h.back hu
  have hone : 1 * b.blockSize ≤ i * b.blockSize :=
    Nat.mul_le_mul_right _ (Nat.pos_of_ne_zero hi)
  have hB : b.readOffset < b.blockSize := by
    split at hfront <;> omega
  simp only [start, if_neg hi, if_true]
  omega

/-- The descriptor of block `i` covers the data from its start to the start of
the next block. -/
private theorem describe_block {b : DynamicBuffer} (h : Shape b) {i : Nat}
    (hi : i < b.used) :
    let first := if i ≠ 0 then 0 else b.readOffset
    let last := if i = b.used - 1 then b.writeOffset else b.blockSize
    first < last ∧
      Span.bytes b.blocks ⟨i, first, last - first⟩ ++
          (b.blocks.flatten.take b.tail).drop (b.start (i + 1)) =
        (b.blocks.flatten.take b.tail).drop (b.start i) := by
  intro first last
  have hu : b.used ≠ 0 := by omega
  have hfront := h.front hu
  have hback := h.back hu
  have hbounds := tail_bounds h hu
  have hlen := tail_le_flat h
  have hblk : i < b.blocks.length := Nat.lt_of_lt_of_le hi h.usedLe
  have hlast : last ≤ b.blockSize := by
    simp only [last]
    split <;> omega
  have hfirst : first < last := by
    simp only [first, last]
    by_cases h0 : i = 0
    · subst h0
      by_cases h1 : b.used = 1
      · rw [if_pos h1] at hfront
        simpa [h1] using hfront
      · rw [if_neg h1] at hfront
        rw [if_neg (by omega), if_neg (by omega)]
        exact hfront
    · rw [if_pos h0]
      split <;> omega
  have hstart : b.start i = i * b.blockSize + first := by
    simp only [start, first]
    by_cases h0 : i = 0 <;> simp [h0]
  -- Block `i` ends where block `i + 1` starts, or where the data ends.
  have hnext : (i + 1) * b.blockSize = i * b.blockSize + b.blockSize :=
    Nat.succ_mul _ _
  have hends : i * b.blockSize + last = min (b.start (i + 1)) b.tail := by
    simp only [start, last, if_neg (Nat.succ_ne_zero i)]
    by_cases hl : i = b.used - 1
    · rw [if_pos hl, hl]
      have : b.tail = (b.used - 1) * b.blockSize + b.writeOffset := rfl
      rw [show b.used - 1 + 1 = b.used by omega]
      omega
    · have hmul : (i + 1) * b.blockSize ≤ (b.used - 1) * b.blockSize :=
        Nat.mul_le_mul_right _ (by omega)
      rw [if_neg hl]
      omega
  refine ⟨hfirst, ?_⟩
  have hbytes : Span.bytes b.blocks ⟨i, first, last - first⟩ =
      ((b.blocks.flatten.take b.tail).drop (b.start i)).take (last - first) := by
    have hget : b.blocks.getD i [] = b.blocks[i] := by simp [hblk]
    simp only [Span.bytes]
    rw [hget, slice_flatten h.uniform hblk (by omega),
      hstart, List.drop_take, List.take_take, Nat.min_eq_left (by omega)]
  rw [hbytes]
  have hrest : (b.blocks.flatten.take b.tail).drop (b.start (i + 1)) =
      ((b.blocks.flatten.take b.tail).drop (b.start i)).drop (last - first) := by
    rw [List.drop_drop]
    rcases Nat.le_total (b.start (i + 1)) b.tail with hle | hle
    · congr 1
      omega
    · rw [List.drop_eq_nil_of_le, List.drop_eq_nil_of_le] <;>
        rw [List.length_take] <;> omega
  rw [hrest, List.take_append_drop]

private theorem dataLoop_spec {b : DynamicBuffer} (h : Shape b) (n : Nat) :
    ∀ (i : Nat) (gather : List Span), i + n = b.used →
      ∃ m, m ≤ n ∧ (n + gather.length ≤ maxBuffers → m = n) ∧
        (0 < n → gather.length < maxBuffers → 0 < m) ∧
        describe b.blocks (dataLoop b n i gather) ++
            (b.blocks.flatten.take b.tail).drop (b.start (i + m)) =
          describe b.blocks gather ++
            (b.blocks.flatten.take b.tail).drop (b.start i) := by
  induction n with
  | zero => intro i gather _; exact ⟨0, by simp, by simp, by simp, by simp [dataLoop]⟩
  | succ n ih =>
      intro i gather hi
      by_cases hroom : gather.length < maxBuffers
      · obtain ⟨hlt, hblock⟩ := describe_block h (i := i) (by omega)
        obtain ⟨m, hm, hall, _, hrec⟩ := ih (i + 1)
          (gather ++ [⟨i, if i ≠ 0 then 0 else b.readOffset,
            (if i = b.used - 1 then b.writeOffset else b.blockSize) -
              if i ≠ 0 then 0 else b.readOffset⟩]) (by omega)
        refine ⟨m + 1, by omega, ?_, by omega, ?_⟩
        · intro hle
          simp only [List.length_append, List.length_singleton] at hall
          have := hall (by omega)
          omega
        · rw [dataLoop, if_pos hroom]
          simp only [if_pos hlt]
          rw [show i + (m + 1) = i + 1 + m by omega, hrec, describe, describe,
            List.flatMap_append, List.append_assoc, ← hblock]
          simp
      · refine ⟨0, by omega, by omega, by omega, ?_⟩
        rw [dataLoop, if_neg hroom, Nat.add_zero]

/-- **`data` describes the contents, up to the descriptor limit.** -/
theorem data_spec {b : DynamicBuffer} (h : Shape b) :
    describe b.blocks b.data <+: b.contents ∧
      (b.used ≤ maxBuffers → describe b.blocks b.data = b.contents) ∧
      (b.contents ≠ [] → describe b.blocks b.data ≠ []) := by
  obtain ⟨m, hm, hall, hsome, heq⟩ := dataLoop_spec h b.used 0 [] (by simp)
  have hdata : describe b.blocks b.data ++
      (b.blocks.flatten.take b.tail).drop (b.start m) = b.contents := by
    simpa [data, describe, contents, start] using heq
  refine ⟨⟨_, hdata⟩, ?_, ?_⟩
  · intro hle
    have hmu : m = b.used := hall (by simpa using hle)
    have hnil : (b.blocks.flatten.take b.tail).drop (b.start m) = [] := by
      apply List.drop_eq_nil_of_le
      rw [List.length_take, hmu]
      by_cases hu : b.used = 0
      · simp [tail_of_idle h hu]
      · have := (tail_bounds h hu).2
        simp only [start, if_neg hu]
        omega
    rw [← hdata, hnil, List.append_nil]
  · intro hne hnil
    rw [hnil, List.nil_append] at hdata
    have hu : b.used ≠ 0 := by
      intro hu
      apply hne
      simp [contents, tail_of_idle h hu]
    have hstart := start_lt h hu
      (i := m) (by have := hsome (Nat.pos_of_ne_zero hu) (by simp [maxBuffers]); omega)
    have hlen := length_contents h
    have hpos : b.contents.length ≠ 0 := by simpa using hne
    have hle := tail_le_flat h
    have hlen' := congrArg List.length hdata
    rw [List.length_drop, List.length_take] at hlen'
    simp only [start, if_true] at hstart
    simp only [start] at hlen'
    omega

/-! ## Whole histories -/

/-- A call of the public interface that changes the buffer. -/
inductive Call where
  | write (buffers : List Bytes)
  | consume (size : Nat)

/-- A buffer together with its history: the bytes `write` reported as
accepted, in order, and how many of them were consumed. -/
structure History where
  buffer : DynamicBuffer
  accepted : Bytes := []
  consumed : Nat := 0

/-- The abstract contents: the bytes accepted so far minus those consumed. -/
def History.queue (h : History) : Bytes := h.accepted.drop h.consumed

/-- One call; `none` if it does not return. -/
def History.step (h : History) : Call → Option History
  | .write buffers => do
      let (b, n) ← h.buffer.write buffers
      return { buffer := b, accepted := h.accepted ++ buffers.flatten.take n,
               consumed := h.consumed }
  | .consume size => do
      let b ← h.buffer.consume size
      return { buffer := b, accepted := h.accepted,
               consumed := h.consumed + min size h.queue.length }

/-- The simulation between the buffer and the abstract queue. -/
private structure Simulates (h : History) : Prop where
  inv : Inv h.buffer
  contents : h.buffer.contents = h.queue
  consumedLe : h.consumed ≤ h.accepted.length

private theorem step_simulates (h : History) (c : Call) (hs : Simulates h) :
    ∃ h', h.step c = some h' ∧ Simulates h' := by
  have hlen : h.queue.length = h.accepted.length - h.consumed := by
    simp [History.queue]
  cases c with
  | write buffers =>
      obtain ⟨b', n, hrun, hinv, _, hcont, _⟩ := write_spec hs.inv buffers
      refine ⟨_, by simp only [History.step, hrun]; rfl, hinv, ?_, ?_⟩
      · have := hs.consumedLe
        rw [hcont, hs.contents, History.queue, History.queue,
          List.drop_append_of_le_length this]
      · have := hs.consumedLe
        simp only [List.length_append]
        omega
  | consume size =>
      obtain ⟨b', hrun, hinv, hcont, _⟩ := consume_spec hs.inv size
      refine ⟨_, by simp only [History.step, hrun]; rfl, hinv, ?_, ?_⟩
      · rw [hcont, hs.contents]
        show h.queue.drop size =
          h.accepted.drop (h.consumed + min size h.queue.length)
        rw [← List.drop_drop, ← drop_min_length]
        rfl
      · have := hs.consumedLe
        show h.consumed + min size h.queue.length ≤ h.accepted.length
        omega

/--
**`dynamic_buffer` is a byte queue.**  After every history of calls, for
every limit and block size: the stored bytes are the abstract contents,
`empty` and `data` report them, and the next call returns — a `write` appends
the prefix it reports and touches no stored byte, a `consume` drops the
bytes it was asked to, or all there are.
-/
theorem queue_refinement (maxSize blockSize : Nat) (calls : List Call) :
    ∃ h, calls.foldlM History.step { buffer := new maxSize blockSize } = some h ∧
      h.buffer.contents = h.queue ∧
      (h.buffer.empty = true ↔ h.queue = []) ∧
      describe h.buffer.blocks h.buffer.data <+: h.queue ∧
      (h.buffer.used ≤ maxBuffers →
        describe h.buffer.blocks h.buffer.data = h.queue) ∧
      (h.queue ≠ [] → describe h.buffer.blocks h.buffer.data ≠ []) ∧
      (∀ buffers, ∃ b n, h.buffer.write buffers = some (b, n) ∧
        n ≤ buffers.flatten.length ∧
        b.contents = h.queue ++ buffers.flatten.take n ∧
        b.blocks.flatten.take h.buffer.tail =
          h.buffer.blocks.flatten.take h.buffer.tail) ∧
      (∀ size, ∃ b, h.buffer.consume size = some b ∧
        b.contents = h.queue.drop (min size h.queue.length)) := by
  obtain ⟨h, hrun, hs⟩ := Run.foldlM_invariant step_simulates calls
    { buffer := new maxSize blockSize }
    { inv := inv_new maxSize blockSize, contents := by simp [History.queue]
      consumedLe := Nat.zero_le _ }
  have hdata := data_spec hs.inv.toShape
  rw [hs.contents] at hdata
  refine ⟨h, hrun, hs.contents, ?_, hdata.1, hdata.2.1, hdata.2.2, ?_, ?_⟩
  · rw [empty, beq_iff_eq, hs.inv.size_eq, hs.contents, List.length_eq_zero_iff]
  · intro buffers
    obtain ⟨b, n, hw, _, hn, hcont, hkeep, _⟩ := write_spec hs.inv buffers
    exact ⟨b, n, hw, by omega, by rw [hcont, hs.contents], hkeep⟩
  · intro size
    obtain ⟨b, hc, _, hcont, _⟩ := consume_spec hs.inv size
    exact ⟨b, hc, by rw [hcont, hs.contents, drop_min_length]⟩

end WsStreaming.Ports.DynamicBuffer
