import WsStreaming.Verified.Blocks
import WsStreaming.Verified.Wire

/-!
# The transmit buffer `wss::detail::dynamic_buffer`

Outgoing bytes the socket did not take are kept in fixed-size blocks.  The
first `used` blocks of the deque hold data, starting at `readOffset` in the
first and ending at `writeOffset` in the last; the rest are empty and are
filled again later.

The three loops of the source (`consume`, the allocation loop of `prepare`
and the loop of `commit`) do not end for every value of the fields: `consume`
spins when the front block is exhausted but not recycled.  They are modelled
with an explicit number of iterations and return `none` when it runs out, so
that termination is something to prove, not something the model assumes.
`std::size_t` counters are natural numbers: none of them exceeds the number
of bytes in memory.
-/

namespace WsStreaming.Ports

open WsStreaming.Verified.Blocks
open WsStreaming.Verified.Wire

/-- The fields of `dynamic_buffer`.  `_gather` and `_scatter` are scratch
memory of `data()` and `prepare()` and are results of these instead. -/
structure DynamicBuffer where
  blocks : List Bytes
  blockSize : Nat
  maxBlocks : Nat
  used : Nat := 0
  readOffset : Nat := 0
  writeOffset : Nat := 0
  size : Nat := 0
deriving Repr, DecidableEq

namespace DynamicBuffer

/-- A `boost::asio` buffer descriptor into the deque: a block, a position in
it and a length. -/
structure Span where
  block : Nat
  offset : Nat
  length : Nat
deriving Repr, DecidableEq

/-- `dynamic_buffer::MAX_BUFFERS`. -/
def maxBuffers : Nat := 64

/-- The constructor's default block size. -/
def defaultBlockSize : Nat := 64 * 1024

/-- The constructor. -/
def new (maxSize blockSize : Nat) : DynamicBuffer :=
  let size := min blockSize maxSize
  { blocks := []
    blockSize := size
    maxBlocks := if size ≠ 0 then maxSize / size else 0 }

/-- `dynamic_buffer::empty`. -/
def empty (b : DynamicBuffer) : Bool := b.size == 0

/-- The loop of `dynamic_buffer::data`, from block `i` on with `n` of the used
blocks still to visit. -/
def dataLoop (b : DynamicBuffer) : Nat → Nat → List Span → List Span
  | 0, _, gather => gather
  | n + 1, i, gather =>
      if gather.length < maxBuffers then
        let first := if i ≠ 0 then 0 else b.readOffset
        let last := if i = b.used - 1 then b.writeOffset else b.blockSize
        dataLoop b n (i + 1)
          (if last > first then gather ++ [⟨i, first, last - first⟩] else gather)
      else gather

/-- `dynamic_buffer::data`, as descriptors. -/
def data (b : DynamicBuffer) : List Span := dataLoop b b.used 0 []

/-- The bytes a descriptor describes. -/
def Span.bytes (blocks : List Bytes) (s : Span) : Bytes :=
  ((blocks.getD s.block []).drop s.offset).take s.length

/-- The bytes a descriptor sequence describes, in order. -/
def describe (blocks : List Bytes) (spans : List Span) : Bytes :=
  spans.flatMap (Span.bytes blocks)

/-- `dynamic_buffer::recycle_front_block`. -/
def recycleFrontBlock (b : DynamicBuffer) : DynamicBuffer :=
  { b with
    blocks := b.blocks.tail ++ b.blocks.head?.toList
    used := b.used - 1
    readOffset := 0
    writeOffset := if b.used - 1 = 0 then 0 else b.writeOffset }

/-- The `while (size)` loop of `dynamic_buffer::consume`. -/
def consumeLoop : Nat → DynamicBuffer → Nat → Option DynamicBuffer
  | _, b, 0 => some b
  | 0, _, _ + 1 => none
  | fuel + 1, b, size@(_ + 1) =>
      -- Only the last occupied block is partially filled.
      let last := if b.used = 1 then b.writeOffset else b.blockSize
      let consumed := min size (last - b.readOffset)
      let b := { b with readOffset := b.readOffset + consumed }
      consumeLoop fuel (if b.readOffset = last then recycleFrontBlock b else b)
        (size - consumed)

/-- `dynamic_buffer::consume`; `none` if the loop does not end. -/
def consume (b : DynamicBuffer) (size : Nat) : Option DynamicBuffer :=
  let size := min size b.size
  consumeLoop size { b with size := b.size - size } size

/-- The allocation loop of `dynamic_buffer::prepare`. -/
def prepareLoop : Nat → DynamicBuffer → Nat → Nat → List Span →
    Option (DynamicBuffer × List Span)
  | _, b, _, 0, scatter => some (b, scatter)
  | 0, _, _, _ + 1, _ => none
  | fuel + 1, b, i, size@(_ + 1), scatter =>
      if i = b.blocks.length then
        if b.blocks.length = b.maxBlocks then some (b, scatter)
        else
          let b := { b with blocks := b.blocks ++ [List.replicate b.blockSize 0] }
          let available := min size b.blockSize
          prepareLoop fuel b (i + 1) (size - available) (scatter ++ [⟨i, 0, available⟩])
      else
        let available := min size b.blockSize
        prepareLoop fuel b (i + 1) (size - available) (scatter ++ [⟨i, 0, available⟩])

/-- `dynamic_buffer::prepare`: the tail of the last occupied block first, then
empty blocks, allocating while the limit allows. -/
def prepare (b : DynamicBuffer) (size : Nat) :
    Option (DynamicBuffer × List Span) :=
  if size ≠ 0 ∧ b.used ≠ 0 ∧ b.writeOffset < b.blockSize then
    let available := min size (b.blockSize - b.writeOffset)
    prepareLoop (size + 1) b b.used (size - available)
      [⟨b.used - 1, b.writeOffset, available⟩]
  else prepareLoop (size + 1) b b.used size []

/-- `boost::asio::buffer_copy` into descriptors: fills them one after the
other until the source is exhausted.  Returns the number of bytes copied. -/
def bufferCopy : List Bytes → List Span → Bytes → List Bytes × Nat
  | blocks, [], _ => (blocks, 0)
  | blocks, s :: spans, src =>
      let chunk := src.take s.length
      let rest := bufferCopy (storeAt blocks s.block s.offset chunk) spans
        (src.drop s.length)
      (rest.1, chunk.length + rest.2)

/-- The `while (size)` loop of `dynamic_buffer::commit`. -/
def commitLoop : Nat → DynamicBuffer → Nat → Option DynamicBuffer
  | _, b, 0 => some b
  | 0, _, _ + 1 => none
  | fuel + 1, b, size@(_ + 1) =>
      let writeOffset := min size b.blockSize
      commitLoop fuel { b with used := b.used + 1, writeOffset := writeOffset }
        (size - writeOffset)

/-- `dynamic_buffer::commit`. -/
def commit (b : DynamicBuffer) (size : Nat) : Option DynamicBuffer :=
  let b := { b with size := b.size + size }
  if b.used ≠ 0 ∧ b.writeOffset < b.blockSize then
    let committed := min size (b.blockSize - b.writeOffset)
    commitLoop size { b with writeOffset := b.writeOffset + committed }
      (size - committed)
  else commitLoop size b size

/-- `dynamic_buffer::write` of a buffer sequence.  Returns the number of bytes
appended. -/
def write (b : DynamicBuffer) (buffers : List Bytes) :
    Option (DynamicBuffer × Nat) := do
  let (b, scatter) ← prepare b buffers.flatten.length
  let (blocks, bytesWritten) := bufferCopy b.blocks scatter buffers.flatten
  let b ← commit { b with blocks := blocks } bytesWritten
  return (b, bytesWritten)

end DynamicBuffer

end WsStreaming.Ports
