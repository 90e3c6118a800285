import Mupen64plus.Device.Memory

/-!
# The buffer pool of the threaded renderer

`RingBufferPool.cpp`: the thread of the game copies the data of its GL calls into a ring of bytes,
and the thread of the renderer frees them in the order in which they were created.

## Main definitions

- `RingBufferPool`, `PoolBufferPointer`
- `RingBufferPool.createPoolBuffer` — a `CreateResult`: a buffer, or the call waits or throws
- `RingBufferPool.getBufferFromPool`, `RingBufferPool.removeBufferFromPool`
- `PoolRun`, `PoolRun.step` — the calls of the two threads, one after the other
-/

namespace Mupen64plus

structure PoolBufferPointer where
  offset : ℕ
  size : ℕ
  realSize : ℕ
  isValid : Bool
  deriving DecidableEq, Repr

structure RingBufferPool where
  inUseStartOffset : ℕ
  inUseEndOffset : ℕ
  poolBuffer : Bytes
  poolBufferSize : ℕ
  full : Bool
  maxBufferPoolSize : ℕ

/-- What a call of `createPoolBuffer` comes to, as things are when it is made. -/
inductive CreateResult where
  | created (pointer : PoolBufferPointer) (pool : RingBufferPool)
  | waits
  | throws

/-- A size rounded up to `byteAlignment`. -/
def realBufferSize (bufferSize : ℕ) : ℕ :=
  if bufferSize % 8 ≠ 0 then bufferSize + 8 - bufferSize % 8 else bufferSize

def startBufferPoolSize : ℕ := 1024 * 1024 * 10

/-- The constructor. -/
def newRingBufferPool (poolSize : ℕ) : RingBufferPool where
  inUseStartOffset := 0
  inUseEndOffset := 0
  poolBuffer := fun _ => 0
  poolBufferSize := startBufferPoolSize
  full := false
  maxBufferPoolSize := poolSize

namespace RingBufferPool

/-- The space that is left in a ring of `poolBufferSize` bytes. -/
def remaining (p : RingBufferPool) (poolBufferSize : ℕ) : ℕ :=
  if p.inUseStartOffset > p.inUseEndOffset ∨ p.full then p.inUseStartOffset - p.inUseEndOffset
  else poolBufferSize - p.inUseEndOffset + p.inUseStartOffset

/-- `std::copy_n` into the pool. -/
def copyIn (m : Bytes) (startOffset : ℕ) (buffer : List (BitVec 8)) : Bytes := fun i =>
  if startOffset ≤ i ∧ i < startOffset + buffer.length then buffer.getD (i - startOffset) 0 else m i

/-- The end of `createPoolBuffer`. -/
def place (p : RingBufferPool) (buffer : List (BitVec 8)) (startOffset endOffset : ℕ) :
    CreateResult :=
  .created ⟨startOffset, buffer.length, realBufferSize buffer.length, true⟩
    { p with
      inUseEndOffset := endOffset
      poolBuffer := copyIn p.poolBuffer startOffset buffer
      full := endOffset == p.inUseStartOffset }

/-- The branch of `createPoolBuffer` for a buffer that fits. It is not split between the end of the
    ring and the start. -/
def createFitting (p : RingBufferPool) (buffer : List (BitVec 8)) : CreateResult :=
  let realSize := realBufferSize buffer.length
  if p.inUseEndOffset + realSize > p.poolBufferSize then
    if realSize < p.inUseStartOffset ∨ p.inUseStartOffset = p.inUseEndOffset then
      p.place buffer 0 realSize
    else .waits
  else p.place buffer p.inUseEndOffset (p.inUseEndOffset + realSize)

/-- `m_poolBuffer.resize`. -/
def resize (p : RingBufferPool) (size : ℕ) : RingBufferPool :=
  { p with
    poolBuffer := fun i => if i < p.poolBufferSize then p.poolBuffer i else 0
    poolBufferSize := size }

/-- `createPoolBuffer`. A call whose conditions to wait for all hold goes on at once; it starts over
    only when the pool has grown. -/
def createPoolBuffer (p : RingBufferPool) (buffer : List (BitVec 8)) : CreateResult :=
  let realSize := realBufferSize buffer.length
  if p.remaining p.poolBufferSize ≥ realSize then p.createFitting buffer
  else if realSize > p.maxBufferPoolSize then .throws
  else
    let poolBufferSize := if p.poolBufferSize < realSize then realSize else p.poolBufferSize
    if p.remaining poolBufferSize < realSize then .waits
    else if p.poolBufferSize < realSize then
      if p.remaining poolBufferSize ≠ realSize then .waits
      else
        let p := p.resize realSize
        if p.remaining p.poolBufferSize ≥ realSize then p.createFitting buffer else .waits
    else .waits

/-- `getBufferFromPool`: the bytes behind the pointer it returns. -/
def getBufferFromPool (p : RingBufferPool) (pointer : PoolBufferPointer) : Option Bytes :=
  if !pointer.isValid then none else some fun i => p.poolBuffer (pointer.offset + i)

/-- `removeBufferFromPool`. -/
def removeBufferFromPool (p : RingBufferPool) (pointer : PoolBufferPointer) : RingBufferPool :=
  if pointer.isValid then
    { p with inUseStartOffset := pointer.offset + pointer.realSize, full := false }
  else p

end RingBufferPool

/-- A buffer of the pool, with what was stored in it. -/
structure PoolBuffer where
  pointer : PoolBufferPointer
  stored : List (BitVec 8)

/-- The pool, and the buffers that were created and not yet removed, oldest first. -/
structure PoolRun where
  pool : RingBufferPool
  live : List PoolBuffer

/-- A call of the producer, or of the consumer on the oldest buffer. -/
inductive PoolStep where
  | create (buffer : List (BitVec 8))
  | remove
  deriving DecidableEq, Repr

namespace PoolRun

/-- A call that has to wait or throws leaves everything as it is. -/
def step (s : PoolRun) : PoolStep → PoolRun
  | .create buffer => match s.pool.createPoolBuffer buffer with
    | .created pointer pool => ⟨pool, s.live ++ [⟨pointer, buffer⟩]⟩
    | _ => s
  | .remove => match s.live with
    | [] => s
    | b :: live => ⟨s.pool.removeBufferFromPool b.pointer, live⟩

/-- The pool after its construction. -/
def fresh (poolSize : ℕ) : PoolRun := ⟨newRingBufferPool poolSize, []⟩

end PoolRun

end Mupen64plus
