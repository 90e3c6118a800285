import Mathlib.Data.Rat.Defs
import Mathlib.Algebra.Order.Ring.Unbundled.Rat
import Mathlib.Algebra.Order.Ring.Nat
import Mupen64plus.Lib.NodeList

/-!
# The frame buffer list

`FrameBuffer.cpp`: the plugin keeps a buffer for each color image the game has drawn to, the newest
in front, and two pointers into the list: the buffer drawn to, and the one to copy to RDRAM.

## Main definitions

- `FrameBuffer` — with `updateEndAddress`, `isAuxiliary` and `isOverlapping`
- `FrameBufferList` — with `removeIntersections`, `saveBuffer`, `removeBuffer` and the rest
- `FrameBufferOp.exec` — one call, `none` when it divides by zero
-/

namespace Mupen64plus

/-- What the list reads of a buffer. The textures, and the flags that only say whether its pixels
    are copied, are left out. -/
structure FrameBuffer where
  startAddress : BitVec 32
  endAddress : BitVec 32
  size : BitVec 32
  width : BitVec 32
  height : BitVec 32
  swapCount : BitVec 32
  scale : ℚ
  cfb : Bool
  isMainBuffer : Bool

/-- What the calls read of the plugin around the list: the configuration, the video interface, the
    scissor and the window. -/
structure FrameBufferContext where
  enable : Bool
  copyAuxToRDRAM : Bool
  nativeResFactor : ℕ
  hackRE2 : Bool
  hackSnap : Bool
  viWidth : BitVec 32
  viHeight : BitVec 32
  viWidthReg : BitVec 32
  scissorLry : BitVec 32
  windowScaleX : ℚ
  buffersSwapCount : BitVec 32

/-- The arguments of `saveBuffer`. -/
structure SaveRequest where
  address : BitVec 32
  size : BitVec 16
  width : BitVec 16
  cfb : Bool

def minU32 (a b : BitVec 32) : BitVec 32 := if b < a then b else a

def maxU32 (a b : BitVec 32) : BitVec 32 := if a < b then b else a

/-- The bytes of a line. -/
def strideOf (width size : BitVec 32) : BitVec 32 := (width <<< size.toNat) >>> 1

namespace FrameBuffer

def isAuxiliary (v : FrameBufferContext) (b : FrameBuffer) : Bool :=
  b.width != v.viWidth || b.size < 2

/-- `updateEndAddress`, with `RDRAMSize` the last address of RDRAM. -/
def updateEndAddress (rdramSize : BitVec 32) (b : FrameBuffer) : FrameBuffer :=
  let height := maxU32 1 b.height
  { b with
    endAddress := minU32 rdramSize
      (b.startAddress + (((b.width * height) <<< b.size.toNat) >>> 1 - 1)) }

/-- `init`. -/
def init (rdramSize : BitVec 32) (v : FrameBufferContext) (address size width : BitVec 32)
    (cfb : Bool) : FrameBuffer :=
  let b : FrameBuffer := updateEndAddress rdramSize
    { startAddress := address
      endAddress := 0
      size
      width
      height := if cfb then v.viHeight else 1
      swapCount := v.buffersSwapCount
      scale := 0
      cfb
      isMainBuffer := false }
  { b with
    scale :=
      if b.isAuxiliary v && v.copyAuxToRDRAM then 1
      else if v.nativeResFactor ≠ 0 ∧ v.enable then v.nativeResFactor
      else max v.windowScaleX 1 }

/-- The address is in the range of the buffer. -/
def Covers (b : FrameBuffer) (address : BitVec 32) : Prop :=
  b.startAddress ≤ address ∧ address ≤ b.endAddress

instance decidableCovers (b : FrameBuffer) (address : BitVec 32) : Decidable (b.Covers address) :=
  inferInstanceAs (Decidable (_ ∧ _))

/-- The two are of one format and the second ends behind the first, as `isOverlapping` asks before
    it divides. -/
def Comparable (b₁ b₂ : FrameBuffer) : Prop :=
  b₁.endAddress < b₂.endAddress ∧ b₁.width = b₂.width ∧ b₁.size = b₂.size

instance decidableComparable (b₁ b₂ : FrameBuffer) : Decidable (b₁.Comparable b₂) :=
  inferInstanceAs (Decidable (_ ∧ _))

/-- `isOverlapping`: fewer than five whole lines of the first lie behind the start of the second.
    `none`: it divides by a stride of zero. -/
def isOverlapping (b₁ b₂ : FrameBuffer) : Option Bool :=
  if b₁.Comparable b₂ then
    let diff := b₁.endAddress - b₂.startAddress + 1
    let stride := strideOf b₁.width b₁.size
    if stride = 0 then none else some (diff % stride = 0 ∧ diff / stride < 5)
  else some false

end FrameBuffer

structure FrameBufferList where
  buffers : NodeList FrameBuffer
  current : Option ℕ
  copy : Option ℕ

/-- As `init` leaves it. -/
def FrameBufferList.empty : FrameBufferList where
  buffers :=
    { order := []
      node := fun _ => ⟨0, 0, 0, 0, 0, 0, 0, false, false⟩
      next := 0 }
  current := none
  copy := none

namespace FrameBufferList

variable (rdramSize : BitVec 32) (v : FrameBufferContext) (s : FrameBufferList)

def setEndAddress (i : ℕ) (address : BitVec 32) : FrameBufferList :=
  { s with buffers := s.buffers.modify i fun b => { b with endAddress := address } }

def eraseBuffer (i : ℕ) : FrameBufferList := { s with buffers := s.buffers.erase i }

def findBuffer (startAddress : BitVec 32) : Option ℕ :=
  s.buffers.find? fun b => b.Covers startAddress

/-- One turn of the loop of `removeIntersections`, with `current` the buffer `m_pCurrent` points at
    and `i` the one the iterator does. -/
def removeIntersectionsRound (current i : ℕ) : Option FrameBufferList :=
  if i = current then some s
  else
    let pCurrent := s.buffers.node current
    let b := s.buffers.node i
    if b.Covers pCurrent.startAddress then
      (b.isOverlapping pCurrent).map fun overlapping =>
        if overlapping then s.setEndAddress i (pCurrent.startAddress - 1) else s.eraseBuffer i
    else if pCurrent.Covers b.startAddress then
      (pCurrent.isOverlapping b).map fun overlapping =>
        if overlapping then s.setEndAddress current (b.startAddress - 1) else s.eraseBuffer i
    else some s

/-- The loop of `removeIntersections`, from the buffer before the `k`-th to the front. The iterator
    that `erase` returns is behind the erased buffer, so that each turn is one buffer nearer. -/
def removeIntersectionsLoop (current : ℕ) : ℕ → FrameBufferList → Option FrameBufferList
  | 0, s => some s
  | k + 1, s => match s.buffers.order[k]? with
    | none => none
    | some i => (s.removeIntersectionsRound current i).bind (removeIntersectionsLoop current k)

/-- `removeIntersections`. Its callers have looked that `m_pCurrent` is not null. -/
def removeIntersections : Option FrameBufferList :=
  match s.current with
  | none => some s
  | some current => removeIntersectionsLoop current s.buffers.order.length s

def updateCurrentEnd : FrameBufferList :=
  match s.current with
  | none => s
  | some c => { s with buffers := s.buffers.modify c (FrameBuffer.updateEndAddress rdramSize) }

def updateCurrentBufferEndAddress : Option FrameBufferList :=
  (s.updateCurrentEnd rdramSize).removeIntersections

/-- The buffer is erased, and `m_pCurrent` is reset if it points at it. -/
def dropBuffer (i : ℕ) : FrameBufferList :=
  { s with
    buffers := s.buffers.erase i
    current := if s.current = some i then none else s.current }

def removeBuffer (address : BitVec 32) : FrameBufferList :=
  match s.buffers.find? fun b => b.startAddress = address with
  | none => s
  | some i => s.dropBuffer i

/-- The loops of `removeAux` and `removeBuffers`. -/
def removeWhere (p : FrameBuffer → Bool) : FrameBufferList :=
  { s with
    buffers := s.buffers.eraseWhere p
    current := s.current.filter fun c => !(c ∈ s.buffers.order && p (s.buffers.node c)) }

def removeAux : FrameBufferList := s.removeWhere (·.isAuxiliary v)

def removeBuffers (width : BitVec 32) : FrameBufferList :=
  { s with current := none }.removeWhere (·.width = width)

def setBufferChanged (colorImageHeight maxY : BitVec 32) : FrameBufferList :=
  let height := minU32 (maxU32 colorImageHeight maxY) v.scissorLry
  match s.current with
  | none => s
  | some c =>
    { s with
      buffers := s.buffers.modify c fun b =>
        { b with
          height := maxU32 b.height (if b.isMainBuffer then minU32 height v.viHeight else height)
          cfb := false } }

/-- `setCopyBuffer(getCurrent())`, the call of the background command. -/
def setCopyBuffer : FrameBufferList := { s with copy := s.current }

/-- What `FrameBuffer_CopyDepthBuffer` does to the list: a copy buffer is copied and let go. -/
def copyDepthBuffer : FrameBufferList := { s with copy := none }

/-- What `renderBuffer` does to the list: the buffer shown is marked. -/
def markMainBuffer (address : BitVec 32) : FrameBufferList :=
  match s.findBuffer address with
  | none => s
  | some i => { s with buffers := s.buffers.modify i fun b => { b with isMainBuffer := true } }

/-! ### `saveBuffer` -/

/-- The width `saveBuffer` goes on with, one of the game's images being wider than it says. -/
def savedWidth (r : SaveRequest) : BitVec 32 :=
  if r.width = 512 ∧ v.hackRE2 then (v.viWidthReg.setWidth 16).setWidth 32 else r.width.setWidth 32

def createScreenSizeBuffer : FrameBufferList :=
  if v.viHeight = 0 then s
  else
    let width := (v.viWidth.setWidth 16).setWidth 32
    let b := FrameBuffer.init rdramSize v (v.viWidth * 2) 2 width false
    { s with buffers := s.buffers.emplaceFront b }

/-- An auxiliary buffer is copied to RDRAM and removed when it is left. -/
def removeLeftAuxiliary : FrameBufferList :=
  match s.current with
  | none => s
  | some c =>
    let b := s.buffers.node c
    if v.copyAuxToRDRAM && !v.hackSnap && b.isAuxiliary v then s.removeBuffer b.startAddress else s

/-- `saveBuffer` up to the search for the buffer of the new image. -/
def leaveBuffer : Option FrameBufferList :=
  (s.removeLeftAuxiliary v).updateCurrentBufferEndAddress rdramSize

def findSaved (address width : BitVec 32) : FrameBufferList :=
  match s.current with
  | none => { s with current := s.findBuffer address }
  | some c =>
    let b := s.buffers.node c
    if b.startAddress ≠ address ∨ b.width ≠ width then
      { s with current := s.findBuffer address }
    else s

/-- `isSubBuffer`. -/
def isSubBuffer (address width size : BitVec 32) (b : FrameBuffer) : Option Bool :=
  if b.swapCount = v.buffersSwapCount ∧ b.cfb = false ∧ b.width = width ∧ b.size = size then
    let stride := strideOf width size
    let diffFromStart := address - b.startAddress
    let diffFromEnd := b.endAddress - address + 1
    if stride = 0 then none
    else some (decide (diffFromStart % stride ≠ 0) || decide (diffFromEnd / stride > 5))
  else some false

/-- `isOverlappingBuffer`. -/
def isOverlappingBuffer (address width size : BitVec 32) (b : FrameBuffer) : Option Bool :=
  if b.width = width ∧ b.size = size then
    let stride := strideOf width size
    let diffEnd := b.endAddress - address + 1
    if stride = 0 then none else some (decide (diffEnd / stride < 5))
  else some false

/-- A new buffer, which becomes the current one. -/
def newBuffer (address size width : BitVec 32) (cfb : Bool) : FrameBufferList :=
  { s with
    buffers := s.buffers.emplaceFront (FrameBuffer.init rdramSize v address size width cfb)
    current := some s.buffers.next }

def savedScale : ℚ := if v.nativeResFactor = 0 then v.windowScaleX else v.nativeResFactor

/-- `saveBuffer` from there on. The current buffer is the one the image is in, if there is one. -/
def enterBuffer (address size width : BitVec 32) (cfb : Bool) : Option FrameBufferList :=
  let create (s : FrameBufferList) := s.newBuffer rdramSize v address size width cfb
  match s.current with
  | none => some (create s)
  | some c =>
    let b := s.buffers.node c
    if b.startAddress ≠ address then
      (isSubBuffer v address width size b).bind fun sub =>
        if sub then some s
        else (isOverlappingBuffer address width size b).map fun overlapping =>
          if overlapping then create { s.setEndAddress c (address - 1) with current := none }
          else create { s.removeBuffer b.startAddress with current := none }
    else if b.width ≠ width ∨ b.size < size ∨ b.scale ≠ savedScale v then
      some (create { s.removeBuffer b.startAddress with current := none })
    else some { s with
      buffers := s.buffers.modify c fun b => { b with size, swapCount := v.buffersSwapCount } }

/-- `saveBuffer`. -/
def saveBuffer (r : SaveRequest) : Option FrameBufferList :=
  if r.width > 640 then some s
  else if !v.enable then
    some (if s.buffers.order = [] then s.createScreenSizeBuffer rdramSize v else s)
  else
    let width := savedWidth v r
    (s.leaveBuffer rdramSize v).bind fun s =>
      let size := r.size.setWidth 32
      (s.findSaved r.address width).enterBuffer rdramSize v r.address size width r.cfb

end FrameBufferList

/-- A call that works on the list. -/
inductive FrameBufferOp where
  | saveBuffer (r : SaveRequest) (v : FrameBufferContext)
  | setBufferChanged (colorImageHeight maxY : BitVec 32) (v : FrameBufferContext)
  | updateCurrentBufferEndAddress
  | removeIntersections
  | removeBuffer (address : BitVec 32)
  | removeBuffers (width : BitVec 32)
  | removeAux (v : FrameBufferContext)
  | setCopyBuffer
  | copyDepthBuffer
  | markMainBuffer (address : BitVec 32)

namespace FrameBufferOp

def exec (rdramSize : BitVec 32) (s : FrameBufferList) : FrameBufferOp → Option FrameBufferList
  | .saveBuffer r v => s.saveBuffer rdramSize v r
  | .setBufferChanged colorImageHeight maxY v => some (s.setBufferChanged v colorImageHeight maxY)
  | .updateCurrentBufferEndAddress => s.updateCurrentBufferEndAddress rdramSize
  | .removeIntersections => s.removeIntersections
  | .removeBuffer address => some (s.removeBuffer address)
  | .removeBuffers width => some (s.removeBuffers width)
  | .removeAux v => some (s.removeAux v)
  | .setCopyBuffer => some s.setCopyBuffer
  | .copyDepthBuffer => some s.copyDepthBuffer
  | .markMainBuffer address => some (s.markMainBuffer address)

/-- The list right after `removeIntersections`, where the call runs it. -/
def separated (rdramSize : BitVec 32) (s : FrameBufferList) : FrameBufferOp → Option FrameBufferList
  | .saveBuffer r v => if r.width > 640 ∨ v.enable = false then none else s.leaveBuffer rdramSize v
  | .updateCurrentBufferEndAddress => s.updateCurrentBufferEndAddress rdramSize
  | .removeIntersections => s.removeIntersections
  | _ => none

/-- The calls one after the other; nothing comes after a division by zero. -/
def step (rdramSize : BitVec 32) (s : Option FrameBufferList) (op : FrameBufferOp) :
    Option FrameBufferList :=
  s.bind fun s => op.exec rdramSize s

end FrameBufferOp

end Mupen64plus
