import Mupen64plus.Rsp.Vector

/-!
# The multiplies of the vector unit

Twelve operations of `vu/multiply.c`, each in its scalar and its SSE2 version. An operation takes
the accumulators and two vectors; it gives the accumulators after it and the result vector.

## Main definitions

- `signedClampAm`, `unsignedClamp`, `signedClampAl` — the clamps
- `VuMultiply.scalar`, `VuMultiply.sse2` — the two versions of an operation
-/

namespace Mupen64plus

-- ════════════════════════════════════════════════════════════════════════
-- Clamps
-- ════════════════════════════════════════════════════════════════════════

/-- `SIGNED_CLAMP_AM` as a loop over the lanes. -/
def signedClampAmScalar (a : VAcc) : V16 := fun i =>
  let lo := flag16 ((a.h i).toInt < -1)
  let lo := lo ||| (flag16 ((a.h i).toInt < 0) &&& flag16 ¬((a.m i).toInt < 0))
  let hi := flag16 (0 < (a.h i).toInt)
  let hi := hi ||| (flag16 ((a.h i).toInt = 0) &&& flag16 ((a.m i).toInt < 0))
  let vd := a.m i
  let vd := vd &&& -(lo ^^^ 1)
  let vd := vd ||| -(hi ^^^ 0)
  vd ^^^ 0x8000 * (hi ||| lo)

/-- `SIGNED_CLAMP_AM` with SSE2. -/
def signedClampAmSse2 (a : VAcc) : V16 :=
  let dst := mmUnpackloEpi16 a.m a.h
  let src := mmUnpackhiEpi16 a.m a.h
  mmPacksEpi32 dst src

/-- `UNSIGNED_CLAMP`, over the version of `SIGNED_CLAMP_AM`. -/
def unsignedClamp (signedClampAm : VAcc → V16) (a : VAcc) : V16 :=
  let temp := signedClampAm a
  fun i =>
    let cond := -flag16 ((a.m i).toInt < (temp i).toInt)
    (temp i &&& ~~~((temp i).sshiftRight 15)) ||| cond

/-- `SIGNED_CLAMP_AL`, over the version of `SIGNED_CLAMP_AM`. -/
def signedClampAl (signedClampAm : VAcc → V16) (a : VAcc) : V16 :=
  let temp := signedClampAm a
  fun i => if temp i ≠ a.m i then temp i ^^^ 0x8000 else a.l i

-- ════════════════════════════════════════════════════════════════════════
-- Fractions
-- ════════════════════════════════════════════════════════════════════════

/-- The accumulation of `do_macf` and `do_macu`. -/
def doMac (a : VAcc) (vs vt : V16) : VAcc :=
  let product : Lane → BitVec 32 := fun i => (vs i).signExtend 32 * (vt i).signExtend 32
  let addend : Lane → BitVec 32 := fun i => (product i <<< 1) &&& 0xffff
  let addend : Lane → BitVec 32 := fun i => (a.l i).setWidth 32 + addend i
  let l : V16 := fun i => (addend i).setWidth 16
  let addend : Lane → BitVec 32 := fun i =>
    (addend i >>> 16) + (((product i).sshiftRight 15).setWidth 16).setWidth 32
  let addend : Lane → BitVec 32 := fun i => (a.m i).setWidth 32 + addend i
  let m : V16 := fun i => (addend i).setWidth 16
  let h : V16 := fun i => a.h i - flag16 ((product i).toInt < 0)
  let h : V16 := fun i => h i + (addend i >>> 16).setWidth 16
  ⟨h, m, l⟩

/-- `do_macf`. -/
def doMacf (signedClampAm : VAcc → V16) (a : VAcc) (vs vt : V16) : VAcc × V16 :=
  let a := doMac a vs vt
  (a, signedClampAm a)

/-- `do_macu`. -/
def doMacu (signedClampAm : VAcc → V16) (a : VAcc) (vs vt : V16) : VAcc × V16 :=
  let a := doMac a vs vt
  (a, unsignedClamp signedClampAm a)

/-- The rounded product of the scalar `VMULF` and `VMULU`. -/
def mulRounded (vs vt : V16) : VAcc :=
  let product : Lane → BitVec 64 := fun i =>
    ((vs i).signExtend 32 * (vt i).signExtend 32).signExtend 64
  let product : Lane → BitVec 64 := fun i => product i <<< 1
  let product : Lane → BitVec 64 := fun i => product i + 32768
  let l : V16 := fun i => (product i &&& 0xffff).setWidth 16
  let m : V16 := fun i => ((product i &&& 0xffff0000) >>> 16).setWidth 16
  let h : V16 := fun i => -flag16 ((product i).toInt < 0)
  ⟨h, m, l⟩

/-- `VMULF`, scalar. -/
def vmulfScalar (vs vt : V16) : VAcc × V16 :=
  let a := mulRounded vs vt
  (a, signedClampAmScalar a)

/-- `VMULU`, scalar. -/
def vmuluScalar (vs vt : V16) : VAcc × V16 :=
  let a := mulRounded vs vt
  (a, unsignedClamp signedClampAmScalar a)

/-- `VMULF` with SSE2. -/
def vmulfSse2 (vs vt : V16) : VAcc × V16 :=
  let prodLo := mmMulloEpi16 vs vt
  let prodHi := mmMulhiEpi16 vs vt
  let prodHi := mmAddEpi16 prodHi prodHi
  let negative := mmSrliEpi16 prodLo 15
  let prodHi := mmAddEpi16 prodHi negative
  let prodLo := mmAddEpi16 prodLo prodLo
  let negative := mmSrliEpi16 prodLo 15
  let round := mmCmpeqEpi16 vs vs
  let round := mmSlliEpi16 round 15
  let prodLo := mmXorSi128 prodLo round
  let prodHi := mmAddEpi16 prodHi negative
  let negative := mmSraiEpi16 prodHi 15
  let vs := mmCmpeqEpi16 vs round
  let vt := mmCmpeqEpi16 vt round
  let vs := mmAndSi128 vs vt
  let negative := mmXorSi128 negative vs
  let vs := mmAddEpi16 vs prodHi
  (⟨negative, prodHi, prodLo⟩, vs)

/-- `VMULU` with SSE2. -/
def vmuluSse2 (vs vt : V16) : VAcc × V16 :=
  let prodLo := mmMulloEpi16 vs vt
  let prodHi := mmMulhiEpi16 vs vt
  let prodHi := mmAddEpi16 prodHi prodHi
  let negative := mmSrliEpi16 prodLo 15
  let prodHi := mmAddEpi16 prodHi negative
  let prodLo := mmAddEpi16 prodLo prodLo
  let negative := mmSrliEpi16 prodLo 15
  let round := mmCmpeqEpi16 vs vs
  let round := mmSlliEpi16 round 15
  let prodLo := mmXorSi128 prodLo round
  let accL := prodLo
  let prodHi := mmAddEpi16 prodHi negative
  let negative := mmSraiEpi16 prodHi 15
  let vs := mmCmpeqEpi16 vs round
  let vt := mmCmpeqEpi16 vt round
  let vs := mmAndSi128 vs vt
  let negative := mmXorSi128 negative vs
  let prodLo := mmSraiEpi16 prodHi 15
  let vs := mmOrSi128 prodHi prodLo
  let vs := mmAndnotSi128 negative vs
  (⟨negative, prodHi, accL⟩, vs)

-- ════════════════════════════════════════════════════════════════════════
-- Products
-- ════════════════════════════════════════════════════════════════════════

/-- `VMUDL`, scalar. -/
def vmudlScalar (vs vt : V16) : VAcc × V16 :=
  let product : Lane → BitVec 32 := fun i => (vs i).setWidth 32 * (vt i).setWidth 32
  let l : V16 := fun i => (product i >>> 16).setWidth 16
  (⟨fun _ => 0, fun _ => 0, l⟩, l)

/-- `VMUDL` with SSE2. -/
def vmudlSse2 (vs vt : V16) : VAcc × V16 :=
  let vs := mmMulhiEpu16 vs vt
  let vt := mmCmpgtEpi16 vt vt
  (⟨vt, vt, vs⟩, vs)

/-- `VMUDM`, scalar. -/
def vmudmScalar (vs vt : V16) : VAcc × V16 :=
  let product : Lane → BitVec 32 := fun i => (vs i).signExtend 32 * (vt i).setWidth 32
  let l : V16 := fun i => (product i &&& 0xffff).setWidth 16
  let m : V16 := fun i => ((product i &&& 0xffff0000) >>> 16).setWidth 16
  let h : V16 := fun i => -flag16 ((m i).toInt < 0)
  (⟨h, m, l⟩, m)

/-- `VMUDM` with SSE2. -/
def vmudmSse2 (vs vt : V16) : VAcc × V16 :=
  let prodLo := mmMulloEpi16 vs vt
  let prodHi := mmMulhiEpu16 vs vt
  let vs := mmSraiEpi16 vs 15
  let vt := mmAndSi128 vt vs
  let prodHi := mmSubEpi16 prodHi vt
  let vs := prodHi
  let h := mmSraiEpi16 prodHi 15
  (⟨h, prodHi, prodLo⟩, vs)

/-- `VMUDN`, scalar. -/
def vmudnScalar (vs vt : V16) : VAcc × V16 :=
  let product : Lane → BitVec 32 := fun i => (vs i).setWidth 32 * (vt i).signExtend 32
  let l : V16 := fun i => (product i &&& 0xffff).setWidth 16
  let m : V16 := fun i => ((product i &&& 0xffff0000) >>> 16).setWidth 16
  let h : V16 := fun i => -flag16 ((m i).toInt < 0)
  (⟨h, m, l⟩, l)

/-- `VMUDN` with SSE2. -/
def vmudnSse2 (vs vt : V16) : VAcc × V16 :=
  let prodLo := mmMulloEpi16 vs vt
  let prodHi := mmMulhiEpu16 vs vt
  let vt := mmSraiEpi16 vt 15
  let vs := mmAndSi128 vs vt
  let prodHi := mmSubEpi16 prodHi vs
  let h := mmSraiEpi16 prodHi 15
  (⟨h, prodHi, prodLo⟩, prodLo)

/-- `VMUDH`, scalar. -/
def vmudhScalar (vs vt : V16) : VAcc × V16 :=
  let product : Lane → BitVec 32 := fun i => (vs i).signExtend 32 * (vt i).signExtend 32
  let m : V16 := fun i => (product i).setWidth 16
  let h : V16 := fun i => ((product i).sshiftRight 16).setWidth 16
  let a : VAcc := ⟨h, m, fun _ => 0⟩
  (a, signedClampAmScalar a)

/-- `VMUDH` with SSE2. -/
def vmudhSse2 (vs vt : V16) : VAcc × V16 :=
  let prodHigh := mmMulhiEpi16 vs vt
  let vs := mmMulloEpi16 vs vt
  let a : VAcc := ⟨prodHigh, vs, mmSetzeroSi128⟩
  let vt := mmUnpackhiEpi16 vs prodHigh
  let vs := mmUnpackloEpi16 vs prodHigh
  let vs := mmPacksEpi32 vs vt
  (a, vs)

-- ════════════════════════════════════════════════════════════════════════
-- Accumulated products
-- ════════════════════════════════════════════════════════════════════════

/-- `_mm_cmple_epu16` of `multiply.c`. -/
def mmCmpleEpu16 (dst src : V16) : V16 := mmCmpeqEpi16 (mmSubsEpu16 dst src) mmSetzeroSi128

/-- `_mm_cmpgt_epu16` of `multiply.c`. -/
def mmCmpgtEpu16 (dst src : V16) : V16 :=
  mmAndnotSi128 (mmCmpeqEpi16 dst src) (mmCmpleEpu16 src dst)

/-- `_mm_cmplt_epu16` of `multiply.c`. -/
def mmCmpltEpu16 (dst src : V16) : V16 := mmCmpgtEpu16 src dst

/-- The end of the SSE2 `VMADL` and `VMADN`: the clamp of the low word. -/
def clampLowSse2 (accHi accMd accLo : V16) : V16 :=
  let vt := mmUnpackhiEpi16 accMd accHi
  let vs := mmUnpackloEpi16 accMd accHi
  let vs := mmPacksEpi32 vs vt
  let accMd := mmCmpeqEpi16 accMd vs
  let accLo := mmAndSi128 accLo accMd
  let vt := mmCmpeqEpi16 vt vt
  let accMd := mmXorSi128 accMd vt
  let vs := mmAndSi128 vs accMd
  let vs := mmOrSi128 vs accLo
  let accMd := mmSlliEpi16 accMd 15
  mmXorSi128 vs accMd

/-- `VMADL`, scalar. -/
def vmadlScalar (a : VAcc) (vs vt : V16) : VAcc × V16 :=
  let product : Lane → BitVec 32 := fun i => (vs i).setWidth 32 * (vt i).setWidth 32
  let addend : Lane → BitVec 32 := fun i =>
    ((product i >>> 16).setWidth 16).setWidth 32 + (a.l i).setWidth 32
  let l : V16 := fun i => (addend i &&& 0x0000ffff).setWidth 16
  let addend : Lane → BitVec 32 := fun i => addend i >>> 16
  let addend : Lane → BitVec 32 := fun i => addend i + (a.m i).setWidth 32
  let m : V16 := fun i => (addend i &&& 0x0000ffff).setWidth 16
  let h : V16 := fun i => a.h i + (addend i >>> 16).setWidth 16
  let a : VAcc := ⟨h, m, l⟩
  (a, signedClampAl signedClampAmScalar a)

/-- `VMADL` with SSE2. -/
def vmadlSse2 (a : VAcc) (vs vt : V16) : VAcc × V16 :=
  let prodHi := mmMulhiEpu16 vs vt
  let accLo := mmAddEpi16 a.l prodHi
  let overflow := mmCmpltEpu16 accLo prodHi
  let accMd := mmSubEpi16 a.m overflow
  let overflowNew := mmCmpeqEpi16 accMd mmSetzeroSi128
  let overflow := mmAndSi128 overflow overflowNew
  let accHi := mmSubEpi16 a.h overflow
  (⟨accHi, accMd, accLo⟩, clampLowSse2 accHi accMd accLo)

/-- The accumulation of the scalar `VMADM` and `VMADN`. -/
def accumulateScalar (a : VAcc) (product : Lane → BitVec 32) : VAcc :=
  let addend : Lane → BitVec 32 := fun i => (product i &&& 0x0000ffff) + (a.l i).setWidth 32
  let l : V16 := fun i => (addend i &&& 0x0000ffff).setWidth 16
  let addend : Lane → BitVec 32 := fun i => (addend i >>> 16) + (product i).sshiftRight 16
  let addend : Lane → BitVec 32 := fun i => addend i + (a.m i).setWidth 32
  let m : V16 := fun i => (addend i &&& 0x0000ffff).setWidth 16
  let h : V16 := fun i => a.h i + (addend i >>> 16).setWidth 16
  ⟨h, m, l⟩

/-- The accumulation of the SSE2 `VMADM` and `VMADN`. -/
def accumulateSse2 (a : VAcc) (prodHi prodLo : V16) : VAcc :=
  let accLo := mmAddEpi16 a.l prodLo
  let overflow := mmCmpltEpu16 accLo prodLo
  let prodHi := mmSubEpi16 prodHi overflow
  let accMd := mmAddEpi16 a.m prodHi
  let overflow := mmCmpltEpu16 accMd prodHi
  let prodHi := mmSraiEpi16 prodHi 15
  let accHi := mmAddEpi16 a.h prodHi
  let accHi := mmSubEpi16 accHi overflow
  ⟨accHi, accMd, accLo⟩

/-- `VMADM`, scalar. -/
def vmadmScalar (a : VAcc) (vs vt : V16) : VAcc × V16 :=
  let product : Lane → BitVec 32 := fun i => (vs i).signExtend 32 * (vt i).setWidth 32
  let a := accumulateScalar a product
  (a, signedClampAmScalar a)

/-- `VMADM` with SSE2. -/
def vmadmSse2 (a : VAcc) (vs vt : V16) : VAcc × V16 :=
  let prodLo := mmMulloEpi16 vs vt
  let prodHi := mmMulhiEpu16 vs vt
  let vs := mmSraiEpi16 vs 15
  let vt := mmAndSi128 vt vs
  let prodHi := mmSubEpi16 prodHi vt
  let a := accumulateSse2 a prodHi prodLo
  let vt := mmUnpackhiEpi16 a.m a.h
  let vs := mmUnpackloEpi16 a.m a.h
  let vs := mmPacksEpi32 vs vt
  (a, vs)

/-- `VMADN`, scalar. -/
def vmadnScalar (a : VAcc) (vs vt : V16) : VAcc × V16 :=
  let product : Lane → BitVec 32 := fun i => (vs i).setWidth 32 * (vt i).signExtend 32
  let a := accumulateScalar a product
  (a, signedClampAl signedClampAmScalar a)

/-- `VMADN` with SSE2. -/
def vmadnSse2 (a : VAcc) (vs vt : V16) : VAcc × V16 :=
  let prodLo := mmMulloEpi16 vs vt
  let prodHi := mmMulhiEpu16 vs vt
  let vt := mmSraiEpi16 vt 15
  let vs := mmAndSi128 vs vt
  let prodHi := mmSubEpi16 prodHi vs
  let a := accumulateSse2 a prodHi prodLo
  (a, clampLowSse2 a.h a.m a.l)

/-- `VMADH`, scalar. -/
def vmadhScalar (a : VAcc) (vs vt : V16) : VAcc × V16 :=
  let product : Lane → BitVec 32 := fun i => (vs i).signExtend 32 * (vt i).signExtend 32
  let addend : Lane → BitVec 32 := fun i =>
    (a.m i).setWidth 32 + ((product i).setWidth 16).setWidth 32
  let m : V16 := fun i => a.m i + (product i).setWidth 16
  let h : V16 := fun i => a.h i + ((addend i >>> 16) + (product i).sshiftRight 16).setWidth 16
  let a : VAcc := ⟨h, m, a.l⟩
  (a, signedClampAmScalar a)

/-- `VMADH` with SSE2. -/
def vmadhSse2 (a : VAcc) (vs vt : V16) : VAcc × V16 :=
  let prodHigh := mmMulhiEpi16 vs vt
  let vs := mmMulloEpi16 vs vt
  let accMid := a.m
  let vs := mmAddEpi16 vs accMid
  let m := vs
  let vt := a.h
  let vt := mmAddEpi16 vt prodHigh
  let vs := mmCmpltEpu16 vs accMid
  let vt := mmSubEpi16 vt vs
  let a : VAcc := ⟨vt, m, a.l⟩
  let vs := m
  let prodHigh := mmUnpackhiEpi16 vs vt
  let vs := mmUnpackloEpi16 vs vt
  let vs := mmPacksEpi32 vs prodHigh
  (a, vs)

-- ════════════════════════════════════════════════════════════════════════
-- The twelve operations
-- ════════════════════════════════════════════════════════════════════════

inductive VuMultiply where
  | vmulf | vmulu | vmudl | vmudm | vmudn | vmudh
  | vmacf | vmacu | vmadl | vmadm | vmadn | vmadh
  deriving DecidableEq, Repr

namespace VuMultiply

/-- The operation as compiled without `ARCH_MIN_SSE2`. -/
def scalar (op : VuMultiply) (a : VAcc) (vs vt : V16) : VAcc × V16 :=
  match op with
  | .vmulf => vmulfScalar vs vt
  | .vmulu => vmuluScalar vs vt
  | .vmudl => vmudlScalar vs vt
  | .vmudm => vmudmScalar vs vt
  | .vmudn => vmudnScalar vs vt
  | .vmudh => vmudhScalar vs vt
  | .vmacf => doMacf signedClampAmScalar a vs vt
  | .vmacu => doMacu signedClampAmScalar a vs vt
  | .vmadl => vmadlScalar a vs vt
  | .vmadm => vmadmScalar a vs vt
  | .vmadn => vmadnScalar a vs vt
  | .vmadh => vmadhScalar a vs vt

/-- The operation as compiled with `ARCH_MIN_SSE2`. -/
def sse2 (op : VuMultiply) (a : VAcc) (vs vt : V16) : VAcc × V16 :=
  match op with
  | .vmulf => vmulfSse2 vs vt
  | .vmulu => vmuluSse2 vs vt
  | .vmudl => vmudlSse2 vs vt
  | .vmudm => vmudmSse2 vs vt
  | .vmudn => vmudnSse2 vs vt
  | .vmudh => vmudhSse2 vs vt
  | .vmacf => doMacf signedClampAmSse2 a vs vt
  | .vmacu => doMacu signedClampAmSse2 a vs vt
  | .vmadl => vmadlSse2 a vs vt
  | .vmadm => vmadmSse2 a vs vt
  | .vmadn => vmadnSse2 a vs vt
  | .vmadh => vmadhSse2 a vs vt

end VuMultiply

end Mupen64plus
