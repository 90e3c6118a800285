import Mupen64plus.Hle.Memory

/-!
# Detecting a task

`hle_execute` runs the handler of the microcode the RSP was started with. Detection reads the task
header at the end of DMEM, the data and the bytes of the microcode in RDRAM, and IMEM; what it
finds is kept in a cache of sixteen entries.

## Main definitions

- `taskDetection` — the handler for the current memories
- `hleExecute` — the handler called, and the cache after it
-/

namespace Mupen64plus

/-- The handlers a task can have. -/
inductive Ucode where
  | alistProcessAudio | alistProcessAudioGe | alistProcessAudioBc
  | alistProcessNeadMk | alistProcessNeadSfj | alistProcessNeadWrjb | alistProcessNeadSf
  | alistProcessNeadFz | alistProcessNeadYs | alistProcessNead1080 | alistProcessNeadOot
  | alistProcessNeadMm | alistProcessNeadMmb | alistProcessNeadAc | alistProcessNeadMats
  | alistProcessNeadEfz
  | alistProcessNaudio | alistProcessNaudioBk | alistProcessNaudioDk | alistProcessNaudioMp3
  | alistProcessNaudioCbfd
  | musyxV1Task | musyxV2Task
  | taskDone | jpegDecodePs0 | jpegDecodePs | jpegDecodeOb
  | resizeBilinearTask | decodeVideoFrameTask | fillVideoDoubleBufferTask
  | hvqm2DecodeSp1Task | hvqm2DecodeSp2Task
  | cicx105Ucode | sendAlistToAudioPlugin | sendDlistToGfxPlugin | unknownUcode | unknownTask
  deriving DecidableEq, Repr

/-- `hle_gfx` and `hle_aud`: what is forwarded to the other plugins. -/
structure HleConfig where
  gfx : Bool
  aud : Bool

-- ════════════════════════════════════════════════════════════════════════
-- The task header
-- ════════════════════════════════════════════════════════════════════════

namespace HleMemory

def taskType (m : HleMemory) : BitVec 32 := m.dmemU32 0xfc0
def taskUcodeBootSize (m : HleMemory) : BitVec 32 := m.dmemU32 0xfcc
def taskUcode (m : HleMemory) : BitVec 32 := m.dmemU32 0xfd0
def taskUcodeSize (m : HleMemory) : BitVec 32 := m.dmemU32 0xfd4
def taskUcodeData (m : HleMemory) : BitVec 32 := m.dmemU32 0xfd8
def taskUcodeDataSize (m : HleMemory) : BitVec 32 := m.dmemU32 0xfdc

end HleMemory

/-- `sum_bytes`. -/
def sumBytes (m : Bytes) (start size : ℕ) : ℕ :=
  (List.range size).foldl (fun sum i => sum + (m (start + i)).toNat) 0

/-- `sum_bytes` from the first byte of the microcode. -/
def sumUcode (m : HleMemory) (size : ℕ) : ℕ :=
  sumBytes m.dram (m.taskUcode &&& 0xffffff#32).toNat size

-- ════════════════════════════════════════════════════════════════════════
-- Detection
-- ════════════════════════════════════════════════════════════════════════

/-- `is_task`. -/
def isTask (m : HleMemory) : Bool := m.taskUcodeBootSize ≤ 0x1000

/-- `try_audio_task_detection`. -/
def tryAudioTaskDetection (m : HleMemory) : Option Ucode :=
  let ucodeData := m.taskUcodeData
  if m.dramU32 ucodeData = 0x00000001 then
    if m.dramU32 (ucodeData + 0x30) = 0xf0000f00 then
      match (m.dramU32 (ucodeData + 0x28)).toNat with
      | 0x1e24138c => some .alistProcessAudio
      | 0x1dc8138c => some .alistProcessAudioGe
      | 0x1e3c1390 => some .alistProcessAudioBc
      | _ => none
    else
      match (m.dramU32 (ucodeData + 0x10)).toNat with
      | 0x11181350 => some .alistProcessNeadMk
      | 0x111812e0 => some .alistProcessNeadSfj
      | 0x110412ac => some .alistProcessNeadWrjb
      | 0x110412cc => some .alistProcessNeadSf
      | 0x1cd01250 => some .alistProcessNeadFz
      | 0x1f08122c => some .alistProcessNeadYs
      | 0x1f38122c => some .alistProcessNead1080
      | 0x1f681230 => some .alistProcessNeadOot
      | 0x1f801250 => some .alistProcessNeadMm
      | 0x109411f8 => some .alistProcessNeadMmb
      | 0x1eac11b8 => some .alistProcessNeadAc
      | 0x00010010 => some .musyxV2Task
      | 0x1f701238 => some .alistProcessNeadMats
      | 0x1f4c1230 => some .alistProcessNeadEfz
      | _ => none
  else
    match (m.dramU32 (ucodeData + 0x10)).toNat with
    | 0x00000001 => some .musyxV1Task
    | 0x0000127c => some .alistProcessNaudio
    | 0x00001280 => some .alistProcessNaudioBk
    | 0x1c58126c => some .alistProcessNaudioDk
    | 0x1ae8143c => some .alistProcessNaudioMp3
    | 0x1ab0140c => some .alistProcessNaudioCbfd
    | _ => none

/-- The end of `try_normal_task_detection`: Resident Evil 2, then HVQM. -/
def tryVideoTaskDetection (m : HleMemory) : Option Ucode :=
  match sumUcode m 256 with
  | 0x450f => some .resizeBilinearTask
  | 0x3b44 => some .decodeVideoFrameTask
  | 0x3d84 => some .fillVideoDoubleBufferTask
  | _ =>
    match sumUcode m 1488 with
    | 0x19495 => some .hvqm2DecodeSp1Task
    | 0x19728 => some .hvqm2DecodeSp2Task
    | _ => none

/-- `try_normal_task_detection`. -/
def tryNormalTaskDetection (config : HleConfig) (m : HleMemory) : Option Ucode :=
  match sumUcode m (min m.taskUcodeSize.toNat 0xf80 >>> 1) with
  | 0x278 => some .taskDone
  | 0x212ee => if config.gfx then some .sendDlistToGfxPlugin else none
  | 0x2c85a => some .jpegDecodePs0
  | 0x2caa6 => some .jpegDecodePs
  | 0x130de | 0x278b0 => some .jpegDecodeOb
  | _ => tryVideoTaskDetection m

/-- `non_task_detection`. -/
def nonTaskDetection (m : HleMemory) : Ucode :=
  if sumBytes m.imem 0 44 = 0x9e2 then .cicx105Ucode else .unknownUcode

/-- The end of `task_detection`, for a task whose audio microcode was not recognised. -/
def otherTaskDetection (config : HleConfig) (m : HleMemory) : Ucode :=
  match tryNormalTaskDetection config m with
  | some ucode => ucode
  | none =>
    if m.taskType = 1 ∧ config.gfx then .sendDlistToGfxPlugin else .unknownTask

/-- `task_detection`. -/
def taskDetection (config : HleConfig) (m : HleMemory) : Ucode :=
  if isTask m then
    if m.taskType = 2 then
      if config.aud then .sendAlistToAudioPlugin
      else
        match tryAudioTaskDetection m with
        | some ucode => ucode
        | none => otherTaskDetection config m
    else otherTaskDetection config m
  else nonTaskDetection m

-- ════════════════════════════════════════════════════════════════════════
-- The cache
-- ════════════════════════════════════════════════════════════════════════

/-- `CACHED_UCODES_MAX_SIZE`. -/
def cachedUcodesMaxSize : ℕ := 16

/-- `struct ucode_info_t`. -/
structure UcodeInfo where
  ucStart : BitVec 32
  ucDstart : BitVec 32
  ucDsize : BitVec 16
  ucPfunc : Ucode
  deriving DecidableEq, Repr

/-- The comparison in the loop of `hle_execute`. -/
def UcodeInfo.isFor (info : UcodeInfo) (m : HleMemory) : Bool :=
  info.ucStart == m.taskUcode && info.ucDstart == m.taskUcodeData &&
    info.ucDsize.zeroExtend 32 == m.taskUcodeDataSize

/-- The entry `hle_execute` makes for a task that is not in the cache. -/
def newUcodeInfo (config : HleConfig) (m : HleMemory) : UcodeInfo where
  ucStart := m.taskUcode
  ucDstart := m.taskUcodeData
  ucDsize := m.taskUcodeDataSize.truncate 16
  ucPfunc := taskDetection config m

/-- `hle_execute`: the handler that is called and the cache, its entries in order. The cache is
    searched from its last entry. `none` is a write behind the end of `infos`; the assertions after
    it are compiled out. -/
def hleExecute (config : HleConfig) (infos : List UcodeInfo) (m : HleMemory) :
    Option (Ucode × List UcodeInfo) :=
  match infos.reverse.find? (·.isFor m) with
  | some info => some (info.ucPfunc, infos)
  | none =>
    if infos.length < cachedUcodesMaxSize then
      some (taskDetection config m, infos ++ [newUcodeInfo config m])
    else none

end Mupen64plus
