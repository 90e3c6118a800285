import Mupen64plus.Device.ViAi
import Mupen64plus.Lib.ByteCodec

/-!
# Savestates

`savestates_load_m64p` of `savestates.c`, up to version 1.9 of the format, with the header that
`savestates_save_m64p` writes, and the two functions of `interrupt.c` that write and read the event
queue.

## Main definitions

- `loadMain`, `loadExtra`, `savestatesLoadM64p` — the reader, with the cursor of the source
- `saveHeader`, `saveEventqueueInfos`, `loadEventqueueInfos`

The loader is a list of fields in the order of its function. Versions before 1.3, whose extra state
is laid out differently, are not read.
-/

namespace Mupen64plus

open Codec

/-- The CP0 registers in the order of their numbers. -/
def Cp0Reg.block : List Cp0Reg :=
  [.index, .random, .entryLo0, .entryLo1, .context, .pageMask, .wired, .unused7,
    .badVAddr, .count, .entryHi, .compare, .status, .cause, .epc, .prevId,
    .config, .llAddr, .watchLo, .watchHi, .xContext, .unused21, .unused22, .unused23,
    .unused24, .unused25, .parityErr, .cacheErr, .tagLo, .tagHi, .errorEpc, .unused31]

def SiDmaDir.ofCode (code : BitVec 8) : SiDmaDir :=
  if code = 0 then .noDma else if code = 1 then .dmaRead else if code = 2 then .dmaWrite
  else .other code

def FlashramMode.ofCode (code : BitVec 16) : FlashramMode :=
  if code = 0 then .readArray else if code = 1 then .readSiliconId else if code = 2 then .status
  else if code = 3 then .sectorErase else if code = 4 then .chipErase
  else if code = 5 then .pageProgram else .other code

/-- The bytes of `savestate_magic`. -/
def savestateMagic : List (BitVec 8) := [0x4d, 0x36, 0x34, 0x2b, 0x53, 0x41, 0x56, 0x45]

/-- `savestate_latest_version`. -/
def savestateLatestVersion : BitVec 32 := 0x00010900

-- ════════════════════════════════════════════════════════════════════════
-- The event queue
-- ════════════════════════════════════════════════════════════════════════

/-- `save_eventqueue_infos`. -/
def saveEventqueueInfos (q : InterruptQueue) : List (BitVec 8) :=
  q.events.flatMap (fun e => u32.put e.type.code ++ u32.put e.count) ++ u32.put 0xffffffff

/-- The loop of `load_eventqueue_infos`, over the words of the buffer. -/
def loadEvents : ℕ → List (BitVec 8) → Cp0 → Cp0
  | 0, _, c => c
  | fuel + 1, buf, c =>
    if u32.get buf = 0xffffffff then c
    else
      loadEvents fuel (buf.drop 8)
        (addInterruptEventCount c (.ofCode (u32.get buf)) (u32.get (buf.drop 4)))

/-- `load_eventqueue_infos`. The buffer holds at most 128 pairs of words. -/
def loadEventqueueInfos (c : Cp0) (buf : List (BitVec 8)) : Cp0 :=
  let c := loadEvents 128 buf { c with q := clearQueue }
  let c := { c with q := removeEvent c.q .special }
  addInterruptEventCount c .special (specialCount c.count)

-- ════════════════════════════════════════════════════════════════════════
-- What both functions read
-- ════════════════════════════════════════════════════════════════════════

/-- The registers of a module in the order both functions use. -/
def rdramSaveOrder : List RdramReg :=
  [.config, .deviceId, .delay, .mode, .refInterval, .refRow, .rasInterval, .minInterval,
    .addrSelect, .deviceManuf]

/-- `rom + GB_CART_FINGERPRINT_OFFSET`. -/
def gbFingerprint (rom : Bytes) : Fin 0x1c → BitVec 8 := fun i => rom (0x134 + i)

namespace Device

/-- The disk id, when there is a disk. -/
def diskId (d : Device) : Option (BitVec 32) :=
  if d.dd.romSize = 0 then none
  else d.dd.disk.map fun disk => u32.get ((List.range 4).map fun i => disk.data (0x43670 + i))

/-- The header that `savestates_save_m64p` writes. -/
def saveHeader (d : Device) : List (BitVec 8) :=
  savestateMagic ++ (u32.put savestateLatestVersion).reverse ++ (array u8 32).put d.settings.md5

-- ════════════════════════════════════════════════════════════════════════
-- The loader
-- ════════════════════════════════════════════════════════════════════════

/-- `GETDATA(curr, uint32_t)` into some registers. -/
def getRegs {ι σ : Type*} (set : ι → BitVec 32 → σ → σ) (order : List ι) : List (Reader σ) :=
  order.map fun reg => Reader.field u32 (set reg)

def setRdramReg (m : Fin 8) (reg : RdramReg) (v : BitVec 32) (d : Device) : Device :=
  { d with rdram := { d.rdram with
      regs := Function.update d.rdram.regs m (Function.update (d.rdram.regs m) reg v) } }

def loadMi : List (Reader Device) :=
  [Reader.skip 4, Reader.field u32 fun v d => d.setMi .initMode v, Reader.skip 4,
    Reader.field u32 fun v d => d.setMi .version v, Reader.field u32 fun v d => d.setMi .intr v,
    Reader.field u32 fun v d => d.setMi .intrMask v, Reader.skip 4, Reader.skip 8]

def loadPi : List (Reader Device) :=
  getRegs (fun reg v d => d.setPi reg v) [.dramAddr, .cartAddr, .rdLen, .wrLen, .status,
    .bsdDom1Lat, .bsdDom1Pwd, .bsdDom1Pgs, .bsdDom1Rls, .bsdDom2Lat, .bsdDom2Pwd, .bsdDom2Pgs,
    .bsdDom2Rls]

def loadSp : List (Reader Device) :=
  getRegs (fun reg v d => d.setSp reg v) [.memAddr, .dramAddr, .rdLen, .wrLen] ++
  [Reader.skip 4, Reader.field u32 fun v d => d.setSp .status v, Reader.skip 16] ++
  getRegs (fun reg v d => d.setSp reg v) [.dmaFull, .dmaBusy, .semaphore] ++
  getRegs (fun reg v d => d.setSp2 reg v) [.pc, .ibist]

def loadSi : List (Reader Device) :=
  getRegs (fun reg v d => d.setSi reg v) [.dramAddr, .pifAddrRd64b, .pifAddrWr64b, .status]

def loadVi : List (Reader Device) :=
  getRegs (fun reg v d => d.setVi reg v) [.status, .origin, .width, .vIntr, .current, .burst,
    .vSync, .hSync, .leap, .hStart, .vStart, .vBurst, .xScale, .yScale] ++
  [Reader.field u32 fun v d => { d with vi := { d.vi with delay := v } }]

def loadRi : List (Reader Device) :=
  getRegs (fun reg v d => d.setRi reg v) [.mode, .config, .currentLoad, .select, .refresh, .latency,
    .error, .werror]

def setAiDuration (i : Fin 2) (v : BitVec 32) (d : Device) : Device :=
  d.setAiFifo i { d.ai.fifo i with duration := v }

def setAiLength (i : Fin 2) (v : BitVec 32) (d : Device) : Device :=
  d.setAiFifo i { d.ai.fifo i with length := v }

/-- The addresses of the two buffers are not saved; both start at `AI_DRAM_ADDR_REG`. -/
def guessAiAddresses (d : Device) : Device :=
  let d := d.setAiFifo 0 { d.ai.fifo 0 with address := d.ai.regs .dramAddr }
  let d := d.setAiFifo 1 { d.ai.fifo 1 with address := d.ai.regs .dramAddr }
  { d with ai := { d.ai with samplesFormatChanged := 1 } }

def loadAi : List (Reader Device) :=
  getRegs (fun reg v d => d.setAi reg v) [.dramAddr, .len, .control, .status, .dacrate, .bitrate] ++
  [Reader.field u32 (setAiDuration 1), Reader.field u32 (setAiLength 1),
    Reader.field u32 (setAiDuration 0), Reader.field u32 (setAiLength 0),
    Reader.act guessAiAddresses]

def loadDp : List (Reader Device) :=
  getRegs (fun reg v d => d.setDpc reg v) [.start, .stop, .current] ++
  [Reader.skip 4, Reader.field u32 fun v d => d.setDpc .status v, Reader.skip 12] ++
  getRegs (fun reg v d => d.setDpc reg v) [.clock, .bufbusy, .pipebusy, .tmem] ++
  getRegs (fun reg v d => d.setDps reg v) [.tbist, .testMode, .buftestAddr, .buftestData]

/-- An array stored over the front of a memory. -/
def overwrite {α : Type*} {n : ℕ} (f : Fin n → α) (m : ℕ → α) : ℕ → α := fun i =>
  if h : i < n then f ⟨i, h⟩ else m i

def loadMemories : List (Reader Device) :=
  [Reader.field (array u32 0x200000) fun f d => d.setDram (overwrite f d.rdram.dram),
    Reader.field (array u32 0x800) fun f d => d.setSpMem (overwrite f d.sp.mem),
    Reader.field (array u8 64) fun f d => d.setRam (overwrite f d.pif.ram)]

def loadUseFlashram : List (Reader Device) :=
  [Reader.field u32 fun v d => d.setUseFlashram v, Reader.skip 20,
    Reader.act fun d => d.setFlash (powerOnFlashram d.cart.flashram)]

def setTlb (f : Tlb → Tlb) (d : Device) : Device := d.onCp0 fun c => { c with tlb := f c.tlb }

/-- The table an array stands for. -/
def arrayLut (f : Fin 0x100000 → BitVec 32) : Lut := fun p => f p.toFin

/-- `set_fpr_pointers` with the Status register just read. -/
def setFprPointers (d : Device) : Device :=
  d.onR4300 fun r => { r with cp1 := { r.cp1 with fr := r.cp0Reg .status &&& 0x04000000 != 0 } }

def setCp0Reg (reg : Cp0Reg) (v : BitVec 32) (d : Device) : Device := d.onCp0 fun c => c.set reg v

/-- The tables of the TLB and the general registers. -/
def loadTables : List (Reader Device) :=
  [Reader.field (array u32 0x100000) fun f d => setTlb (fun t => { t with lutR := arrayLut f }) d,
    Reader.field (array u32 0x100000) fun f d => setTlb (fun t => { t with lutW := arrayLut f }) d,
    Reader.field u32 fun v d => d.onR4300 fun r => { r with llbit := v },
    Reader.field (array u64 32) fun f d => d.onR4300 fun r => { r with regs := f }]

/-- The multiplier and the floating point unit. -/
def loadCp1 : List (Reader Device) :=
  [Reader.field u64 fun v d => d.onR4300 fun r => { r with lo := v },
    Reader.field u64 fun v d => d.onR4300 fun r => { r with hi := v },
    Reader.field (array u64 32) fun f d =>
      d.onR4300 fun r => { r with cp1 := { r.cp1 with regs := f } },
    Reader.field u32 fun v d => d.onR4300 fun r => { r with cp1 := { r.cp1 with fcr0 := v } },
    Reader.field u32 fun v d => d.onR4300 fun r => { r with cp1 := { r.cp1 with fcr31 := v } },
    Reader.act setFprPointers]

def loadCore : List (Reader Device) := loadTables ++ (getRegs setCp0Reg Cp0Reg.block ++ loadCp1)

/-- An assignment to a field of entry `i` of the TLB. -/
def setEntry (i : Fin 32) (f : TlbEntry → TlbEntry) (d : Device) : Device :=
  setTlb (fun t => { t with entries := Function.update t.entries i (f (t.entries i)) }) d

def setEven (i : Fin 32) (f : TlbHalf → TlbHalf) (d : Device) : Device :=
  setEntry i (fun e => { e with even := f e.even }) d

def setOdd (i : Fin 32) (f : TlbHalf → TlbHalf) (d : Device) : Device :=
  setEntry i (fun e => { e with odd := f e.odd }) d

def loadTlbEntry (i : Fin 32) : List (Reader Device) :=
  [Reader.field u16 fun v => setEntry i fun e => { e with mask := v }, Reader.skip 2,
    Reader.field u32 fun v => setEntry i fun e => { e with vpn2 := v },
    Reader.field u8 fun v => setEntry i fun e => { e with g := v },
    Reader.field u8 fun v => setEntry i fun e => { e with asid := v }, Reader.skip 2,
    Reader.field u32 fun v => setEven i fun h => { h with pfn := v },
    Reader.field u8 fun v => setEven i fun h => { h with c := v },
    Reader.field u8 fun v => setEven i fun h => { h with d := v },
    Reader.field u8 fun v => setEven i fun h => { h with v := v }, Reader.skip 1,
    Reader.field u32 fun v => setOdd i fun h => { h with pfn := v },
    Reader.field u8 fun v => setOdd i fun h => { h with c := v },
    Reader.field u8 fun v => setOdd i fun h => { h with d := v },
    Reader.field u8 fun v => setOdd i fun h => { h with v := v },
    Reader.field u8 fun v => setEntry i fun e => { e with r := v },
    Reader.field u32 fun v => setEven i fun h => { h with start := v },
    Reader.field u32 fun v => setEven i fun h => { h with stop := v },
    Reader.field u32 fun v => setEven i fun h => { h with phys := v },
    Reader.field u32 fun v => setOdd i fun h => { h with start := v },
    Reader.field u32 fun v => setOdd i fun h => { h with stop := v },
    Reader.field u32 fun v => setOdd i fun h => { h with phys := v }]

/-- `savestates_load_set_pc`. -/
def savestatesLoadSetPc (pc : BitVec 32) (d : Device) : Device :=
  (d.onR4300 fun r => genericJumpTo r pc).invalidate 0 0

def loadTail : List (Reader Device) :=
  [Reader.field u32 savestatesLoadSetPc,
    Reader.field u32 fun v d => d.onCp0 fun c => { c with nextInterrupt := v }, Reader.skip 4,
    Reader.field u32 fun v d => { d with vi := { d.vi with field := v } }]

/-- The part of `savestates_load_m64p` up to the event queue. -/
def loadMain : List (Reader Device) :=
  getRegs (setRdramReg 0) rdramSaveOrder ++ (loadMi ++ (loadPi ++ (loadSp ++ (loadSi ++ (loadVi ++
  (loadRi ++ (loadAi ++ (loadDp ++ (loadMemories ++ (loadUseFlashram ++ (loadCore ++
  ((List.finRange 32).flatMap loadTlbEntry ++ loadTail))))))))))))

def setAfRtc (f : AfRtc → AfRtc) (d : Device) : Device :=
  { d with cart := { d.cart with afRtc := f d.cart.afRtc } }

/-- Whether the core itself manages a pak of controller `i`, rather than the input plugin. -/
def managesPak (d : Device) (enabled : Bool) (i : Fin 4) : Bool :=
  enabled && !d.settings.rawData i && d.settings.standardController i

/-- The state of a rumble pak, read in any case and kept when the core manages the pak. -/
def loadRumble (i : Fin 4) : Reader Device :=
  Reader.field u8 fun v d =>
    if d.managesPak d.settings.rumble i then
      { d with rumbleState := Function.update d.rumbleState i v }
    else d

/-- The fields of a cartridge in the order the loader reads them. -/
structure GbCartState where
  romBank : BitVec 32
  ramBank : BitVec 32
  ramEnable : BitVec 32
  mbc1Mode : BitVec 32
  rtcLatch : BitVec 32
  rtcLastTime : BitVec 64
  rtcRegs : Fin 5 → BitVec 8
  rtcLatchedRegs : Fin 5 → BitVec 8
  camRegs : Fin 0x36 → BitVec 8

/-- The local variables of the loader before it reads a cartridge. -/
def GbCartState.zero : GbCartState := ⟨0, 0, 0, 0, 0, 0, fun _ => 0, fun _ => 0, fun _ => 0⟩

def loadGbCart : List (Reader GbCartState) :=
  [Reader.field u32 fun v s => { s with romBank := v },
    Reader.field u32 fun v s => { s with ramBank := v },
    Reader.field u32 fun v s => { s with ramEnable := v },
    Reader.field u32 fun v s => { s with mbc1Mode := v },
    Reader.field u32 fun v s => { s with rtcLatch := v },
    Reader.field u64 fun v s => { s with rtcLastTime := v },
    Reader.field (array u8 5) fun f s => { s with rtcRegs := f },
    Reader.field (array u8 5) fun f s => { s with rtcLatchedRegs := f },
    Reader.field (array u8 0x36) fun f s => { s with camRegs := f }]

/-- The state of a cartridge taken over from a savestate. -/
def GbCartState.restore (s : GbCartState) (c : GbCart) : GbCart :=
  { c with
    romBank := s.romBank
    ramBank := s.ramBank
    ramEnable := s.ramEnable
    mbc1Mode := s.mbc1Mode
    rtc :=
      { regs := s.rtcRegs
        latch := s.rtcLatch
        latchedRegs := s.rtcLatchedRegs
        lastTime := s.rtcLastTime }
    camRegs := s.camRegs }

/-- `poweron_gb_cart`. -/
def powerOnGbCart (c : GbCart) : GbCart :=
  { c with
    romBank := 1
    ramBank := 0
    ramEnable := 0
    mbc1Mode := 0
    rtc := if c.hasRtc then ⟨fun _ => 0, 0, fun _ => 0, 0⟩ else c.rtc
    camRegs := if c.hasCamera then fun _ => 0 else c.camRegs }

/-- The four registers of a transfer pak. -/
structure PakRegs where
  enabled : BitVec 32
  bank : BitVec 32
  accessMode : BitVec 32
  accessModeChanged : BitVec 32
  fingerprint : Fin 0x1c → BitVec 8

def loadPakRegs : List (Reader PakRegs) :=
  [Reader.field u32 fun v s => { s with enabled := v },
    Reader.field u32 fun v s => { s with bank := v },
    Reader.field u32 fun v s => { s with accessMode := v },
    Reader.field u32 fun v s => { s with accessModeChanged := v },
    Reader.field (array u8 0x1c) fun f s => { s with fingerprint := f }]

/-- What the loader does to a pak it manages. The cartridge is restored when its fingerprint is
    the saved one, and powered on otherwise. -/
def restorePak (regs : PakRegs) (s : GbCartState) (t : TransferPak) : TransferPak where
  enabled := regs.enabled
  bank := regs.bank
  accessMode := regs.accessMode
  accessModeChanged := regs.accessModeChanged
  gbCart := t.gbCart.map fun c =>
    if regs.fingerprint 0 ≠ 0 ∧ regs.fingerprint = gbFingerprint c.rom then s.restore c
    else powerOnGbCart c

/-- One round of the loop over transfer paks. Whether the cartridge's own state is read depends
    on the first byte of the saved fingerprint. -/
def loadTransferPak (i : Fin 4) : Reader Device := fun (curr, d) =>
  let (curr, regs) := Reader.run loadPakRegs (curr, ⟨0, 0, 0, 0, fun _ => 0⟩)
  let (curr, s) :=
    if regs.fingerprint 0 ≠ 0 then Reader.run loadGbCart (curr, .zero) else (curr, .zero)
  if d.managesPak d.settings.transferpak i then
    (curr, { d with transferpaks :=
      Function.update d.transferpaks i (restorePak regs s (d.transferpaks i)) })
  else (curr, d)

/-- One round of the loop over PIF channels. -/
def loadChannel (o : Outside) (k : Fin 5) : Reader Device :=
  Reader.field u8 fun v d =>
    if 0 ≤ v.toInt then (setupPifChannel o d k (.ram v.toNat)).2 else d.disablePifChannel k

def loadDdFields : List (Reader Device) :=
  getRegs (fun reg v d => d.setDd reg v) DdReg.block ++
  [Reader.act fun d => { d with dd := { d.dd with
      c2sBuf := fun k => if k < 0x400 then 0 else d.dd.c2sBuf k } },
    Reader.field (array u8 0x100) fun f d =>
      { d with dd := { d.dd with dsBuf := overwrite f d.dd.dsBuf } },
    Reader.field (array u8 0x40) fun f d =>
      { d with dd := { d.dd with msRam := overwrite f d.dd.msRam } },
    Reader.field u64 fun v d => { d with dd := { d.dd with rtc := { d.dd.rtc with now := v } } },
    Reader.field u64 fun v d =>
      { d with dd := { d.dd with rtc := { d.dd.rtc with lastUpdateRtc := v } } },
    Reader.field u32 fun v d => { d with dd := { d.dd with bmWrite := v.truncate 8 } },
    Reader.field u32 fun v d => { d with dd := { d.dd with bmResetHeld := v.truncate 8 } },
    Reader.skip 4, Reader.field u32 fun v d => { d with dd := { d.dd with bmZone := v } },
    Reader.skip 4]

/-- The drive is restored when the disk in it is the saved one. -/
def loadDd : Reader Device := fun (curr, d) =>
  let id := u32.get curr
  let curr := curr.drop 4
  if d.diskId = some id then Reader.run loadDdFields (curr, d)
  else (curr.drop ((3 + 19) * 4 + 0x100 + 0x40 + 2 * 8 + 2 * 4), d)

def setSpDma (i : Fin 2) (f : SpDma → SpDma) (d : Device) : Device :=
  d.setSpFifo i (f (d.sp.fifo i))

def loadSpDma (i : Fin 2) : List (Reader Device) :=
  [Reader.field u32 fun v => setSpDma i fun dma => { dma with dir := v },
    Reader.field u32 fun v => setSpDma i fun dma => { dma with length := v },
    Reader.field u32 fun v => setSpDma i fun dma => { dma with memaddr := v },
    Reader.field u32 fun v => setSpDma i fun dma => { dma with dramaddr := v }]

def loadFlashram : List (Reader Device) :=
  [Reader.field (array u8 128) fun f d => d.setFlash { d.cart.flashram with pageBuf := f },
    Reader.field (array u32 2) fun f d => d.setFlash { d.cart.flashram with siliconId := f },
    Reader.field u32 fun v d => d.setFlash { d.cart.flashram with status := v },
    Reader.field u16 fun v d => d.setFlash { d.cart.flashram with erasePage := v },
    Reader.field u16 fun v d => d.setFlash { d.cart.flashram with mode := .ofCode v }]

def loadLatches : List (Reader Device) :=
  [Reader.field u64 fun v d => d.onCp0 fun c => { c with latch := v },
    Reader.field u64 fun v d => d.onR4300 fun r => { r with cp2Latch := v }]

/-- The extra state of AI, cartridge and controllers. -/
def loadExtraHead : List (Reader Device) :=
  [Reader.field u32 fun v d => { d with ai := { d.ai with lastRead := v } },
    Reader.field u32 fun v d => { d with ai := { d.ai with delayedCarry := v } },
    Reader.field u32 fun v d =>
      { d with cart := { d.cart with cartRom := { d.cart.cartRom with lastWrite := v } } },
    Reader.skip 4, Reader.skip 4,
    Reader.field u16 fun v => setAfRtc fun rtc => { rtc with control := v }, Reader.skip 2,
    Reader.field u64 fun v => setAfRtc fun rtc => { rtc with now := v },
    Reader.field u64 fun v => setAfRtc fun rtc => { rtc with lastUpdateRtc := v },
    Reader.field (array u8 4) fun f d => { d with controllerStatus := f }]

/-- The extra state of SI, DP and VI. -/
def loadExtraRcp : List (Reader Device) :=
  [Reader.field u8 fun v d => d.setDmaDir (.ofCode v),
    Reader.field u8 fun v d => { d with dp := { d.dp with doOnUnfreeze := v } },
    Reader.field u32 fun v d => { d with vi := { d.vi with countPerScanline := v } }]

/-- The part of `savestates_load_m64p` for versions 1.3 and later. -/
def loadExtra (o : Outside) (version : BitVec 32) : List (Reader Device) :=
  loadExtraHead ++ ((List.finRange 4).map loadRumble ++ ((List.finRange 4).map loadTransferPak ++
  ((List.finRange 5).map (loadChannel o) ++ (loadExtraRcp ++
  ([1, 2, 3, 4, 5, 6, 7].flatMap (fun i => getRegs (setRdramReg i) rdramSaveOrder) ++
  ((if 0x00010400 ≤ version then [loadDd] else []) ++
  ((if 0x00010500 ≤ version then [Reader.skip 4] else []) ++
  ((if 0x00010700 ≤ version then loadSpDma 0 ++ loadSpDma 1
    else [Reader.act fun d => { d with sp := { d.sp with fifo := fun _ => ⟨0, 0, 0, 0⟩ } }]) ++
  ((if 0x00010800 ≤ version then loadFlashram else []) ++
  (if 0x00010900 ≤ version then loadLatches else []))))))))))

/-- The end of `savestates_load_m64p`. -/
def loadFinish (d : Device) : Device :=
  let d := { d with sp := { d.sp with rspTaskLocked := 0 } }
  d.onR4300 fun r => { r with cp0 := { r.cp0 with interruptUnsafeState := 0, lastAddr := r.pc } }

/-- The answers of `savestates_load_m64p`. -/
inductive LoadResult where
  | rejected
  | older
  | loaded (d : Device)

/-- The version of a savestate, which is stored with its most significant byte first. -/
def savestateVersion (data : List (BitVec 8)) : BitVec 32 :=
  u32.get ((data.drop 8).take 4).reverse

/-- Whether the header is one the loader goes on from. -/
def headerAccepted (d : Device) (data : List (BitVec 8)) : Bool :=
  data.take 8 == savestateMagic && savestateVersion data >>> 16 == savestateLatestVersion >>> 16 &&
    (data.drop 12).take 32 == (array u8 32).put d.settings.md5

/-- `savestateSize`. -/
def savestateSize : ℕ := 16788244

/-- The body of `savestates_load_m64p`, behind the header. -/
def loadBody (o : Outside) (version : BitVec 32) (body : List (BitVec 8)) (d : Device) : Device :=
  let d := (Reader.run loadMain (body.take savestateSize, d)).2
  let d := d.onCp0 fun c => loadEventqueueInfos c ((body.drop savestateSize).take 1024)
  let extra := (body.drop (savestateSize + 1024 + 4)).take 4096
  (Reader.run (loadExtra o version) (extra, d)).2.loadFinish

/-- `savestates_load_m64p`. -/
def savestatesLoadM64p (o : Outside) (data : List (BitVec 8)) (d : Device) : LoadResult :=
  if !d.headerAccepted data then .rejected
  else if savestateVersion data < 0x00010300 then .older
  else .loaded (loadBody o (savestateVersion data) (data.drop 44) d)

end Device

end Mupen64plus
