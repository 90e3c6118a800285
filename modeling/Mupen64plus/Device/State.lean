import Mupen64plus.Device.Memory
import Mupen64plus.R4300.Core

/-!
# The devices of the console

The records of `struct device`, one for each `struct` of the source, with the registers of each
block as an enumeration in the order of the source.

## Main definitions

- `MiReg`, `RiReg`, `RdramReg`, `PiReg`, `SiReg`, `ViReg`, `AiReg`, `SpReg`, `SpReg2`, `DpcReg`,
  `DpsReg`, `DdReg` — the registers
- `MiController`, …, `DdController` — the devices
- `Device` — `struct device`, with the settings and the cheats the main module keeps beside it

Pointers from one device to another are gone: every function of a device takes the whole
`Device`. Back-ends are gone too: what they are asked for is part of `Outside`.
-/

namespace Mupen64plus

-- ════════════════════════════════════════════════════════════════════════
-- Registers
-- ════════════════════════════════════════════════════════════════════════

/-- `enum mi_registers`. -/
inductive MiReg where
  | initMode | version | intr | intrMask
  deriving DecidableEq, Repr

/-- `enum ri_registers`. -/
inductive RiReg where
  | mode | config | currentLoad | select | refresh | latency | error | werror
  deriving DecidableEq, Repr

/-- `enum rdram_registers`. -/
inductive RdramReg where
  | config | deviceId | delay | mode | refInterval | refRow | rasInterval | minInterval
  | addrSelect | deviceManuf
  deriving DecidableEq, Repr

/-- `enum pi_registers`. -/
inductive PiReg where
  | dramAddr | cartAddr | rdLen | wrLen | status
  | bsdDom1Lat | bsdDom1Pwd | bsdDom1Pgs | bsdDom1Rls
  | bsdDom2Lat | bsdDom2Pwd | bsdDom2Pgs | bsdDom2Rls
  deriving DecidableEq, Repr

/-- `enum si_registers`. -/
inductive SiReg where
  | dramAddr | pifAddrRd64b | r2 | r3 | pifAddrWr64b | r5 | status
  deriving DecidableEq, Repr

/-- `enum vi_registers`. -/
inductive ViReg where
  | status | origin | width | vIntr | current | burst | vSync | hSync | leap | hStart
  | vStart | vBurst | xScale | yScale
  deriving DecidableEq, Repr

/-- `enum ai_registers`. -/
inductive AiReg where
  | dramAddr | len | control | status | dacrate | bitrate
  deriving DecidableEq, Repr

/-- `enum sp_registers`. -/
inductive SpReg where
  | memAddr | dramAddr | rdLen | wrLen | status | dmaFull | dmaBusy | semaphore
  deriving DecidableEq, Repr

/-- `enum sp_registers2`. -/
inductive SpReg2 where
  | pc | ibist
  deriving DecidableEq, Repr

/-- `enum dpc_registers`. -/
inductive DpcReg where
  | start | stop | current | status | clock | bufbusy | pipebusy | tmem
  deriving DecidableEq, Repr

/-- `enum dps_registers`. -/
inductive DpsReg where
  | tbist | testMode | buftestAddr | buftestData
  deriving DecidableEq, Repr

/-- `enum dd_registers`. -/
inductive DdReg where
  | data | miscReg | cmdStatus | curTk | bmStatusCtl | errSector | seqStatusCtl | curSector
  | hardReset | c1S0 | hostSecbyte | c1S2 | secByte | c1S4 | c1S6 | curAddr | idReg | testReg
  | testPinSel
  deriving DecidableEq, Repr

def MiReg.block : List MiReg := [.initMode, .version, .intr, .intrMask]

def RiReg.block : List RiReg :=
  [.mode, .config, .currentLoad, .select, .refresh, .latency, .error, .werror]

def RdramReg.block : List RdramReg :=
  [.config, .deviceId, .delay, .mode, .refInterval, .refRow, .rasInterval, .minInterval,
    .addrSelect, .deviceManuf]

def PiReg.block : List PiReg :=
  [.dramAddr, .cartAddr, .rdLen, .wrLen, .status, .bsdDom1Lat, .bsdDom1Pwd, .bsdDom1Pgs,
    .bsdDom1Rls, .bsdDom2Lat, .bsdDom2Pwd, .bsdDom2Pgs, .bsdDom2Rls]

def SiReg.block : List SiReg :=
  [.dramAddr, .pifAddrRd64b, .r2, .r3, .pifAddrWr64b, .r5, .status]

def ViReg.block : List ViReg :=
  [.status, .origin, .width, .vIntr, .current, .burst, .vSync, .hSync, .leap, .hStart,
    .vStart, .vBurst, .xScale, .yScale]

def AiReg.block : List AiReg := [.dramAddr, .len, .control, .status, .dacrate, .bitrate]

def SpReg.block : List SpReg :=
  [.memAddr, .dramAddr, .rdLen, .wrLen, .status, .dmaFull, .dmaBusy, .semaphore]

def SpReg2.block : List SpReg2 := [.pc, .ibist]

def DpcReg.block : List DpcReg :=
  [.start, .stop, .current, .status, .clock, .bufbusy, .pipebusy, .tmem]

def DpsReg.block : List DpsReg := [.tbist, .testMode, .buftestAddr, .buftestData]

def DdReg.block : List DdReg :=
  [.data, .miscReg, .cmdStatus, .curTk, .bmStatusCtl, .errSector, .seqStatusCtl, .curSector,
    .hardReset, .c1S0, .hostSecbyte, .c1S2, .secByte, .c1S4, .c1S6, .curAddr, .idReg, .testReg,
    .testPinSel]

-- ════════════════════════════════════════════════════════════════════════
-- The reality coprocessor
-- ════════════════════════════════════════════════════════════════════════

structure MiController where
  regs : MiReg → BitVec 32

structure RiController where
  regs : RiReg → BitVec 32

/-- `struct rdram`; `corrupt` tells which read handler `map_corrupt_rdram` installed last. -/
structure Rdram where
  regs : Fin 8 → RdramReg → BitVec 32
  dram : Words
  dramSize : ℕ
  corrupt : Bool

structure PiController where
  regs : PiReg → BitVec 32

/-- `enum si_dma_dir`, held in a byte. -/
inductive SiDmaDir where
  | noDma | dmaRead | dmaWrite
  | other (code : BitVec 8)
  deriving DecidableEq, Repr

structure SiController where
  regs : SiReg → BitVec 32
  dmaDir : SiDmaDir
  dmaDuration : BitVec 32

/-- `struct vi_controller`; `countPerScanlineOverride` is the core option of that name. -/
structure ViController where
  regs : ViReg → BitVec 32
  field : BitVec 32
  delay : BitVec 32
  clock : BitVec 32
  expectedRefreshRate : BitVec 32
  countPerScanline : BitVec 32
  countPerScanlineOverride : BitVec 32

structure AiDma where
  address : BitVec 32
  length : BitVec 32
  duration : BitVec 32
  deriving DecidableEq, Repr

/-- `struct ai_controller`; `dmaModifier` is the product with the float of that name, and `pushed`
    and `frequency` what the audio back-end was given. -/
structure AiController where
  regs : AiReg → BitVec 32
  fifo : Fin 2 → AiDma
  samplesFormatChanged : BitVec 32
  lastRead : BitVec 32
  delayedCarry : BitVec 32
  dmaModifier : BitVec 32 → BitVec 32
  frequency : BitVec 32
  pushed : List (BitVec 8)

/-- `struct sp_dma`; `dir` is 0 for `SP_DMA_READ`. -/
structure SpDma where
  dir : BitVec 32
  length : BitVec 32
  memaddr : BitVec 32
  dramaddr : BitVec 32
  deriving DecidableEq, Repr

/-- `struct rsp_core`; the words of `mem` are DMEM, then IMEM. -/
structure RspCore where
  mem : Words
  regs : SpReg → BitVec 32
  regs2 : SpReg2 → BitVec 32
  rspTaskLocked : BitVec 32
  fifo : Fin 2 → SpDma

structure RdpCore where
  dpcRegs : DpcReg → BitVec 32
  dpsRegs : DpsReg → BitVec 32
  doOnUnfreeze : BitVec 8

-- ════════════════════════════════════════════════════════════════════════
-- PIF and controllers
-- ════════════════════════════════════════════════════════════════════════

/-- `enum cic_version`. -/
inductive CicVersion where
  | x101 | x102 | x103 | x105 | x106 | v5101 | v5167 | v8303 | v8401 | v8501
  deriving DecidableEq, Repr

structure Cic where
  version : CicVersion
  seed : BitVec 32

/-- The buffer a channel was set up on: PIF RAM from an offset, or the dummy buffer that
    `setup_channels_format` resets a device with. -/
inductive ChannelBuf where
  | ram (offset : ℕ)
  | dummyReset
  deriving DecidableEq, Repr

/-- `struct pif_channel` with its pointers set: `tx` is the first byte of the buffer, `rx` the
    second, `tx_buf` the third, and `rx_buf` is `rxBuf` bytes from the first. -/
structure PifChannel where
  buf : ChannelBuf
  rxBuf : ℕ
  deriving DecidableEq, Repr

/-- `struct pif`; a channel is `none` when its pointers are NULL. The words of `rom` are in the
    order `read_pif_mem` answers them. -/
structure Pif where
  rom : Words
  ram : Bytes
  channels : Fin 5 → Option PifChannel
  dummyResetBuffer : Fin 5 → Fin 6 → BitVec 8
  cic : Cic

structure Mbc3Rtc where
  regs : Fin 5 → BitVec 8
  latch : BitVec 32
  latchedRegs : Fin 5 → BitVec 8
  lastTime : BitVec 64

/-- The memory controllers `parse_cart_type` tells apart. -/
inductive Mbc where
  | nombc | mbc1 | mbc2 | mbc3 | mbc5 | mbc6 | mbc7 | mmm01
  | pocketCam | bandaiTama5 | huc1 | huc3
  deriving DecidableEq, Repr

/-- A storage backend of a cartridge RAM; `data` is `none` when the backend answers NULL. -/
structure GbRam where
  data : Option Bytes
  size : ℕ

/-- `struct gb_cart`, with the bytes of its ROM and two of its `extra_devices`. `mbc` stands for
    the handlers `parse_cart_type` chose, and `ram` is `none` when `iram_storage` is NULL. -/
structure GbCart where
  mbc : Mbc
  romSize : ℕ
  ram : Option GbRam
  rom : Bytes
  hasRtc : Bool
  hasCamera : Bool
  romBank : BitVec 32
  ramBank : BitVec 32
  ramEnable : BitVec 32
  mbc1Mode : BitVec 32
  rtc : Mbc3Rtc
  camRegs : Fin 0x36 → BitVec 8

structure TransferPak where
  enabled : BitVec 32
  bank : BitVec 32
  accessMode : BitVec 32
  accessModeChanged : BitVec 32
  gbCart : Option GbCart

-- ════════════════════════════════════════════════════════════════════════
-- Cartridge and disk drive
-- ════════════════════════════════════════════════════════════════════════

structure CartRom where
  rom : Words
  romSize : ℕ
  lastWrite : BitVec 32

/-- `enum flashram_mode`; a savestate may hold other codes. -/
inductive FlashramMode where
  | readArray | readSiliconId | status | sectorErase | chipErase | pageProgram
  | other (code : BitVec 16)
  deriving DecidableEq, Repr

structure Flashram where
  pageBuf : Fin 128 → BitVec 8
  siliconId : Fin 2 → BitVec 32
  status : BitVec 32
  erasePage : BitVec 16
  mode : FlashramMode
  mem : Words

structure AfRtc where
  control : BitVec 16
  now : BitVec 64
  lastUpdateRtc : BitVec 64

/-- `struct cart`; `sram` is the save memory, and `useFlashram` is −1, 0 or 1. -/
structure Cart where
  afRtc : AfRtc
  cartRom : CartRom
  flashram : Flashram
  sram : Words
  useFlashram : BitVec 32

structure DdRtc where
  now : BitVec 64
  lastUpdateRtc : BitVec 64

inductive DiskFormat where
  | mame | sdk | d64
  deriving DecidableEq, Repr

/-- `struct dd_disk`, with the data and the size of its storage. -/
structure DdDisk where
  data : Bytes
  size : ℕ
  lbaPhysTable : ℕ → BitVec 16
  format : DiskFormat
  development : Bool
  offsetSys : ℕ
  offsetId : ℕ
  offsetRam : ℕ

/-- `struct dd_controller`; `disk` is `none` when `idisk` is NULL. -/
structure DdController where
  regs : DdReg → BitVec 32
  c2sBuf : Bytes
  dsBuf : Bytes
  msRam : Bytes
  diskType : BitVec 8
  timerStandby : BitVec 16
  timerSleep : BitVec 16
  bmWrite : BitVec 8
  bmResetHeld : BitVec 8
  bmZone : BitVec 32
  rtc : DdRtc
  rom : Words
  romSize : ℕ
  disk : Option DdDisk

-- ════════════════════════════════════════════════════════════════════════
-- The device
-- ════════════════════════════════════════════════════════════════════════

/-- `struct cheat_code`. -/
structure CheatCode where
  address : BitVec 32
  value : BitVec 32
  oldValue : BitVec 32
  deriving DecidableEq, Repr

structure Cheat where
  name : String
  enabled : Bool
  wasEnabled : Bool
  codes : List CheatCode
  deriving DecidableEq, Repr

/-- The parts of `ROM_SETTINGS`, `ROM_PARAMS` and `Controls` the device model reads. -/
structure Settings where
  md5 : Fin 32 → BitVec 8
  rumble : Bool
  transferpak : Bool
  rawData : Fin 4 → Bool
  standardController : Fin 4 → Bool
  tvType : BitVec 32

/-- `struct device`, with `g_cheat_ctx` and `g_gs_vi_counter` of the main module. -/
structure Device where
  r4300 : R4300
  dp : RdpCore
  sp : RspCore
  ai : AiController
  mi : MiController
  pi : PiController
  ri : RiController
  si : SiController
  vi : ViController
  pif : Pif
  rdram : Rdram
  isViewer : Bytes
  controllerStatus : Fin 4 → BitVec 8
  rumbleState : Fin 4 → BitVec 8
  transferpaks : Fin 4 → TransferPak
  cart : Cart
  dd : DdController
  settings : Settings
  cheats : List Cheat
  gsViCounter : BitVec 32

namespace Device

abbrev cp0 (d : Device) : Cp0 := d.r4300.cp0

@[simps]
def onR4300 (f : R4300 → R4300) (d : Device) : Device := { d with r4300 := f d.r4300 }

@[simps]
def onCp0 (f : Cp0 → Cp0) (d : Device) : Device :=
  { d with r4300 := { d.r4300 with cp0 := f d.r4300.cp0 } }

@[simps]
def setMi (d : Device) (reg : MiReg) (v : BitVec 32) : Device :=
  { d with mi := ⟨Function.update d.mi.regs reg v⟩ }

@[simps]
def setRi (d : Device) (reg : RiReg) (v : BitVec 32) : Device :=
  { d with ri := ⟨Function.update d.ri.regs reg v⟩ }

@[simps]
def setPi (d : Device) (reg : PiReg) (v : BitVec 32) : Device :=
  { d with pi := ⟨Function.update d.pi.regs reg v⟩ }

@[simps]
def setSi (d : Device) (reg : SiReg) (v : BitVec 32) : Device :=
  { d with si := { d.si with regs := Function.update d.si.regs reg v } }

@[simps]
def setVi (d : Device) (reg : ViReg) (v : BitVec 32) : Device :=
  { d with vi := { d.vi with regs := Function.update d.vi.regs reg v } }

@[simps]
def setAi (d : Device) (reg : AiReg) (v : BitVec 32) : Device :=
  { d with ai := { d.ai with regs := Function.update d.ai.regs reg v } }

@[simps]
def setSp (d : Device) (reg : SpReg) (v : BitVec 32) : Device :=
  { d with sp := { d.sp with regs := Function.update d.sp.regs reg v } }

@[simps]
def setSp2 (d : Device) (reg : SpReg2) (v : BitVec 32) : Device :=
  { d with sp := { d.sp with regs2 := Function.update d.sp.regs2 reg v } }

@[simps]
def setDpc (d : Device) (reg : DpcReg) (v : BitVec 32) : Device :=
  { d with dp := { d.dp with dpcRegs := Function.update d.dp.dpcRegs reg v } }

@[simps]
def setDps (d : Device) (reg : DpsReg) (v : BitVec 32) : Device :=
  { d with dp := { d.dp with dpsRegs := Function.update d.dp.dpsRegs reg v } }

@[simps]
def setDd (d : Device) (reg : DdReg) (v : BitVec 32) : Device :=
  { d with dd := { d.dd with regs := Function.update d.dd.regs reg v } }

@[simps]
def setDram (d : Device) (m : Words) : Device := { d with rdram := { d.rdram with dram := m } }

end Device

-- ════════════════════════════════════════════════════════════════════════
-- What stands outside of the device
-- ════════════════════════════════════════════════════════════════════════

/-- What a plugin can write through the pointers it was given. -/
structure PluginView where
  dram : Words
  spMem : Words
  miIntr : BitVec 32
  spRegs : SpReg → BitVec 32
  spPc : BitVec 32
  dpcRegs : DpcReg → BitVec 32

/-- What a joybus device can write: the buffers of the channels and the controller paks. -/
structure JoybusView where
  ram : Bytes
  dummyResetBuffer : Fin 5 → Fin 6 → BitVec 8
  controllerStatus : Fin 4 → BitVec 8
  rumbleState : Fin 4 → BitVec 8
  transferpaks : Fin 4 → TransferPak
  afRtc : AfRtc

/-- The date of a `struct tm` the drive reads. -/
structure Tm where
  year : ℕ
  mon : ℕ
  mday : ℕ
  hour : ℕ
  min : ℕ
  sec : ℕ

/-- The job of `savestates_get_job`; a load comes with the contents of its file. -/
inductive SavestateJob where
  | nothing
  | load (data : List (BitVec 8))
  | save

/-- Everything one step asks of code outside of the device: plugins, joybus devices, clocks, the
    random generator and the savestate job. `garbage` is a word the source reads without having
    set it. -/
structure Outside where
  randomTime : BitVec 6
  garbage : BitVec 32
  time : BitVec 64
  localtime : BitVec 64 → Tm
  doRspCycles : PluginView → PluginView
  processRdpList : PluginView → PluginView
  joybusConnected : Fin 5 → Bool
  joybusProcess : Fin 5 → PifChannel → JoybusView → JoybusView
  joybusPostSetup : Fin 5 → PifChannel → JoybusView → JoybusView
  joybusPowerOn : Fin 4 → JoybusView → JoybusView
  updateInput : JoybusView → JoybusView
  gamesharkActive : Bool
  job : SavestateJob

namespace Device

def pluginView (d : Device) : PluginView where
  dram := d.rdram.dram
  spMem := d.sp.mem
  miIntr := d.mi.regs .intr
  spRegs := d.sp.regs
  spPc := d.sp.regs2 .pc
  dpcRegs := d.dp.dpcRegs

/-- A call into a plugin. -/
def plugin (f : PluginView → PluginView) (d : Device) : Device :=
  let v := f d.pluginView
  { d with
    rdram := { d.rdram with dram := v.dram }
    mi := ⟨Function.update d.mi.regs .intr v.miIntr⟩
    sp := { d.sp with
      mem := v.spMem
      regs := v.spRegs
      regs2 := Function.update d.sp.regs2 .pc v.spPc }
    dp := { d.dp with dpcRegs := v.dpcRegs } }

def joybusView (d : Device) : JoybusView where
  ram := d.pif.ram
  dummyResetBuffer := d.pif.dummyResetBuffer
  controllerStatus := d.controllerStatus
  rumbleState := d.rumbleState
  transferpaks := d.transferpaks
  afRtc := d.cart.afRtc

/-- A call into a joybus device. -/
def joybus (f : JoybusView → JoybusView) (d : Device) : Device :=
  let v := f d.joybusView
  { d with
    pif := { d.pif with ram := v.ram, dummyResetBuffer := v.dummyResetBuffer }
    controllerStatus := v.controllerStatus
    rumbleState := v.rumbleState
    transferpaks := v.transferpaks
    cart := { d.cart with afRtc := v.afRtc } }

end Device

-- ════════════════════════════════════════════════════════════════════════
-- The static device
-- ════════════════════════════════════════════════════════════════════════

/-- An empty transfer pak. -/
def emptyPak : TransferPak := ⟨0, 0, 0, 0, none⟩

/-- `g_dev` before it is powered on: static storage, with the core that `init_r4300` set up. -/
def staticDevice (r4300 : R4300) : Device where
  r4300 := r4300
  dp := { dpcRegs := fun _ => 0, dpsRegs := fun _ => 0, doOnUnfreeze := 0 }
  sp :=
    { mem := fun _ => 0
      regs := fun _ => 0
      regs2 := fun _ => 0
      rspTaskLocked := 0
      fifo := fun _ => ⟨0, 0, 0, 0⟩ }
  ai :=
    { regs := fun _ => 0
      fifo := fun _ => ⟨0, 0, 0⟩
      samplesFormatChanged := 0
      lastRead := 0
      delayedCarry := 0
      dmaModifier := id
      frequency := 0
      pushed := [] }
  mi := ⟨fun _ => 0⟩
  pi := ⟨fun _ => 0⟩
  ri := ⟨fun _ => 0⟩
  si := { regs := fun _ => 0, dmaDir := .noDma, dmaDuration := 0x900 }
  vi :=
    { regs := fun _ => 0
      field := 0
      delay := 0
      clock := 48681812
      expectedRefreshRate := 60
      countPerScanline := 0
      countPerScanlineOverride := 0 }
  pif :=
    { rom := fun _ => 0
      ram := fun _ => 0
      channels := fun _ => none
      dummyResetBuffer := fun _ _ => 0
      cic := ⟨.x102, 0x3f⟩ }
  rdram := { regs := fun _ _ => 0, dram := fun _ => 0, dramSize := 0x800000, corrupt := false }
  isViewer := fun _ => 0
  controllerStatus := fun _ => 0
  rumbleState := fun _ => 0
  transferpaks := fun _ => emptyPak
  cart :=
    { afRtc := ⟨0, 0, 0⟩
      cartRom := { rom := fun _ => 0, romSize := 0x100000, lastWrite := 0 }
      flashram :=
        { pageBuf := fun _ => 0
          siliconId := fun _ => 0
          status := 0
          erasePage := 0
          mode := .readArray
          mem := fun _ => 0xffffffff }
      sram := fun _ => 0
      useFlashram := 0 }
  dd :=
    { regs := fun _ => 0
      c2sBuf := fun _ => 0
      dsBuf := fun _ => 0
      msRam := fun _ => 0
      diskType := 0
      timerStandby := 0
      timerSleep := 0
      bmWrite := 0
      bmResetHeld := 0
      bmZone := 0
      rtc := ⟨0, 0⟩
      rom := fun _ => 0
      romSize := 0
      disk := none }
  settings :=
    { md5 := fun _ => 0
      rumble := false
      transferpak := false
      rawData := fun _ => false
      standardController := fun _ => false
      tvType := 1 }
  cheats := []
  gsViCounter := 0

/-- An outside that changes nothing. -/
def quietOutside : Outside where
  randomTime := 0
  garbage := 0
  time := 0
  localtime := fun _ => ⟨0, 0, 0, 0, 0, 0⟩
  doRspCycles := id
  processRdpList := id
  joybusConnected := fun _ => false
  joybusProcess := fun _ _ => id
  joybusPostSetup := fun _ _ => id
  joybusPowerOn := fun _ => id
  updateInput := id
  gamesharkActive := false
  job := .nothing

end Mupen64plus
