import Mupen64plus.R4300.EventOrder
import Mupen64plus.R4300.TlbWrite
import Mupen64plus.R4300.DecodeAgreement
import Mupen64plus.Device.PiTransfers
import Mupen64plus.Device.SiTransfers
import Mupen64plus.Device.AiBuffers
import Mupen64plus.Device.SpTransfers
import Mupen64plus.Device.PifLayout
import Mupen64plus.Device.LoadState
import Mupen64plus.Device.SoftReset
import Mupen64plus.Device.DpInterrupts
import Mupen64plus.Device.LbaMapping
import Mupen64plus.Device.DdInterrupts
import Mupen64plus.Device.GbBanking
import Mupen64plus.Device.CheatUndo
import Mupen64plus.Hle.UcodeCache
import Mupen64plus.Rsp.MultiplyExact
import Mupen64plus.Rsp.VectorRoundTrips
import Mupen64plus.GLideN64.RingBufferSafety
import Mupen64plus.Main.NetplayAgreement
import Mupen64plus.Main.NetplayPackets
import Mupen64plus.Main.NetplayStreams
import Mupen64plus.Rsp.DmaAgreement
import Mupen64plus.Rsp.JitAllocator
import Mupen64plus.Rsp.RegisterCacheRuns
import Mupen64plus.Rsp.JitCoherence
import Mupen64plus.GLideN64.FrameBufferSafety
import Mupen64plus.GLideN64.TextureCacheSafety
import Mupen64plus.GLideN64.DisplayListStacks
import Mupen64plus.R4300.Multiply64
import Mupen64plus.R4300.TlbLoops
import Mupen64plus.R4300.TlbIndex
import Mupen64plus.R4300.CountTranslation
import Mupen64plus.R4300.UnalignedPairs
import Mupen64plus.Rsp.JitDmaAgreement
import Mupen64plus.R4300.Cop1Unusable
import Mupen64plus.R4300.FrameLaw
import Mupen64plus.Rsp.MovesAgreement
import Mupen64plus.Device.GameController
import Mupen64plus.Device.EventCodec
import Mupen64plus.Device.DmaBounds
import Mupen64plus.Device.TimingDivisors
import Mupen64plus.Device.CurrentLine
import Mupen64plus.R4300.PreciseExceptions
import Mupen64plus.GLideN64.TmemExact
import Mupen64plus.GLideN64.BlockLoads
import Mupen64plus.GLideN64.PixelCopies
import Mupen64plus.GLideN64.FrameBufferFill
import Mupen64plus.GLideN64.VertexLoads
import Mupen64plus.GLideN64.VertexCommands
import Mupen64plus.Device.Mbc3Clock
import Mupen64plus.Device.CheatPass
import Mupen64plus.Device.DiskScan
import Mupen64plus.Device.ProtectedBlocks
import Mupen64plus.Device.DefectTables
import Mupen64plus.Device.ByteSums
import Mupen64plus.Device.WriteProtection
import Mupen64plus.Device.AudioOutput
import Mupen64plus.Main.SavestateLock
import Mupen64plus.R4300.InvalidRange
import Mupen64plus.R4300.IdleLoops
import Mupen64plus.Rsp.AddGroup
import Mupen64plus.Rsp.SelectGroup
import Mupen64plus.Rsp.Divide
import Mupen64plus.Rsp.ScalarUnit
import Mupen64plus.Main.ShiftJis
import Mupen64plus.Hle.MusyxBaseVol
import Mupen64plus.Hle.MusyxDelay
import Mupen64plus.Hle.MusyxBuffers
import Mupen64plus.Hle.AudioFilters
import Mupen64plus.Hle.AudioLoops
import Mupen64plus.Main.RomIndex
import Mupen64plus.GLideN64.CombinerPrograms
import Mupen64plus.GLideN64.CombinerCache
import Mupen64plus.GLideN64.Checksums
import Mupen64plus.Device.FrameBufferGuardRuns
import Mupen64plus.Main.WorkQueue
import Mupen64plus.Angrylion.DepthBuffer
import Mupen64plus.Video.CommandLists
