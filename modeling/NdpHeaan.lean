import NdpHeaan.Machinery.Run
import NdpHeaan.Machinery.Segments
import NdpHeaan.Target.Device
import NdpHeaan.Target.HeaanParse
import NdpHeaan.Target.HeaanAdd
import NdpHeaan.Target.HeaanOnce
import NdpHeaan.Target.HeaanAnswer
import NdpHeaan.Target.HeaanResult
import NdpHeaan.Machinery.ExtentMap
import NdpHeaan.Host.FileLayout
import NdpHeaan.Host.Passthru
import NdpHeaan.Wire.HeaanPayload
import NdpHeaan.Wire.GrepRange
import NdpHeaan.Host.TargetFile
import NdpHeaan.Target.Reservation
import NdpHeaan.Target.Dispatch
import NdpHeaan.Target.BdevLayer
import NdpHeaan.Target.HeaanValidate
import NdpHeaan.Target.HeaanSafe
import NdpHeaan.Target.HeaanBuffers
import NdpHeaan.Machinery.Iov
import NdpHeaan.Target.DataIo
import NdpHeaan.Target.Echo
import NdpHeaan.Machinery.Growth
import NdpHeaan.Target.GrepScan
import NdpHeaan.Target.GrepCmd
import NdpHeaan.Target.GrepRetry
import NdpHeaan.Target.Overrun
import NdpHeaan.Machinery.CachedPool
import NdpHeaan.Target.IoPool
import NdpHeaan.Wire.TcpData
import NdpHeaan.Wire.GrepReply
import NdpHeaan.Tcp.Command
import NdpHeaan.Tcp.PendingQueue
import NdpHeaan.Tcp.Qpair
import NdpHeaan.Tcp.Sound
import NdpHeaan.Tcp.SoundStep
import NdpHeaan.Tcp.SoundRun
import NdpHeaan.Tcp.Moves
import NdpHeaan.Tcp.H2cData
import NdpHeaan.Tcp.Digest
import NdpHeaan.Tcp.Fused
import NdpHeaan.Machinery.Walk
import NdpHeaan.Tcp.Parting
import NdpHeaan.Tcp.Cleanup
import NdpHeaan.Tcp.Reclaim
import NdpHeaan.Target.GrepFilter
import NdpHeaan.Target.EchoData
import NdpHeaan.Target.Unmap
import NdpHeaan.Machinery.Slots
import NdpHeaan.Target.AsyncEvents
import NdpHeaan.Target.UnmapOnce
import NdpHeaan.Target.ReservationState
import NdpHeaan.Target.ReservationFrame
import NdpHeaan.Target.ReservationCopy
import NdpHeaan.Target.ReservationPersist
import NdpHeaan.Target.FusedInvariant
import NdpHeaan.Target.FusedRun
import NdpHeaan.Target.Outstanding
import NdpHeaan.Machinery.Chunks
import NdpHeaan.Tcp.Alike
import NdpHeaan.Machinery.Tally
import NdpHeaan.Target.HeaanAlloc
import NdpHeaan.Tcp.Tallied
import NdpHeaan.Tcp.TalliedDestroy
import NdpHeaan.Tcp.Group
import NdpHeaan.Wire.TcpExact
import NdpHeaan.Bdev.RangeLockDrain
import NdpHeaan.Target.SubsystemDrain
import NdpHeaan.Bdev.SplitSound
