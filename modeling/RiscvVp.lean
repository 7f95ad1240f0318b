import RiscvVp.Lib.Arbiter
import RiscvVp.Lib.Runs
import RiscvVp.Lib.Clock
import RiscvVp.Lib.Ghost
import RiscvVp.Instr.Expansion
import RiscvVp.Iss.Decoding
import RiscvVp.Iss.Step
import RiscvVp.Iss.Tlb
import RiscvVp.Iss.Fetch
import RiscvVp.Iss.Atomic
import RiscvVp.Iss.Effects
import RiscvVp.Iss.Instructions
import RiscvVp.Iss.CsrWrite
import RiscvVp.Iss.Privilege
import RiscvVp.Iss.Levels
import RiscvVp.Iss.Precise
import RiscvVp.Iss.CsrLaw
import RiscvVp.Iss.Modes
import RiscvVp.Iss.Satp
import RiscvVp.Iss.Counters
import RiscvVp.Iss.CsrStorage
import RiscvVp.Iss.FpContext
import RiscvVp.Iss.Watch
import RiscvVp.Iss.Faults
import RiscvVp.Iss.Board
import RiscvVp.Iss.Reservation
import RiscvVp.Iss.LockBound
import RiscvVp.Iss.Atomicity
import RiscvVp.Iss.IntExec
import RiscvVp.Iss.Fetched
import RiscvVp.Iss.IntStep
import RiscvVp.Iss.Handlers
import RiscvVp.Iss.Nesting
import RiscvVp.Iss.Hardwired
import RiscvVp.Iss.Interrupts
import RiscvVp.Iss.TrapStep
import RiscvVp.Iss.Alignment
import RiscvVp.Iss.FpFlags
import RiscvVp.Iss.StatusSummary
import RiscvVp.Iss.Views
import RiscvVp.Iss.Syscall
import RiscvVp.Iss.MinMax
import RiscvVp.Iss.IllegalValue
import RiscvVp.Soc.Bus
import RiscvVp.Soc.DataPath
import RiscvVp.Soc.FetchPath
import RiscvVp.Soc.DebugMemory
import RiscvVp.Soc.DebugRoundTrip
import RiscvVp.Soc.ElfImage
import RiscvVp.Util.RegisterMapping
import RiscvVp.Platform.FlashFlat
import RiscvVp.Platform.CanId
import RiscvVp.Platform.Can
import RiscvVp.Platform.CanCommands
import RiscvVp.Platform.GpioPending
import RiscvVp.Platform.Clint
import RiscvVp.Platform.DmaCopy
import RiscvVp.Platform.UartInput
import RiscvVp.Platform.UartWatermark
import RiscvVp.Platform.Slip
import RiscvVp.Platform.Msip
import RiscvVp.Platform.Oled
import RiscvVp.Platform.ClintDevice
import RiscvVp.Platform.RealClint
import RiscvVp.Platform.HostTimer
import RiscvVp.Plic.Fe310
import RiscvVp.Plic.Fe310Harts
import RiscvVp.Plic.Fe310Lines
import RiscvVp.Plic.Fu540Lines
import RiscvVp.Plic.Fu540Threshold
import RiscvVp.Plic.Fu540Priorities
import RiscvVp.Plic.PriorityRange
import RiscvVp.Gdb.Server
import RiscvVp.Gdb.ReadMemory
import RiscvVp.Gdb.Resume
import RiscvVp.Gdb.Answers
import RiscvVp.Gdb.Checksum
import RiscvVp.Gdb.Packets
import RiscvVp.Gdb.RunLength
import RiscvVp.Gdb.ThreadIds
import RiscvVp.Gdb.Vcont
import RiscvVp.Lib.Triple
import RiscvVp.Iss.Machine
import RiscvVp.Soc.Paging
import RiscvVp.Sw.Sum
import RiscvVp.Iss.Transparent
import RiscvVp.Iss.Isolation
import RiscvVp.Sw.Multicore
import RiscvVp.Platform.GpioRemote
import RiscvVp.Platform.Sensor
import RiscvVp.Platform.Spi
import RiscvVp.Sw.Scheduler
