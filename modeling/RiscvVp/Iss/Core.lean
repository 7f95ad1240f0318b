/-
# RiscvVp.Iss.Core -- the state of an instruction-set simulator

`rv32::ISS` and `rv64::ISS` are the same program at two register widths; the places
where they differ ask for the `Isa`.  An `Iss` is the core with its CSR table, the
TLB of its MMU, the reservation address of its memory interface and a `World`: what
lies behind the bus, the bus lock, the CLINT and the system-call emulator.  The world
is a type variable and `Platform` is its interface, so a property of the core is
proved for every bus, every memory and every behaviour of the other harts.

Simulated time (the quantum keeper) and the trace output are not modelled; the cycle
counter is, in units of `cycle_time`.
-/
import RiscvVp.Instr.Instruction
import RiscvVp.Lib.BitField
import RiscvVp.Lib.Exec

namespace RiscvVp

set_option autoImplicit false

open Lib

/-- The two simulators. -/
inductive Isa where
  | rv32 | rv64
deriving DecidableEq, Repr

namespace Isa

@[reducible] def xlen : Isa → Nat
  | .rv32 => 32
  | .rv64 => 64

def arch : Isa → Architecture
  | .rv32 => .rv32
  | .rv64 => .rv64

end Isa

/-- A value of a general-purpose register or a CSR. -/
abbrev Word (isa : Isa) := BitVec isa.xlen

/-- `PrivilegeLevel` of `irq_if.h`, without the sentinel `NoneMode`. -/
abbrev PrivilegeLevel := BitVec 2

abbrev machineMode : PrivilegeLevel := 3#2
abbrev supervisorMode : PrivilegeLevel := 1#2
abbrev userMode : PrivilegeLevel := 0#2

/-! ## Traps and aborts -/

/-- The non-interrupt codes of `enum ExceptionCode`. -/
inductive ExceptionCode where
  | instrAddrMisaligned | instrAccessFault | illegalInstr | breakpoint
  | loadAddrMisaligned | loadAccessFault | storeAmoAddrMisaligned | storeAmoAccessFault
  | ecallUMode | ecallSMode | ecallMMode
  | instrPageFault | loadPageFault | storeAmoPageFault
deriving DecidableEq, Repr

def ExceptionCode.code : ExceptionCode → Nat
  | .instrAddrMisaligned => 0
  | .instrAccessFault => 1
  | .illegalInstr => 2
  | .breakpoint => 3
  | .loadAddrMisaligned => 4
  | .loadAccessFault => 5
  | .storeAmoAddrMisaligned => 6
  | .storeAmoAccessFault => 7
  | .ecallUMode => 8
  | .ecallSMode => 9
  | .ecallMMode => 11
  | .instrPageFault => 12
  | .loadPageFault => 13
  | .storeAmoPageFault => 15

/-- The interrupt codes of `enum ExceptionCode`. -/
inductive InterruptCode where
  | uSoftware | sSoftware | mSoftware
  | uTimer | sTimer | mTimer
  | uExternal | sExternal | mExternal
deriving DecidableEq, Repr

def InterruptCode.code : InterruptCode → Nat
  | .uSoftware => 0
  | .sSoftware => 1
  | .mSoftware => 3
  | .uTimer => 4
  | .sTimer => 5
  | .mTimer => 7
  | .uExternal => 8
  | .sExternal => 9
  | .mExternal => 11

structure SimulationTrap where
  reason : ExceptionCode
  mtval : BitVec 64
deriving DecidableEq, Repr

/-- The assertions and runtime errors of the simulator: each ends the simulation. -/
inductive Abort where
  | misalignedInstruction
  | oddProgramCounter
  | zeroRegister
  | decode
  | unknownOpcode
  | unknownPrivilegeLevel
  | trapDelegation
  | mmuMode
  | unknownSatpMode
  | missingMmu
  | proxyWithVirtualMemory
  | dmiRange
  | busNotLocked
  | softfloatFlags
  | noPendingInterrupt
  | lexicalCast
deriving DecidableEq, Repr

/-- How the simulator leaves a function other than by returning: a `SimulationTrap`,
the end of the simulation, or a wait that nothing ends. -/
inductive Exc where
  | trap (e : SimulationTrap)
  | abort (cause : Abort)
  | blocked
deriving DecidableEq, Repr

/-! ## Control and status registers -/

/-- The registers of `csr_table` that have the width of the core. -/
inductive Csr where
  | mvendorid | marchid | mimpid | mhartid
  | mstatus | misa | medeleg | mideleg | mie | mtvec | mcounteren | mcountinhibit
  | mscratch | mepc | mcause | mtval | mip
  | pmpaddr (i : Fin 16) | pmpcfg (i : Fin 4)
  | sedeleg | sideleg | stvec | scounteren | sscratch | sepc | scause | stval | satp
  | utvec | uscratch | uepc | ucause | utval
  | fcsr
deriving DecidableEq

/-- `csr_table`: three counters of 64 bits on both cores, and the other registers. -/
structure CsrTable (isa : Isa) where
  cycle : BitVec 64
  time : BitVec 64
  instret : BitVec 64
  reg : Csr → Word isa

def CsrTable.set {isa : Isa} (csrs : CsrTable isa) (c : Csr) (value : Word isa) : CsrTable isa :=
  { csrs with reg := fun d => if d = c then value else csrs.reg d }

/-! ## The core -/

inductive MemoryAccessType where
  | fetch | load | store
deriving DecidableEq, Repr

inductive CoreExecStatus where
  | runnable | hitBreakpoint | terminated
deriving DecidableEq, Repr

/-- `tlb_entry_t`: `ppn` is the address of a page, unless the entry is as `flush_tlb`
left it. -/
structure TlbEntry where
  ppn : BitVec 64
  vpn : BitVec 64
  whole : vpn = BitVec.allOnes 64 ∨ ppn &&& 0xFFF = 0
deriving DecidableEq

namespace TlbEntry

def invalid : TlbEntry := ⟨BitVec.allOnes 64, BitVec.allOnes 64, .inl rfl⟩

/-- `PGMASK` is an `unsigned`, so `~PGMASK` has 32 bits. -/
def pageOf (paddr : BitVec 64) : BitVec 64 := paddr &&& (~~~0xFFF#32).setWidth 64

theorem pageOf_whole (paddr : BitVec 64) : pageOf paddr &&& 0xFFF = 0 := by
  unfold pageOf
  rw [BitVec.and_assoc]
  exact BitVec.and_zero

/-- What `translate_virtual_to_physical_addr` puts in after a walk. -/
def fill (paddr vpn : BitVec 64) : TlbEntry := ⟨pageOf paddr, vpn, .inr (pageOf_whole paddr)⟩

end TlbEntry

abbrev Tlb := PrivilegeLevel → MemoryAccessType → BitVec 8 → TlbEntry

/-- `struct ISS`, with the TLB of its MMU, `lr_addr` of its memory interface and the
two global variables of the floating-point library. -/
structure Iss (isa : Isa) (World : Type) where
  regs : BitVec 5 → Word isa
  fpRegs : BitVec 5 → BitVec 64
  pc : Word isa
  lastPc : Word isa
  csrs : CsrTable isa
  prv : PrivilegeLevel
  lrScCounter : Int
  instr : Instruction
  op : Mapping
  status : CoreExecStatus
  breakpoints : List (Word isa)
  debugMode : Bool
  shallExit : Bool
  ignoreWfi : Bool
  cycleCounter : Nat
  softfloatExceptionFlags : BitVec 8
  softfloatRoundingMode : BitVec 8
  tlb : Tlb
  lrAddr : BitVec 64
  world : World

/-! ## What the core is connected to -/

/-- `MemoryDMI`: a window `[start, end)` on host memory. -/
structure MemoryDMI where
  start : BitVec 64
  stop : BitVec 64
deriving DecidableEq, Repr

def MemoryDMI.contains (e : MemoryDMI) (addr : BitVec 64) : Bool :=
  e.start ≤ addr && addr < e.stop

/-- The interrupt lines of the core: `trigger_external_interrupt`,
`clear_external_interrupt`, `trigger_timer_interrupt` and
`trigger_software_interrupt`. -/
inductive IrqEvent where
  | triggerExternal (level : PrivilegeLevel)
  | clearExternal (level : PrivilegeLevel)
  | timer (status : Bool)
  | software (status : Bool)
deriving DecidableEq, Repr

/-- The floating-point library: each operation takes the rounding mode where the
library reads it, and gives the exception flags it raises next to its result. -/
structure SoftFloat where
  f32Add : BitVec 8 → BitVec 32 → BitVec 32 → BitVec 32 × BitVec 8
  f32Sub : BitVec 8 → BitVec 32 → BitVec 32 → BitVec 32 × BitVec 8
  f32Mul : BitVec 8 → BitVec 32 → BitVec 32 → BitVec 32 × BitVec 8
  f32Div : BitVec 8 → BitVec 32 → BitVec 32 → BitVec 32 × BitVec 8
  f32Sqrt : BitVec 8 → BitVec 32 → BitVec 32 × BitVec 8
  f32MulAdd : BitVec 8 → BitVec 32 → BitVec 32 → BitVec 32 → BitVec 32 × BitVec 8
  f32Eq : BitVec 32 → BitVec 32 → Bool × BitVec 8
  f32Lt : BitVec 32 → BitVec 32 → Bool × BitVec 8
  f32Le : BitVec 32 → BitVec 32 → Bool × BitVec 8
  f32LtQuiet : BitVec 32 → BitVec 32 → Bool × BitVec 8
  f32Classify : BitVec 32 → BitVec 32
  f32ToI32 : BitVec 8 → BitVec 32 → BitVec 32 × BitVec 8
  f32ToUi32 : BitVec 8 → BitVec 32 → BitVec 32 × BitVec 8
  f32ToI64 : BitVec 8 → BitVec 32 → BitVec 64 × BitVec 8
  f32ToUi64 : BitVec 8 → BitVec 32 → BitVec 64 × BitVec 8
  f32ToF64 : BitVec 8 → BitVec 32 → BitVec 64 × BitVec 8
  i32ToF32 : BitVec 8 → BitVec 32 → BitVec 32 × BitVec 8
  ui32ToF32 : BitVec 8 → BitVec 32 → BitVec 32 × BitVec 8
  i64ToF32 : BitVec 8 → BitVec 64 → BitVec 32 × BitVec 8
  ui64ToF32 : BitVec 8 → BitVec 64 → BitVec 32 × BitVec 8
  f64Add : BitVec 8 → BitVec 64 → BitVec 64 → BitVec 64 × BitVec 8
  f64Sub : BitVec 8 → BitVec 64 → BitVec 64 → BitVec 64 × BitVec 8
  f64Mul : BitVec 8 → BitVec 64 → BitVec 64 → BitVec 64 × BitVec 8
  f64Div : BitVec 8 → BitVec 64 → BitVec 64 → BitVec 64 × BitVec 8
  f64Sqrt : BitVec 8 → BitVec 64 → BitVec 64 × BitVec 8
  f64MulAdd : BitVec 8 → BitVec 64 → BitVec 64 → BitVec 64 → BitVec 64 × BitVec 8
  f64Eq : BitVec 64 → BitVec 64 → Bool × BitVec 8
  f64Lt : BitVec 64 → BitVec 64 → Bool × BitVec 8
  f64Le : BitVec 64 → BitVec 64 → Bool × BitVec 8
  f64LtQuiet : BitVec 64 → BitVec 64 → Bool × BitVec 8
  f64Classify : BitVec 64 → BitVec 64
  f64ToI32 : BitVec 8 → BitVec 64 → BitVec 32 × BitVec 8
  f64ToUi32 : BitVec 8 → BitVec 64 → BitVec 32 × BitVec 8
  f64ToI64 : BitVec 8 → BitVec 64 → BitVec 64 × BitVec 8
  f64ToUi64 : BitVec 8 → BitVec 64 → BitVec 64 × BitVec 8
  f64ToF32 : BitVec 8 → BitVec 64 → BitVec 32 × BitVec 8
  i32ToF64 : BitVec 8 → BitVec 32 → BitVec 64 × BitVec 8
  ui32ToF64 : BitVec 8 → BitVec 32 → BitVec 64 × BitVec 8
  i64ToF64 : BitVec 8 → BitVec 64 → BitVec 64 × BitVec 8
  ui64ToF64 : BitVec 8 → BitVec 64 → BitVec 64 × BitVec 8
deriving Inhabited

/-- What a core is wired to.  A wait answers `none` when nothing ends it; a bus access
answers `none`, respectively `false`, when the response status is an error. -/
structure Platform (World : Type) where
  /-- `dmi_ranges` of the memory interface. -/
  dmiRanges : List MemoryDMI
  /-- The RV32 memory interface works without an MMU. -/
  hasMmu : Bool
  /-- The instruction memory: an `InstrMemoryProxy` on a window, or the memory interface. -/
  instrMem : Option MemoryDMI
  /-- `sys`: whether system calls are intercepted. -/
  hasSys : Bool
  softfloat : SoftFloat
  lock : BitVec 64 → World → Option World
  unlock : BitVec 64 → World → World
  isLocked : BitVec 64 → World → Bool
  waitForAccessRights : BitVec 64 → World → Option World
  busRead : BitVec 64 → (bytes : Nat) → World → Option (BitVec (8 * bytes)) × World
  busWrite : BitVec 64 → (bytes : Nat) → BitVec (8 * bytes) → World → Bool × World
  dmiRead : MemoryDMI → BitVec 64 → (bytes : Nat) → World → BitVec (8 * bytes) × World
  dmiWrite : MemoryDMI → BitVec 64 → (bytes : Nat) → BitVec (8 * bytes) → World → World
  updateAndGetMtime : World → BitVec 64 × World
  waitForInterrupt : World → Option World
  /-- The `int` a system call returns, and whether it ends the program. -/
  executeSyscall : (number a0 a1 a2 a3 : BitVec 64) → World → (BitVec 32 × Bool) × World
  /-- What happened on the interrupt lines since the last look. -/
  irqEvents : World → List IrqEvent × World

/-- Code of the simulator. -/
abbrev IssM (isa : Isa) (World : Type) := Exec (Iss isa World) Exc

namespace Iss

variable {isa : Isa} {World : Type}

def raiseTrap {α : Type} (reason : ExceptionCode) (mtval : BitVec 64) : IssM isa World α :=
  Exec.raise (.trap ⟨reason, mtval⟩)

def abort {α : Type} (cause : Abort) : IssM isa World α := Exec.raise (.abort cause)

/-- `assert` and `ensure`. -/
def assert (condition : Prop) [Decidable condition] (cause : Abort) : IssM isa World Unit :=
  if condition then pure () else abort cause

def raiseIllegalInstruction {α : Type} : IssM isa World α := do
  raiseTrap .illegalInstr ((← Exec.read instr).setWidth 64)

def setReg (index : BitVec 5) (value : Word isa) (s : Iss isa World) : Iss isa World :=
  { s with regs := fun i => if i = index then value else s.regs i }

def setFpReg (index : BitVec 5) (value : BitVec 64) (s : Iss isa World) : Iss isa World :=
  { s with fpRegs := fun i => if i = index then value else s.fpRegs i }

def setCsr (c : Csr) (value : Word isa) (s : Iss isa World) : Iss isa World :=
  { s with csrs := s.csrs.set c value }

def readCsr (c : Csr) : IssM isa World (Word isa) := Exec.read fun s => s.csrs.reg c

def writeCsr (c : Csr) (value : Word isa) : IssM isa World Unit := Exec.update (setCsr c value)

/-- Reading a bit field of a CSR. -/
def readField {len : Nat} (c : Csr) (f : Field len) : IssM isa World (BitVec len) :=
  Exec.read fun s => f.get (s.csrs.reg c)

def writeField {len : Nat} (c : Csr) (f : Field len) (value : BitVec len) : IssM isa World Unit :=
  Exec.update fun s => s.setCsr c (f.set value (s.csrs.reg c))

/-- `get_hart_id`. -/
def hartId (s : Iss isa World) : BitVec 64 := (s.csrs.reg .mhartid).setWidth 64

/-! ## Reset -/

/-- The extensions of `csr_misa::init`, with `mxl`: IMACF (and D on RV64) + NUS.  Only the
RV32 constructor can select the E base instead of I. -/
def misaInit : (isa : Isa) → (useEBaseIsa : Bool) → Word isa
  | .rv32, false => 0x40143125#32
  | .rv32, true => 0x40143035#32
  | .rv64, _ => 0x800000000014312D#64

/-- `csr_mstatus`: the RV64 core hardwires `sxl` and `uxl`. -/
def mstatusInit : (isa : Isa) → Word isa
  | .rv32 => 0
  | .rv64 => 0xA00000000#64

/-- The state after the constructor and `init`. -/
def reset (hart : Word isa) (useEBaseIsa : Bool) (entrypoint sp : Word isa) (world : World) :
    Iss isa World where
  regs := fun i => if i = 2 then sp else 0
  fpRegs := fun _ => 0
  pc := entrypoint
  lastPc := 0
  csrs :=
    { cycle := 0
      time := 0
      instret := 0
      reg := fun
        | .mhartid => hart
        | .misa => misaInit isa useEBaseIsa
        | .mstatus => mstatusInit isa
        | _ => 0 }
  prv := machineMode
  lrScCounter := 0
  instr := 0
  op := .undef
  status := .runnable
  breakpoints := []
  debugMode := false
  shallExit := false
  ignoreWfi := false
  cycleCounter := 0
  softfloatExceptionFlags := 0
  softfloatRoundingMode := 0
  tlb := fun _ _ _ => TlbEntry.invalid
  lrAddr := 0
  world := world

/-! ## Running the small operations -/

section Run

variable {α : Type} (s : Iss isa World)

@[simp] theorem setCsr_reg_self (c : Csr) (value : Word isa) :
    (s.setCsr c value).csrs.reg c = value := if_pos rfl

theorem setCsr_reg_of_ne {c d : Csr} (other : d ≠ c) (value : Word isa) :
    (s.setCsr c value).csrs.reg d = s.csrs.reg d := if_neg other

@[simp] theorem run_readCsr_bind (c : Csr) (k : Word isa → IssM isa World α) :
    (readCsr c >>= k).run s = (k (s.csrs.reg c)).run s := rfl

@[simp] theorem run_readField_bind {len : Nat} (c : Csr) (f : Field len)
    (k : BitVec len → IssM isa World α) :
    (readField c f >>= k).run s = (k (f.get (s.csrs.reg c))).run s := rfl

@[simp] theorem run_writeCsr_bind (c : Csr) (value : Word isa) (k : Unit → IssM isa World α) :
    (writeCsr c value >>= k).run s = (k ()).run (s.setCsr c value) := rfl

@[simp] theorem run_writeField_bind {len : Nat} (c : Csr) (f : Field len) (value : BitVec len)
    (k : Unit → IssM isa World α) :
    (writeField c f value >>= k).run s =
      (k ()).run (s.setCsr c (f.set value (s.csrs.reg c))) := rfl

theorem run_assert_bind {condition : Prop} [Decidable condition] (holds : condition)
    (cause : Abort) (k : Unit → IssM isa World α) :
    (assert condition cause >>= k).run s = (k ()).run s := by
  unfold assert
  rw [if_pos holds]
  rfl

end Run

end Iss

end RiscvVp
