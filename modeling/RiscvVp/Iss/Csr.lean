/-
# RiscvVp.Iss.Csr -- addresses, storage and access of the CSRs

`csr.h` of the two cores: the addresses, the write and read masks, the register
mapping; and from `iss.cpp` and `iss.h` the access check and the two switches
`get_csr_value` and `set_csr_value`.  An address that no case of a switch names is
looked up in the register mapping, and is illegal when it is not there.
-/
import RiscvVp.Iss.Mmu

namespace RiscvVp

set_option autoImplicit false

open Lib

/-! ## Addresses -/

/-- The `*_ADDR` constants of `csr.h`.  `cycleh` and its like, the debug registers and
the high halves of the performance counters are used by the RV32 core only. -/
inductive CsrAddr where
  | cycle | cycleh | time | timeh | instret | instreth
  | mcycle | mcycleh | mtime | mtimeh | minstret | minstreth
  | tselect | tdata1 | tdata2 | tdata3 | dcsr | dpc | dscratch0 | dscratch1
  | mvendorid | marchid | mimpid | mhartid
  | mstatus | misa | medeleg | mideleg | mie | mtvec | mcounteren | mcountinhibit
  | mscratch | mepc | mcause | mtval | mip
  | pmpcfg (i : Fin 4) | pmpaddr (i : Fin 16)
  | sstatus | sedeleg | sideleg | sie | stvec | scounteren
  | sscratch | sepc | scause | stval | sip | satp
  | ustatus | uie | utvec | uscratch | uepc | ucause | utval | uip
  | fflags | frm | fcsr
  | hpmcounter (i : Fin 29) | hpmcounterh (i : Fin 29)
  | mhpmcounter (i : Fin 29) | mhpmcounterh (i : Fin 29) | mhpmevent (i : Fin 29)
deriving DecidableEq

namespace CsrAddr

def addr : CsrAddr → BitVec 12
  | cycle => 0xC00 | cycleh => 0xC80 | time => 0xC01 | timeh => 0xC81
  | instret => 0xC02 | instreth => 0xC82
  | mcycle => 0xB00 | mcycleh => 0xB80 | mtime => 0xB01 | mtimeh => 0xB81
  | minstret => 0xB02 | minstreth => 0xB82
  | tselect => 0x7A0 | tdata1 => 0x7A1 | tdata2 => 0x7A2 | tdata3 => 0x7A3
  | dcsr => 0x7B0 | dpc => 0x7B1 | dscratch0 => 0x7B2 | dscratch1 => 0x7B3
  | mvendorid => 0xF11 | marchid => 0xF12 | mimpid => 0xF13 | mhartid => 0xF14
  | mstatus => 0x300 | misa => 0x301 | medeleg => 0x302 | mideleg => 0x303 | mie => 0x304
  | mtvec => 0x305 | mcounteren => 0x306 | mcountinhibit => 0x320
  | mscratch => 0x340 | mepc => 0x341 | mcause => 0x342 | mtval => 0x343 | mip => 0x344
  | pmpcfg i => 0x3A0 + i.val | pmpaddr i => 0x3B0 + i.val
  | sstatus => 0x100 | sedeleg => 0x102 | sideleg => 0x103 | sie => 0x104 | stvec => 0x105
  | scounteren => 0x106 | sscratch => 0x140 | sepc => 0x141 | scause => 0x142
  | stval => 0x143 | sip => 0x144 | satp => 0x180
  | ustatus => 0x000 | uie => 0x004 | utvec => 0x005 | uscratch => 0x040 | uepc => 0x041
  | ucause => 0x042 | utval => 0x043 | uip => 0x044
  | fflags => 0x001 | frm => 0x002 | fcsr => 0x003
  | hpmcounter i => 0xC03 + i.val | hpmcounterh i => 0xC83 + i.val
  | mhpmcounter i => 0xB03 + i.val | mhpmcounterh i => 0xB83 + i.val
  | mhpmevent i => 0x323 + i.val

def all : List CsrAddr :=
  [cycle, cycleh, time, timeh, instret, instreth, mcycle, mcycleh, mtime, mtimeh, minstret,
    minstreth, tselect, tdata1, tdata2, tdata3, dcsr, dpc, dscratch0, dscratch1, mvendorid,
    marchid, mimpid, mhartid, mstatus, misa, medeleg, mideleg, mie, mtvec, mcounteren,
    mcountinhibit, mscratch, mepc, mcause, mtval, mip, sstatus, sedeleg, sideleg, sie, stvec,
    scounteren, sscratch, sepc, scause, stval, sip, satp, ustatus, uie, utvec, uscratch, uepc,
    ucause, utval, uip, fflags, frm, fcsr] ++
  (List.finRange 4).map pmpcfg ++ (List.finRange 16).map pmpaddr ++
  (List.finRange 29).map hpmcounter ++ (List.finRange 29).map hpmcounterh ++
  (List.finRange 29).map mhpmcounter ++ (List.finRange 29).map mhpmcounterh ++
  (List.finRange 29).map mhpmevent

/-- The constant an address is spelled with, if there is one. -/
def named (addr : BitVec 12) : Option CsrAddr := all.find? fun a => a.addr = addr

theorem addr_of_named {addr : BitVec 12} {a : CsrAddr} (found : named addr = some a) :
    a.addr = addr := by
  simpa using List.find?_some found

end CsrAddr

/-- `(0x300 & csr_addr) >> 8`. -/
def csrPrv (addr : BitVec 12) : PrivilegeLevel := addr.extractLsb' 8 2

/-- `((0xC00 & csr_addr) >> 10) == 3`. -/
def csrReadonly (addr : BitVec 12) : Bool := addr.extractLsb' 10 2 == 3#2

/-! ## Masks -/

namespace Mask

def mie (isa : Isa) : Word isa := 0b101110111011
def sie (isa : Isa) : Word isa := 0b001100110011
def uie (isa : Isa) : Word isa := 0b000100010001
def mipWrite (isa : Isa) : Word isa := 0b001100110011
def mipRead (isa : Isa) : Word isa := mie isa
def sip (isa : Isa) : Word isa := 0b11
def uip (isa : Isa) : Word isa := 0b1
def medeleg (isa : Isa) : Word isa := 0b1011101111111111
def mideleg (isa : Isa) : Word isa := mie isa
def mtvec (isa : Isa) : Word isa := ~~~2
def mcounteren (isa : Isa) : Word isa := 0b111
def mcountinhibit (isa : Isa) : Word isa := 0b101
def sedeleg (isa : Isa) : Word isa := 0b1011000111111111
def sideleg (isa : Isa) : Word isa := mideleg isa
def fcsr (isa : Isa) : Word isa := 0b11111111
def ustatus (isa : Isa) : Word isa := 0b00010001

def mstatusWrite : (isa : Isa) → Word isa
  | .rv32 => 0b10000000011111111111100110111011#32
  | .rv64 => 0b1000000000000000000000000000000000000000011111111111100110111011#64

def mstatusRead : (isa : Isa) → Word isa
  | .rv32 => 0b10000000011111111111100110111011#32
  | .rv64 => 0b1000000000000000000000000000111100000000011111111111100110111011#64

def sstatusWrite : (isa : Isa) → Word isa
  | .rv32 => 0b10000000000011011110000100110011#32
  | .rv64 => 0b1000000000000000000000000000000000000000000011011110000100110011#64

def sstatusRead : (isa : Isa) → Word isa
  | .rv32 => 0b10000000000011011110000100110011#32
  | .rv64 => 0b1000000000000000000000000000001100000000000011011110000100110011#64

def satp : (isa : Isa) → Word isa
  | .rv32 => 0b10000000001111111111111111111111#32
  | .rv64 => 0b1111000000000000000011111111111111111111111111111111111111111111#64

end Mask

/-! ## Storage -/

inductive Counter where
  | cycle | time | instret
deriving DecidableEq

/-- What `register_mapping` points at. -/
inductive Cell where
  | counter (k : Counter)
  | counterHigh (k : Counter)
  | reg (c : Csr)
deriving DecidableEq

/-- `register_mapping`.  The RV64 table has two PMP configuration registers and maps
four: the last two addresses point at the registers declared behind them. -/
def registerMapping (isa : Isa) : CsrAddr → Option Cell
  | .cycle | .mcycle => some (.counter .cycle)
  | .time | .mtime => some (.counter .time)
  | .instret | .minstret => some (.counter .instret)
  | .cycleh | .mcycleh => if isa = .rv32 then some (.counterHigh .cycle) else none
  | .timeh | .mtimeh => if isa = .rv32 then some (.counterHigh .time) else none
  | .instreth | .minstreth => if isa = .rv32 then some (.counterHigh .instret) else none
  | .mvendorid => some (.reg .mvendorid)
  | .marchid => some (.reg .marchid)
  | .mimpid => some (.reg .mimpid)
  | .mhartid => some (.reg .mhartid)
  | .mstatus => some (.reg .mstatus)
  | .misa => some (.reg .misa)
  | .medeleg => some (.reg .medeleg)
  | .mideleg => some (.reg .mideleg)
  | .mie => some (.reg .mie)
  | .mtvec => some (.reg .mtvec)
  | .mcounteren => some (.reg .mcounteren)
  | .mcountinhibit => some (.reg .mcountinhibit)
  | .mscratch => some (.reg .mscratch)
  | .mepc => some (.reg .mepc)
  | .mcause => some (.reg .mcause)
  | .mtval => some (.reg .mtval)
  | .mip => some (.reg .mip)
  | .pmpaddr i => some (.reg (.pmpaddr i))
  | .pmpcfg i =>
      if isa = .rv64 ∧ i = 2 then some (.reg .sedeleg)
      else if isa = .rv64 ∧ i = 3 then some (.reg .sideleg)
      else some (.reg (.pmpcfg i))
  | .sedeleg => some (.reg .sedeleg)
  | .sideleg => some (.reg .sideleg)
  | .stvec => some (.reg .stvec)
  | .scounteren => some (.reg .scounteren)
  | .sscratch => some (.reg .sscratch)
  | .sepc => some (.reg .sepc)
  | .scause => some (.reg .scause)
  | .stval => some (.reg .stval)
  | .satp => some (.reg .satp)
  | .utvec => some (.reg .utvec)
  | .uscratch => some (.reg .uscratch)
  | .uepc => some (.reg .uepc)
  | .ucause => some (.reg .ucause)
  | .utval => some (.reg .utval)
  | .fcsr => some (.reg .fcsr)
  | _ => none

namespace CsrTable

variable {isa : Isa}

def counter (csrs : CsrTable isa) : Counter → BitVec 64
  | .cycle => csrs.cycle
  | .time => csrs.time
  | .instret => csrs.instret

def setCounter (csrs : CsrTable isa) (k : Counter) (value : BitVec 64) : CsrTable isa :=
  match k with
  | .cycle => { csrs with cycle := value }
  | .time => { csrs with time := value }
  | .instret => { csrs with instret := value }

def readCell (csrs : CsrTable isa) : Cell → Word isa
  | .counter k => (csrs.counter k).setWidth isa.xlen
  | .counterHigh k => (csrs.counter k >>> 32).setWidth isa.xlen
  | .reg c => csrs.reg c

def writeCell (csrs : CsrTable isa) (cell : Cell) (value : Word isa) : CsrTable isa :=
  match cell with
  | .counter k =>
      let low := BitVec.allOnes isa.xlen
      csrs.setCounter k (maskedWrite (csrs.counter k) (value.setWidth 64) (low.setWidth 64))
  | .counterHigh k =>
      csrs.setCounter k
        (maskedWrite (csrs.counter k) (value.setWidth 64 <<< 32) (0xFFFFFFFF#64 <<< 32))
  | .reg c => csrs.set c value

end CsrTable

/-! ## Bit fields of other registers -/

namespace Misa

def extC : Field 1 := ⟨2⟩
def extE : Field 1 := ⟨4⟩
def extS : Field 1 := ⟨18⟩
def extU : Field 1 := ⟨20⟩

/-- The enumerators of `csr_misa`. -/
def A (isa : Isa) : Word isa := 1
def C (isa : Isa) : Word isa := 1 <<< 2
def D (isa : Isa) : Word isa := 1 <<< 3
def F (isa : Isa) : Word isa := 1 <<< 5
def M (isa : Isa) : Word isa := 1 <<< 12

end Misa

namespace Fcsr

def fflags : Field 5 := ⟨0⟩
def frm : Field 3 := ⟨5⟩

end Fcsr

namespace Iss

variable {isa : Isa} {World : Type}

def sMode (s : Iss isa World) : Bool := s.prv == supervisorMode
def uMode (s : Iss isa World) : Bool := s.prv == userMode

def hasExtension (f : Field 1) (s : Iss isa World) : Bool := f.get (s.csrs.reg .misa) == 1#1

def pcAlignmentMask (s : Iss isa World) : Word isa :=
  if s.hasExtension Misa.extC then ~~~1 else ~~~3

/-- `REQUIRE_ISA`, a macro of the RV32 core. -/
def requireIsa (ext : Word isa) : IssM isa World Unit :=
  match isa with
  | .rv32 => do if (← readCsr .misa) &&& ext = 0 then raiseIllegalInstruction
  | .rv64 => pure ()

/-- `is_bitset`: `1 << bitpos` is an `int`. -/
def isBitset (c : Csr) (bitpos : Nat) (s : Iss isa World) : Bool :=
  s.csrs.reg c &&& (1#32 <<< bitpos).signExtend isa.xlen != 0

/-! ## Access rights -/

def isInvalidCsrAccess (addr : BitVec 12) (isWrite : Bool) : IssM isa World Bool := do
  Exec.when (addr = CsrAddr.fflags.addr ∨ addr = CsrAddr.frm.addr ∨ addr = CsrAddr.fcsr.addr)
    (requireIsa (Misa.F isa))
  let prv ← Exec.read prv
  let s ← Exec.read (hasExtension Misa.extS)
  let u ← Exec.read (hasExtension Misa.extU)
  let sInvalid := isa == .rv32 && csrPrv addr == supervisorMode && !s
  let uInvalid := isa == .rv32 && csrPrv addr == userMode && !u
  return (isWrite && csrReadonly addr) || prv < csrPrv addr || sInvalid || uInvalid

def isCounterAddr (isa : Isa) (addr : BitVec 12) : Bool :=
  (0xC00#12 ≤ addr && addr ≤ 0xC1F#12) ||
    (isa == .rv32 && 0xC80#12 ≤ addr && addr ≤ 0xC9F#12)

def validateCsrCounterReadAccessRights (addr : BitVec 12) : IssM isa World Unit := do
  if isCounterAddr isa addr then
    let cnt := (addr &&& 0x1F).toNat
    let m ← Exec.read (isBitset .mcounteren cnt)
    let s ← Exec.read (isBitset .scounteren cnt)
    Exec.when ((← Exec.read sMode) && !m) raiseIllegalInstruction
    Exec.when ((← Exec.read uMode) && (!m || !s)) raiseIllegalInstruction

/-! ## `get_csr_value` and `set_csr_value` -/

variable (plat : Platform World)

def readMasked (c : Csr) (mask : Word isa) : IssM isa World (Word isa) := do
  return (← readCsr c) &&& mask

def readCell (cell : Cell) : IssM isa World (Word isa) := Exec.read fun s => s.csrs.readCell cell

def defaultRead (a : CsrAddr) : IssM isa World (Word isa) :=
  match registerMapping isa a with
  | some cell => readCell cell
  | none => raiseIllegalInstruction

/-- A case that only the RV32 switch has. -/
def onlyRv32 {α : Type} (m : IssM isa World α) : IssM isa World α :=
  match isa with
  | .rv32 => m
  | .rv64 => raiseIllegalInstruction

def setCounter (k : Counter) (value : BitVec 64) : IssM isa World Unit :=
  Exec.update fun s => { s with csrs := s.csrs.setCounter k value }

/-- `csrs.time.reg = clint->update_and_get_mtime()`. -/
def updateTime : IssM isa World Unit := do
  setCounter .time (← onWorld (Exec.call plat.updateAndGetMtime))

/-- `csrs.cycle.reg = _compute_and_get_current_cycles()`. -/
def updateCycle : IssM isa World Unit := do
  setCounter .cycle (← Exec.read fun s => BitVec.ofNat 64 s.cycleCounter)

def getNamedCsr : CsrAddr → IssM isa World (Word isa)
  | .time | .mtime => do
      updateTime plat
      readCell (.counter .time)
  | .timeh | .mtimeh => onlyRv32 do
      updateTime plat
      readCell (.counterHigh .time)
  | .mcycle => do
      updateCycle
      readCell (.counter .cycle)
  | .mcycleh => onlyRv32 do
      updateCycle
      readCell (.counterHigh .cycle)
  | .minstret => readCell (.counter .instret)
  | .minstreth => onlyRv32 (readCell (.counterHigh .instret))
  | .hpmcounter _ | .mhpmcounter _ | .mhpmevent _ => pure 0
  | .hpmcounterh _ | .mhpmcounterh _ => onlyRv32 (pure 0)
  | .mstatus => readMasked .mstatus (Mask.mstatusRead isa)
  | .sstatus => readMasked .mstatus (Mask.sstatusRead isa)
  | .ustatus => readMasked .mstatus (Mask.ustatus isa)
  | .mip => readMasked .mip (Mask.mipRead isa)
  | .sip => readMasked .mip (Mask.sip isa)
  | .uip => readMasked .mip (Mask.uip isa)
  | .mie => readMasked .mie (Mask.mie isa)
  | .sie => readMasked .mie (Mask.sie isa)
  | .uie => readMasked .mie (Mask.uie isa)
  | .satp => do
      if (← readField .mstatus Mstatus.tvm) = 1#1 then raiseIllegalInstruction
      else defaultRead .satp
  | .fcsr => readMasked .fcsr (Mask.fcsr isa)
  | .fflags => do return (← readField .fcsr Fcsr.fflags).setWidth isa.xlen
  | .frm => do return (← readField .fcsr Fcsr.frm).setWidth isa.xlen
  | .tselect => onlyRv32 (pure 1)
  | .tdata1 | .tdata2 | .tdata3 | .dcsr | .dpc | .dscratch0 | .dscratch1 => onlyRv32 (pure 0)
  | a => defaultRead a

def getCsrValue (addr : BitVec 12) : IssM isa World (Word isa) := do
  validateCsrCounterReadAccessRights addr
  match CsrAddr.named addr with
  | some a => getNamedCsr plat a
  | none => raiseIllegalInstruction

def writeMasked (c : Csr) (value mask : Word isa) : IssM isa World Unit :=
  Exec.update fun s => s.setCsr c (maskedWrite (s.csrs.reg c) value mask)

def defaultWrite (a : CsrAddr) (value : Word isa) : IssM isa World Unit :=
  match registerMapping isa a with
  | some cell => Exec.update fun s => { s with csrs := s.csrs.writeCell cell value }
  | none => raiseIllegalInstruction

/-- The write to `satp`; the RV64 core puts the mode field back when the new mode is not
one it knows. -/
def writeSatp (value : Word isa) : IssM isa World Unit := do
  let before ← readCsr .satp
  writeMasked .satp value (Mask.satp isa)
  match isa with
  | .rv32 => pure ()
  | .rv64 =>
      let after ← readCsr .satp
      let mode := Satp.mode after
      if mode ≠ Satp.bare ∧ mode ≠ Satp.sv39 ∧ mode ≠ Satp.sv48 then
        let field : Field 4 := ⟨60⟩
        writeCsr .satp (field.set (field.get before) after)

def setNamedCsr (value : Word isa) : CsrAddr → IssM isa World Unit
  | .misa | .hpmcounter _ | .mhpmcounter _ | .mhpmevent _ => pure ()
  | .hpmcounterh _ | .mhpmcounterh _ => onlyRv32 (pure ())
  | .satp => do
      if (← readField .mstatus Mstatus.tvm) = 1#1 then raiseIllegalInstruction
      else writeSatp value
  | .mtvec => writeMasked .mtvec value (Mask.mtvec isa)
  | .stvec => writeMasked .stvec value (Mask.mtvec isa)
  | .utvec => writeMasked .utvec value (Mask.mtvec isa)
  | .mepc => do writeMasked .mepc value (← Exec.read pcAlignmentMask)
  | .sepc => do writeMasked .sepc value (← Exec.read pcAlignmentMask)
  | .uepc => do writeMasked .uepc value (← Exec.read pcAlignmentMask)
  | .mstatus => writeMasked .mstatus value (Mask.mstatusWrite isa)
  | .sstatus => writeMasked .mstatus value (Mask.sstatusWrite isa)
  | .ustatus => writeMasked .mstatus value (Mask.ustatus isa)
  | .mip => writeMasked .mip value (Mask.mipWrite isa)
  | .sip => writeMasked .mip value (Mask.sip isa)
  | .uip => writeMasked .mip value (Mask.uip isa)
  | .mie => writeMasked .mie value (Mask.mie isa)
  | .sie => writeMasked .mie value (Mask.sie isa)
  | .uie => writeMasked .mie value (Mask.uie isa)
  | .mideleg => writeMasked .mideleg value (Mask.mideleg isa)
  | .medeleg => writeMasked .medeleg value (Mask.medeleg isa)
  | .sideleg => writeMasked .sideleg value (Mask.sideleg isa)
  | .sedeleg => writeMasked .sedeleg value (Mask.sedeleg isa)
  | .mcounteren => writeMasked .mcounteren value (Mask.mcounteren isa)
  | .scounteren => writeMasked .scounteren value (Mask.mcounteren isa)
  | .mcountinhibit => writeMasked .mcountinhibit value (Mask.mcountinhibit isa)
  | .fcsr => writeMasked .fcsr value (Mask.fcsr isa)
  | .fflags => writeField .fcsr Fcsr.fflags (value.setWidth 5)
  | .frm => writeField .fcsr Fcsr.frm (value.setWidth 3)
  | .tselect | .tdata1 | .tdata2 | .tdata3 | .dcsr | .dpc | .dscratch0 | .dscratch1 =>
      onlyRv32 (pure ())
  | a => defaultWrite a value

def setCsrValue (addr : BitVec 12) (value : Word isa) : IssM isa World Unit :=
  match CsrAddr.named addr with
  | some a => setNamedCsr value a
  | none => raiseIllegalInstruction

end Iss

end RiscvVp
