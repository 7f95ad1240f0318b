/-
# RiscvVp.Iss.Memory -- the memory interface of the core

`CombinedMemoryInterface` above the raw accesses: loads and stores translate first,
atomic ones take or ask for the bus lock, an instruction fetch is one load of four
bytes at the translated program counter.
-/
import RiscvVp.Iss.Mmu

namespace RiscvVp.Iss

set_option autoImplicit false

open Lib

variable {isa : Isa} {World : Type} (plat : Platform World)

def v2p (vaddr : BitVec 64) (type : MemoryAccessType) : IssM isa World (BitVec 64) :=
  if isa = .rv32 ∧ plat.hasMmu = false then return vaddr
  else translateVirtualToPhysicalAddr plat vaddr type

def memFlushTlb : IssM isa World Unit := do
  assert (¬ (isa = .rv32 ∧ plat.hasMmu = false)) .missingMmu
  flushTlb

def loadData (addr : BitVec 64) (bytes : Nat) : IssM isa World (BitVec (8 * bytes)) := do
  rawLoadData plat (← v2p plat addr .load) bytes

def storeData (addr : BitVec 64) (bytes : Nat) (value : BitVec (8 * bytes)) :
    IssM isa World Unit := do
  rawStoreData plat (← v2p plat addr .store) bytes value

/-! ## The widths -/

/-- The loads of signed integers; the result is extended to what the function returns. -/
def loadSigned (bytes width : Nat) (addr : BitVec 64) : IssM isa World (BitVec width) := do
  return (← loadData plat addr bytes).signExtend width

def loadUnsigned (bytes width : Nat) (addr : BitVec 64) : IssM isa World (BitVec width) := do
  return (← loadData plat addr bytes).setWidth width

def loadDouble : BitVec 64 → IssM isa World (BitVec 64) := loadSigned plat 8 64
def loadWord : BitVec 64 → IssM isa World (Word isa) := loadSigned plat 4 isa.xlen
def loadHalf : BitVec 64 → IssM isa World (Word isa) := loadSigned plat 2 isa.xlen
def loadByte : BitVec 64 → IssM isa World (Word isa) := loadSigned plat 1 isa.xlen
/-- The RV32 interface does not have it. -/
def loadUword : BitVec 64 → IssM isa World (Word isa) := loadUnsigned plat 4 isa.xlen
def loadUhalf : BitVec 64 → IssM isa World (Word isa) := loadUnsigned plat 2 isa.xlen
def loadUbyte : BitVec 64 → IssM isa World (Word isa) := loadUnsigned plat 1 isa.xlen

def storeDouble (addr value : BitVec 64) : IssM isa World Unit := storeData plat addr 8 value
def storeWord (addr : BitVec 64) (value : BitVec 32) : IssM isa World Unit := storeData plat addr 4 value
def storeHalf (addr : BitVec 64) (value : BitVec 16) : IssM isa World Unit := storeData plat addr 2 value
def storeByte (addr : BitVec 64) (value : BitVec 8) : IssM isa World Unit := storeData plat addr 1 value

/-! ## Fetches and atomic accesses -/

/-- `InstrMemoryProxy::load_instr`; only the RV64 proxy asserts that paging is off. -/
def proxyLoadInstr (e : MemoryDMI) (pc : BitVec 64) : IssM isa World (BitVec 32) := do
  let satp ← readCsr .satp
  assert (isa = .rv64 → Satp.mode satp = Satp.bare) .proxyWithVirtualMemory
  onWorld (plat.dmiLoad e pc 4)

/-- `CombinedMemoryInterface::load_instr`. -/
def combinedLoadInstr (pc : BitVec 64) : IssM isa World (BitVec 32) := do
  rawLoadData plat (← v2p plat pc .fetch) 4

def loadInstr (pc : BitVec 64) : IssM isa World (BitVec 32) :=
  match plat.instrMem with
  | some e => proxyLoadInstr plat e pc
  | none => combinedLoadInstr plat pc

def atomicUnlock : IssM isa World Unit := do
  onWorld (Exec.update (plat.unlock (← Exec.read hartId)))

def busLock : IssM isa World Unit := do
  onWorld (Platform.await (plat.lock (← Exec.read hartId)))

def busIsLocked : IssM isa World Bool :=
  Exec.read fun s => plat.isLocked s.hartId s.world

def atomicLoadData (addr : BitVec 64) (bytes : Nat) : IssM isa World (BitVec (8 * bytes)) := do
  busLock plat
  loadData plat addr bytes

def atomicStoreData (addr : BitVec 64) (bytes : Nat) (value : BitVec (8 * bytes)) :
    IssM isa World Unit := do
  let locked ← busIsLocked plat
  assert (locked = true) .busNotLocked
  storeData plat addr bytes value

def setLrAddr (addr : BitVec 64) : IssM isa World Unit :=
  Exec.update fun s => { s with lrAddr := addr }

def atomicLoadReservedData (addr : BitVec 64) (bytes : Nat) :
    IssM isa World (BitVec (8 * bytes)) := do
  busLock plat
  setLrAddr addr
  loadData plat addr bytes

def atomicStoreConditionalData (addr : BitVec 64) (bytes : Nat) (value : BitVec (8 * bytes)) :
    IssM isa World Bool := do
  if ← busIsLocked plat then
    if addr = (← Exec.read lrAddr) then
      storeData plat addr bytes value
      return true
    else
      atomicUnlock plat
      return false
  else return false

end RiscvVp.Iss
