/-
# RiscvVp.Iss.Mmu -- raw memory accesses and address translation

`_raw_load_data` and `_raw_store_data` of `CombinedMemoryInterface`, which go to a DMI
window or to the bus, and `GenericMMU` of `mmu.h`, whose page-table accesses are raw
ones.
-/
import RiscvVp.Iss.Core

namespace RiscvVp

set_option autoImplicit false

open Lib

/-! ## Raw accesses -/

namespace Platform

variable {World : Type} (plat : Platform World)

/-- A wait of the SystemC process. -/
def await (wait : World → Option World) : Exec World Exc Unit := fun w =>
  match wait w with
  | some w' => (.ok (), w')
  | none => (.error .blocked, w)

/-- `_do_transaction` with `TLM_READ_COMMAND`. -/
def busLoad (addr : BitVec 64) (bytes : Nat) : Exec World Exc (BitVec (8 * bytes)) := fun w =>
  match plat.busRead addr bytes w with
  | (some data, w') => (.ok data, w')
  | (none, w') => (.error (.trap ⟨.loadPageFault, addr⟩), w')

/-- `_do_transaction` with `TLM_WRITE_COMMAND`. -/
def busStore (addr : BitVec 64) (bytes : Nat) (value : BitVec (8 * bytes)) :
    Exec World Exc Unit := fun w =>
  match plat.busWrite addr bytes value w with
  | (true, w') => (.ok (), w')
  | (false, w') => (.error (.trap ⟨.storeAmoPageFault, addr⟩), w')

/-- The assertions of `get_mem_ptr_to_global_addr`. -/
def dmiCheck (e : MemoryDMI) (addr : BitVec 64) (bytes : Nat) : Exec World Exc Unit :=
  if e.contains addr ∧ addr + BitVec.ofNat 64 bytes ≤ e.stop then pure ()
  else Exec.raise (.abort .dmiRange)

def dmiLoad (e : MemoryDMI) (addr : BitVec 64) (bytes : Nat) :
    Exec World Exc (BitVec (8 * bytes)) := do
  dmiCheck e addr bytes
  Exec.call (plat.dmiRead e addr bytes)

def dmiStore (e : MemoryDMI) (addr : BitVec 64) (bytes : Nat) (value : BitVec (8 * bytes)) :
    Exec World Exc Unit := do
  dmiCheck e addr bytes
  Exec.update (plat.dmiWrite e addr bytes value)

def rawLoadData (hart addr : BitVec 64) (bytes : Nat) : Exec World Exc (BitVec (8 * bytes)) := do
  await (plat.waitForAccessRights hart)
  match plat.dmiRanges.find? (·.contains addr) with
  | some e => plat.dmiLoad e addr bytes
  | none => plat.busLoad addr bytes

/-- The loop of `_raw_store_data`: every window that contains the address is written. -/
def dmiStores (addr : BitVec 64) (bytes : Nat) (value : BitVec (8 * bytes)) :
    List MemoryDMI → Exec World Exc Unit
  | [] => pure ()
  | e :: ranges => do
      Exec.when (e.contains addr) (plat.dmiStore e addr bytes value)
      dmiStores addr bytes value ranges

/-- The bus lock is given back after every store, whoever asked for it. -/
def rawStoreData (hart addr : BitVec 64) (bytes : Nat) (value : BitVec (8 * bytes)) :
    Exec World Exc Unit := do
  await (plat.waitForAccessRights hart)
  plat.dmiStores addr bytes value plat.dmiRanges
  Exec.when (!(plat.dmiRanges.any (·.contains addr))) (plat.busStore addr bytes value)
  Exec.update (plat.unlock hart)

end Platform

namespace Iss

variable {isa : Isa} {World : Type}

def onWorld {α : Type} (m : Exec World Exc α) : IssM isa World α :=
  Exec.onPart world (fun w s => { s with world := w }) m

variable (plat : Platform World)

def rawLoadData (addr : BitVec 64) (bytes : Nat) : IssM isa World (BitVec (8 * bytes)) := do
  onWorld (plat.rawLoadData (← Exec.read hartId) addr bytes)

def rawStoreData (addr : BitVec 64) (bytes : Nat) (value : BitVec (8 * bytes)) :
    IssM isa World Unit := do
  onWorld (plat.rawStoreData (← Exec.read hartId) addr bytes value)

def mmuLoadPte64 (addr : BitVec 64) : IssM isa World (BitVec 64) := rawLoadData plat addr 8

def mmuLoadPte32 (addr : BitVec 64) : IssM isa World (BitVec 64) := do
  return (← rawLoadData plat addr 4).setWidth 64

def mmuStorePte32 (addr : BitVec 64) (value : BitVec 32) : IssM isa World Unit :=
  rawStoreData plat addr 4 value

end Iss

/-! ## Page-table entries -/

/-- `pte_t`. -/
abbrev Pte := BitVec 64

namespace Pte

variable (pte : Pte)

def V : Bool := pte.getLsbD 0
def R : Bool := pte.getLsbD 1
def W : Bool := pte.getLsbD 2
def X : Bool := pte.getLsbD 3
def U : Bool := pte.getLsbD 4

/-- `pte >> PTE_PPN_SHIFT`. -/
def ppn : BitVec 64 := pte >>> 10

end Pte

/-- `PTE_A | ((type == STORE) * PTE_D)`. -/
def adBits : MemoryAccessType → BitVec 64
  | .store => 0xC0#64
  | .fetch | .load => 0x40#64

/-! ## `GenericMMU` -/

structure VmInfo where
  levels : Nat
  idxbits : Nat
  ptesize : Nat
  ptbase : BitVec 64
deriving DecidableEq, Repr

namespace Satp

def ppn : {isa : Isa} → Word isa → BitVec 64
  | .rv32, satp => (satp.extractLsb' 0 22).setWidth 64
  | .rv64, satp => (satp.extractLsb' 0 44).setWidth 64

def mode : {isa : Isa} → Word isa → Nat
  | .rv32, satp => (satp.extractLsb' 31 1).toNat
  | .rv64, satp => (satp.extractLsb' 60 4).toNat

def bare : Nat := 0
def sv32 : Nat := 1
def sv39 : Nat := 8
def sv48 : Nat := 9
def sv57 : Nat := 10
def sv64 : Nat := 11

end Satp

namespace Mstatus

def uie : Field 1 := ⟨0⟩
def sie : Field 1 := ⟨1⟩
def mie : Field 1 := ⟨3⟩
def upie : Field 1 := ⟨4⟩
def spie : Field 1 := ⟨5⟩
def mpie : Field 1 := ⟨7⟩
def spp : Field 1 := ⟨8⟩
def mpp : Field 2 := ⟨11⟩
def fs : Field 2 := ⟨13⟩
def mprv : Field 1 := ⟨17⟩
def sum : Field 1 := ⟨18⟩
def mxr : Field 1 := ⟨19⟩
def tvm : Field 1 := ⟨20⟩
def tw : Field 1 := ⟨21⟩
def tsr : Field 1 := ⟨22⟩

/-- The last bit of the register. -/
def sd : (isa : Isa) → Field 1
  | .rv32 => ⟨31⟩
  | .rv64 => ⟨63⟩

end Mstatus

namespace Iss

variable {isa : Isa} {World : Type}

/-- `GenericMMU::flush_tlb`. -/
def flushTlb : IssM isa World Unit :=
  Exec.update fun s => { s with tlb := fun _ _ _ => TlbEntry.invalid }

/-- The mode a data access is made with: `mpp` instead of `prv` while `mprv` is set. -/
def effectiveMode (type : MemoryAccessType) (s : Iss isa World) : PrivilegeLevel :=
  if type ≠ .fetch ∧ Mstatus.mprv.get (s.csrs.reg .mstatus) = 1#1 then
    Mstatus.mpp.get (s.csrs.reg .mstatus)
  else s.prv

def decodeVmInfo (mode : PrivilegeLevel) : IssM isa World VmInfo := do
  assert (mode ≤ supervisorMode) .mmuMode
  let satp ← readCsr .satp
  let ptbase := Satp.ppn satp <<< 12
  if Satp.mode satp = Satp.sv32 then return ⟨2, 10, 4, ptbase⟩
  else if Satp.mode satp = Satp.sv39 then return ⟨3, 9, 8, ptbase⟩
  else if Satp.mode satp = Satp.sv48 then return ⟨4, 9, 8, ptbase⟩
  else if Satp.mode satp = Satp.sv57 then return ⟨5, 9, 8, ptbase⟩
  else if Satp.mode satp = Satp.sv64 then return ⟨6, 9, 8, ptbase⟩
  else abort .unknownSatpMode

def checkVaddrExtension (isa : Isa) (vaddr : BitVec 64) (vm : VmInfo) : Bool :=
  let highbit := vm.idxbits * vm.levels + 12 - 1
  let extMask := (1#64 <<< (isa.xlen - highbit)) - 1
  let bits := (vaddr >>> highbit) &&& extMask
  bits == 0 || bits == extMask

def pageFault {α : Type} (type : MemoryAccessType) (vaddr : BitVec 64) : IssM isa World α :=
  match type with
  | .fetch => raiseTrap .instrPageFault vaddr
  | .load => raiseTrap .loadPageFault vaddr
  | .store => raiseTrap .storeAmoPageFault vaddr

/-- The tests a leaf has to pass, in the order of `walk`: the access type, the `U` bit,
the alignment of a superpage. -/
def leafAllowed (pte : Pte) (type : MemoryAccessType) (sMode sum mxr : Bool) (ptshift : Nat) :
    Bool :=
  !(type == .fetch && !pte.X) &&
  !(type == .load && !pte.R && !(mxr && pte.X)) &&
  !(type == .store && !(pte.R && pte.W)) &&
  !(if pte.U then sMode && (type == .fetch || !sum) else !sMode) &&
  pte.ppn &&& ((1#64 <<< ptshift) - 1) == 0

/-- The physical address of a leaf found `ptshift` index bits above the page. -/
def leafAddress (pte : Pte) (vaddr : BitVec 64) (ptshift : Nat) : BitVec 64 :=
  let mask := (1#64 <<< ptshift) - 1
  let vpn := vaddr >>> 12
  let pgoff := vaddr &&& 0xFFF
  (((pte.ppn &&& ~~~mask) ||| (vpn &&& mask)) <<< 12) ||| pgoff

def ptePaddr (vm : VmInfo) (vaddr base : BitVec 64) (i : Nat) : BitVec 64 :=
  let vpnField := (vaddr >>> (12 + i * vm.idxbits)) &&& ((1#64 <<< vm.idxbits) - 1)
  base + vpnField * BitVec.ofNat 64 vm.ptesize

variable (plat : Platform World)

def loadPte (vm : VmInfo) (addr : BitVec 64) : IssM isa World Pte :=
  if vm.ptesize = 4 then mmuLoadPte32 plat addr else mmuLoadPte64 plat addr

/-- The loop of `walk`, entered with the number of levels left. -/
def walkLevels (vm : VmInfo) (vaddr : BitVec 64) (type : MemoryAccessType) (sMode sum mxr : Bool) :
    Nat → BitVec 64 → IssM isa World (BitVec 64)
  | 0, _ => pageFault type vaddr
  | i + 1, base => do
      let addr := ptePaddr vm vaddr base i
      let pte ← loadPte plat vm addr
      if !pte.V || (!pte.R && pte.W) then pageFault type vaddr
      else if !pte.R && !pte.X then
        walkLevels vm vaddr type sMode sum mxr i (pte.ppn <<< 12)
      else if !leafAllowed pte type sMode sum mxr (i * vm.idxbits) then pageFault type vaddr
      else
        -- `page_fault_on_AD` is never set: the walk updates the entry itself
        Exec.when (pte &&& adBits type ≠ adBits type)
          (mmuStorePte32 plat addr ((pte ||| adBits type).setWidth 32))
        return leafAddress pte vaddr (i * vm.idxbits)

def walk (vaddr : BitVec 64) (type : MemoryAccessType) (mode : PrivilegeLevel) :
    IssM isa World (BitVec 64) := do
  let sum ← readField .mstatus Mstatus.sum
  let mxr ← readField .mstatus Mstatus.mxr
  let vm ← decodeVmInfo mode
  let levels := if checkVaddrExtension isa vaddr vm then vm.levels else 0
  walkLevels plat vm vaddr type (mode == supervisorMode) (sum == 1#1) (mxr == 1#1) levels vm.ptbase

def tlbLookup (mode : PrivilegeLevel) (type : MemoryAccessType) (vpn : BitVec 64)
    (s : Iss isa World) : TlbEntry :=
  s.tlb mode type (vpn.setWidth 8)

def tlbFill (mode : PrivilegeLevel) (type : MemoryAccessType) (vpn : BitVec 64) (entry : TlbEntry) :
    IssM isa World Unit :=
  Exec.update fun s => { s with
    tlb := fun m t i => if m = mode ∧ t = type ∧ i = vpn.setWidth 8 then entry else s.tlb m t i }

def translateVirtualToPhysicalAddr (vaddr : BitVec 64) (type : MemoryAccessType) :
    IssM isa World (BitVec 64) := do
  let satp ← readCsr .satp
  let mode ← Exec.read (effectiveMode type)
  if Satp.mode satp = Satp.bare then return vaddr
  else if mode = machineMode then return vaddr
  else
    assert (mode = userMode ∨ mode = supervisorMode) .mmuMode
    let vpn := vaddr >>> 12
    let x ← Exec.read (tlbLookup mode type vpn)
    if x.vpn = vpn then return x.ppn ||| (vaddr &&& 0xFFF)
    else
      let paddr ← walk plat vaddr type mode
      tlbFill mode type vpn (.fill paddr vpn)
      return paddr

end Iss

end RiscvVp
