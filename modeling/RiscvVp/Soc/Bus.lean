/-
# RiscvVp.Soc.Bus -- memories behind a bus

`SimpleMemory`, `PortMapping`, `SimpleBus` and `BusLock`, and a core that is wired to them: a
transaction goes to the first port that contains its address, there with the offset in the port;
a DMI window is a pointer into one of the memories.  An assertion that fails ends the simulation.
The state remembers that in `aborted`, and nothing that comes after it counts.
-/
import RiscvVp.Iss.Mmu
import RiscvVp.Util.MemoryMap

namespace RiscvVp

set_option autoImplicit false

open Lib

/-! ## `SimpleMemory` -/

/-- The bytes from the pointer `data` on; the first `size` of them are the memory. -/
structure SimpleMemory where
  data : ByteMemory
  size : BitVec 32

namespace SimpleMemory

variable (mem : SimpleMemory) {n : Nat}

/-- The assertion of both; the sum is one of `unsigned`s. -/
def Admits (addr : BitVec 32) (n : Nat) : Prop := addr + BitVec.ofNat 32 n ≤ mem.size

instance (addr : BitVec 32) (n : Nat) : Decidable (mem.Admits addr n) :=
  inferInstanceAs (Decidable (_ ≤ _))

def writeData (addr : BitVec 32) (src : BitVec (8 * n)) : Option SimpleMemory :=
  if mem.Admits addr n then some { mem with data := mem.data.write (addr.setWidth 64) n src } else none

def readData (addr : BitVec 32) (n : Nat) : Option (BitVec (8 * n)) :=
  if mem.Admits addr n then some (mem.data.read (addr.setWidth 64) n) else none

/-- The buffer and the memory behind the transaction; `none` where an assertion fails.  The
address becomes an `unsigned`. -/
def transportDbg (cmd : TlmCommand n) (address : BitVec 64) : Option (BitVec (8 * n) × SimpleMemory) :=
  let addr : BitVec 32 := address.setWidth 32
  if addr < mem.size then
    match cmd with
    | .write buffer => (mem.writeData addr buffer).map (buffer, ·)
    | .read => (mem.readData addr n).map (·, mem)
  else none

end SimpleMemory

/-! ## `SimpleBus` -/

/-- The addresses from `start` to `stop`, both included. -/
structure PortMapping where
  start : BitVec 64
  stop : BitVec 64
  ordered : start ≤ stop

namespace PortMapping

variable (port : PortMapping) (addr : BitVec 64)

def contains : Bool := port.start ≤ addr && addr ≤ port.stop

def globalToLocal : BitVec 64 := addr - port.start

end PortMapping

/-- `BusLock`. -/
structure BusLock where
  locked : Bool
  owner : BitVec 64

namespace BusLock

variable (lock : BusLock) (hart : BitVec 64)

def isLocked : Bool := lock.locked && lock.owner == hart

def unlock : BusLock := if lock.isLocked hart then { lock with locked := false } else lock

/-- There is nobody else to give the lock back. -/
def waitForAccessRights : Option BusLock :=
  if lock.locked && !lock.isLocked hart then none else some lock

def acquire : Option BusLock := (lock.waitForAccessRights hart).map fun _ => ⟨true, hart⟩

end BusLock

/-- The ports of the bus, the peripherals at those that are not a memory, and where the pointer
of a DMI window leads. -/
structure Soc (Dev : Type) where
  ports : List PortMapping
  /-- `b_transport` of the peripherals; `none` is an error response. -/
  peripheral : (id : Nat) → {n : Nat} → TlmCommand n → BitVec 64 → Dev → Option (BitVec (8 * n)) × Dev
  pointer : MemoryDMI → Nat

structure SocState (Dev : Type) where
  memory : Nat → Option SimpleMemory
  dev : Dev
  lock : BusLock
  aborted : Bool

namespace SocState

variable {Dev : Type} (w : SocState Dev)

def setMemory (id : Nat) (mem : SimpleMemory) : SocState Dev :=
  { w with memory := fun i => if i = id then some mem else w.memory i }

end SocState

namespace Soc

variable {Dev : Type} (soc : Soc Dev) {n : Nat}

/-- `SimpleBus::decode`. -/
def decode (addr : BitVec 64) : Option Nat := soc.ports.findIdx? (·.contains addr)

/-- `b_transport` of the target at a port. -/
def transportTo (id : Nat) (cmd : TlmCommand n) (addr : BitVec 64) (w : SocState Dev) :
    Option (BitVec (8 * n)) × SocState Dev :=
  match w.memory id with
  | some mem =>
      match mem.transportDbg cmd addr with
      | some (buffer, mem) => (some buffer, w.setMemory id mem)
      | none => (none, { w with aborted := true })
  | none =>
      let (response, dev) := soc.peripheral id cmd addr w.dev
      (response, { w with dev := dev })

/-- `SimpleBus::transport`. -/
def transport (cmd : TlmCommand n) (addr : BitVec 64) (w : SocState Dev) :
    Option (BitVec (8 * n)) × SocState Dev :=
  match soc.decode addr with
  | none => (none, w)
  | some id =>
      match soc.ports[id]? with
      | none => (none, w)
      | some port => soc.transportTo id cmd (port.globalToLocal addr) w

/-- What the pointer of a window leads to, from the global address on. -/
def dmiRead (e : MemoryDMI) (addr : BitVec 64) (n : Nat) (w : SocState Dev) :
    BitVec (8 * n) × SocState Dev :=
  match w.memory (soc.pointer e) with
  | some mem => (mem.data.read (addr - e.start) n, w)
  | none => (0, w)

def dmiWrite (e : MemoryDMI) (addr : BitVec 64) (n : Nat) (value : BitVec (8 * n))
    (w : SocState Dev) : SocState Dev :=
  match w.memory (soc.pointer e) with
  | some mem => w.setMemory (soc.pointer e) { mem with data := mem.data.write (addr - e.start) n value }
  | none => w

/-- A core on the bus, with DMI windows; the rest of the platform is as in `base`. -/
def platform (base : Platform (SocState Dev)) (windows : List MemoryDMI) : Platform (SocState Dev) :=
  { base with
    dmiRanges := windows
    lock := fun hart w => (w.lock.acquire hart).map fun lock => { w with lock := lock }
    unlock := fun hart w => { w with lock := w.lock.unlock hart }
    isLocked := fun hart w => w.lock.isLocked hart
    waitForAccessRights := fun hart w =>
      (w.lock.waitForAccessRights hart).map fun lock => { w with lock := lock }
    busRead := fun addr _ w => soc.transport .read addr w
    busWrite := fun addr _ value w =>
      let (response, w) := soc.transport (.write value) addr w
      (response.isSome, w)
    dmiRead := soc.dmiRead
    dmiWrite := soc.dmiWrite }

end Soc

end RiscvVp
