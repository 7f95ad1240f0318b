/-
# RiscvVp.Soc.Windows -- two ways to a memory

The bus subtracts the start of the port, and the memory cuts the rest to 32 bits and compares it
with its size; a DMI window adds the offset to a pointer.  Where a window covers a memory behind
its port both end at the same bytes.  All the memories together are one byte memory over the
addresses of the bus (`Soc.bytes`), and the raw accesses of a core are reads and writes of it.
-/
import RiscvVp.Iss.Backing
import RiscvVp.Soc.Bus

namespace RiscvVp

set_option autoImplicit false

open Lib

/-! ## Windows -/

/-- The `n` bytes at `addr` lie in the window. -/
def MemoryDMI.Holds (e : MemoryDMI) (addr : BitVec 64) (n : Nat) : Prop :=
  e.start ≤ addr ∧ addr.toNat + n ≤ e.stop.toNat

/-- No address is in both. -/
def MemoryDMI.Apart (e f : MemoryDMI) : Prop := ∀ addr, ¬ (e.contains addr = true ∧ f.contains addr = true)

theorem MemoryDMI.contains_iff {e : MemoryDMI} {addr : BitVec 64} :
    e.contains addr = true ↔ e.start.toNat ≤ addr.toNat ∧ addr.toNat < e.stop.toNat := by
  unfold contains
  rw [Bool.and_eq_true, decide_eq_true_iff, decide_eq_true_iff, BitVec.le_def, BitVec.lt_def]

theorem MemoryDMI.Holds.contains {e : MemoryDMI} {addr : BitVec 64} {n k : Nat} (holds : e.Holds addr n)
    (inside : k < n) : e.contains (addr + BitVec.ofNat 64 k) = true := by
  have top := e.stop.isLt
  have low := BitVec.le_def.mp holds.1
  have high := holds.2
  rw [contains_iff, BitVec.toNat_add, BitVec.toNat_ofNat, Nat.mod_eq_of_lt (a := k) (by omega),
    Nat.mod_eq_of_lt (by omega)]
  omega

namespace Soc

variable {Dev : Type} (soc : Soc Dev)

/-- The window has the addresses of one memory and its pointer, and the bus leads from these
addresses to the memory. -/
structure Covers (w : SocState Dev) (e : MemoryDMI) : Prop where
  /-- `start + size > start`. -/
  ordered : e.start < e.stop
  memory : ∃ mem, w.memory (soc.pointer e) = some mem ∧ e.stop = e.start + mem.size.setWidth 64
  port : ∃ port, soc.ports[soc.pointer e]? = some port ∧ port.start = e.start
  decodes : ∀ addr, e.contains addr = true → soc.decode addr = some (soc.pointer e)

/-- The bytes behind the bus, by their addresses there. -/
def bytes (w : SocState Dev) : ByteMemory := fun addr =>
  match soc.decode addr with
  | none => 0
  | some id =>
      match w.memory id, soc.ports[id]? with
      | some mem, some port => mem.data (port.globalToLocal addr)
      | _, _ => 0

section Covered

variable {soc} {w : SocState Dev} {e f : MemoryDMI} {addr : BitVec 64} {n : Nat}

/-- One memory has one window. -/
theorem Covers.unique (first : soc.Covers w e) (second : soc.Covers w f)
    (inFirst : e.contains addr = true) (inSecond : f.contains addr = true) : e = f := by
  have pointer : soc.pointer e = soc.pointer f :=
    Option.some.inj ((first.decodes addr inFirst).symm.trans (second.decodes addr inSecond))
  obtain ⟨mem, own, stop⟩ := first.memory
  obtain ⟨mem', own', stop'⟩ := second.memory
  obtain ⟨port, found, start⟩ := first.port
  obtain ⟨port', found', start'⟩ := second.port
  rw [pointer] at own found
  cases own.symm.trans own'
  cases found.symm.trans found'
  have starts : e.start = f.start := start.symm.trans start'
  have stops : e.stop = f.stop := by rw [stop, stop', starts]
  cases e
  cases f
  cases starts
  cases stops
  rfl

/-- The end of a window is a sum that does not wrap. -/
theorem stop_toNat {mem : SimpleMemory} (ordered : e.start < e.stop)
    (stop : e.stop = e.start + mem.size.setWidth 64) :
    e.stop.toNat = e.start.toNat + mem.size.toNat := by
  have small := mem.size.isLt
  have low := e.start.isLt
  rw [BitVec.lt_def] at ordered
  rw [stop, BitVec.toNat_add, BitVec.toNat_setWidth, Nat.mod_eq_of_lt (a := mem.size.toNat) (by omega)]
    at ordered ⊢
  omega

theorem bytes_of_decode {id : Nat} {mem : SimpleMemory} {port : PortMapping}
    (target : soc.decode addr = some id) (own : w.memory id = some mem)
    (found : soc.ports[id]? = some port) : soc.bytes w addr = mem.data (addr - port.start) := by
  unfold bytes
  rw [target]
  dsimp only
  rw [own, found]
  rfl

/-- What is seen at an address of the window. -/
theorem Covers.bytes_eq (covers : soc.Covers w e) {mem : SimpleMemory}
    (own : w.memory (soc.pointer e) = some mem) (inside : e.contains addr = true) :
    soc.bytes w addr = mem.data (addr - e.start) := by
  obtain ⟨port, found, start⟩ := covers.port
  rw [bytes_of_decode (covers.decodes addr inside) own found, start]

/-- The memory holds the bytes of a word in the window, from its offset on. -/
theorem Covers.read_eq (covers : soc.Covers w e) {mem : SimpleMemory}
    (own : w.memory (soc.pointer e) = some mem) (holds : e.Holds addr n) :
    mem.data.read (addr - e.start) n = (soc.bytes w).read addr n := by
  refine ByteMemory.read_congr fun k inside => ?_
  rw [covers.bytes_eq own (holds.contains inside)]
  congr 1
  bv_omega

/-! ## The two ways to a memory -/

/-- The offset fits in 32 bits, and so does the end of the access: the memory accepts it. -/
theorem transportDbg_eq {mem : SimpleMemory} (ordered : e.start < e.stop)
    (stop : e.stop = e.start + mem.size.setWidth 64) (positive : 0 < n) (holds : e.Holds addr n)
    (cmd : TlmCommand n) : mem.transportDbg cmd (addr - e.start) =
      match cmd with
      | .read => some (mem.data.read (addr - e.start) n, mem)
      | .write buffer => some (buffer, { mem with data := mem.data.write (addr - e.start) n buffer }) := by
  have size := mem.size.isLt
  have low := BitVec.le_def.mp holds.1
  have high := holds.2
  rw [stop_toNat ordered stop] at high
  have offset : (addr - e.start).toNat = addr.toNat - e.start.toNat := BitVec.toNat_sub_of_le holds.1
  have cut : ((addr - e.start).setWidth 32).toNat = addr.toNat - e.start.toNat := by
    rw [BitVec.toNat_setWidth, offset, Nat.mod_eq_of_lt (by omega)]
  have back : ((addr - e.start).setWidth 32).setWidth 64 = addr - e.start := by
    apply BitVec.eq_of_toNat_eq
    rw [BitVec.toNat_setWidth, cut, offset, Nat.mod_eq_of_lt (by omega)]
  have inside : (addr - e.start).setWidth 32 < mem.size := by
    rw [BitVec.lt_def, cut]
    omega
  have admits : mem.Admits ((addr - e.start).setWidth 32) n := by
    unfold SimpleMemory.Admits
    rw [BitVec.le_def, BitVec.toNat_add, BitVec.toNat_ofNat, cut, Nat.mod_eq_of_lt (a := n) (by omega),
      Nat.mod_eq_of_lt (by omega)]
    omega
  unfold SimpleMemory.transportDbg
  dsimp only
  rw [if_pos inside]
  cases cmd with
  | read =>
    unfold SimpleMemory.readData
    rw [if_pos admits, back]
    rfl
  | write buffer =>
    unfold SimpleMemory.writeData
    dsimp only
    rw [if_pos admits, back]
    rfl

theorem setMemory_self {id : Nat} {mem : SimpleMemory} (own : w.memory id = some mem) :
    w.setMemory id mem = w := by
  have same : (fun i => if i = id then some mem else w.memory i) = w.memory := by
    funext i
    split
    case isTrue here => rw [here, own]
    case isFalse => rfl
  unfold SocState.setMemory
  rw [same]

variable (covers : soc.Covers w e) (positive : 0 < n) (holds : e.Holds addr n)

include covers positive holds

theorem decode_of_holds : soc.decode addr = some (soc.pointer e) := by
  have here := covers.decodes (addr + BitVec.ofNat 64 0) (holds.contains positive)
  rwa [BitVec.add_zero] at here

theorem transport_read : soc.transport .read addr w = (some ((soc.bytes w).read addr n), w) := by
  obtain ⟨mem, own, stop⟩ := covers.memory
  obtain ⟨port, found, start⟩ := covers.port
  unfold transport transportTo PortMapping.globalToLocal
  rw [decode_of_holds covers positive holds]
  dsimp only
  rw [found]
  dsimp only
  rw [own, start]
  dsimp only
  rw [transportDbg_eq covers.ordered stop positive holds, covers.read_eq own holds]
  exact congrArg (Prod.mk _) (setMemory_self own)

theorem transport_write (value : BitVec (8 * n)) :
    soc.transport (.write value) addr w = (some value, soc.dmiWrite e addr n value w) := by
  obtain ⟨mem, own, stop⟩ := covers.memory
  obtain ⟨port, found, start⟩ := covers.port
  unfold transport transportTo PortMapping.globalToLocal dmiWrite
  rw [decode_of_holds covers positive holds]
  dsimp only
  rw [found]
  dsimp only
  rw [own, start]
  dsimp only
  rw [transportDbg_eq covers.ordered stop positive holds]

omit positive in
theorem dmiRead_eq : soc.dmiRead e addr n w = ((soc.bytes w).read addr n, w) := by
  obtain ⟨mem, own, stop⟩ := covers.memory
  unfold dmiRead
  rw [own]
  dsimp only
  rw [covers.read_eq own holds]

omit positive in
/-- A store changes the bytes it addresses. -/
theorem bytes_dmiWrite (value : BitVec (8 * n)) :
    soc.bytes (soc.dmiWrite e addr n value w) = (soc.bytes w).write addr n value := by
  obtain ⟨mem, own, stop⟩ := covers.memory
  obtain ⟨port, found, start⟩ := covers.port
  have written : soc.dmiWrite e addr n value w =
      w.setMemory (soc.pointer e) { mem with data := mem.data.write (addr - e.start) n value } := by
    unfold dmiWrite
    rw [own]
  rw [written]
  funext a
  by_cases here : soc.decode a = some (soc.pointer e)
  · -- the same offset from the start of the port on both sides
    have offset : a - e.start - (addr - e.start) = a - addr := by bv_omega
    rw [bytes_of_decode here (if_pos rfl) found]
    unfold ByteMemory.write
    dsimp only
    rw [bytes_of_decode here own found, start, offset]
  · -- another target, so not an address of the access
    have far : ¬ (a - addr).toNat < n := by
      intro near
      have inside := holds.contains near
      rw [ByteMemory.add_offset] at inside
      exact here (covers.decodes a inside)
    unfold ByteMemory.write
    rw [if_neg far]
    unfold bytes
    cases target : soc.decode a with
    | none => rfl
    | some id =>
      have other : id ≠ soc.pointer e := by
        rintro rfl
        exact here target
      dsimp only [SocState.setMemory]
      rw [if_neg other]

end Covered

/-! ## What a store leaves -/

/-- The memories keep their places and their sizes, and nothing else has changed but the lock. -/
structure SameShape (w w' : SocState Dev) : Prop where
  size : ∀ id, (w'.memory id).map SimpleMemory.size = (w.memory id).map SimpleMemory.size
  dev : w'.dev = w.dev
  aborted : w'.aborted = w.aborted

theorem SameShape.trans {w w' w'' : SocState Dev} (first : SameShape w w') (second : SameShape w' w'') :
    SameShape w w'' where
  size id := (second.size id).trans (first.size id)
  dev := second.dev.trans first.dev
  aborted := second.aborted.trans first.aborted

theorem SameShape.covers {soc : Soc Dev} {w w' : SocState Dev} {e : MemoryDMI} (same : SameShape w w')
    (covers : soc.Covers w e) : soc.Covers w' e where
  ordered := covers.ordered
  port := covers.port
  decodes := covers.decodes
  memory := by
    obtain ⟨mem, own, stop⟩ := covers.memory
    have size := same.size (soc.pointer e)
    rw [own] at size
    obtain ⟨mem', own', equal⟩ := Option.map_eq_some_iff.mp size
    exact ⟨mem', own', equal ▸ stop⟩

theorem sameShape_dmiWrite (e : MemoryDMI) (addr : BitVec 64) {n : Nat} (value : BitVec (8 * n))
    (w : SocState Dev) : SameShape w (soc.dmiWrite e addr n value w) := by
  unfold dmiWrite
  cases own : w.memory (soc.pointer e) with
  | none => exact ⟨fun _ => rfl, rfl, rfl⟩
  | some mem =>
    refine ⟨fun id => ?_, rfl, rfl⟩
    dsimp only [SocState.setMemory]
    split
    case isTrue here => rw [here, own]; rfl
    case isFalse => rfl

/-! ## Raw accesses -/

/-- No other hart has the lock. -/
def OpenTo (hart : BitVec 64) (w : SocState Dev) : Prop := w.lock.locked = true → w.lock.owner = hart

/-- Windows that cover a memory each. -/
structure Wired (w : SocState Dev) (windows : List MemoryDMI) : Prop where
  covers : ∀ e ∈ windows, soc.Covers w e
  disjoint : windows.Pairwise MemoryDMI.Apart

/-- The state behind a store of the hart. -/
def stored (hart : BitVec 64) (e : MemoryDMI) (addr : BitVec 64) (n : Nat) (value : BitVec (8 * n))
    (w : SocState Dev) : SocState Dev :=
  { soc.dmiWrite e addr n value w with lock := (soc.dmiWrite e addr n value w).lock.unlock hart }

section Raw

variable {soc} {base : Platform (SocState Dev)} {windows : List MemoryDMI} {w : SocState Dev}
  {hart : BitVec 64}

theorem run_await (free : OpenTo hart w) :
    (Platform.await ((soc.platform base windows).waitForAccessRights hart)).run w = (.ok (), w) := by
  refine Platform.run_await_some ?_
  have granted : w.lock.waitForAccessRights hart = some w.lock := by
    unfold BusLock.waitForAccessRights BusLock.isLocked
    cases locked : w.lock.locked with
    | false => rfl
    | true => simp [free locked]
  exact congrArg (Option.map fun lock => { w with lock := lock }) granted

variable {e : MemoryDMI} {addr : BitVec 64} {n : Nat}

theorem contains_of_holds (positive : 0 < n) (holds : e.Holds addr n) : e.contains addr = true := by
  have first := holds.contains positive
  rwa [BitVec.add_zero] at first

theorem run_dmiCheck (positive : 0 < n) (holds : e.Holds addr n) (w : SocState Dev) :
    (Platform.dmiCheck e addr n).run w = (.ok (), w) := by
  have top := e.stop.isLt
  have low := holds.2
  have inside : addr + BitVec.ofNat 64 n ≤ e.stop := by
    rw [BitVec.le_def, BitVec.toNat_add, BitVec.toNat_ofNat, Nat.mod_eq_of_lt (a := n) (by omega),
      Nat.mod_eq_of_lt (by omega)]
    omega
  unfold Platform.dmiCheck
  rw [if_pos ⟨contains_of_holds positive holds, inside⟩]
  rfl

variable (wired : soc.Wired w windows) (covers : soc.Covers w e) (positive : 0 < n)
  (holds : e.Holds addr n)

include wired covers positive holds

/-- A load goes through the window of its memory, or to the bus. -/
theorem run_rawLoadData (free : OpenTo hart w) :
    ((soc.platform base windows).rawLoadData hart addr n).run w = (.ok ((soc.bytes w).read addr n), w) := by
  unfold Platform.rawLoadData
  rw [Exec.run_bind_ok (run_await free)]
  split
  case h_1 f found =>
    have known : f ∈ windows := List.mem_of_find?_eq_some found
    have here : f.contains addr = true := by simpa using List.find?_some found
    cases covers.unique (wired.covers f known) (contains_of_holds positive holds) here
    unfold Platform.dmiLoad
    rw [Exec.run_bind_ok (run_dmiCheck positive holds w)]
    show (Except.ok (soc.dmiRead e addr n w).1, (soc.dmiRead e addr n w).2) = _
    rw [dmiRead_eq covers holds]
  case h_2 missing =>
    exact Platform.run_busLoad_some (transport_read covers positive holds)

omit wired in
/-- The loop over the windows: at most one of them has the address. -/
theorem run_dmiStores {ranges : List MemoryDMI} (known : ∀ f ∈ ranges, soc.Covers w f)
    (disjoint : ranges.Pairwise MemoryDMI.Apart) (value : BitVec (8 * n))
    (inside : ranges.any (·.contains addr) = true) :
    ((soc.platform base windows).dmiStores addr n value ranges).run w =
      (.ok (), soc.dmiWrite e addr n value w) := by
  have own := contains_of_holds positive holds
  induction ranges with
  | nil => cases inside
  | cons f ranges ih =>
    obtain ⟨apart, rest⟩ := List.pairwise_cons.mp disjoint
    unfold Platform.dmiStores
    by_cases here : f.contains addr = true
    · have outside : ranges.any (·.contains addr) = false := by
        rw [List.any_eq_false]
        intro g among there
        exact apart g among addr ⟨here, there⟩
      cases covers.unique (known f List.mem_cons_self) own here
      have stores : ((soc.platform base windows).dmiStore e addr n value).run w =
          (.ok (), soc.dmiWrite e addr n value w) := by
        unfold Platform.dmiStore
        rw [Exec.run_bind_ok (run_dmiCheck positive holds w)]
        rfl
      rw [Exec.when_pos here, Exec.run_bind_ok stores, Platform.dmiStores_outside _ value outside]
      rfl
    · rw [List.any_cons, Bool.or_eq_true] at inside
      rw [Exec.when_neg here]
      exact ih (fun g among => known g (List.mem_cons_of_mem f among)) rest (inside.resolve_left here)

theorem run_rawStoreData (free : OpenTo hart w) (value : BitVec (8 * n)) :
    ((soc.platform base windows).rawStoreData hart addr n value).run w =
      (.ok (), soc.stored hart e addr n value w) := by
  have ranges : (soc.platform base windows).dmiRanges = windows := rfl
  unfold Platform.rawStoreData
  rw [Exec.run_bind_ok (run_await free), ranges]
  cases inside : windows.any (·.contains addr) with
  | true =>
    rw [Exec.run_bind_ok (run_dmiStores covers positive holds wired.covers wired.disjoint value inside)]
    rfl
  | false =>
    have asked : ((soc.platform base windows).busStore addr n value).run w =
        (.ok (), soc.dmiWrite e addr n value w) := by
      refine Platform.run_busStore_true ?_
      unfold platform
      dsimp only
      rw [transport_write covers positive holds]
      rfl
    have missed : (!false) = true := rfl
    rw [Platform.dmiStores_outside _ value inside, Exec.run_pure_bind, Exec.when_pos missed,
      Exec.run_bind_ok asked]
    rfl

end Raw

theorem sameShape_stored (hart : BitVec 64) (e : MemoryDMI) (addr : BitVec 64) {n : Nat}
    (value : BitVec (8 * n)) (w : SocState Dev) : SameShape w (soc.stored hart e addr n value w) :=
  have shape := soc.sameShape_dmiWrite e addr value w
  ⟨shape.size, shape.dev, shape.aborted⟩

theorem openTo_stored {hart : BitVec 64} {w : SocState Dev} (free : OpenTo hart w) (e : MemoryDMI)
    (addr : BitVec 64) {n : Nat} (value : BitVec (8 * n)) :
    OpenTo hart (soc.stored hart e addr n value w) := by
  have lock : (soc.dmiWrite e addr n value w).lock = w.lock := by
    unfold dmiWrite
    split <;> rfl
  show (BusLock.unlock _ hart).locked = true → (BusLock.unlock _ hart).owner = hart
  rw [lock]
  unfold BusLock.unlock
  split
  · exact nofun
  · exact free

end Soc

end RiscvVp
