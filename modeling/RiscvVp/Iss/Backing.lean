/-
# RiscvVp.Iss.Backing -- raw accesses to a memory that answers

`Serves` says what it is for a platform to have a memory behind it at some addresses:
accesses there succeed, on the bus and through the DMI windows, and read and write that
memory.  The raw accesses of the core are then reads and writes of it.
-/
import RiscvVp.Iss.Mmu
import RiscvVp.Lib.ByteMemory

namespace RiscvVp

set_option autoImplicit false

open Lib

variable {isa : Isa} {World : Type}

/-! ## Running the raw operations -/

namespace Platform

variable {plat : Platform World} {w w' : World}

theorem run_await_some {wait : World → Option World} (answer : wait w = some w') :
    (await wait).run w = (.ok (), w') := by
  simp only [await, Exec.run, answer]

theorem run_await_none {wait : World → Option World} (answer : wait w = none) :
    (await wait).run w = (.error .blocked, w) := by
  simp only [await, Exec.run, answer]

theorem run_busLoad_some {addr : BitVec 64} {n : Nat} {data : BitVec (8 * n)}
    (answer : plat.busRead addr n w = (some data, w')) :
    (plat.busLoad addr n).run w = (.ok data, w') := by
  simp only [busLoad, Exec.run, answer]

theorem run_busLoad_none {addr : BitVec 64} {n : Nat}
    (answer : plat.busRead addr n w = (none, w')) :
    (plat.busLoad addr n).run w = (.error (.trap ⟨.loadPageFault, addr⟩), w') := by
  simp only [busLoad, Exec.run, answer]

theorem run_busStore_true {addr : BitVec 64} {n : Nat} {value : BitVec (8 * n)}
    (answer : plat.busWrite addr n value w = (true, w')) :
    (plat.busStore addr n value).run w = (.ok (), w') := by
  simp only [busStore, Exec.run, answer]

theorem run_busStore_false {addr : BitVec 64} {n : Nat} {value : BitVec (8 * n)}
    (answer : plat.busWrite addr n value w = (false, w')) :
    (plat.busStore addr n value).run w = (.error (.trap ⟨.storeAmoPageFault, addr⟩), w') := by
  simp only [busStore, Exec.run, answer]

/-- Outside every window the loop does nothing. -/
theorem dmiStores_outside (plat : Platform World) {addr : BitVec 64} {n : Nat} (value : BitVec (8 * n))
    {ranges : List MemoryDMI} (outside : ranges.any (·.contains addr) = false) :
    plat.dmiStores addr n value ranges = pure () := by
  induction ranges with
  | nil => rfl
  | cons e ranges ih =>
    rw [List.any_cons, Bool.or_eq_false_iff] at outside
    unfold dmiStores
    rw [Exec.when_neg (by simp [outside.1]), ih outside.2]
    rfl

end Platform

/-- Accesses of at most `size` bytes at the addresses `mapped` are accesses to the
memory `mem` and succeed; `reads` counts the reads. -/
structure Platform.Serves (plat : Platform World) (mem : World → ByteMemory)
    (reads : World → Nat) (size : Nat) (mapped : BitVec 64 → Prop) : Prop where
  wait : ∀ hart w, ∃ w', plat.waitForAccessRights hart w = some w' ∧ mem w' = mem w ∧
    reads w' = reads w
  unlock : ∀ hart w, mem (plat.unlock hart w) = mem w ∧ reads (plat.unlock hart w) = reads w
  window : ∀ e ∈ plat.dmiRanges, ∀ addr n, mapped addr → e.contains addr = true → n ≤ size →
    addr + BitVec.ofNat 64 n ≤ e.stop
  busRead : ∀ addr n w, mapped addr → n ≤ size → ∃ w',
    plat.busRead addr n w = (some ((mem w).read addr n), w') ∧ mem w' = mem w ∧
      reads w' = reads w + 1
  busWrite : ∀ addr n value w, mapped addr → n ≤ size → ∃ w',
    plat.busWrite addr n value w = (true, w') ∧ mem w' = (mem w).write addr n value ∧
      reads w' = reads w
  dmiRead : ∀ e ∈ plat.dmiRanges, ∀ addr n w, mapped addr → e.contains addr = true → n ≤ size →
    (plat.dmiRead e addr n w).1 = (mem w).read addr n ∧
      mem (plat.dmiRead e addr n w).2 = mem w ∧ reads (plat.dmiRead e addr n w).2 = reads w + 1
  dmiWrite : ∀ e ∈ plat.dmiRanges, ∀ addr n value w, mapped addr → e.contains addr = true →
    n ≤ size → mem (plat.dmiWrite e addr n value w) = (mem w).write addr n value ∧
      reads (plat.dmiWrite e addr n value w) = reads w

/-- Reads of `size` bytes succeed at the addresses `mapped`, where they are reads of the
memory `mem`, and at no other address. -/
structure Platform.Reads (plat : Platform World) (mem : World → ByteMemory) (size : Nat)
    (mapped : BitVec 64 → Prop) : Prop where
  wait : ∀ hart w, ∃ w', plat.waitForAccessRights hart w = some w' ∧ mem w' = mem w
  window : ∀ e ∈ plat.dmiRanges, ∀ addr, e.contains addr = true →
    (mapped addr ↔ addr + BitVec.ofNat 64 size ≤ e.stop)
  dmiRead : ∀ e ∈ plat.dmiRanges, ∀ addr w, e.contains addr = true → mapped addr →
    (plat.dmiRead e addr size w).1 = (mem w).read addr size
  busRead : ∀ addr w, mapped addr → (plat.busRead addr size w).1 = some ((mem w).read addr size)
  refused : ∀ addr w, ¬ mapped addr → (plat.busRead addr size w).1 = none

namespace Platform.Serves

variable {plat : Platform World} {mem : World → ByteMemory} {reads : World → Nat} {size : Nat}
  {mapped : BitVec 64 → Prop} (serves : plat.Serves mem reads size mapped)

include serves

theorem run_await (hart : BitVec 64) (w : World) : ∃ w',
    (await (plat.waitForAccessRights hart)).run w = (.ok (), w') ∧ mem w' = mem w ∧
      reads w' = reads w := by
  obtain ⟨w', waited, same⟩ := serves.wait hart w
  exact ⟨w', run_await_some waited, same⟩

theorem run_dmiCheck {e : MemoryDMI} (known : e ∈ plat.dmiRanges) {addr : BitVec 64}
    (at_ : mapped addr) (contained : e.contains addr = true) {n : Nat} (small : n ≤ size)
    (w : World) : (dmiCheck e addr n).run w = (.ok (), w) := by
  unfold dmiCheck
  rw [if_pos ⟨contained, serves.window e known addr n at_ contained small⟩]
  rfl

theorem rawLoadData {addr : BitVec 64} (at_ : mapped addr) {n : Nat} (small : n ≤ size)
    (hart : BitVec 64) (w : World) : ∃ w',
    (plat.rawLoadData hart addr n).run w = (.ok ((mem w).read addr n), w') ∧ mem w' = mem w ∧
      reads w' = reads w + 1 := by
  obtain ⟨w₁, waited, memory, count⟩ := serves.run_await hart w
  unfold Platform.rawLoadData
  rw [Exec.run_bind_ok waited, ← memory, ← count]
  split
  case h_1 e found =>
    have known := List.mem_of_find?_eq_some found
    have contained : e.contains addr = true := by simpa using List.find?_some found
    obtain ⟨value, kept, counted⟩ := serves.dmiRead e known addr n w₁ at_ contained small
    refine ⟨_, ?_, kept, counted⟩
    unfold dmiLoad
    rw [Exec.run_bind_ok (serves.run_dmiCheck known at_ contained small w₁), ← value]
    rfl
  case h_2 missing =>
    obtain ⟨w', answer, kept, counted⟩ := serves.busRead addr n w₁ at_ small
    exact ⟨w', run_busLoad_some answer, kept, counted⟩

omit serves in
theorem write_write (m : ByteMemory) (addr : BitVec 64) {n : Nat} (value : BitVec (8 * n)) :
    (m.write addr n value).write addr n value = m.write addr n value := by
  funext a
  unfold ByteMemory.write
  split <;> rfl

/-- The loop over the windows writes the memory once, or not at all. -/
theorem dmiStores {addr : BitVec 64} (at_ : mapped addr) {n : Nat} (small : n ≤ size)
    (value : BitVec (8 * n)) {ranges : List MemoryDMI} (known : ∀ e ∈ ranges, e ∈ plat.dmiRanges)
    (w : World) : ∃ w',
    (plat.dmiStores addr n value ranges).run w = (.ok (), w') ∧ reads w' = reads w ∧
      mem w' = if ranges.any (·.contains addr) then (mem w).write addr n value else mem w := by
  induction ranges generalizing w with
  | nil => exact ⟨w, rfl, rfl, rfl⟩
  | cons e ranges ih =>
    have here := known e List.mem_cons_self
    have others : ∀ e ∈ ranges, e ∈ plat.dmiRanges :=
      fun e among => known e (List.mem_cons_of_mem _ among)
    unfold Platform.dmiStores
    by_cases contained : e.contains addr = true
    · obtain ⟨written, counted⟩ := serves.dmiWrite e here addr n value w at_ contained small
      obtain ⟨w', ran, count, memory⟩ := ih others (plat.dmiWrite e addr n value w)
      refine ⟨w', ?_, count.trans counted, ?_⟩
      · have stored : (plat.dmiStore e addr n value).run w =
            (.ok (), plat.dmiWrite e addr n value w) := by
          unfold dmiStore
          rw [Exec.run_bind_ok (serves.run_dmiCheck here at_ contained small w)]
          rfl
        rw [Exec.when_pos contained, Exec.run_bind_ok stored]
        exact ran
      · rw [memory, written, write_write, ite_self]
        simp [contained]
    · obtain ⟨w', ran, count, memory⟩ := ih others w
      refine ⟨w', ?_, count, ?_⟩
      · rw [Exec.when_neg contained]
        exact ran
      · rw [memory]
        simp [contained]

theorem rawStoreData {addr : BitVec 64} (at_ : mapped addr) {n : Nat} (small : n ≤ size)
    (hart : BitVec 64) (value : BitVec (8 * n)) (w : World) : ∃ w',
    (plat.rawStoreData hart addr n value).run w = (.ok (), w') ∧
      mem w' = (mem w).write addr n value ∧ reads w' = reads w := by
  obtain ⟨w₁, waited, memory, count⟩ := serves.run_await hart w
  obtain ⟨w₂, stored, count₂, memory₂⟩ := serves.dmiStores at_ small value (fun _ e => e) w₁
  unfold Platform.rawStoreData
  rw [Exec.run_bind_ok waited, Exec.run_bind_ok stored, ← memory, ← count, ← count₂]
  by_cases inWindow : plat.dmiRanges.any (·.contains addr) = true
  · rw [if_pos inWindow] at memory₂
    rw [Exec.when_neg (by simp [inWindow])]
    refine ⟨plat.unlock hart w₂, rfl, ?_, (serves.unlock hart w₂).2⟩
    rw [(serves.unlock hart w₂).1, memory₂]
  · rw [if_neg inWindow] at memory₂
    obtain ⟨w₃, answer, written, counted⟩ := serves.busWrite addr n value w₂ at_ small
    rw [Exec.when_pos (by simpa using inWindow), Exec.run_bind_ok (run_busStore_true answer)]
    refine ⟨plat.unlock hart w₃, rfl, ?_, (serves.unlock hart w₃).2.trans counted⟩
    rw [(serves.unlock hart w₃).1, written, memory₂]

end Platform.Serves

namespace Platform.Reads

variable {plat : Platform World} {mem : World → ByteMemory} {size : Nat}
  {mapped : BitVec 64 → Prop} (backed : plat.Reads mem size mapped) {addr : BitVec 64}

include backed

theorem rawLoadData (at_ : mapped addr) (hart : BitVec 64) (w : World) :
    ((plat.rawLoadData hart addr size).run w).1 = .ok ((mem w).read addr size) := by
  obtain ⟨w', waited, memory⟩ := backed.wait hart w
  unfold Platform.rawLoadData
  rw [Exec.run_bind_ok (run_await_some waited), ← memory]
  split
  case h_1 e found =>
    have known := List.mem_of_find?_eq_some found
    have contained : e.contains addr = true := by simpa using List.find?_some found
    have checked : (dmiCheck e addr size).run w' = (.ok (), w') := by
      unfold dmiCheck
      rw [if_pos ⟨contained, (backed.window e known addr contained).mp at_⟩]
      rfl
    unfold dmiLoad
    rw [Exec.run_bind_ok checked]
    exact congrArg Except.ok (backed.dmiRead e known addr w' contained at_)
  case h_2 missing =>
    rw [run_busLoad_some (Prod.ext (backed.busRead addr w' at_) rfl)]

/-- Elsewhere a read fails, with the fault of a load if it is a trap at all. -/
theorem rawLoadData_unmapped (unmapped : ¬ mapped addr) (hart : BitVec 64) (w : World) : ∃ e,
    ((plat.rawLoadData hart addr size).run w).1 = .error e ∧
      ∀ va, e ≠ .trap ⟨.instrPageFault, va⟩ := by
  obtain ⟨w', waited, -⟩ := backed.wait hart w
  unfold Platform.rawLoadData
  rw [Exec.run_bind_ok (run_await_some waited)]
  split
  case h_1 e found =>
    have known := List.mem_of_find?_eq_some found
    have contained : e.contains addr = true := by simpa using List.find?_some found
    have checked : (dmiCheck e addr size).run w' = (.error (.abort .dmiRange), w') := by
      unfold dmiCheck
      rw [if_neg fun both => unmapped ((backed.window e known addr contained).mpr both.2)]
      rfl
    unfold dmiLoad
    rw [Exec.run_bind_error checked]
    exact ⟨_, rfl, nofun⟩
  case h_2 missing =>
    rw [run_busLoad_none (Prod.ext (backed.refused addr w' unmapped) rfl)]
    exact ⟨_, rfl, nofun⟩

end Platform.Reads

/-! ## A memory and nothing else -/

/-- The same eight bytes over and over. -/
def repeating (word : BitVec 64) : ByteMemory := fun a => word.extractLsb' (8 * (a.toNat % 8)) 8

/-- One hart alone on a bus that is all memory; `owner` is the holder of the bus lock. -/
structure Flat where
  bytes : ByteMemory
  reads : Nat
  owner : Option (BitVec 64)

namespace Flat

def read (addr : BitVec 64) (n : Nat) (w : Flat) : BitVec (8 * n) × Flat :=
  (w.bytes.read addr n, { w with reads := w.reads + 1 })

def write (addr : BitVec 64) (n : Nat) (value : BitVec (8 * n)) (w : Flat) : Flat :=
  { w with bytes := w.bytes.write addr n value }

def platform : Platform Flat where
  dmiRanges := []
  hasMmu := true
  instrMem := none
  hasSys := false
  softfloat := default
  lock hart w := some { w with owner := some hart }
  unlock hart w := if w.owner = some hart then { w with owner := none } else w
  isLocked hart w := w.owner = some hart
  waitForAccessRights _ w := some w
  busRead addr n w := ((read addr n w).1, (read addr n w).2)
  busWrite addr n value w := (true, write addr n value w)
  dmiRead _ := read
  dmiWrite _ := write
  updateAndGetMtime w := (0, w)
  waitForInterrupt w := some w
  executeSyscall _ _ _ _ _ w := ((0, false), w)
  irqEvents w := ([], w)

theorem serves (size : Nat) : platform.Serves bytes reads size fun _ => True where
  wait _ w := ⟨w, rfl, rfl, rfl⟩
  unlock hart w := by
    unfold platform
    dsimp only
    split <;> exact ⟨rfl, rfl⟩
  window _ known := absurd known List.not_mem_nil
  busRead addr n w _ _ := ⟨(read addr n w).2, rfl, rfl, rfl⟩
  busWrite addr n value w _ _ := ⟨write addr n value w, rfl, rfl, rfl⟩
  dmiRead _ known := absurd known List.not_mem_nil
  dmiWrite _ known := absurd known List.not_mem_nil

theorem isRead (size : Nat) : platform.Reads bytes size fun _ => True where
  wait _ w := ⟨w, rfl, rfl⟩
  window _ known := absurd known List.not_mem_nil
  dmiRead _ known := absurd known List.not_mem_nil
  busRead _ _ _ := rfl
  refused _ _ unmapped := absurd trivial unmapped

end Flat

/-! ## Raw accesses of a core -/

namespace Iss

/-- A core out of reset that runs at `prv` under `satp`. -/
def pagedCore (satp : Word isa) (prv : PrivilegeLevel) (world : World) : Iss isa World :=
  { (reset 0 false 0 0 world).setCsr .satp satp with prv := prv }

/-- The core with another world behind it. -/
def withWorld (s : Iss isa World) (w : World) : Iss isa World := { s with world := w }

@[simp] theorem withWorld_world (s : Iss isa World) (w : World) : (s.withWorld w).world = w := rfl

@[simp] theorem withWorld_csrs (s : Iss isa World) (w : World) : (s.withWorld w).csrs = s.csrs :=
  rfl

@[simp] theorem withWorld_withWorld (s : Iss isa World) (w w' : World) :
    (s.withWorld w).withWorld w' = s.withWorld w' := rfl

theorem run_onWorld {α : Type} {m : Exec World Exc α} {s : Iss isa World} {result : Except Exc α}
    {w : World} (ran : m.run s.world = (result, w)) :
    (onWorld m).run s = (result, s.withWorld w) := by
  have unfolded : (onWorld m).run s = ((m.run s.world).1, s.withWorld (m.run s.world).2) := rfl
  rw [unfolded, ran]

section Serves

variable {plat : Platform World} {mem : World → ByteMemory} {reads : World → Nat} {size : Nat}
  {mapped : BitVec 64 → Prop}

theorem run_rawLoadData (serves : plat.Serves mem reads size mapped) {addr : BitVec 64}
    (at_ : mapped addr) {n : Nat} (small : n ≤ size) (s : Iss isa World) : ∃ w,
    (rawLoadData plat addr n).run s = (.ok ((mem s.world).read addr n), s.withWorld w) ∧
      mem w = mem s.world ∧ reads w = reads s.world + 1 := by
  obtain ⟨w, ran, kept⟩ := serves.rawLoadData at_ small s.hartId s.world
  exact ⟨w, run_onWorld ran, kept⟩

theorem run_rawStoreData (serves : plat.Serves mem reads size mapped) {addr : BitVec 64}
    (at_ : mapped addr) {n : Nat} (small : n ≤ size) (value : BitVec (8 * n))
    (s : Iss isa World) : ∃ w,
    (rawStoreData plat addr n value).run s = (.ok (), s.withWorld w) ∧
      mem w = (mem s.world).write addr n value ∧ reads w = reads s.world := by
  obtain ⟨w, ran, kept⟩ := serves.rawStoreData at_ small s.hartId value s.world
  exact ⟨w, run_onWorld ran, kept⟩

end Serves

end Iss

end RiscvVp
