/-
# RiscvVp.Soc.ElfLoader -- program headers

`GenericElfLoader` for both simulators: the headers of a file that it loads, the image it puts into a
memory, and the heap it starts behind the image.  The end of the image is taken from the last header of the
table, and rounded by what is over the multiple of 8 instead of what is missing to the next one.
-/
import RiscvVp.Soc.Bus

namespace RiscvVp

set_option autoImplicit false

open Lib

/-- `Elf32_Phdr` and `Elf64_Phdr`. -/
structure Phdr (isa : Isa) where
  type : BitVec 32
  offset : Word isa
  vaddr : Word isa
  paddr : Word isa
  filesz : Word isa
  memsz : Word isa

/-- Where it is loaded. -/
def Phdr.addr {isa : Isa} (useVaddr : Bool) (p : Phdr isa) : Word isa := if useVaddr then p.vaddr else p.paddr

/-- The first address behind it. -/
def Phdr.stop {isa : Isa} (p : Phdr isa) : Nat := p.vaddr.toNat + p.memsz.toNat

/-- The bytes of the file from `elf.data()` on, and its table of program headers. -/
structure ElfLoader (isa : Isa) where
  elf : ByteMemory
  phdrs : List (Phdr isa)

namespace SimpleMemory

/-- What ends the loading of an image: the exception of the loader, an assertion, and bytes that go behind
the end of an array. -/
inductive LoadError where
  | loadExecutable
  | assertion
  | undefined
deriving DecidableEq

variable (mem : SimpleMemory) (dstAddr n : BitVec 64)

/-- The bytes from `dstAddr` on; the sum is one of 64 bits. -/
def load (src : BitVec 64 → BitVec 8) : Except LoadError SimpleMemory :=
  if dstAddr + n ≤ mem.size.setWidth 64 then
    if dstAddr.toNat + n.toNat ≤ mem.size.toNat then
      .ok { mem with data := fun a =>
        if dstAddr.toNat ≤ a.toNat ∧ a.toNat < dstAddr.toNat + n.toNat then src (a - dstAddr) else mem.data a }
    else .error .undefined
  else .error .assertion

def loadData (src : BitVec 64 → BitVec 8) : Except LoadError SimpleMemory := mem.load dstAddr n src

def loadZero : Except LoadError SimpleMemory := mem.load dstAddr n fun _ => 0

end SimpleMemory

namespace ElfLoader

open SimpleMemory

variable {isa : Isa} (l : ElfLoader isa)

def ptLoad : BitVec 32 := 1

def getLoadSections : List (Phdr isa) :=
  l.phdrs.filter fun p => p.type = ptLoad ∧ ¬ (p.filesz = 0 ∧ p.memsz = 0)

/-- The body of the loop of `load_executable_image`. -/
def loadSection (size offset : Word isa) (useVaddr : Bool) (mem : SimpleMemory) (p : Phdr isa) :
    Except LoadError SimpleMemory :=
  let addr := p.addr useVaddr
  if ¬ (offset ≤ addr ∧ addr < offset + size) then .ok mem
  else if addr < offset then .error .loadExecutable
  else if offset + size ≤ addr + p.memsz then .error .loadExecutable
  else do
    let idx := addr - offset
    let src := fun i => l.elf (p.offset.setWidth 64 + i)
    let mem ← mem.loadData (idx.setWidth 64) (p.filesz.setWidth 64) src
    if p.filesz ≤ p.memsz then
      let idx := idx + p.filesz
      mem.loadZero (idx.setWidth 64) ((p.memsz - p.filesz).setWidth 64)
    else .error .assertion

def loadExecutableImage (size offset : Word isa) (useVaddr : Bool) (mem : SimpleMemory) :
    Except LoadError SimpleMemory := l.getLoadSections.foldlM (l.loadSection size offset useVaddr) mem

/-- `none` where the table has no header: the one in front of it is read. -/
def getMemoryEnd : Option (Word isa) := l.phdrs.getLast?.map fun last => last.vaddr + last.memsz

def getHeapAddr : Option (Word isa) := l.getMemoryEnd.map fun s => s + s % 8

/-! ## The heap -/

/-- The heap starts at a multiple of 8, and not in front of the end of a section that is loaded. -/
def HeapBehind : Prop :=
  ∃ heap, l.getHeapAddr = some heap ∧ heap.toNat % 8 = 0 ∧ ∀ p ∈ l.getLoadSections, p.stop ≤ heap.toNat

/-- The last header ends at a multiple of 4, and no section that is loaded ends above the next multiple of 8
(an address, too). -/
def LastEnds : Prop :=
  ∃ last, l.phdrs.getLast? = some last ∧ last.stop % 4 = 0 ∧
    ∀ p ∈ l.getLoadSections, p.stop ≤ (last.stop + 7) / 8 * 8 % 2 ^ isa.xlen

variable {l}

/-- What is added is what is over. -/
theorem toNat_heap {last : Phdr isa} (fits : last.stop < 2 ^ isa.xlen) :
    (last.vaddr + last.memsz + (last.vaddr + last.memsz) % 8).toNat =
      (last.stop + last.stop % 8) % 2 ^ isa.xlen := by
  have stop : (last.vaddr + last.memsz).toNat = last.stop := by
    rw [BitVec.toNat_add]
    exact Nat.mod_eq_of_lt fits
  have eight : (8 : Word isa).toNat = 8 := by
    cases isa <;> rfl
  rw [BitVec.toNat_add, BitVec.toNat_umod, stop, eight]

theorem aligned_heap_iff (stop : Nat) : (stop + stop % 8) % 2 ^ isa.xlen % 8 = 0 ↔ stop % 4 = 0 := by
  have divides : 8 ∣ 2 ^ isa.xlen := by
    cases isa <;> decide
  rw [Nat.mod_mod_of_dvd _ divides]
  omega

/-- The heap is behind the image exactly where the last header is the one that counts. -/
theorem heapBehind_iff (some : ∃ p ∈ l.phdrs, p.type = ptLoad)
    (fits : ∀ p ∈ l.phdrs, p.stop < 2 ^ isa.xlen) : l.HeapBehind ↔ l.LastEnds := by
  obtain ⟨p, among, -⟩ := some
  cases found : l.phdrs.getLast? with
  | none =>
    rw [List.getLast?_eq_none_iff.mp found] at among
    cases among
  | some last =>
    have value := toNat_heap (fits last (List.mem_of_getLast? found))
    have heap : l.getHeapAddr = some (last.vaddr + last.memsz + (last.vaddr + last.memsz) % 8) := by
      unfold getHeapAddr getMemoryEnd
      rw [found]
      rfl
    unfold HeapBehind LastEnds
    simp only [heap, found, Option.some.injEq, exists_eq_left']
    rw [value, aligned_heap_iff]
    refine and_congr_right fun aligned => ?_
    rw [show last.stop + last.stop % 8 = (last.stop + 7) / 8 * 8 by omega]

/-- A table of one header, for `size` bytes at the start of the DRAM. -/
def single (size : BitVec 32) : ElfLoader .rv32 where
  elf _ := 0
  phdrs := [⟨ptLoad, 0x1000, 0x80000000, 0x80000000, 0, size⟩]

theorem heapBehind_word : (single 0x1004).HeapBehind := by
  refine (heapBehind_iff ⟨_, List.mem_singleton_self _, rfl⟩ ?_).mpr ⟨_, rfl, by decide, ?_⟩
  · exact List.forall_mem_singleton.mpr (by decide)
  · exact List.forall_mem_singleton.mpr (by decide)

/-- An image of 0x1001 bytes: 1 is added to its end. -/
theorem not_heapBehind : ¬ ∀ (isa : Isa) (l : ElfLoader isa), (∃ p ∈ l.phdrs, p.type = ptLoad) →
    (∀ p ∈ l.phdrs, p.stop < 2 ^ isa.xlen) → l.HeapBehind := by
  intro all
  obtain ⟨heap, value, aligned, -⟩ := all .rv32 (single 0x1001) ⟨_, List.mem_singleton_self _, rfl⟩
    (List.forall_mem_singleton.mpr (by decide))
  have wrong : (single 0x1001).getHeapAddr = some 0x80001002 := rfl
  cases wrong.symm.trans value
  exact absurd aligned (by decide)

end ElfLoader

end RiscvVp
