/-
# RiscvVp.Iss.Sv -- address translation as the privileged specification has it

Sv32, Sv39 and Sv48 over a byte memory, in the arithmetic of the specification: page
numbers and addresses are natural numbers, a page-table entry is the number found at
its address.  Nothing here is taken from the MMU of the simulator.
-/
import RiscvVp.Iss.Core
import RiscvVp.Lib.ByteMemory

namespace RiscvVp.Sv

set_option autoImplicit false

open Lib

inductive Scheme where
  | sv32 | sv39 | sv48
deriving DecidableEq, Repr

namespace Scheme

def levels : Scheme → Nat
  | sv32 => 2
  | sv39 => 3
  | sv48 => 4

def vpnBits : Scheme → Nat
  | sv32 => 10
  | sv39 | sv48 => 9

def pteSize : Scheme → Nat
  | sv32 => 4
  | sv39 | sv48 => 8

def ppnBits : Scheme → Nat
  | sv32 => 22
  | sv39 | sv48 => 44

def vaBits : Scheme → Nat
  | sv32 => 32
  | sv39 => 39
  | sv48 => 48

/-- The page size of a leaf found `i` levels above the last, as a power of two. -/
def pageBits (scheme : Scheme) (i : Nat) : Nat := 12 + i * scheme.vpnBits

/-- What the core with this `satp.mode` translates with. -/
def active : Isa → Nat → Option Scheme
  | .rv32, 1 => some sv32
  | .rv64, 8 => some sv39
  | .rv64, 9 => some sv48
  | _, _ => none

end Scheme

/-! ## Page-table entries -/

abbrev Entry := Nat

namespace Entry

def valid (pte : Entry) : Bool := pte.testBit 0
def readable (pte : Entry) : Bool := pte.testBit 1
def writable (pte : Entry) : Bool := pte.testBit 2
def executable (pte : Entry) : Bool := pte.testBit 3
def user (pte : Entry) : Bool := pte.testBit 4

def ppn (scheme : Scheme) (pte : Entry) : Nat := pte / 2 ^ 10 % 2 ^ scheme.ppnBits

end Entry

/-- An access to be translated: what it is for, the mode it is made in, and the two
bits of `mstatus` that widen permissions. -/
structure Access where
  type : MemoryAccessType
  supervisor : Bool
  sum : Bool
  mxr : Bool

/-- Whether the permission bits of a leaf allow the access. -/
def Access.permitted (access : Access) (pte : Entry) : Bool :=
  (match access.type with
    | .fetch => pte.executable
    | .load => pte.readable || (access.mxr && pte.executable)
    | .store => pte.writable) &&
  (if pte.user then !access.supervisor || (access.sum && access.type != .fetch)
    else access.supervisor)

/-! ## The algorithm -/

/-- The bits above the virtual address repeat its top bit; an Sv32 address has none. -/
def canonical (scheme : Scheme) (va : Nat) : Bool :=
  match scheme with
  | .sv32 => true
  | .sv39 | .sv48 =>
      va < 2 ^ (scheme.vaBits - 1) || 2 ^ 64 - 2 ^ (scheme.vaBits - 1) ≤ va

def vpn (scheme : Scheme) (va i : Nat) : Nat := va / 2 ^ scheme.pageBits i % 2 ^ scheme.vpnBits

def entryAt (scheme : Scheme) (mem : ByteMemory) (addr : Nat) : Entry :=
  (mem.read (BitVec.ofNat 64 addr) scheme.pteSize).toNat

structure Leaf where
  level : Nat
  addr : Nat
  pte : Entry
deriving DecidableEq

/-- The descent with `i` levels left from the table at `base`: the addresses of the
entries looked at, and the leaf if one is found. -/
def find (scheme : Scheme) (mem : ByteMemory) (va : Nat) : Nat → Nat → List Nat × Option Leaf
  | 0, _ => ([], none)
  | i + 1, base =>
      let addr := base + vpn scheme va i * scheme.pteSize
      let pte := entryAt scheme mem addr
      if !pte.valid || (!pte.readable && pte.writable) then ([addr], none)
      else if pte.readable || pte.executable then ([addr], some ⟨i, addr, pte⟩)
      else
        let rest := find scheme mem va i (pte.ppn scheme * 2 ^ 12)
        (addr :: rest.1, rest.2)

section Find

variable {scheme : Scheme} {mem : ByteMemory} {va i base addr : Nat} {pte : Entry}
  (location : base + vpn scheme va i * scheme.pteSize = addr)
  (entry : entryAt scheme mem addr = pte)

include location entry

theorem find_of_invalid (bad : (!pte.valid || (!pte.readable && pte.writable)) = true) :
    find scheme mem va (i + 1) base = ([addr], none) := by
  unfold find
  simp only [location, entry]
  rw [if_pos bad]

theorem find_of_leaf (good : ¬ (!pte.valid || (!pte.readable && pte.writable)) = true)
    (leaf : (pte.readable || pte.executable) = true) :
    find scheme mem va (i + 1) base = ([addr], some ⟨i, addr, pte⟩) := by
  unfold find
  simp only [location, entry]
  rw [if_neg good, if_pos leaf]

theorem find_of_pointer (good : ¬ (!pte.valid || (!pte.readable && pte.writable)) = true)
    (pointer : ¬ (pte.readable || pte.executable) = true) :
    find scheme mem va (i + 1) base =
      (addr :: (find scheme mem va i (pte.ppn scheme * 2 ^ 12)).1,
        (find scheme mem va i (pte.ppn scheme * 2 ^ 12)).2) := by
  conv_lhs => unfold find
  simp only [location, entry]
  rw [if_neg good, if_neg pointer]

/-- The first entry is looked at in any case. -/
theorem addr_mem_find : addr ∈ (find scheme mem va (i + 1) base).1 := by
  by_cases bad : (!pte.valid || (!pte.readable && pte.writable)) = true
  · rw [find_of_invalid location entry bad]
    exact List.mem_singleton_self addr
  by_cases leaf : (pte.readable || pte.executable) = true
  · rw [find_of_leaf location entry bad leaf]
    exact List.mem_singleton_self addr
  · rw [find_of_pointer location entry bad leaf]
    exact List.mem_cons_self

end Find

/-- The search of a whole translation; a non-canonical address looks at no entry. -/
def search (scheme : Scheme) (mem : ByteMemory) (root va : Nat) : List Nat × Option Leaf :=
  if canonical scheme va then find scheme mem va scheme.levels (root * 2 ^ 12) else ([], none)

/-- A leaf that may be used: the access is permitted and a superpage is aligned. -/
def usable (scheme : Scheme) (access : Access) (leaf : Leaf) : Bool :=
  access.permitted leaf.pte && leaf.pte.ppn scheme % 2 ^ (leaf.level * scheme.vpnBits) == 0

/-- The high part of the page number comes from the leaf, the rest from the address. -/
def physical (scheme : Scheme) (va : Nat) (leaf : Leaf) : Nat :=
  leaf.pte.ppn scheme / 2 ^ (leaf.level * scheme.vpnBits) * 2 ^ scheme.pageBits leaf.level +
    va % 2 ^ scheme.pageBits leaf.level

/-- What becomes of a search: the physical address with the leaf whose flags are to be
set, or `none` for a page fault. -/
def resolve (scheme : Scheme) (va : Nat) (access : Access) : Option Leaf → Option (Nat × Leaf)
  | some leaf => if usable scheme access leaf then some (physical scheme va leaf, leaf) else none
  | none => none

theorem resolve_usable {scheme : Scheme} {va : Nat} {access : Access} {leaf : Leaf}
    (fits : usable scheme access leaf = true) :
    resolve scheme va access (some leaf) = some (physical scheme va leaf, leaf) :=
  if_pos fits

theorem resolve_unusable {scheme : Scheme} {va : Nat} {access : Access} {leaf : Leaf}
    (unfit : ¬ usable scheme access leaf = true) :
    resolve scheme va access (some leaf) = none :=
  if_neg unfit

def translate (scheme : Scheme) (mem : ByteMemory) (root va : Nat) (access : Access) :
    Option (Nat × Leaf) :=
  resolve scheme va access (search scheme mem root va).2

/-- `A`, and `D` for a store. -/
def flags : MemoryAccessType → BitVec 8
  | .store => 0xC0
  | .fetch | .load => 0x40

/-- The memory with the flags of an access set in the entry of a leaf. -/
def mark (type : MemoryAccessType) (leaf : Leaf) (mem : ByteMemory) : ByteMemory :=
  mem.orByte (BitVec.ofNat 64 leaf.addr) (flags type)

end RiscvVp.Sv
