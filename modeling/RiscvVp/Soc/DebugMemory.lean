/-
# RiscvVp.Soc.DebugMemory -- the memory as the debugger sees it

`DebugMemoryInterface` reads and writes by debug transactions over the bus.  The bus leads to the
port of the first byte, and the target there does the rest: a memory copies after its assertions,
a peripheral has no debug transport and transfers nothing.
-/
import RiscvVp.Soc.Windows

namespace RiscvVp

set_option autoImplicit false

open Lib

/-- How a function of the debugger's side ends when it does not return. -/
inductive Failure where
  /-- `std::out_of_range`. -/
  | outOfRange
  /-- `std::runtime_error`. -/
  | runtimeError
  /-- `std::invalid_argument`. -/
  | invalidArgument
  | trap (e : SimulationTrap)
  | assertion
  /-- Memory is used that was not set, or is not there. -/
  | undefined
  /-- A wait that nothing ends. -/
  | blocked
  | exit
deriving DecidableEq

/-! ## Hexadecimal digits -/

/-- `std::setw(2)` with `std::setfill('0')` and `std::hex`. -/
def hexByte (byte : BitVec 8) : List Char :=
  [Nat.digitChar (byte.toNat / 16), Nat.digitChar (byte.toNat % 16)]

def hexString (bytes : List (BitVec 8)) : String := String.ofList (bytes.flatMap hexByte)

theorem digitChar_injective {a b : Nat} (left : a < 16) (right : b < 16)
    (same : Nat.digitChar a = Nat.digitChar b) : a = b := by
  have all : ∀ x y : Fin 16, Nat.digitChar x = Nat.digitChar y → x = y := by decide
  exact congrArg Fin.val (all ⟨a, left⟩ ⟨b, right⟩ same)

theorem hexByte_injective : Function.Injective hexByte := by
  intro x y same
  unfold hexByte at same
  have small := x.isLt
  have small' := y.isLt
  obtain ⟨high, rest⟩ := List.cons_eq_cons.mp same
  obtain ⟨low, -⟩ := List.cons_eq_cons.mp rest
  have high := digitChar_injective (by omega) (by omega) high
  have low := digitChar_injective (Nat.mod_lt _ (by decide)) (Nat.mod_lt _ (by decide)) low
  apply BitVec.eq_of_toNat_eq
  omega

theorem length_flatMap_hexByte (bytes : List (BitVec 8)) :
    (bytes.flatMap hexByte).length = 2 * bytes.length := by
  induction bytes with
  | nil => rfl
  | cons byte bytes ih =>
    rw [List.flatMap_cons, List.length_append, ih, List.length_cons]
    show 2 + _ = _
    omega

theorem hexString_injective : Function.Injective hexString := by
  intro xs ys same
  have digits : xs.flatMap hexByte = ys.flatMap hexByte := String.ofList_injective same
  clear same
  induction xs generalizing ys with
  | nil =>
    cases ys with
    | nil => rfl
    | cons y ys => cases digits
  | cons x xs ih =>
    cases ys with
    | nil => cases digits
    | cons y ys =>
      rw [List.flatMap_cons, List.flatMap_cons] at digits
      obtain ⟨first, rest⟩ := List.append_inj digits rfl
      rw [hexByte_injective first, ih rest]

/-! ## Debug transactions -/

/-- The bytes of a buffer, in the order of their addresses. -/
def bufferBytes {n : Nat} (buffer : BitVec (8 * n)) : List (BitVec 8) :=
  (List.range n).map fun k => buffer.extractLsb' (8 * k) 8

theorem bufferBytes_read (m : ByteMemory) (addr : BitVec 64) (n : Nat) :
    bufferBytes (m.read addr n) = (List.range n).map fun k => m (addr + BitVec.ofNat 64 k) := by
  unfold bufferBytes
  refine List.map_congr_left fun k inside => ?_
  have below : k + 1 ≤ n := List.mem_range.mp inside
  apply BitVec.eq_of_getLsbD_eq
  intro j bit
  have byte := ByteMemory.getLsbD_read m addr n k j below bit
  rw [BitVec.getLsbD_extractLsb', decide_eq_true bit, Bool.true_and, byte]

/-- The bytes that `memcpy` touches are all of the memory. -/
def SimpleMemory.Spans (mem : SimpleMemory) (address : BitVec 64) (n : Nat) : Prop :=
  (address.setWidth 32).toNat + n ≤ mem.size.toNat

instance (mem : SimpleMemory) (address : BitVec 64) (n : Nat) : Decidable (mem.Spans address n) :=
  inferInstanceAs (Decidable (_ ≤ _))

namespace Soc

variable {Dev : Type} (soc : Soc Dev) {n : Nat}

/-- `_do_dbg_transaction`: the number of bytes transferred, and the buffer. -/
def doDbgTransaction (cmd : TlmCommand n) (addr : BitVec 64) :
    Exec (SocState Dev) Failure (Nat × BitVec (8 * n)) := fun w =>
  match soc.decode addr with
  | none => (.error .runtimeError, w)
  | some id =>
      match w.memory id, soc.ports[id]? with
      | some mem, some port =>
          match mem.transportDbg cmd (port.globalToLocal addr) with
          | none => (.error .assertion, w)
          | some (buffer, mem') =>
              -- the sum of the assertion can have wrapped
              if mem.Spans (port.globalToLocal addr) n then (.ok (n, buffer), w.setMemory id mem')
              else (.error .undefined, w)
      | _, _ =>
          -- a `simple_target_socket` without a debug transport transfers nothing
          (.ok (0, match cmd with
            | .read => 0
            | .write buffer => buffer), w)

end Soc

namespace DebugMemoryInterface

variable {Dev : Type} (soc : Soc Dev)

def readMemory (start : BitVec 64) (nbytes : Nat) : Exec (SocState Dev) Failure String := do
  let (nbytesRead, buf) ← soc.doDbgTransaction (.read : TlmCommand nbytes) start
  Exec.ensure (nbytesRead = nbytes) .assertion
  return hexString (bufferBytes buf)

/-- The bytes that the loop of `write_memory` reads from the digits; it goes by digits and ends by
the number of bytes, and what it does not come to stays zero. -/
def parsedByte (nbytes : Nat) (data : List (Fin 16)) (j : Nat) : BitVec 8 :=
  if 2 * j + 1 < nbytes then
    BitVec.ofNat 8 (16 * (data.getD (2 * j) 0).val + (data.getD (2 * j + 1) 0).val)
  else 0

def parsedBuffer (nbytes : Nat) (data : List (Fin 16)) : BitVec (8 * nbytes) :=
  ByteMemory.read (fun a => parsedByte nbytes data a.toNat) 0 nbytes

/-- The digits of `data` are hexadecimal ones: that is what the parser lets through. -/
def writeMemory (start : BitVec 64) (nbytes : Nat) (data : List (Fin 16)) :
    Exec (SocState Dev) Failure Unit := do
  Exec.ensure (data.length % 2 = 0) .assertion
  Exec.ensure (data.length / 2 = nbytes) .assertion
  let (nbytesWrite, _) ← soc.doDbgTransaction (.write (parsedBuffer nbytes data)) start
  Exec.ensure (nbytesWrite = nbytes) .assertion

end DebugMemoryInterface

/-! ## What a read comes to -/

namespace Soc

variable {Dev : Type} (soc : Soc Dev)

/-- The memory that the bus leads to, and the offset there. -/
def memoryAt (w : SocState Dev) (addr : BitVec 64) : Option (SimpleMemory × BitVec 32) :=
  match soc.decode addr with
  | none => none
  | some id =>
      match w.memory id, soc.ports[id]? with
      | some mem, some port => some (mem, (port.globalToLocal addr).setWidth 32)
      | _, _ => none

/-- The byte at an address of the bus. -/
def byteAt (w : SocState Dev) (addr : BitVec 64) : Option (BitVec 8) :=
  match soc.memoryAt w addr with
  | some (mem, offset) => if offset < mem.size then some (mem.data (offset.setWidth 64)) else none
  | none => none

/-- The `n` bytes from the address on are bytes of one memory. -/
structure Backs (w : SocState Dev) (addr : BitVec 64) (n : Nat) (mem : SimpleMemory) (offset : BitVec 32) :
    Prop where
  memory : soc.memoryAt w addr = some (mem, offset)
  first : offset < mem.size
  last : offset.toNat + n ≤ mem.size.toNat

variable {soc} {w : SocState Dev} {addr : BitVec 64} {n : Nat} {mem : SimpleMemory} {offset : BitVec 32}

theorem memoryAt_eq_some (found : soc.memoryAt w addr = some (mem, offset)) :
    ∃ id port, soc.decode addr = some id ∧ w.memory id = some mem ∧ soc.ports[id]? = some port ∧
      (port.globalToLocal addr).setWidth 32 = offset := by
  unfold memoryAt at found
  split at found
  case h_1 => cases found
  case h_2 id target =>
    split at found
    case h_1 mem' port own behind =>
      cases found
      exact ⟨id, port, target, own, behind, rfl⟩
    case h_2 => cases found

theorem run_transaction_unmapped (unmapped : soc.decode addr = none) (cmd : TlmCommand n) :
    (soc.doDbgTransaction cmd addr).run w = (.error .runtimeError, w) := by
  unfold Exec.run doDbgTransaction
  rw [unmapped]

/-- Nothing is transferred to or from a peripheral. -/
theorem run_transaction_peripheral (mapped : soc.decode addr ≠ none) (none : soc.memoryAt w addr = none)
    (cmd : TlmCommand n) : ∃ buffer, (soc.doDbgTransaction cmd addr).run w = (.ok (0, buffer), w) := by
  obtain ⟨id, target⟩ := Option.ne_none_iff_exists'.mp mapped
  unfold memoryAt at none
  unfold Exec.run doDbgTransaction
  rw [target] at none ⊢
  dsimp only at none ⊢
  cases own : w.memory id with
  | none => exact ⟨_, rfl⟩
  | some mem =>
    cases behind : soc.ports[id]? with
    | none => exact ⟨_, rfl⟩
    | some port =>
      rw [own, behind] at none
      cases none

section Memory

variable (found : soc.memoryAt w addr = some (mem, offset))

include found

/-- Beyond the memory an assertion fails, or `memcpy` leaves it. -/
theorem run_transaction_beyond (beyond : ¬ (offset < mem.size ∧ offset.toNat + n ≤ mem.size.toNat))
    (cmd : TlmCommand n) : ∃ e, (soc.doDbgTransaction cmd addr).run w = (.error e, w) ∧
      (e = .assertion ∨ e = .undefined) := by
  obtain ⟨id, port, target, own, behind, place⟩ := memoryAt_eq_some found
  unfold Exec.run doDbgTransaction
  rw [target]
  dsimp only
  rw [own, behind]
  dsimp only
  split
  case h_1 => exact ⟨_, rfl, .inl rfl⟩
  case h_2 buffer mem' answered =>
    have outside : ¬ mem.Spans (port.globalToLocal addr) n := by
      intro spans
      unfold SimpleMemory.Spans at spans
      rw [place] at spans
      refine beyond ⟨?_, spans⟩
      by_contra above
      unfold SimpleMemory.transportDbg at answered
      dsimp only at answered
      rw [place, if_neg above] at answered
      cases answered
    rw [if_neg outside]
    exact ⟨_, rfl, .inr rfl⟩

end Memory

/-- The sum of the assertion does not wrap. -/
theorem Backs.admits (backs : soc.Backs w addr n mem offset) : mem.Admits offset n := by
  have top := mem.size.isLt
  have last := backs.last
  unfold SimpleMemory.Admits
  rw [BitVec.le_def, BitVec.toNat_add, BitVec.toNat_ofNat, Nat.mod_eq_of_lt (a := n) (by omega),
    Nat.mod_eq_of_lt (by omega)]
  exact last

theorem run_transaction_read (backs : soc.Backs w addr n mem offset) :
    (soc.doDbgTransaction (.read : TlmCommand n) addr).run w =
      (.ok (n, mem.data.read (offset.setWidth 64) n), w) := by
  obtain ⟨id, port, target, own, behind, place⟩ := memoryAt_eq_some backs.memory
  have read : mem.transportDbg (.read : TlmCommand n) (port.globalToLocal addr) =
      some (mem.data.read (offset.setWidth 64) n, mem) := by
    unfold SimpleMemory.transportDbg SimpleMemory.readData
    dsimp only
    rw [place, if_pos backs.first, if_pos backs.admits]
    rfl
  have spans : mem.Spans (port.globalToLocal addr) n := by
    unfold SimpleMemory.Spans
    rw [place]
    exact backs.last
  unfold Exec.run doDbgTransaction
  rw [target]
  dsimp only
  rw [own, behind]
  dsimp only
  rw [read]
  dsimp only
  rw [if_pos spans, setMemory_self own]

theorem run_transaction_write (backs : soc.Backs w addr n mem offset) (buffer : BitVec (8 * n)) :
    ∃ id, soc.decode addr = some id ∧ (soc.doDbgTransaction (.write buffer) addr).run w =
      (.ok (n, buffer), w.setMemory id { mem with data := mem.data.write (offset.setWidth 64) n buffer }) := by
  obtain ⟨id, port, target, own, behind, place⟩ := memoryAt_eq_some backs.memory
  have written : mem.transportDbg (.write buffer) (port.globalToLocal addr) =
      some (buffer, { mem with data := mem.data.write (offset.setWidth 64) n buffer }) := by
    unfold SimpleMemory.transportDbg SimpleMemory.writeData
    dsimp only
    rw [place, if_pos backs.first, if_pos backs.admits]
    rfl
  have spans : mem.Spans (port.globalToLocal addr) n := by
    unfold SimpleMemory.Spans
    rw [place]
    exact backs.last
  refine ⟨id, target, ?_⟩
  unfold Exec.run doDbgTransaction
  rw [target]
  dsimp only
  rw [own, behind]
  dsimp only
  rw [written]
  dsimp only
  rw [if_pos spans]

end Soc

namespace DebugMemoryInterface

open Soc

variable {Dev : Type} {soc : Soc Dev} {w : SocState Dev} {start : BitVec 64} {n : Nat} {mem : SimpleMemory}
  {offset : BitVec 32}

theorem run_readMemory_unmapped (unmapped : soc.decode start = none) :
    (readMemory soc start n).run w = (.error .runtimeError, w) := by
  unfold readMemory
  rw [Exec.run_bind_error (run_transaction_unmapped unmapped .read)]

theorem run_readMemory_peripheral (mapped : soc.decode start ≠ none) (none : soc.memoryAt w start = none) :
    (readMemory soc start n).run w = (if n = 0 then .ok "" else .error .assertion, w) := by
  obtain ⟨buffer, ran⟩ := run_transaction_peripheral mapped none (.read : TlmCommand n)
  unfold readMemory
  rw [Exec.run_bind_ok ran]
  by_cases zero : n = 0
  · subst zero
    rfl
  · have missed : ¬ 0 = n := fun same => zero same.symm
    dsimp only
    rw [Exec.ensure_neg missed, if_neg zero]
    rfl

theorem run_readMemory_backed (backs : soc.Backs w start n mem offset) :
    (readMemory soc start n).run w =
      (.ok (hexString ((List.range n).map fun k => mem.data (offset.setWidth 64 + BitVec.ofNat 64 k))), w) := by
  unfold readMemory
  rw [Exec.run_bind_ok (run_transaction_read backs)]
  dsimp only
  rw [Exec.ensure_pos rfl, bufferBytes_read]
  rfl

theorem run_readMemory_beyond (found : soc.memoryAt w start = some (mem, offset))
    (beyond : ¬ (offset < mem.size ∧ offset.toNat + n ≤ mem.size.toNat)) :
    ∃ e, (readMemory soc start n).run w = (.error e, w) ∧ e ≠ .runtimeError := by
  obtain ⟨e, ran, kind⟩ := run_transaction_beyond found beyond (.read : TlmCommand n)
  refine ⟨e, ?_, ?_⟩
  · unfold readMemory
    rw [Exec.run_bind_error ran]
  · rcases kind with rfl | rfl <;> decide

section Write

variable {data : List (Fin 16)} (whole : data.length = 2 * n)

include whole

theorem run_writeMemory_error {e : Failure} {u : SocState Dev}
    (ran : (soc.doDbgTransaction (.write (parsedBuffer n data)) start).run w = (.error e, u)) :
    (writeMemory soc start n data).run w = (.error e, u) := by
  unfold writeMemory
  rw [Exec.ensure_pos (by omega), Exec.run_pure_bind, Exec.ensure_pos (by omega), Exec.run_pure_bind,
    Exec.run_bind_error ran]

theorem run_writeMemory_ok {nbytes : Nat} {buffer : BitVec (8 * n)} {u : SocState Dev} (all : nbytes = n)
    (ran : (soc.doDbgTransaction (.write (parsedBuffer n data)) start).run w = (.ok (nbytes, buffer), u)) :
    (writeMemory soc start n data).run w = (.ok (), u) := by
  unfold writeMemory
  rw [Exec.ensure_pos (by omega), Exec.run_pure_bind, Exec.ensure_pos (by omega), Exec.run_pure_bind,
    Exec.run_bind_ok ran]
  dsimp only
  rw [Exec.ensure_pos all]
  rfl

end Write

end DebugMemoryInterface

end RiscvVp
