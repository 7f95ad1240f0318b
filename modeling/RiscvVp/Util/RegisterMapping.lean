/-
# RiscvVp.Util.RegisterMapping -- banks of 32-bit registers

`tlm_map.h`: a bank takes an access of up to four bytes to the register that contains its
address.  The callback of the peripheral gets the access described, with the value `nv` that a
write is about to assign, and a function `fn` that performs it.  `fn` puts the bytes of the
transaction where they belong and applies the mask of the register; `nv` is a plain 32-bit load
from the data pointer, so it is the value to come for unmasked writes of a whole word and for
no others (`exact_iff`).
-/
import RiscvVp.Lib.BitField
import RiscvVp.Lib.ByteMemory
import RiscvVp.Lib.Exec

namespace RiscvVp.RegisterMapping

set_option autoImplicit false

open Lib

/-- `access_mode`. -/
inductive AccessMode where
  | readOnly
  | writeOnly
  | readWrite
deriving DecidableEq

namespace AccessMode

def canRead : AccessMode → Bool
  | writeOnly => false
  | _ => true

def canWrite : AccessMode → Bool
  | readOnly => false
  | _ => true

end AccessMode

/-- The command of a transaction. -/
inductive Command where
  | read
  | write
  | ignore
deriving DecidableEq

/-- The members of `tlm_generic_payload` that are looked at, but for the data. -/
structure Payload where
  cmd : Command
  address : BitVec 64
  length : Nat

/-- `reg_mapping_t`; `ρ` are the variables of the peripheral. -/
structure RegMapping (ρ : Type) where
  addr : BitVec 64
  vptr : ρ
  mode : AccessMode := .readWrite
  mask : BitVec 32 := 0xffffffff

/-- The variables, the rest of the peripheral, and the memory of the host from the data pointer
of the transaction on; the first bytes of it are those of the transaction. -/
structure State (ρ D : Type) where
  reg : ρ → BitVec 32
  device : D
  data : ByteMemory

/-- The assertions, and the exceptions for other commands and for addresses that nothing is at. -/
inductive Fault where
  | beyondRegister
  | command
  | mode
  | noCallback
  | unsupportedCommand
  | unmapped
deriving DecidableEq

variable {ρ D : Type} [DecidableEq ρ]

abbrev BankM (ρ D α : Type) := Exec (State ρ D) Fault α

/-- `register_access_t`. -/
structure RegisterAccess (ρ D : Type) where
  read : Bool
  write : Bool
  vptr : ρ
  nv : BitVec 32
  fn : BankM ρ D Unit
  addr : BitVec 64

def setReg (reg : ρ → BitVec 32) (r : ρ) (value : BitVec 32) : ρ → BitVec 32 :=
  fun q => if q = r then value else reg q

def State.set (s : State ρ D) (r : ρ) (value : BitVec 32) : State ρ D := { s with reg := setReg s.reg r value }

@[simp] theorem setReg_self (reg : ρ → BitVec 32) (q : ρ) (value : BitVec 32) : setReg reg q value q = value :=
  if_pos rfl

theorem setReg_of_ne {reg : ρ → BitVec 32} {q q' : ρ} {value : BitVec 32} (other : q' ≠ q) :
    setReg reg q value q' = reg q' := if_neg other

namespace State

variable {s : State ρ D} {q q' : ρ} {value : BitVec 32}

@[simp] theorem set_device : (s.set q value).device = s.device := rfl

@[simp] theorem set_data : (s.set q value).data = s.data := rfl

@[simp] theorem set_reg_self : (s.set q value).reg q = value := setReg_self _ _ _

theorem set_reg_of_ne (other : q' ≠ q) : (s.set q value).reg q' = s.reg q' := setReg_of_ne other

end State

namespace RegMapping

variable (r : RegMapping ρ)

def value : BankM ρ D (BitVec 32) := .read fun s => s.reg r.vptr

def busWrite (newValue : BitVec 32) : BankM ρ D Unit := do
  Exec.ensure (r.mode.canWrite = true) .mode
  Exec.update fun s => s.set r.vptr (newValue &&& r.mask)

def busRead : BankM ρ D (BitVec 32) := do
  Exec.ensure (r.mode.canRead = true) .mode
  r.value

end RegMapping

namespace Payload

variable (trans : Payload)

/-- `addr % 4`. -/
def off : Nat := (trans.address % 4).toNat

/-- The bytes of a register that the transaction is about. -/
def field : Lib.Field (8 * trans.length) := ⟨8 * trans.off⟩

end Payload

/-- The lambda `fn` of `try_handle`, with both its `memcpy`. -/
def performAccess (r : RegMapping ρ) (trans : Payload) : BankM ρ D Unit :=
  match trans.cmd with
  | .read => do
      let n ← r.busRead
      Exec.update fun s => { s with data := s.data.write 0 trans.length (trans.field.get n) }
  | .write => do
      let n ← r.value
      let bytes ← Exec.read fun s => s.data.read 0 trans.length
      r.busWrite (trans.field.set bytes n)
  | .ignore => Exec.raise .unsupportedCommand

/-- `addr_to_reg.find`; an address is inserted once. -/
def find (bank : List (RegMapping ρ)) (addr : BitVec 64) : Option (RegMapping ρ) :=
  bank.find? fun r => r.addr == addr

omit [DecidableEq ρ] in
theorem of_find {bank : List (RegMapping ρ)} {addr : BitVec 64} {r : RegMapping ρ}
    (found : find bank addr = some r) :
    r ∈ bank ∧ r.addr = addr := by
  have here := List.find?_some found
  exact ⟨List.mem_of_find?_eq_some found, eq_of_beq here⟩

/-- `RegisterMapping::try_handle`. -/
def tryHandle (bank : List (RegMapping ρ)) (handler : Option (RegisterAccess ρ D → BankM ρ D Unit))
    (trans : Payload) : BankM ρ D Bool :=
  match find bank (trans.address - trans.address % 4) with
  | none => return false
  | some r => do
      Exec.ensure (trans.length + trans.off ≤ 4) .beyondRegister
      Exec.ensure (trans.cmd = .read ∨ trans.cmd = .write) .command
      Exec.ensure (r.mode.canRead = true ∨ trans.cmd ≠ .read) .mode
      Exec.ensure (r.mode.canWrite = true ∨ trans.cmd ≠ .write) .mode
      match handler with
      | none => Exec.raise .noCallback
      | some handler =>
          let nv ← Exec.read fun s => if trans.cmd = .write then s.data.read 0 4 else 0
          handler ⟨trans.cmd = .read, trans.cmd = .write, r.vptr, nv, performAccess r trans, trans.address⟩
          return true

/-- `LocalRouter::transport` where the bank is the only mapping. -/
def transport (bank : List (RegMapping ρ)) (handler : RegisterAccess ρ D → BankM ρ D Unit)
    (trans : Payload) : BankM ρ D Unit := do
  let handled ← tryHandle bank (some handler) trans
  Exec.ensure (handled = true) .unmapped

/-! ## Bytes of a register -/

def byteOf (x : BitVec 32) (k : Nat) : BitVec 8 := x.extractLsb' (8 * k) 8

variable {x y : BitVec 32} {k n : Nat} {m : ByteMemory}

theorem getLsbD_byteOf {j : Nat} (bit : j < 8) : (byteOf x k).getLsbD j = x.getLsbD (8 * k + j) := by
  unfold byteOf
  rw [BitVec.getLsbD_extractLsb', decide_eq_true bit, Bool.true_and]

theorem byteOf_ext (same : ∀ k < 4, byteOf x k = byteOf y k) : x = y := by
  apply BitVec.eq_of_getLsbD_eq
  intro j bound
  have split : j = 8 * (j / 8) + j % 8 := by omega
  have bit : j % 8 < 8 := Nat.mod_lt _ (by decide)
  rw [split, ← getLsbD_byteOf bit, ← getLsbD_byteOf bit, same (j / 8) (by omega)]

@[simp] theorem byteOf_and : byteOf (x &&& y) k = byteOf x k &&& byteOf y k := by
  apply BitVec.eq_of_getLsbD_eq
  intro j bit
  rw [BitVec.getLsbD_and, getLsbD_byteOf bit, getLsbD_byteOf bit, getLsbD_byteOf bit, BitVec.getLsbD_and]

/-- A byte of a word that was loaded from the memory. -/
theorem byteOf_read (inside : k < 4) : byteOf (m.read 0 4) k = m (BitVec.ofNat 64 k) := by
  apply BitVec.eq_of_getLsbD_eq
  intro j bit
  rw [getLsbD_byteOf bit, ByteMemory.getLsbD_read m 0 4 k j inside bit, zero_add]

namespace Payload

variable {trans : Payload}

@[simp] theorem field_lo : trans.field.lo = 8 * trans.off := rfl

theorem byteOf_field_set (inside : k < 4) : byteOf (trans.field.set (m.read 0 trans.length) x) k =
    if trans.off ≤ k ∧ k < trans.off + trans.length then m (BitVec.ofNat 64 (k - trans.off))
    else byteOf x k := by
  apply BitVec.eq_of_getLsbD_eq
  intro j bit
  rw [getLsbD_byteOf bit, Field.getLsbD_set, decide_eq_true (show 8 * k + j < 32 by omega), Bool.true_and]
  by_cases addressed : trans.off ≤ k ∧ k < trans.off + trans.length
  case pos =>
    have covered : trans.field.Covers (8 * k + j) := by
      rw [Field.Covers, field_lo]
      omega
    have index : 8 * k + j - trans.field.lo = 8 * (k - trans.off) + j := by
      rw [field_lo]
      omega
    rw [if_pos covered, if_pos addressed, index, ByteMemory.getLsbD_read m 0 _ _ _ (by omega) bit,
      zero_add]
  case neg =>
    have uncovered : ¬ trans.field.Covers (8 * k + j) := by
      rw [Field.Covers, field_lo]
      omega
    rw [if_neg uncovered, if_neg addressed, getLsbD_byteOf bit]

end Payload

/-! ## What an access does -/

/-- The transaction stays inside the register `r` of the bank, and its command is one that the
register is open to. -/
structure Proper (bank : List (RegMapping ρ)) (r : RegMapping ρ) (trans : Payload) : Prop where
  found : find bank (trans.address - trans.address % 4) = some r
  inside : trans.length + trans.off ≤ 4
  mode : trans.cmd = .read ∧ r.mode.canRead = true ∨ trans.cmd = .write ∧ r.mode.canWrite = true

/-- What the callback is called with. -/
def access (r : RegMapping ρ) (trans : Payload) (s : State ρ D) : RegisterAccess ρ D where
  read := trans.cmd = .read
  write := trans.cmd = .write
  vptr := r.vptr
  nv := if trans.cmd = .write then s.data.read 0 4 else 0
  fn := performAccess r trans
  addr := trans.address

variable {bank : List (RegMapping ρ)} {r : RegMapping ρ} {trans : Payload} {s t : State ρ D}

theorem run_tryHandle (proper : Proper bank r trans) (handler : RegisterAccess ρ D → BankM ρ D Unit) :
    (tryHandle bank (some handler) trans).run s = (do handler (access r trans s); return true).run s := by
  have command : trans.cmd = .read ∨ trans.cmd = .write := proper.mode.imp And.left And.left
  have readable : r.mode.canRead = true ∨ trans.cmd ≠ .read := by
    rcases proper.mode with ⟨-, can⟩ | ⟨write, -⟩
    · exact .inl can
    · right
      rw [write]
      nofun
  have writable : r.mode.canWrite = true ∨ trans.cmd ≠ .write := by
    rcases proper.mode with ⟨read, -⟩ | ⟨-, can⟩
    · right
      rw [read]
      nofun
    · exact .inl can
  simp only [tryHandle, proper.found]
  rw [Exec.ensure_pos proper.inside, Exec.ensure_pos command, Exec.ensure_pos readable,
    Exec.ensure_pos writable]
  rfl

theorem run_transport (proper : Proper bank r trans) {handler : RegisterAccess ρ D → BankM ρ D Unit}
    (called : (handler (access r trans s)).run s = (.ok (), t)) :
    (transport bank handler trans).run s = (.ok (), t) := by
  have handled : (tryHandle bank (some handler) trans).run s = (.ok true, t) := by
    rw [run_tryHandle proper, Exec.run_bind_ok called]
    rfl
  unfold transport
  rw [Exec.run_bind_ok handled]
  rfl

/-- What a transaction that ends without a fault has done. -/
theorem transport_ok {handler : RegisterAccess ρ D → BankM ρ D Unit}
    (ran : (transport bank handler trans).run s = (.ok (), t)) :
    ∃ r, Proper bank r trans ∧ (handler (access r trans s)).run s = (.ok (), t) := by
  obtain ⟨handled, u, tried, checked⟩ := Exec.run_bind_eq_ok.mp ran
  cases found : find bank (trans.address - trans.address % 4) with
  | none =>
    simp only [tryHandle, found] at tried
    cases tried
    cases checked
  | some r =>
    have proper : Proper bank r trans := by
      simp only [tryHandle, found] at tried
      obtain ⟨inside, tried⟩ := Exec.ok_of_ensure_bind tried
      obtain ⟨command, tried⟩ := Exec.ok_of_ensure_bind tried
      obtain ⟨readable, tried⟩ := Exec.ok_of_ensure_bind tried
      obtain ⟨writable, -⟩ := Exec.ok_of_ensure_bind tried
      refine ⟨found, inside, ?_⟩
      rcases command with read | write
      · exact .inl ⟨read, readable.resolve_right (not_not_intro read)⟩
      · exact .inr ⟨write, writable.resolve_right (not_not_intro write)⟩
    refine ⟨r, proper, ?_⟩
    rw [run_tryHandle proper] at tried
    obtain ⟨done, v, called, returned⟩ := Exec.run_bind_eq_ok.mp tried
    cases returned
    cases checked
    exact called

theorem run_performAccess_read (command : trans.cmd = .read) (can : r.mode.canRead = true) :
    (performAccess r trans).run s =
      (.ok (), { s with data := s.data.write 0 trans.length (trans.field.get (s.reg r.vptr)) }) := by
  simp only [performAccess, command, RegMapping.busRead]
  rw [Exec.ensure_pos can]
  rfl

theorem run_performAccess_write (command : trans.cmd = .write) (can : r.mode.canWrite = true) :
    (performAccess r trans).run s = (.ok (),
      s.set r.vptr (trans.field.set (s.data.read 0 trans.length) (s.reg r.vptr) &&& r.mask)) := by
  simp only [performAccess, command, RegMapping.busWrite]
  rw [Exec.ensure_pos can]
  rfl

/-- The addressed bytes of the register become those of the transaction, and that is all. -/
def Reads (r : RegMapping ρ) (trans : Payload) (s t : State ρ D) : Prop :=
  t.reg = s.reg ∧ t.device = s.device ∧ ∀ a, t.data a =
    if a.toNat < trans.length then byteOf (s.reg r.vptr) (trans.off + a.toNat) else s.data a

/-- The register becomes the old one with the addressed bytes replaced, under the mask, and that
is all. -/
def Stores (r : RegMapping ρ) (trans : Payload) (s t : State ρ D) : Prop :=
  t.device = s.device ∧ t.data = s.data ∧ (∀ q, q ≠ r.vptr → t.reg q = s.reg q) ∧
    ∃ merged, t.reg r.vptr = merged &&& r.mask ∧ ∀ k < 4, byteOf merged k =
      if trans.off ≤ k ∧ k < trans.off + trans.length then s.data (BitVec.ofNat 64 (k - trans.off))
      else byteOf (s.reg r.vptr) k

theorem reads_of_run (command : trans.cmd = .read) (can : r.mode.canRead = true)
    (ran : (performAccess r trans).run s = (.ok (), t)) : Reads r trans s t := by
  rw [run_performAccess_read command can] at ran
  cases ran
  refine ⟨rfl, rfl, fun a => ?_⟩
  simp only [ByteMemory.write, sub_zero]
  split
  case isFalse => rfl
  case isTrue inside =>
    apply BitVec.eq_of_getLsbD_eq
    intro j bit
    have place : trans.field.lo + (8 * a.toNat + j) = 8 * (trans.off + a.toNat) + j := by
      rw [Payload.field_lo]
      omega
    have within : 8 * a.toNat + j < 8 * trans.length := by omega
    rw [getLsbD_byteOf bit, BitVec.getLsbD_extractLsb', Field.getLsbD_get, place, decide_eq_true bit,
      decide_eq_true within, Bool.true_and, Bool.true_and]

theorem stores_of_run (command : trans.cmd = .write) (can : r.mode.canWrite = true)
    (ran : (performAccess r trans).run s = (.ok (), t)) : Stores r trans s t := by
  rw [run_performAccess_write command can] at ran
  cases ran
  refine ⟨rfl, rfl, fun q other => State.set_reg_of_ne other, _, State.set_reg_self, fun k inside => ?_⟩
  exact Payload.byteOf_field_set inside

/-- The callback of the peripheral is called with the access described, and `fn` performs it:
whatever memory of the host the bytes of the transaction are the beginning of. -/
def Exact (bank : List (RegMapping ρ)) (r : RegMapping ρ) (trans : Payload) (reg : ρ → BitVec 32)
    (device : D) (bytes : BitVec (8 * trans.length)) : Prop :=
  ∀ s : State ρ D, s.reg = reg → s.device = device → s.data.read 0 trans.length = bytes →
    (∀ handler : RegisterAccess ρ D → BankM ρ D Unit, (tryHandle bank (some handler) trans).run s =
      (do handler (access r trans s); return true).run s) ∧
    ∃ t, (access r trans s).fn.run s = (.ok (), t) ∧
      (trans.cmd = .read → Reads r trans s t) ∧
      (trans.cmd = .write → Stores r trans s t ∧ (access r trans s).nv = t.reg r.vptr)

/-- What the callback is told to expect, and what it gets. -/
theorem nv_eq_iff (command : trans.cmd = .write) (can : r.mode.canWrite = true)
    (ran : (performAccess r trans).run s = (.ok (), t)) : (access r trans s).nv = t.reg r.vptr ↔
      s.data.read 0 4 = trans.field.set (s.data.read 0 trans.length) (s.reg r.vptr) &&& r.mask := by
  rw [run_performAccess_write command can] at ran
  cases ran
  simp [access, command]

/-- Bytes that are followed by a given one. -/
def behind (n : Nat) (bytes : BitVec (8 * n)) (next : BitVec 8) : ByteMemory :=
  ByteMemory.write (fun _ => next) 0 n bytes

theorem read_behind {bytes : BitVec (8 * n)} {next : BitVec 8} (short : n < 4) :
    (behind n bytes next).read 0 n = bytes := ByteMemory.read_write_self _ _ (by omega) bytes

theorem behind_next {bytes : BitVec (8 * n)} {next : BitVec 8} (short : n < 4) :
    behind n bytes next (BitVec.ofNat 64 n) = next := by
  have index : (BitVec.ofNat 64 n - 0).toNat = n := by
    rw [sub_zero, BitVec.toNat_ofNat, Nat.mod_eq_of_lt (by omega)]
  unfold behind ByteMemory.write
  rw [index, if_neg (Nat.lt_irrefl n)]

/-- Bytes that determine the word are the whole of it: behind fewer there may be any byte. -/
theorem whole_of_determined {bytes : BitVec (8 * n)} {value : BitVec 32} (small : n ≤ 4)
    (determined : ∀ host : ByteMemory, host.read 0 n = bytes → host.read 0 4 = value) : n = 4 := by
  by_contra part
  have short : n < 4 := by omega
  have last : ∀ next, next = byteOf value n := by
    intro next
    have loaded := determined (behind n bytes next) (read_behind short)
    rw [← loaded, byteOf_read short, behind_next short]
  have clash := (last 0).trans (last 1).symm
  cases clash

/-- A whole word replaces all of the register. -/
theorem field_set_word (whole : trans.length = 4) (aligned : trans.off = 0) :
    trans.field.set (m.read 0 trans.length) x = m.read 0 4 := by
  refine byteOf_ext fun k inside => ?_
  rw [Payload.byteOf_field_set inside, if_pos ⟨by omega, by omega⟩, byteOf_read inside, aligned, Nat.sub_zero]

theorem setWidth_read (whole : n = 4) : (m.read 0 n).setWidth 32 = m.read 0 4 := by
  subst whole
  exact BitVec.setWidth_eq _

theorem and_eq_self_iff {w : Nat} {value mask : BitVec w} : value = value &&& mask ↔ value &&& ~~~mask = 0 := by
  constructor
  · intro same
    rw [same, BitVec.and_assoc]
    simp
  · intro unmasked
    apply BitVec.eq_of_getLsbD_eq
    intro j bound
    have bit := congrArg (BitVec.getLsbD · j) unmasked
    simp only [BitVec.getLsbD_and, BitVec.getLsbD_not, bound, decide_true, Bool.true_and] at bit
    rw [BitVec.getLsbD_and]
    cases masked : mask.getLsbD j with
    | true => rw [Bool.and_true]
    | false => simpa [masked] using bit

/-- The bank is right about every access but for `nv`, and about `nv` where a whole word is
written that the mask lets through. -/
theorem exact_iff (proper : Proper bank r trans) (reg : ρ → BitVec 32) (device : D)
    (bytes : BitVec (8 * trans.length)) : Exact bank r trans reg device bytes ↔
      (trans.cmd = .write → trans.length = 4 ∧ bytes.setWidth 32 &&& ~~~r.mask = 0) := by
  constructor
  · intro exact command
    have can : r.mode.canWrite = true := by
      rcases proper.mode with ⟨read, -⟩ | ⟨-, can⟩
      · rw [command] at read
        cases read
      · exact can
    -- both sides of `nv_eq_iff` for one host memory, the right one in terms of the bytes
    have expected : ∀ host : ByteMemory, host.read 0 trans.length = bytes →
        host.read 0 4 = trans.field.set bytes (reg r.vptr) &&& r.mask := by
      intro host begins
      obtain ⟨-, t, ran, -, write⟩ := exact ⟨reg, device, host⟩ rfl rfl begins
      have told := (nv_eq_iff command can ran).mp (write command).2
      rwa [← begins]
    have whole : trans.length = 4 := by
      have inside := proper.inside
      exact whole_of_determined (by omega) expected
    have aligned : trans.off = 0 := by
      have inside := proper.inside
      omega
    have begins := ByteMemory.read_write_self (fun _ => 0) 0 (n := trans.length) (by omega) bytes
    have kept := expected _ begins
    rw [← begins, field_set_word whole aligned, begins] at kept
    rw [← begins, setWidth_read whole]
    exact ⟨whole, and_eq_self_iff.mp kept⟩
  · intro fits s same other begins
    refine ⟨run_tryHandle proper, ?_⟩
    rcases proper.mode with ⟨command, can⟩ | ⟨command, can⟩
    · refine ⟨_, run_performAccess_read command can, fun _ => ?_, fun write => ?_⟩
      · exact reads_of_run command can (run_performAccess_read command can)
      · rw [command] at write
        cases write
    · obtain ⟨whole, unmasked⟩ := fits command
      have aligned : trans.off = 0 := by
        have inside := proper.inside
        omega
      have ran := run_performAccess_write (s := s) command can
      refine ⟨_, ran, fun read => ?_, fun _ => ⟨stores_of_run command can ran, ?_⟩⟩
      · rw [command] at read
        cases read
      · rw [← begins, setWidth_read whole] at unmasked
        rw [nv_eq_iff command can ran, field_set_word whole aligned]
        exact and_eq_self_iff.mpr unmasked

/-! ## On the bank of a sensor -/

/-- The registers of `SimpleSensor2`; its callback turns a write to `scaler` away by `nv`. -/
inductive SensorReg where
  | scaler
  | filter
deriving DecidableEq

def scaler : RegMapping SensorReg := { addr := 0x80, vptr := .scaler }

def filter : RegMapping SensorReg := { addr := 0x84, vptr := .filter }

def sensorBank : List (RegMapping SensorReg) := [scaler, filter]

/-- `length` bytes to `scaler`. -/
def toScaler (length : Nat) : Payload := ⟨.write, 0x80, length⟩

/-- A word to `scaler`. -/
theorem exact_word : Exact sensorBank scaler (toScaler 4) (fun _ => 25) () 50#32 :=
  have proper : Proper sensorBank scaler (toScaler 4) := ⟨rfl, by decide, .inr ⟨rfl, rfl⟩⟩
  (exact_iff proper (fun _ => 25) () 50#32).mpr (by decide)

/-- The byte 50 to `scaler`, which was 25, stores 50.  With more such bytes behind it in the memory of
the host the callback is told `0x32323232`. -/
theorem not_exact_byte : ¬ Exact sensorBank scaler (toScaler 1) (fun _ => 25) () 50#8 := by
  intro exact
  have command : (toScaler 1).cmd = .write := rfl
  have can : scaler.mode.canWrite = true := rfl
  obtain ⟨-, t, ran, -, write⟩ := exact ⟨fun _ => 25, (), fun _ => 50⟩ rfl rfl rfl
  have told := (nv_eq_iff command can ran).mp (write rfl).2
  revert told
  decide

end RiscvVp.RegisterMapping
