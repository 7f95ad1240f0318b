/-
# RiscvVp.Platform.Sensor -- one sensor, written twice

`SimpleSensor` takes its transactions apart by itself; `SimpleSensor2` does it with the register bank
and the router of `tlm_map.h`.  As long as the filter asks for digits or letters whenever a frame is
made, a guest cannot tell them apart: what the first one accepts the second one accepts, with the same
answers, the same frames and the same interrupts.
-/
import RiscvVp.Lib.Runs
import RiscvVp.Util.RegisterMapping

namespace RiscvVp.Sensor

set_option autoImplicit false

open Lib RegisterMapping

/-- The sensor without its registers: the frame, by offsets, and `run_event` as the time of its
notification. -/
structure Device where
  dataFrame : ByteMemory
  now : Nat
  runEvent : Option Nat

abbrev SensorState := State SensorReg Device

abbrev SensorM := BankM SensorReg Device

/-- `SC_MS`. -/
def ms : Nat := 10 ^ 9

namespace Device

variable (d : Device)

def cancel : Device := { d with runEvent := none }

/-- The earlier one of two notifications stays. -/
def notify (delay : Nat) : Device :=
  { d with runEvent := some (d.runEvent.elim (d.now + delay) (min (d.now + delay))) }

variable {d} in
theorem notify_free (free : d.runEvent = none) (delay : Nat) :
    (d.notify delay).runEvent = some (d.now + delay) := by
  simp [notify, free]

end Device

/-- `run_event.notify(sc_core::sc_time(scaler, sc_core::SC_MS))`. -/
def notifyRun (s : SensorState) : SensorState :=
  { s with device := s.device.notify ((s.reg .scaler).toNat * ms) }

/-- What follows a write to `scaler`. -/
def reschedule (s : SensorState) : SensorState := notifyRun { s with device := s.device.cancel }

/-- `memcpy` from the frame. -/
def readFrame (trans : Payload) (s : SensorState) : SensorState :=
  { s with data := s.data.write 0 trans.length (s.device.dataFrame.read trans.address trans.length) }

/-! ## `SimpleSensor` -/

/-- `addr_to_reg`. -/
def addrToReg (addr : BitVec 64) : Option SensorReg :=
  if addr = 0x80 then some .scaler else if addr = 0x84 then some .filter else none

def SimpleSensor.transport (trans : Payload) : SensorM Unit :=
  if trans.address ≤ 63 then do
    Exec.ensure (trans.cmd = .read) .command
    Exec.ensure (trans.address + .ofNat 64 trans.length ≤ 64) .beyondRegister
    Exec.update (readFrame trans)
  else do
    Exec.ensure (trans.length = 4) .beyondRegister
    match addrToReg trans.address with
    | none => Exec.raise .unmapped
    | some reg =>
        let value ← Exec.read fun s => s.data.read 0 4
        if trans.cmd = .write ∧ trans.address = 0x80 ∧ (value < 1 ∨ 100 < value) then return ()
        else do
          match trans.cmd with
          | .read => Exec.update fun s => { s with data := s.data.write 0 4 (s.reg reg) }
          | .write => Exec.update fun s => s.set reg value
          | .ignore => Exec.raise .command
          Exec.when (trans.cmd = .write ∧ trans.address = 0x80) (Exec.update reschedule)

/-- A byte of a new frame from a random number. -/
def SimpleSensor.generate (filter : BitVec 32) (random : Nat) : BitVec 8 :=
  if filter = 1 then .ofNat 8 (random % 10 + 48)
  else if filter = 2 then .ofNat 8 (random % 26 + 65)
  else .ofNat 8 (random % 92 + 32)

/-! ## `SimpleSensor2` -/

/-- `execute_memory_access`; only reads get there. -/
def executeMemoryAccess (trans : Payload) : SensorM Unit :=
  match trans.cmd with
  | .read => Exec.update (readFrame trans)
  | .write => Exec.update fun s => { s with device := { s.device with
      dataFrame := s.device.dataFrame.write trans.address trans.length (s.data.read 0 trans.length) } }
  | .ignore => Exec.raise .unsupportedCommand

/-- `AddressMapping::try_handle`. -/
def tryHandleAddress (start stop : BitVec 64) (mode : AccessMode) (handler : Payload → SensorM Unit)
    (trans : Payload) : SensorM Bool :=
  if start ≤ trans.address ∧ trans.address < stop then do
    Exec.ensure (trans.address + .ofNat 64 trans.length ≤ stop) .beyondRegister
    Exec.ensure (mode.canRead = true ∨ trans.cmd ≠ .read) .mode
    Exec.ensure (mode.canWrite = true ∨ trans.cmd ≠ .write) .mode
    handler { trans with address := trans.address - start }
    return true
  else return false

/-- `SimpleSensor2::register_access_callback`. -/
def registerAccessCallback (r : RegisterAccess SensorReg Device) : SensorM Unit :=
  if r.write = true ∧ r.vptr = .scaler ∧ (r.nv < 1 ∨ 100 < r.nv) then return ()
  else do
    r.fn
    Exec.when (r.write = true ∧ r.vptr = .scaler) (Exec.update reschedule)

/-- `LocalRouter::transport` with the two mappings of the sensor, in their order. -/
def SimpleSensor2.transport (trans : Payload) : SensorM Unit := do
  let handled ← tryHandle sensorBank (some registerAccessCallback) trans
  if handled then return ()
  else do
    let handled ← tryHandleAddress 0x00 64 .readOnly executeMemoryAccess trans
    Exec.ensure (handled = true) .unmapped

def SimpleSensor2.generate (filter : BitVec 32) (random : Nat) : BitVec 8 :=
  if filter = 1 then .ofNat 8 (random % 10 + 48)
  else if filter = 2 then .ofNat 8 (random % 26 + 65)
  else .ofNat 8 random

/-! ## The system -/

/-- A transaction with the memory of the host behind its data pointer, the time that passes until the
next event, and the random numbers of a frame. -/
inductive Input where
  | access (trans : Payload) (data : ByteMemory)
  | wait (delay : Nat)
  | run (rands : Nat → Nat)

/-- The data of a transaction, or a call of `gateway_trigger_interrupt`. -/
inductive Output where
  | data (bytes : ByteMemory)
  | quiet
  | interrupt

/-- The loop over the frame, and the start of the next round of `run`. -/
def newFrame (generate : BitVec 32 → Nat → BitVec 8) (rands : Nat → Nat) (now : Nat) (s : SensorState) :
    SensorState :=
  notifyRun { s with device :=
    { dataFrame := fun a => if a.toNat < 64 then generate (s.reg .filter) (rands a.toNat) else s.device.dataFrame a
      now := now
      runEvent := none } }

/-- One step of a sensor, given its two functions. -/
def step (transport : Payload → SensorM Unit) (generate : BitVec 32 → Nat → BitVec 8) (s : SensorState) :
    Input → Except Fault (Output × SensorState)
  | .access payload data =>
      match (transport payload).run { s with data := data } with
      | (.ok _, t) => .ok (.data t.data, t)
      | (.error e, _) => .error e
  | .wait delay => .ok (.quiet, { s with device := { s.device with now := s.device.now + delay } })
  | .run rands =>
      match s.device.runEvent with
      | some time => .ok (.interrupt, newFrame generate rands time s)
      | none => .ok (.quiet, s)

/-- The kernel does not let the time of a notification pass, and no event comes early. -/
def InTime (s : SensorState) : Input → Prop
  | .access _ _ => True
  | .wait delay => ∀ time, s.device.runEvent = some time → s.device.now + delay ≤ time
  | .run _ => s.device.runEvent = some s.device.now

/-- Digits or letters. -/
def Filtered (s : SensorState) : Prop := s.reg .filter = 1 ∨ s.reg .filter = 2

/-- At time zero, in front of the first `wait`; the frame is not initialised. -/
def init (frame : ByteMemory) : SensorState :=
  notifyRun ⟨fun | .scaler => 25 | .filter => 0, ⟨frame, 0, none⟩, fun _ => 0⟩

/-! ## Both sensors -/

variable {trans : Payload} {s t : SensorState} {value : BitVec 32}

theorem find_frame (inside : trans.address ≤ 63) :
    find sensorBank (trans.address - trans.address % 4) = none := by
  have low : trans.address.toNat ≤ 63 := inside
  have clamped : (trans.address - trans.address % 4).toNat ≤ 63 := by
    have offset : (trans.address % 4).toNat = trans.address.toNat % 4 := BitVec.toNat_umod
    rw [BitVec.toNat_sub, offset]
    omega
  refine List.find?_eq_none.mpr fun r among hit => ?_
  have found : r.addr = trans.address - trans.address % 4 := beq_iff_eq.mp hit
  rw [← found] at clamped
  rcases List.mem_pair.mp among with rfl | rfl
  · exact absurd clamped (by decide)
  · exact absurd clamped (by decide)

theorem run_tryHandleAddress (inside : trans.address ≤ 63) (read : trans.cmd = .read)
    (fits : trans.address + .ofNat 64 trans.length ≤ 64) :
    (tryHandleAddress 0x00 64 .readOnly executeMemoryAccess trans).run s = (.ok true, readFrame trans s) := by
  have covered : (0x00 : BitVec 64) ≤ trans.address ∧ trans.address < 64 := by
    constructor <;> bv_omega
  have same : trans.address - 0x00 = trans.address := BitVec.sub_zero _
  unfold tryHandleAddress
  rw [if_pos covered, Exec.ensure_pos fits, Exec.ensure_pos (.inl rfl), Exec.ensure_pos (.inr (by rw [read]; nofun))]
  rw [same]
  unfold executeMemoryAccess
  dsimp only
  rw [read]
  rfl

/-- The frame. -/
theorem agrees_frame (inside : trans.address ≤ 63) (ran : (SimpleSensor.transport trans).run s = (.ok (), t)) :
    (SimpleSensor2.transport trans).run s = (.ok (), t) := by
  unfold SimpleSensor.transport at ran
  rw [if_pos inside] at ran
  obtain ⟨read, ran⟩ := Exec.ok_of_ensure_bind ran
  obtain ⟨fits, ran⟩ := Exec.ok_of_ensure_bind ran
  have unhandled : (tryHandle sensorBank (some registerAccessCallback) trans).run s = (.ok false, s) := by
    unfold tryHandle
    rw [find_frame inside]
    rfl
  have handled := run_tryHandleAddress (s := s) inside read fits
  unfold SimpleSensor2.transport
  rw [Exec.run_bind_ok unhandled, if_neg (by decide), Exec.run_bind_ok handled]
  exact ran

/-- The register of an address, in both tables. -/
structure Names (r : RegMapping SensorReg) (trans : Payload) (reg : SensorReg) : Prop where
  found : find sensorBank (trans.address - trans.address % 4) = some r
  vptr : r.vptr = reg
  mask : r.mask = BitVec.allOnes 32
  mode : r.mode = .readWrite
  aligned : trans.off = 0
  first : trans.address = 0x80 ↔ reg = .scaler

theorem names_of_addrToReg {reg : SensorReg} (named : addrToReg trans.address = some reg) :
    ∃ r, Names r trans reg := by
  unfold addrToReg at named
  split at named
  case isTrue here =>
    cases named
    have clamped : trans.address - trans.address % 4 = 0x80 := by rw [here]; decide
    have aligned : trans.off = 0 := by unfold Payload.off; rw [here]; decide
    exact ⟨RegisterMapping.scaler, by rw [clamped]; rfl, rfl, rfl, rfl, aligned, iff_of_true here rfl⟩
  case isFalse =>
    split at named
    case isTrue here =>
      cases named
      have clamped : trans.address - trans.address % 4 = 0x84 := by rw [here]; decide
      have aligned : trans.off = 0 := by unfold Payload.off; rw [here]; decide
      exact ⟨RegisterMapping.filter, by rw [clamped]; rfl, rfl, rfl, rfl, aligned, iff_of_false (by assumption) nofun⟩
    case isFalse => cases named

/-- The access itself, of a whole register. -/
theorem run_performAccess {r : RegMapping SensorReg} {reg : SensorReg} (names : Names r trans reg)
    (whole : trans.length = 4) (command : trans.cmd = .read ∨ trans.cmd = .write) :
    (performAccess r trans : SensorM Unit).run s = (.ok (), if trans.cmd = .read
      then { s with data := s.data.write 0 4 (s.reg reg) } else s.set reg (s.data.read 0 4)) := by
  have aligned := names.aligned
  rcases command with read | write
  · rw [run_performAccess_read read (by rw [names.mode]; rfl), if_pos read, names.vptr]
    obtain ⟨cmd, address, length⟩ := trans
    cases whole
    have all : (Payload.field ⟨cmd, address, 4⟩).get (s.reg reg) = s.reg reg := by
      refine BitVec.eq_of_getLsbD_eq fun i inside => ?_
      rw [Field.getLsbD_get, Payload.field_lo, aligned, decide_eq_true inside]
      simp
    rw [all]
  · rw [run_performAccess_write write (by rw [names.mode]; rfl), if_neg (by rw [write]; nofun),
      field_set_word whole aligned, names.vptr, names.mask, BitVec.and_allOnes]

/-- What a whole word does to a register: wrong values for `scaler` are ignored. -/
def written (reg : SensorReg) (value : BitVec 32) (s : SensorState) : SensorState :=
  if reg = .scaler ∧ (value < 1 ∨ 100 < value) then s
  else if reg = .scaler then reschedule (s.set reg value)
  else s.set reg value

section Registers

variable {r : RegMapping SensorReg} {reg : SensorReg} (names : Names r trans reg) (whole : trans.length = 4)

include names whole

theorem callback_read (read : trans.cmd = .read) : (registerAccessCallback (access r trans s)).run s =
    (.ok (), { s with data := s.data.write 0 4 (s.reg reg) }) := by
  have other : ¬ trans.cmd = .write := by rw [read]; nofun
  have performed : (access r trans s).fn.run s = _ := run_performAccess names whole (.inl read)
  unfold registerAccessCallback
  rw [if_neg (by simp [access, other]), Exec.run_bind_ok performed, Exec.when_neg (by simp [access, other]),
    if_pos read]
  rfl

theorem callback_write (write : trans.cmd = .write) : (registerAccessCallback (access r trans s)).run s =
    (.ok (), written reg (s.data.read 0 4) s) := by
  have told : (access r trans s).nv = s.data.read 0 4 := if_pos write
  have writes : (access r trans s).write = true := decide_eq_true write
  have vptr : (access r trans s).vptr = reg := names.vptr
  have performed : (access r trans s).fn.run s = _ := run_performAccess names whole (.inr write)
  rw [if_neg (by rw [write]; nofun)] at performed
  unfold registerAccessCallback written
  simp only [told, writes, vptr, true_and]
  by_cases wrong : reg = .scaler ∧ (s.data.read 0 4 < 1 ∨ 100 < s.data.read 0 4)
  · rw [if_pos wrong, if_pos wrong]
    rfl
  · rw [if_neg wrong, if_neg wrong, Exec.run_bind_ok performed]
    by_cases scaled : reg = .scaler
    · rw [Exec.when_pos ⟨writes, vptr.trans scaled⟩, if_pos scaled]
      rfl
    · rw [Exec.when_neg fun both => scaled (vptr.symm.trans both.2), if_neg scaled]
      rfl

omit names in
/-- What the first sensor does with a register, once it has it. -/
theorem run_registers (beyond : ¬ trans.address ≤ 63) (named : addrToReg trans.address = some reg) :
    (SimpleSensor.transport trans).run s =
      (if trans.cmd = .write ∧ trans.address = 0x80 ∧ (s.data.read 0 4 < 1 ∨ 100 < s.data.read 0 4) then return ()
      else do
        match trans.cmd with
        | .read => Exec.update fun s => { s with data := s.data.write 0 4 (s.reg reg) }
        | .write => Exec.update fun t => t.set reg (s.data.read 0 4)
        | .ignore => Exec.raise .command
        Exec.when (trans.cmd = .write ∧ trans.address = 0x80) (Exec.update reschedule) : SensorM Unit).run s := by
  unfold SimpleSensor.transport
  rw [if_neg beyond, Exec.ensure_pos whole, named]
  exact Exec.run_read_bind _ _ s

omit names in
theorem registers_read (beyond : ¬ trans.address ≤ 63) (named : addrToReg trans.address = some reg)
    (read : trans.cmd = .read) :
    (SimpleSensor.transport trans).run s = (.ok (), { s with data := s.data.write 0 4 (s.reg reg) }) := by
  have other : ¬ (Command.read = .write ∧ trans.address = 0x80) := nofun
  rw [run_registers whole beyond named, read, if_neg (by nofun), Exec.when_neg other]
  rfl

theorem registers_write (beyond : ¬ trans.address ≤ 63) (named : addrToReg trans.address = some reg)
    (write : trans.cmd = .write) :
    (SimpleSensor.transport trans).run s = (.ok (), written reg (s.data.read 0 4) s) := by
  rw [run_registers whole beyond named, write]
  unfold written
  simp only [names.first, true_and]
  by_cases wrong : reg = .scaler ∧ (s.data.read 0 4 < 1 ∨ 100 < s.data.read 0 4)
  · rw [if_pos wrong, if_pos wrong]
    rfl
  · rw [if_neg wrong, if_neg wrong]
    by_cases scaled : reg = .scaler
    · rw [Exec.when_pos ⟨rfl, names.first.mpr scaled⟩, if_pos scaled]
      rfl
    · rw [Exec.when_neg fun both => scaled (names.first.mp both.2), if_neg scaled]
      rfl

end Registers

/-- Only whole registers get through. -/
theorem registers_of_ok (beyond : ¬ trans.address ≤ 63)
    (ran : (SimpleSensor.transport trans).run s = (.ok (), t)) :
    trans.length = 4 ∧ ∃ reg, addrToReg trans.address = some reg := by
  unfold SimpleSensor.transport at ran
  rw [if_neg beyond] at ran
  obtain ⟨whole, ran⟩ := Exec.ok_of_ensure_bind ran
  refine ⟨whole, ?_⟩
  cases named : addrToReg trans.address with
  | none =>
    rw [named] at ran
    cases ran
  | some reg => exact ⟨reg, rfl⟩

/-- A register. -/
theorem agrees_registers (beyond : ¬ trans.address ≤ 63)
    (ran : (SimpleSensor.transport trans).run s = (.ok (), t)) :
    (SimpleSensor2.transport trans).run s = (.ok (), t) := by
  obtain ⟨whole, reg, named⟩ := registers_of_ok beyond ran
  obtain ⟨r, names⟩ := names_of_addrToReg named
  have called : (trans.cmd = .read ∨ trans.cmd = .write) ∧
      (registerAccessCallback (access r trans s)).run s = (.ok (), t) := by
    cases command : trans.cmd with
    | read =>
      rw [registers_read whole beyond named command] at ran
      cases ran
      exact ⟨.inl rfl, callback_read names whole command⟩
    | write =>
      rw [registers_write names whole beyond named command] at ran
      cases ran
      exact ⟨.inr rfl, callback_write names whole command⟩
    | ignore =>
      rw [run_registers whole beyond named, command] at ran
      cases ran
  obtain ⟨command, called⟩ := called
  have proper : Proper sensorBank r trans :=
    ⟨names.found, by rw [whole, names.aligned], command.imp (⟨·, by rw [names.mode]; rfl⟩)
      (⟨·, by rw [names.mode]; rfl⟩)⟩
  have handled : (tryHandle sensorBank (some registerAccessCallback) trans).run s = (.ok true, t) := by
    rw [run_tryHandle proper, Exec.run_bind_ok called]
    rfl
  unfold SimpleSensor2.transport
  rw [Exec.run_bind_ok handled]
  rfl

/-- All that a transaction can do. -/
theorem transport_cases (ran : (SimpleSensor.transport trans).run s = (.ok (), t)) :
    (∃ bytes, t = { s with data := bytes }) ∨ ∃ reg value, t = written reg value s := by
  by_cases inside : trans.address ≤ 63
  · unfold SimpleSensor.transport at ran
    rw [if_pos inside] at ran
    obtain ⟨-, ran⟩ := Exec.ok_of_ensure_bind ran
    obtain ⟨-, ran⟩ := Exec.ok_of_ensure_bind ran
    cases ran
    exact .inl ⟨_, rfl⟩
  · obtain ⟨whole, reg, named⟩ := registers_of_ok inside ran
    obtain ⟨r, names⟩ := names_of_addrToReg named
    cases command : trans.cmd with
    | read =>
      rw [registers_read whole inside named command] at ran
      cases ran
      exact .inl ⟨_, rfl⟩
    | write =>
      rw [registers_write names whole inside named command] at ran
      cases ran
      exact .inr ⟨reg, _, rfl⟩
    | ignore =>
      rw [run_registers whole inside named, command] at ran
      cases ran

theorem transport_agrees (ran : (SimpleSensor.transport trans).run s = (.ok (), t)) :
    (SimpleSensor2.transport trans).run s = (.ok (), t) := by
  by_cases inside : trans.address ≤ 63
  · exact agrees_frame inside ran
  · exact agrees_registers inside ran

theorem generate_agrees {filter : BitVec 32} (filtered : filter = 1 ∨ filter = 2) :
    SimpleSensor.generate filter = SimpleSensor2.generate filter := by
  funext random
  rcases filtered with rfl | rfl <;> rfl

theorem newFrame_agrees (filtered : Filtered s) (rands : Nat → Nat) (now : Nat) :
    newFrame SimpleSensor.generate rands now s = newFrame SimpleSensor2.generate rands now s := by
  unfold newFrame
  rw [generate_agrees filtered]

/-- A step in time that makes a frame only of digits or letters. -/
def Plain (s : SensorState) (input : Input) : Prop :=
  InTime s input ∧ ∀ rands, input = .run rands → Filtered s

theorem step_agrees {input : Input} {output : Output} (plain : Plain s input)
    (took : step SimpleSensor.transport SimpleSensor.generate s input = .ok (output, t)) :
    step SimpleSensor2.transport SimpleSensor2.generate s input = .ok (output, t) := by
  cases input with
  | access payload data =>
    simp only [step] at took ⊢
    cases ran : (SimpleSensor.transport payload).run { s with data := data } with
    | mk result u =>
      rw [ran] at took
      cases result with
      | error e => cases took
      | ok _ =>
        rw [transport_agrees ran]
        exact took
  | wait delay => exact took
  | run rands =>
    have due : s.device.runEvent = some s.device.now := plain.1
    simp only [step, due] at took ⊢
    rw [← newFrame_agrees (plain.2 rands rfl)]
    exact took

/-- What a guest and the interrupt controller see of the one sensor they see of the other: every run of
`SimpleSensor` that makes its frames of digits or letters is one of `SimpleSensor2`, with the same
answers and interrupts at the same times. -/
theorem sensors_agree {frame : ByteMemory} {log : List (Input × Output)}
    (run : Runs (step SimpleSensor.transport SimpleSensor.generate) Plain (init frame) log t) :
    Runs (step SimpleSensor2.transport SimpleSensor2.generate) InTime (init frame) log t := by
  induction run with
  | start => exact .start
  | next _ plain took ih => exact ih.next plain.1 (step_agrees plain took)

/-- Digits are asked for, the first frame is made, and two bytes of it are read. -/
theorem sensors_agree_digits : ∃ log t,
    Runs (step SimpleSensor2.transport SimpleSensor2.generate) InTime (init fun _ => 0) log t ∧
      t.data.read 0 2 = (0x3231 : BitVec 16) := by
  let write : Input := .access ⟨.write, 0x84, 4⟩ fun a => if a = 0 then 1 else 0
  let look : Input := .access ⟨.read, 11, 2⟩ fun _ => 0
  have asked : Runs (step SimpleSensor.transport SimpleSensor.generate) Plain (init fun _ => 0) _ _ :=
    Runs.start.next (a := write) ⟨trivial, nofun⟩ rfl
  have waited := asked.next (a := Input.wait (25 * ms))
    ⟨fun time due => by cases due; exact Nat.le_refl _, nofun⟩ rfl
  have made := waited.next (a := Input.run id) ⟨rfl, fun _ _ => .inl rfl⟩ rfl
  have read := made.next (a := look) ⟨trivial, nofun⟩ rfl
  exact ⟨_, _, sensors_agree read, by decide⟩

/-! ## The sensor goes on -/

/-- The rate is a proper one, and the next frame is due within the longest period. -/
structure Alive (s : SensorState) : Prop where
  low : 1 ≤ (s.reg .scaler).toNat
  high : (s.reg .scaler).toNat ≤ 100
  due : ∃ time, s.device.runEvent = some time ∧ s.device.now ≤ time ∧ time ≤ s.device.now + 100 * ms

theorem alive_notify {now : Nat} (low : 1 ≤ (s.reg .scaler).toNat) (high : (s.reg .scaler).toNat ≤ 100)
    (clock : s.device.now = now) (free : s.device.runEvent = none) : Alive (notifyRun s) := by
  have same : (notifyRun s).device.now = now := clock
  refine ⟨low, high, now + (s.reg .scaler).toNat * ms, ?_, ?_, ?_⟩
  · rw [← clock]
    exact Device.notify_free free _
  · rw [same]
    exact Nat.le_add_right _ _
  · rw [same]
    exact Nat.add_le_add_left (Nat.mul_le_mul_right ms high) now

theorem alive_written (alive : Alive s) (reg : SensorReg) (value : BitVec 32) : Alive (written reg value s) := by
  unfold written
  split
  case isTrue => exact alive
  case isFalse proper =>
    split
    case isTrue scaled =>
      subst scaled
      have bounds : ¬ (value < 1 ∨ 100 < value) := fun wrong => proper ⟨rfl, wrong⟩
      have same : (s.set .scaler value).reg .scaler = value := State.set_reg_self
      refine alive_notify ?_ ?_ (rfl : _ = s.device.now) rfl
      · show 1 ≤ ((s.set .scaler value).reg .scaler).toNat
        rw [same]
        exact BitVec.not_lt.mp fun wrong => bounds (.inl wrong)
      · show ((s.set .scaler value).reg .scaler).toNat ≤ 100
        rw [same]
        exact BitVec.not_lt.mp fun wrong => bounds (.inr wrong)
    case isFalse other =>
      have same : (s.set reg value).reg .scaler = s.reg .scaler := State.set_reg_of_ne (Ne.symm other)
      exact ⟨same ▸ alive.low, same ▸ alive.high, alive.due⟩

/-- Every byte of the frame is a character. -/
def Printable (s : SensorState) : Prop :=
  ∀ k < 64, 32 ≤ (s.device.dataFrame (.ofNat 64 k)).toNat ∧ (s.device.dataFrame (.ofNat 64 k)).toNat < 124

theorem printable_generate (filter : BitVec 32) (random : Nat) :
    32 ≤ (SimpleSensor.generate filter random).toNat ∧ (SimpleSensor.generate filter random).toNat < 124 := by
  unfold SimpleSensor.generate
  split
  · rw [BitVec.toNat_ofNat]
    omega
  · split
    · rw [BitVec.toNat_ofNat]
      omega
    · rw [BitVec.toNat_ofNat]
      omega

/-- What every step keeps, and what an interrupt brings. -/
theorem alive_step {input : Input} {output : Output} (alive : Alive s) (inTime : InTime s input)
    (took : step SimpleSensor.transport SimpleSensor.generate s input = .ok (output, t)) :
    Alive t ∧ (Printable s ∨ output = .interrupt → Printable t) := by
  cases input with
  | access payload data =>
    simp only [step] at took
    cases ran : (SimpleSensor.transport payload).run { s with data := data } with
    | mk result u =>
      rw [ran] at took
      cases result with
      | error e => cases took
      | ok _ =>
        cases took
        have alive' : Alive { s with data := data } := ⟨alive.low, alive.high, alive.due⟩
        have printable : t.device.dataFrame = s.device.dataFrame → Printable s ∨ Output.data t.data = .interrupt →
            Printable t := by
          rintro same (before | quiet)
          · unfold Printable
            rw [same]
            exact before
          · cases quiet
        rcases transport_cases ran with ⟨bytes, rfl⟩ | ⟨reg, value, rfl⟩
        · exact ⟨⟨alive.low, alive.high, alive.due⟩, printable rfl⟩
        · refine ⟨alive_written alive' reg value, printable ?_⟩
          unfold written
          split
          · rfl
          · split <;> rfl
  | wait delay =>
    cases took
    obtain ⟨time, due, -, latest⟩ := alive.due
    have early : s.device.now + delay ≤ time := inTime time due
    have later : time ≤ s.device.now + delay + 100 * ms := by omega
    refine ⟨⟨alive.low, alive.high, time, due, early, later⟩, ?_⟩
    rintro (before | quiet)
    · exact before
    · cases quiet
  | run rands =>
    have due : s.device.runEvent = some s.device.now := inTime
    simp only [step, due] at took
    cases took
    refine ⟨alive_notify alive.low alive.high rfl rfl, fun _ k inside => ?_⟩
    have index : (BitVec.ofNat 64 k).toNat = k := by
      rw [BitVec.toNat_ofNat, Nat.mod_eq_of_lt (by omega)]
    have made : (newFrame SimpleSensor.generate rands s.device.now s).device.dataFrame (.ofNat 64 k) =
        SimpleSensor.generate (s.reg .filter) (rands k) := by
      show (if (BitVec.ofNat 64 k).toNat < 64 then _ else _) = _
      rw [index, if_pos inside]
    rw [made]
    exact printable_generate _ _

/-- The sensor never stalls: in every run, whatever the guest writes, the next frame is due and at most
100 ms away; and from the first interrupt on every byte of the frame is a printable character. -/
theorem sensor_alive {frame : ByteMemory} {log : List (Input × Output)}
    (run : Runs (step SimpleSensor.transport SimpleSensor.generate) InTime (init frame) log t) :
    Alive t ∧ ((∃ e ∈ log, e.2 = .interrupt) → Printable t) := by
  refine run.invariant_log (I := fun log t => Alive t ∧ ((∃ e ∈ log, e.2 = .interrupt) → Printable t)) ?_ ?_
  · have low : 1 ≤ (25 : BitVec 32).toNat := by decide
    have high : (25 : BitVec 32).toNat ≤ 100 := by decide
    exact ⟨alive_notify low high rfl rfl, by simp⟩
  · rintro log t a b u ⟨alive, printable⟩ inTime took
    obtain ⟨alive', printable'⟩ := alive_step alive inTime took
    refine ⟨alive', ?_⟩
    rintro ⟨e, among, interrupt⟩
    rcases List.mem_append.mp among with before | last
    · exact printable' (.inl (printable ⟨e, before, interrupt⟩))
    · cases List.mem_singleton.mp last
      exact printable' (.inr interrupt)

/-- The first frame of a sensor that nobody has written to. -/
theorem sensor_alive_first : ∃ log t,
    Runs (step SimpleSensor.transport SimpleSensor.generate) InTime (init fun _ => 0) log t ∧
      Alive t ∧ Printable t := by
  have waited : Runs (step SimpleSensor.transport SimpleSensor.generate) InTime (init fun _ => 0) _ _ :=
    Runs.start.next (a := Input.wait (25 * ms)) (fun time due => by cases due; exact Nat.le_refl _) rfl
  have made := waited.next (a := Input.run id) rfl rfl
  obtain ⟨alive, printable⟩ := sensor_alive made
  exact ⟨_, _, made, alive, printable ⟨_, List.mem_append_right _ (List.mem_singleton.mpr rfl), rfl⟩⟩

end RiscvVp.Sensor
