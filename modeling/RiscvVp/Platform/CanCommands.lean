/-
# RiscvVp.Platform.CanCommands -- the commands of the CAN controller, from their first byte to the last

Between commands every static variable stands at its start (`Fresh`), and within a command only those of
its member function do not (`Steady`).  A byte behaves when the index of every access is inside of its
array, the last byte of a command leaves a controller that takes the next byte as a command, and a masked
bit of a register is changed to the bit of the data and no other (`Clean`).
-/
import RiscvVp.Lib.Runs
import RiscvVp.Platform.Can

namespace RiscvVp.Can

set_option autoImplicit false

open Lib

/-- The transmit buffers are numbered from 0, -/
scoped instance neZeroThree : NeZero 3 := ⟨by decide⟩

/-- and so are the receive buffers. -/
scoped instance neZeroTwo : NeZero 2 := ⟨by decide⟩

/-- The commands that take further bytes. -/
inductive Command where
  | none
  | read
  | write
  | modify
  | load (no : Fin 3)
  | send (no : Fin 3)
  | sendAll
  | readBuffer (no : Fin 2)
  | status
deriving DecidableEq, Repr

/-- The command that the next byte belongs to. -/
def State.current : State → Command
  | .init => .none
  | .readRegister => .read
  | .writeRegister => .write
  | .bitmod => .modify
  | .loadTX0 => .load 0
  | .loadTX1 => .load 1
  | .loadTX2 => .load 2
  | .sendTX0 => .send 0
  | .sendTX1 => .send 1
  | .sendTX2 => .send 2
  | .sendALL => .sendAll
  | .readRX0 => .readBuffer 0
  | .readRX1 => .readBuffer 1
  | .getStatus => .status

/-- How far a load has come, with the length that was given. -/
def LoadTX.Within (l : LoadTX) (length : BitVec 8) : Prop :=
  match l.state with
  | .id => l.payloadPtr.toNat < 4
  | .length => l.payloadPtr = 0
  | .payload => l.payloadPtr.toNat < length.toNat

/-- No command has begun. -/
structure Fresh (c : CAN) : Prop where
  read : c.readSelected.toInt < 0
  write : c.writeSelected.toInt < 0
  modify : c.modReg.state = .address
  load : c.loadTX = ⟨.id, 0⟩
  readBuffer : c.rxPtr = 0

/-- No command but the current one has begun. -/
structure Steady (c : CAN) : Prop where
  read : c.state.current ≠ .read → c.readSelected.toInt < 0
  write : c.state.current ≠ .write → c.writeSelected.toInt < 0
  modify : c.state.current ≠ .modify → c.modReg.state = .address
  load : (∀ no, c.state.current ≠ .load no) → c.loadTX = ⟨.id, 0⟩
  loading : ∀ no, c.state.current = .load no → c.loadTX.Within (c.txBuf no).length
  readBuffer : (∀ no, c.state.current ≠ .readBuffer no) → c.rxPtr = 0

/-- The byte is the last one of its command. -/
def Ends (c : CAN) (byte : BitVec 8) : Prop :=
  match c.state.current with
  | .write => 0 ≤ c.writeSelected.toInt
  | .modify => c.modReg.state = .data
  | .load no =>
      match c.loadTX.state with
      | .id => False
      | .length => byte = 0
      | .payload => c.loadTX.payloadPtr.toNat + 1 = (c.txBuf no).length.toNat
  | .readBuffer no => 4 + (c.rxBuf no).length.toNat ≤ c.rxPtr.toNat
  | _ => False

/-- The byte goes to a controller that is about to send: the command to send has no further bytes, so that
it is the next command. -/
def Sends (c : CAN) : Prop :=
  match c.state.current with
  | .send _ | .sendAll => True
  | _ => False

/-- The byte is the data for the bits of a register. -/
def Modifies (c : CAN) : Prop := c.state.current = .modify ∧ c.modReg.state = .data

/-- What is expected of the controller `d` behind the byte. -/
structure Behaves (c : CAN) (byte : BitVec 8) (d : CAN) : Prop where
  ended : Ends c byte → Fresh d ∧ ∀ next, d.write next = .ok (⟨0, none⟩, d.command next)
  sent : Sends c → Fresh d ∧ d = { d with state := .init }.command byte
  modified : Modifies c → ∀ i j, (d.registers i).getLsbD j =
    if i.val = c.modReg.address.toNat ∧ c.modReg.mask.getLsbD j = true then byte.getLsbD j
    else (c.registers i).getLsbD j

/-- No access is out of range, and a byte behaves. -/
def Clean (c : CAN) : Input → Prop
  | .byte byte => ∃ answer d, step c (.byte byte) = .ok (answer, d) ∧ Behaves c byte d
  | .frame frame => ∃ answer d, step c (.frame frame) = .ok (answer, d)

/-- A load is given a length that is not 0, and 64 bytes at most. -/
def LoadTX.Accepts (l : LoadTX) (byte : BitVec 8) : Prop :=
  match l.state with
  | .id => True
  | .length => byte ≠ 0
  | .payload => l.payloadPtr.toNat < 64

instance (l : LoadTX) (byte : BitVec 8) : Decidable (l.Accepts byte) :=
  match l with
  | ⟨.id, _⟩ => .isTrue trivial
  | ⟨.length, _⟩ => inferInstanceAs (Decidable (_ ≠ _))
  | ⟨.payload, _⟩ => inferInstanceAs (Decidable (_ < _))

/-- The condition on a byte of the command.  A register is written or modified inside of the array, and no
bit of the data is set beside the mask where it has been clear; a buffer of at most 8 bytes is sent, and
`MCP_READ` is the next command; a buffer is read up to its end. -/
def MeetsByte (c : CAN) (byte : BitVec 8) : Command → Prop
  | .none | .read | .status => True
  | .write => c.writeSelected.toInt ≤ 0x71
  | .modify =>
      c.modReg.state = .data → ∃ inside : c.modReg.address.toNat < 0x72,
        byte &&& ~~~c.modReg.mask &&& ~~~c.registers ⟨c.modReg.address.toNat, inside⟩ = 0
  | .load _ => c.loadTX.Accepts byte
  | .send no => (c.txBuf no).length.toNat ≤ 8 ∧ byte = MCP_READ
  | .sendAll => False
  | .readBuffer _ => c.rxPtr.toNat < 69

instance (c : CAN) (byte : BitVec 8) : DecidablePred (MeetsByte c byte)
  | .none | .read | .status => .isTrue trivial
  | .write => inferInstanceAs (Decidable (_ ≤ _))
  | .modify => inferInstanceAs (Decidable (_ → _))
  | .load _ => inferInstanceAs (Decidable (c.loadTX.Accepts byte))
  | .send _ => inferInstanceAs (Decidable (_ ∧ _))
  | .sendAll => .isFalse id
  | .readBuffer _ => inferInstanceAs (Decidable (_ < _))

/-- The condition for a clean step.  A frame from the bus has at most 8 bytes, if it is stored. -/
def Meets (c : CAN) : Input → Prop
  | .frame frame => c.status &&& 0b11 = 0b11 ∨ frame.canDlc.toNat ≤ 8
  | .byte byte => MeetsByte c byte c.state.current

instance (c : CAN) : DecidablePred (Meets c)
  | .frame _ => inferInstanceAs (Decidable (_ ∨ _))
  | .byte byte => inferInstanceAs (Decidable (MeetsByte c byte c.state.current))

variable {c d : CAN} {byte : BitVec 8} {a : Input} {answer : Answer}

/-! ## Accesses -/

section Access

variable {n m i : Nat} {β : Type} {f : Fin n → Except Fault β} {source : Fin n → BitVec 8}
  {target : Fin m → BitVec 8}

theorem index_bind_of_lt (inside : i < n) : (index n i >>= f) = f ⟨i, inside⟩ := by
  unfold index
  rw [dif_pos inside]
  rfl

theorem index_bind_of_le (outside : n ≤ i) : (index n i >>= f) = .error .outOfRange := by
  unfold index
  rw [dif_neg (Nat.not_lt.mpr outside)]
  rfl

theorem copyData_of_le (wide : i ≤ n ∧ i ≤ m) : ∃ data, copyData source target i = .ok data :=
  ⟨_, dif_pos wide⟩

theorem copyData_of_lt (outside : ¬ (i ≤ n ∧ i ≤ m)) : copyData source target i = .error .outOfRange :=
  dif_neg outside

end Access

/-- The byte goes to the member function of the current command. -/
theorem write_eq : c.write byte =
    match c.state.current with
    | .none => .ok (⟨0, none⟩, c.command byte)
    | .read => c.readRegister byte
    | .write => c.writeRegister byte
    | .modify => c.modifyRegister byte
    | .load no => c.loadTxBuf no byte
    | .send no => c.sendTxBuf no
    | .sendAll => c.sendTxBuf 3
    | .readBuffer no => c.readRxBuf no
    | .status => .ok (⟨c.status, none⟩, { c with state := .init }) := by
  unfold CAN.write
  cases c.state <;> rfl

/-! ## Between commands -/

theorem Fresh.steady (fresh : Fresh c) : Steady c where
  read _ := fresh.read
  write _ := fresh.write
  modify _ := fresh.modify
  load _ := fresh.load
  loading no _ := by
    rw [fresh.load]
    exact (by decide : (0 : BitVec 8).toNat < 4)
  readBuffer _ := fresh.readBuffer

theorem Fresh.command (fresh : Fresh c) : Fresh (c.command byte) := by
  unfold CAN.command
  split
  · exact ⟨fresh.read, fresh.write, fresh.modify, fresh.load, fresh.readBuffer⟩
  · exact fresh

/-- A command that needs no static variable of its own. -/
theorem Steady.fresh (steady : Steady c) (read : c.state.current ≠ .read) (write : c.state.current ≠ .write)
    (modify : c.state.current ≠ .modify) (load : ∀ no, c.state.current ≠ .load no)
    (readBuffer : ∀ no, c.state.current ≠ .readBuffer no) : Fresh c :=
  ⟨steady.read read, steady.write write, steady.modify modify, steady.load load, steady.readBuffer readBuffer⟩

theorem behaves_of_not (ends : ¬ Ends c byte) (sends : ¬ Sends c) (modifies : ¬ Modifies c) : Behaves c byte d :=
  ⟨fun last => absurd last ends, fun about => absurd about sends, fun data => absurd data modifies⟩

/-- In its first state the controller takes the byte as a command. -/
theorem write_init (idle : d.state = .init) (next : BitVec 8) :
    d.write next = .ok (⟨0, none⟩, d.command next) := by
  unfold CAN.write
  rw [idle]

/-- The byte is processed as it should, and the static variables are in order behind it. -/
def Good (c : CAN) (byte : BitVec 8) : Prop :=
  ∃ answer d, c.write byte = .ok (answer, d) ∧ Behaves c byte d ∧ Steady d

theorem Good.clean (good : Good c byte) : Clean c (.byte byte) := by
  obtain ⟨answer, d, ran, behaves, -⟩ := good
  exact ⟨answer, d, ran, behaves⟩

theorem behaves_of_clean (clean : Clean c (.byte byte)) (ran : c.write byte = .ok (answer, d)) : Behaves c byte d := by
  obtain ⟨answer', d', ran', behaves⟩ := clean
  cases ran.symm.trans ran'
  exact behaves

theorem not_clean_of_error {e : Fault} (ran : c.write byte = .error e) : ¬ Clean c (.byte byte) := by
  rintro ⟨answer', d', ran', -⟩
  cases ran.symm.trans ran'

theorem command_read : c.command MCP_READ = { c with state := .readRegister } := rfl

/-! ## Registers -/

/-- A register that was selected and passed the check. -/
theorem selected_inside {x : BitVec 16} (low : ¬ x.toInt < 0) (high : ¬ 0x71 < x.toInt) : x.toNat < 0x72 := by
  rw [BitVec.toInt_eq_toNat_cond] at low high
  split at low <;> omega

section Read

variable (steady : Steady c) (here : c.state.current = .read)

include steady here

theorem steady_readSelected (x : BitVec 16) : Steady { c with readSelected := x } where
  read other := absurd here other
  write := steady.write
  modify := steady.modify
  load := steady.load
  loading := steady.loading
  readBuffer := steady.readBuffer

theorem good_read : Good c byte := by
  have write : c.write byte = c.readRegister byte := by rw [write_eq, here]
  have quiet : ∀ d, Behaves c byte d := fun d =>
    behaves_of_not (by simp [Ends, here]) (by simp [Sends, here]) (by simp [Modifies, here])
  unfold Good
  rw [write]
  unfold CAN.readRegister
  by_cases first : c.readSelected.toInt < 0
  case pos =>
    rw [if_pos first]
    exact ⟨_, _, rfl, quiet _, steady_readSelected steady here _⟩
  case neg =>
    rw [if_neg first]
    by_cases other : byte ≠ 0
    case pos =>
      have fresh : Fresh { c with readSelected := -1 } :=
        ⟨(by decide : (-1 : BitVec 16).toInt < 0), steady.write (by simp [here]), steady.modify (by simp [here]),
          steady.load (by simp [here]), steady.readBuffer (by simp [here])⟩
      rw [if_pos other]
      exact ⟨_, _, rfl, quiet _, fresh.command.steady⟩
    case neg =>
      rw [if_neg other]
      by_cases high : 0x71 < c.readSelected.toInt
      · rw [if_pos high]
        exact ⟨_, _, rfl, quiet _, steady_readSelected steady here _⟩
      · rw [if_neg high, index_bind_of_lt (selected_inside first high)]
        exact ⟨_, _, rfl, quiet _, steady_readSelected steady here _⟩

end Read

section Write

variable (here : c.state.current = .write)

include here

theorem good_write (steady : Steady c) (meets : c.writeSelected.toInt ≤ 0x71) : Good c byte := by
  have write : c.write byte = c.writeRegister byte := by rw [write_eq, here]
  have sends : ¬ Sends c := by simp [Sends, here]
  have modifies : ¬ Modifies c := by simp [Modifies, here]
  unfold Good
  rw [write]
  unfold CAN.writeRegister
  by_cases first : c.writeSelected.toInt < 0
  case pos =>
    have ends : ¬ Ends c byte := by
      unfold Ends
      rw [here]
      exact Int.not_le.mpr first
    have kept : Steady { c with writeSelected := byte.setWidth 16 } :=
      ⟨steady.read, fun other => absurd here other, steady.modify, steady.load, steady.loading, steady.readBuffer⟩
    rw [if_pos first]
    exact ⟨_, _, rfl, behaves_of_not ends sends modifies, kept⟩
  case neg =>
    have inside : ¬ 0x71 < c.writeSelected.toInt := Int.not_lt.mpr meets
    have fresh : ∀ registers, Fresh { c with registers := registers, writeSelected := -1, state := .init } := fun _ =>
      ⟨steady.read (by simp [here]), (by decide : (-1 : BitVec 16).toInt < 0), steady.modify (by simp [here]),
        steady.load (by simp [here]), steady.readBuffer (by simp [here])⟩
    rw [if_neg first, if_neg inside, index_bind_of_lt (selected_inside first inside)]
    exact ⟨_, _, rfl, ⟨fun _ => ⟨fresh _, write_init rfl⟩, fun about => absurd about sends,
      fun data => absurd data modifies⟩, (fresh _).steady⟩

/-- The controller is stuck in the command. -/
theorem bad_write (fails : ¬ c.writeSelected.toInt ≤ 0x71) : ¬ Clean c (.byte byte) := by
  have high : 0x71 < c.writeSelected.toInt := Int.not_le.mp fails
  have chosen : ¬ c.writeSelected.toInt < 0 := by omega
  have ran : ∀ next, c.write next = .ok (⟨0, none⟩, c) := by
    intro next
    rw [write_eq, here]
    change c.writeRegister next = _
    unfold CAN.writeRegister
    rw [if_neg chosen, if_pos high]
  intro clean
  have ends : Ends c byte := by
    unfold Ends
    rw [here]
    exact Int.not_lt.mp chosen
  have taken := ((behaves_of_clean clean (ran byte)).ended ends).2 MCP_READ
  have same : c = { c with state := .readRegister } :=
    (Prod.ext_iff.mp (Except.ok.inj ((ran MCP_READ).symm.trans taken))).2
  have state : c.state = .readRegister := congrArg CAN.state same
  rw [state] at here
  cases here

end Write

/-- The masked bits are cleared and then those of the data are set: all of them. -/
theorem modified_iff {old mask data : BitVec 8} :
    (∀ j, (old &&& ~~~mask ||| data).getLsbD j = if mask.getLsbD j = true then data.getLsbD j else old.getLsbD j) ↔
      data &&& ~~~mask &&& ~~~old = 0 := by
  have bit : ∀ j, ((old &&& ~~~mask ||| data).getLsbD j =
      if mask.getLsbD j = true then data.getLsbD j else old.getLsbD j) ↔
        (data &&& ~~~mask &&& ~~~old).getLsbD j = (0#8).getLsbD j := by
    intro j
    by_cases inside : j < 8
    case neg =>
      have large : 8 ≤ j := Nat.le_of_not_lt inside
      simp [BitVec.getLsbD_of_ge _ j large]
    case pos =>
      simp only [BitVec.getLsbD_or, BitVec.getLsbD_and, BitVec.getLsbD_not, BitVec.getLsbD_zero, inside, decide_true,
        Bool.true_and]
      cases mask.getLsbD j <;> cases data.getLsbD j <;> cases old.getLsbD j <;> decide
  constructor
  · intro all
    exact BitVec.eq_of_getLsbD_eq fun j _ => (bit j).mp (all j)
  · intro none j
    exact (bit j).mpr (congrArg (BitVec.getLsbD · j) none)

/-- The registers have the bits that are expected behind the data. -/
theorem modified_data_iff {inside : c.modReg.address.toNat < 0x72}
    (stored : d.registers = Function.update c.registers ⟨c.modReg.address.toNat, inside⟩
      (c.registers ⟨c.modReg.address.toNat, inside⟩ &&& ~~~c.modReg.mask ||| byte)) :
    (∀ i j, (d.registers i).getLsbD j =
      if i.val = c.modReg.address.toNat ∧ c.modReg.mask.getLsbD j = true then byte.getLsbD j
      else (c.registers i).getLsbD j) ↔
      byte &&& ~~~c.modReg.mask &&& ~~~c.registers ⟨c.modReg.address.toNat, inside⟩ = 0 := by
  rw [← modified_iff, stored]
  constructor
  · intro all j
    have bit := all ⟨c.modReg.address.toNat, inside⟩ j
    rw [Function.update_self] at bit
    simpa using bit
  · intro all i j
    by_cases same : i = ⟨c.modReg.address.toNat, inside⟩
    · rw [same, Function.update_self, all j]
      simp
    · have other : i.val ≠ c.modReg.address.toNat := fun value => same (Fin.ext value)
      rw [Function.update_of_ne same, if_neg fun both => other both.1]

section Modify

variable (here : c.state.current = .modify)

include here

theorem modify_data (last : c.modReg.state = .data) (inside : c.modReg.address.toNat < 0x72) :
    ∃ d, c.write byte = .ok (⟨0, none⟩, d) ∧
      d.registers = Function.update c.registers ⟨c.modReg.address.toNat, inside⟩
        (c.registers ⟨c.modReg.address.toNat, inside⟩ &&& ~~~c.modReg.mask ||| byte) ∧
      d.state = .init ∧ (Steady c → Fresh d) := by
  have write : c.write byte = c.modifyRegister byte := by rw [write_eq, here]
  rw [write]
  unfold CAN.modifyRegister
  rw [last]
  dsimp only
  rw [index_bind_of_lt inside]
  exact ⟨_, rfl, rfl, rfl, fun steady => ⟨steady.read (by simp [here]), steady.write (by simp [here]), rfl,
    steady.load (by simp [here]), steady.readBuffer (by simp [here])⟩⟩

theorem modify_early (early : c.modReg.state ≠ .data) :
    ∃ m, c.write byte = .ok (⟨0, none⟩, { c with modReg := m }) := by
  have write : c.write byte = c.modifyRegister byte := by rw [write_eq, here]
  rw [write]
  unfold CAN.modifyRegister
  cases sub : c.modReg.state with
  | address => exact ⟨_, rfl⟩
  | mask => exact ⟨_, rfl⟩
  | data => exact absurd sub early

theorem good_modify (steady : Steady c)
    (meets : c.modReg.state = .data → ∃ inside : c.modReg.address.toNat < 0x72,
      byte &&& ~~~c.modReg.mask &&& ~~~c.registers ⟨c.modReg.address.toNat, inside⟩ = 0) : Good c byte := by
  have sends : ¬ Sends c := by simp [Sends, here]
  have kept : ∀ m, Steady { c with modReg := m } := fun _ =>
    ⟨steady.read, steady.write, fun other => absurd here other, steady.load, steady.loading, steady.readBuffer⟩
  by_cases last : c.modReg.state = .data
  case neg =>
    obtain ⟨m, ran⟩ := @modify_early _ byte here last
    exact ⟨_, _, ran, behaves_of_not (by simp [Ends, here, last]) sends fun data => last data.2, kept m⟩
  case pos =>
    obtain ⟨inside, exact⟩ := meets last
    obtain ⟨d, ran, stored, idle, fresh⟩ := @modify_data _ byte here last inside
    exact ⟨_, d, ran, ⟨fun _ => ⟨fresh steady, write_init idle⟩, fun about => absurd about sends,
      fun _ => (modified_data_iff stored).mpr exact⟩, (fresh steady).steady⟩

theorem bad_modify (last : c.modReg.state = .data)
    (fails : ¬ ∃ inside : c.modReg.address.toNat < 0x72,
      byte &&& ~~~c.modReg.mask &&& ~~~c.registers ⟨c.modReg.address.toNat, inside⟩ = 0) :
    ¬ Clean c (.byte byte) := by
  by_cases inside : c.modReg.address.toNat < 0x72
  case pos =>
    obtain ⟨d, ran, stored, -, -⟩ := @modify_data _ byte here last inside
    intro clean
    exact fails ⟨inside, (modified_data_iff stored).mp ((behaves_of_clean clean ran).modified ⟨here, last⟩)⟩
  case neg =>
    have write : c.write byte = c.modifyRegister byte := by rw [write_eq, here]
    refine @not_clean_of_error _ _ .outOfRange (write.trans ?_)
    unfold CAN.modifyRegister
    rw [last]
    exact index_bind_of_le (Nat.le_of_not_lt inside)

end Modify

/-! ## Transmit buffers -/

section Load

variable {no : Fin 3} (here : c.state.current = .load no)

include here

theorem write_load : c.write byte = c.loadTxBuf no byte := by rw [write_eq, here]

theorem load_id (sub : c.loadTX.state = .id) (inside : c.loadTX.payloadPtr.toNat < 4) :
    ∃ t, c.write byte = .ok (⟨0, none⟩, { c with
      txBuf := t
      loadTX := if c.loadTX.payloadPtr + 1 = 4 then ⟨.length, 0⟩ else ⟨.id, c.loadTX.payloadPtr + 1⟩ }) := by
  rw [write_load here]
  unfold CAN.loadTxBuf
  rw [index_bind_of_lt no.isLt, sub]
  dsimp only
  rw [index_bind_of_lt inside]
  exact ⟨_, rfl⟩

theorem load_length (sub : c.loadTX.state = .length) :
    c.write byte = .ok (⟨0, none⟩, { c with
      txBuf := Function.update c.txBuf no { c.txBuf no with length := byte }
      loadTX := { c.loadTX with state := .payload } }) := by
  rw [write_load here]
  unfold CAN.loadTxBuf
  rw [index_bind_of_lt no.isLt, sub]

theorem load_payload (sub : c.loadTX.state = .payload) (inside : c.loadTX.payloadPtr.toNat < 64) :
    ∃ t, (t no).length = (c.txBuf no).length ∧ c.write byte = .ok (⟨0, none⟩,
      if c.loadTX.payloadPtr + 1 = (c.txBuf no).length then
        { c with txBuf := t, loadTX := ⟨.id, 0⟩, state := .init }
      else { c with txBuf := t, loadTX := { c.loadTX with payloadPtr := c.loadTX.payloadPtr + 1 } }) := by
  rw [write_load here]
  unfold CAN.loadTxBuf
  rw [index_bind_of_lt no.isLt, sub]
  dsimp only
  rw [index_bind_of_lt inside]
  refine ⟨_, ?_, rfl⟩
  rw [Function.update_self]

theorem load_outside (sub : c.loadTX.state = .payload) (outside : 64 ≤ c.loadTX.payloadPtr.toNat) :
    c.write byte = .error .outOfRange := by
  rw [write_load here]
  unfold CAN.loadTxBuf
  rw [index_bind_of_lt no.isLt, sub]
  exact index_bind_of_le outside

/-- Within the command. -/
theorem steady_load (steady : Steady c) (t : Fin 3 → MCPFrame) {l : LoadTX} (within : l.Within (t no).length) :
    Steady { c with txBuf := t, loadTX := l } where
  read := steady.read
  write := steady.write
  modify := steady.modify
  load other := absurd here (other no)
  loading no' here' := by
    cases here.symm.trans here'
    exact within
  readBuffer := steady.readBuffer

theorem ends_length (sub : c.loadTX.state = .length) : Ends c byte ↔ byte = 0 := by
  simp [Ends, here, sub]

theorem ends_payload (sub : c.loadTX.state = .payload) :
    Ends c byte ↔ c.loadTX.payloadPtr.toNat + 1 = (c.txBuf no).length.toNat := by
  simp [Ends, here, sub]

theorem quiet_load : ¬ Sends c ∧ ¬ Modifies c := by
  simp [Sends, Modifies, here]

theorem good_load_id (steady : Steady c) (sub : c.loadTX.state = .id) : Good c byte := by
  have quiet := quiet_load here
  have within := steady.loading no here
  have one : (1 : BitVec 8).toNat = 1 := rfl
  unfold LoadTX.Within at within
  rw [sub] at within
  obtain ⟨t, ran⟩ := @load_id _ byte _ here sub within
  refine ⟨_, _, ran, behaves_of_not (by simp [Ends, here, sub]) quiet.1 quiet.2, steady_load here steady t ?_⟩
  split
  case isTrue => exact (rfl : (0 : BitVec 8) = 0)
  case isFalse more =>
    change (c.loadTX.payloadPtr + 1).toNat < 4
    rw [← BitVec.toNat_inj, BitVec.toNat_add, one] at more
    rw [BitVec.toNat_add, one]
    change ¬ _ = 4 at more
    omega

theorem good_load_length (steady : Steady c) (sub : c.loadTX.state = .length) (some : byte ≠ 0) : Good c byte := by
  have quiet := quiet_load here
  have within := steady.loading no here
  unfold LoadTX.Within at within
  rw [sub] at within
  have zero : c.loadTX.payloadPtr.toNat = 0 := congrArg BitVec.toNat within
  have positive : byte.toNat ≠ 0 := fun none => some (BitVec.eq_of_toNat_eq none)
  refine ⟨_, _, load_length here sub, behaves_of_not ((ends_length here sub).not.mpr some) quiet.1 quiet.2,
    steady_load here steady _ ?_⟩
  change c.loadTX.payloadPtr.toNat < (Function.update c.txBuf no { c.txBuf no with length := byte } no).length.toNat
  rw [Function.update_self, zero]
  exact Nat.pos_of_ne_zero positive

theorem good_load_payload (steady : Steady c) (sub : c.loadTX.state = .payload)
    (room : c.loadTX.payloadPtr.toNat < 64) : Good c byte := by
  have quiet := quiet_load here
  have within := steady.loading no here
  have one : (1 : BitVec 8).toNat = 1 := rfl
  have next : (c.loadTX.payloadPtr + 1).toNat = c.loadTX.payloadPtr.toNat + 1 := by
    rw [BitVec.toNat_add, one]
    omega
  unfold LoadTX.Within at within
  rw [sub] at within
  obtain ⟨t, kept, ran⟩ := @load_payload _ byte _ here sub room
  by_cases last : c.loadTX.payloadPtr + 1 = (c.txBuf no).length
  case pos =>
    have fresh : Fresh { c with txBuf := t, loadTX := ⟨.id, 0⟩, state := .init } :=
      ⟨steady.read (by simp [here]), steady.write (by simp [here]), steady.modify (by simp [here]), rfl,
        steady.readBuffer (by simp [here])⟩
    rw [if_pos last] at ran
    exact ⟨_, _, ran, ⟨fun _ => ⟨fresh, write_init rfl⟩, fun about => absurd about quiet.1,
      fun data => absurd data quiet.2⟩, fresh.steady⟩
  case neg =>
    have different : c.loadTX.payloadPtr.toNat + 1 ≠ (c.txBuf no).length.toNat := fun same =>
      last (BitVec.eq_of_toNat_eq (next.trans same))
    rw [if_neg last] at ran
    refine ⟨_, _, ran, behaves_of_not ((ends_payload here sub).not.mpr different) quiet.1 quiet.2,
      steady_load here steady t ?_⟩
    unfold LoadTX.Within
    dsimp only
    rw [sub]
    change (c.loadTX.payloadPtr + 1).toNat < (t no).length.toNat
    rw [next, kept]
    omega

theorem good_load (steady : Steady c) (meets : c.loadTX.Accepts byte) : Good c byte := by
  unfold LoadTX.Accepts at meets
  cases sub : c.loadTX.state with
  | id => exact good_load_id here steady sub
  | length =>
    rw [sub] at meets
    exact good_load_length here steady sub meets
  | payload =>
    rw [sub] at meets
    exact good_load_payload here steady sub meets

theorem bad_load (fails : ¬ c.loadTX.Accepts byte) : ¬ Clean c (.byte byte) := by
  unfold LoadTX.Accepts at fails
  cases sub : c.loadTX.state with
  | id =>
    rw [sub] at fails
    exact absurd trivial fails
  | length =>
    rw [sub] at fails
    intro clean
    -- The controller waits for the payload of a load that has none.
    have ends : Ends c byte := (ends_length here sub).mpr (not_not.mp fails)
    have fresh := ((behaves_of_clean clean (load_length here sub)).ended ends).1
    cases fresh.load
  | payload =>
    rw [sub] at fails
    exact not_clean_of_error (load_outside here sub (Nat.le_of_not_lt fails))

end Load

section Send

variable {no : Fin 3} (here : c.state.current = .send no)

include here

theorem write_send : c.write byte = (do
    let data ← copyData (c.txBuf no).payload (fun _ : Fin 8 => 0) (c.txBuf no).length.toNat
    .ok (⟨0, some ⟨(mcp2515BufToId (c.txBuf no).id).1, (c.txBuf no).length, data⟩⟩,
      { c with registers := Function.update c.registers 0x30 0, state := .readRegister })) := by
  have write : c.write byte = c.sendTxBuf no := by rw [write_eq, here]
  have plain : (if no.val = 4 then 0 else no.val) = no.val := if_neg (by omega)
  rw [write]
  unfold CAN.sendTxBuf
  rw [plain, index_bind_of_lt no.isLt]

theorem send_of_le (wide : (c.txBuf no).length.toNat ≤ 8) : ∃ answer, c.write byte =
    .ok (answer, { c with registers := Function.update c.registers 0x30 0, state := .readRegister }) := by
  rw [write_send here]
  have inside : (c.txBuf no).length.toNat ≤ 64 ∧ (c.txBuf no).length.toNat ≤ 8 := ⟨by omega, wide⟩
  obtain ⟨data, copied⟩ := @copyData_of_le _ _ _ (c.txBuf no).payload (fun _ : Fin 8 => 0) inside
  rw [copied]
  exact ⟨_, rfl⟩

theorem good_send (steady : Steady c) (meets : (c.txBuf no).length.toNat ≤ 8 ∧ byte = MCP_READ) : Good c byte := by
  have fresh : Fresh { c with registers := Function.update c.registers 0x30 0, state := .readRegister } :=
    ⟨steady.read (by simp [here]), steady.write (by simp [here]), steady.modify (by simp [here]),
      steady.load (by simp [here]), steady.readBuffer (by simp [here])⟩
  obtain ⟨answer, ran⟩ := @send_of_le _ byte _ here meets.1
  refine ⟨_, _, ran, ⟨fun last => ?_, fun _ => ⟨fresh, ?_⟩, fun data => ?_⟩, fresh.steady⟩
  · simp [Ends, here] at last
  · rw [meets.2, command_read]
  · simp [Modifies, here] at data

theorem bad_send (fails : ¬ ((c.txBuf no).length.toNat ≤ 8 ∧ byte = MCP_READ)) : ¬ Clean c (.byte byte) := by
  by_cases wide : (c.txBuf no).length.toNat ≤ 8
  case neg =>
    have outside : c.write byte = .error .outOfRange := by
      rw [write_send here, copyData_of_lt fun both => wide both.2]
      rfl
    exact not_clean_of_error outside
  case pos =>
    have only : ∀ byte, commandState byte = some .readRegister → byte = MCP_READ := by decide
    obtain ⟨answer, ran⟩ := @send_of_le _ byte _ here wide
    intro clean
    have sends : Sends c := by simp [Sends, here]
    have taken := congrArg CAN.state ((behaves_of_clean clean ran).sent sends).2
    refine fails ⟨wide, only byte ?_⟩
    cases next : commandState byte with
    | none =>
      simp only [CAN.command, next] at taken
      cases taken
    | some state =>
      simp only [CAN.command, next] at taken
      rw [taken]

end Send

theorem bad_sendAll (here : c.state.current = .sendAll) : ¬ Clean c (.byte byte) := by
  have write : c.write byte = c.sendTxBuf 3 := by rw [write_eq, here]
  exact not_clean_of_error (write.trans rfl)

/-! ## Receive buffers -/

section ReadBuffer

variable {no : Fin 2} (here : c.state.current = .readBuffer no)

include here

theorem write_readBuffer : c.write byte = c.readRxBuf no := by rw [write_eq, here]

theorem good_readBuffer (steady : Steady c) (meets : c.rxPtr.toNat < 69) : Good c byte := by
  have sends : ¬ Sends c := by simp [Sends, here]
  have modifies : ¬ Modifies c := by simp [Modifies, here]
  have one : (1 : BitVec 8).toNat = 1 := rfl
  have next : (c.rxPtr + 1).toNat = c.rxPtr.toNat + 1 := by
    rw [BitVec.toNat_add, one]
    omega
  have ends : Ends c byte ↔ (c.rxPtr + 1).toNat > (c.rxBuf no).length.toNat + 4 := by
    unfold Ends
    rw [here, next]
    change 4 + (c.rxBuf no).length.toNat ≤ c.rxPtr.toNat ↔ _
    omega
  unfold Good
  rw [write_readBuffer here]
  unfold CAN.readRxBuf
  rw [index_bind_of_lt no.isLt, index_bind_of_lt meets]
  by_cases last : (c.rxPtr + 1).toNat > (c.rxBuf no).length.toNat + 4
  case pos =>
    have fresh : ∀ status, Fresh { c with rxPtr := 0, state := .init, status := status } := fun _ =>
      ⟨steady.read (by simp [here]), steady.write (by simp [here]), steady.modify (by simp [here]),
        steady.load (by simp [here]), rfl⟩
    refine ⟨_, _, congrArg Except.ok (congrArg (Prod.mk _) (if_pos last)), ?_, (fresh _).steady⟩
    exact ⟨fun _ => ⟨fresh _, write_init rfl⟩, fun about => absurd about sends, fun data => absurd data modifies⟩
  case neg =>
    have kept : Steady { c with rxPtr := c.rxPtr + 1 } :=
      ⟨steady.read, steady.write, steady.modify, steady.load, steady.loading, fun other => absurd here (other no)⟩
    refine ⟨_, _, congrArg Except.ok (congrArg (Prod.mk _) (if_neg last)), ?_, kept⟩
    exact behaves_of_not (fun beyond => last (ends.mp beyond)) sends modifies

theorem bad_readBuffer (fails : ¬ c.rxPtr.toNat < 69) : ¬ Clean c (.byte byte) := by
  refine @not_clean_of_error _ _ .outOfRange ?_
  rw [write_readBuffer here]
  unfold CAN.readRxBuf
  rw [index_bind_of_lt no.isLt, index_bind_of_le (Nat.le_of_not_lt fails)]

end ReadBuffer

/-! ## Commands, and frames from the bus -/

theorem good_none (steady : Steady c) (here : c.state.current = .none) : Good c byte := by
  have fresh : Fresh c := steady.fresh (by simp [here]) (by simp [here]) (by simp [here]) (by simp [here])
    (by simp [here])
  have write : c.write byte = .ok (⟨0, none⟩, c.command byte) := by rw [write_eq, here]
  exact ⟨_, _, write, behaves_of_not (by simp [Ends, here]) (by simp [Sends, here]) (by simp [Modifies, here]),
    fresh.command.steady⟩

theorem good_status (steady : Steady c) (here : c.state.current = .status) : Good c byte := by
  have fresh : Fresh { c with state := .init } :=
    ⟨steady.read (by simp [here]), steady.write (by simp [here]), steady.modify (by simp [here]),
      steady.load (by simp [here]), steady.readBuffer (by simp [here])⟩
  have write : c.write byte = .ok (⟨c.status, none⟩, { c with state := .init }) := by rw [write_eq, here]
  exact ⟨_, _, write, behaves_of_not (by simp [Ends, here]) (by simp [Sends, here]) (by simp [Modifies, here]),
    fresh.steady⟩

/-- Where the buffers are not full there is a free one. -/
theorem free_buffer (room : ¬ c.status &&& 0b11 = 0b11) :
    ∃ no < 2, (List.range 2).find? (fun i => c.status &&& 1#8 <<< i = 0) = some no := by
  have full : ∀ status : BitVec 8,
      (List.range 2).find? (fun i => status &&& 1#8 <<< i = 0) = none → status &&& 0b11 = 0b11 := by decide
  cases search : (List.range 2).find? fun i => c.status &&& 1#8 <<< i = 0 with
  | none => exact absurd (full c.status search) room
  | some no => exact ⟨no, List.mem_range.mp (List.mem_of_find?_eq_some search), rfl⟩

theorem enqueue_full {frame : CanFrame} (full : c.status &&& 0b11 = 0b11) : c.enqueueIncomingCanFrame frame = .ok c :=
  if_pos full

theorem enqueue_room {frame : CanFrame} (room : ¬ c.status &&& 0b11 = 0b11) :
    (frame.canDlc.toNat ≤ 8 → ∃ rxBuf status,
      c.enqueueIncomingCanFrame frame = .ok { c with rxBuf := rxBuf, status := status }) ∧
    (¬ frame.canDlc.toNat ≤ 8 → c.enqueueIncomingCanFrame frame = .error .outOfRange) := by
  obtain ⟨no, buffer, search⟩ := free_buffer room
  have stored : c.enqueueIncomingCanFrame frame = c.enqueue no frame := by
    unfold CAN.enqueueIncomingCanFrame
    rw [if_neg room, search]
  rw [stored]
  unfold CAN.enqueue
  rw [index_bind_of_lt buffer]
  constructor
  · intro short
    have inside : frame.canDlc.toNat ≤ 8 ∧ frame.canDlc.toNat ≤ 64 := ⟨short, by omega⟩
    obtain ⟨data, copied⟩ := @copyData_of_le _ _ _ frame.data (fun _ : Fin 64 => 0) inside
    rw [copied]
    exact ⟨_, _, rfl⟩
  · intro long
    rw [copyData_of_lt fun both => long both.1]
    rfl

theorem clean_frame_iff {frame : CanFrame} : Clean c (.frame frame) ↔ Meets c (.frame frame) := by
  change (∃ answer d, (c.enqueueIncomingCanFrame frame).map (Prod.mk (Answer.mk 0 none)) = .ok (answer, d)) ↔
    c.status &&& 0b11 = 0b11 ∨ frame.canDlc.toNat ≤ 8
  by_cases full : c.status &&& 0b11 = 0b11
  case pos =>
    rw [enqueue_full full]
    exact iff_of_true ⟨_, _, rfl⟩ (.inl full)
  case neg =>
    by_cases short : frame.canDlc.toNat ≤ 8
    · obtain ⟨rxBuf, status, stored⟩ := (enqueue_room full).1 short
      rw [stored]
      exact iff_of_true ⟨_, _, rfl⟩ (.inr short)
    · rw [(enqueue_room full).2 short]
      refine iff_of_false ?_ (not_or.mpr ⟨full, short⟩)
      rintro ⟨answer, d, ran⟩
      cases ran

theorem steady_frame {frame : CanFrame} (steady : Steady c) (ran : step c (.frame frame) = .ok (answer, d)) :
    Steady d := by
  have kept : ∀ rxBuf status, Steady { c with rxBuf := rxBuf, status := status } := fun _ _ =>
    ⟨steady.read, steady.write, steady.modify, steady.load, steady.loading, steady.readBuffer⟩
  obtain ⟨e, stored, same⟩ := ok_of_map ran
  cases same
  by_cases full : c.status &&& 0b11 = 0b11
  · rw [enqueue_full full] at stored
    cases stored
    exact steady
  · by_cases short : frame.canDlc.toNat ≤ 8
    · obtain ⟨rxBuf, status, stored'⟩ := (@enqueue_room _ frame full).1 short
      cases stored.symm.trans stored'
      exact kept rxBuf status
    · cases stored.symm.trans ((enqueue_room full).2 short)

/-! ## Streams -/

theorem good_of_meets (steady : Steady c) (meets : Meets c (.byte byte)) : Good c byte := by
  unfold Meets at meets
  cases here : c.state.current with
  | none => exact good_none steady here
  | read => exact good_read steady here
  | status => exact good_status steady here
  | write =>
    rw [here] at meets
    exact good_write here steady meets
  | modify =>
    rw [here] at meets
    exact good_modify here steady meets
  | load no =>
    rw [here] at meets
    exact good_load here steady meets
  | send no =>
    rw [here] at meets
    exact good_send here steady meets
  | sendAll =>
    rw [here] at meets
    exact meets.elim
  | readBuffer no =>
    rw [here] at meets
    exact good_readBuffer here steady meets

theorem not_clean_of_not_meets (fails : ¬ Meets c (.byte byte)) : ¬ Clean c (.byte byte) := by
  unfold Meets at fails
  cases here : c.state.current with
  | none | read | status =>
    rw [here] at fails
    exact absurd trivial fails
  | write =>
    rw [here] at fails
    exact bad_write here fails
  | modify =>
    rw [here] at fails
    obtain ⟨last, fails⟩ := Classical.not_imp.mp fails
    exact bad_modify here last fails
  | load no =>
    rw [here] at fails
    exact bad_load here fails
  | send no =>
    rw [here] at fails
    exact bad_send here fails
  | sendAll => exact bad_sendAll here
  | readBuffer no =>
    rw [here] at fails
    exact bad_readBuffer here fails

/-- One input. -/
theorem clean_iff (steady : Steady c) : Clean c a ↔ Meets c a := by
  cases a with
  | byte byte =>
    constructor
    · intro clean
      by_contra fails
      exact not_clean_of_not_meets fails clean
    · intro meets
      exact (good_of_meets steady meets).clean
  | frame frame => exact clean_frame_iff

theorem steady_step (steady : Steady c) (meets : Meets c a) (ran : step c a = .ok (answer, d)) : Steady d := by
  cases a with
  | byte byte =>
    obtain ⟨answer', d', ran', -, kept⟩ := good_of_meets steady meets
    cases ran.symm.trans ran'
    exact kept
  | frame frame => exact steady_frame steady ran

/-- The property holds of every input of a stream and the state that it comes to, up to a fault. -/
def Throughout (P : CAN → Input → Prop) (c : CAN) : List Input → Prop
  | [] => True
  | a :: rest => P c a ∧
      match step c a with
      | .error _ => True
      | .ok (_, d) => Throughout P d rest

theorem throughout_clean_iff (steady : Steady c) (inputs : List Input) :
    Throughout Clean c inputs ↔ Throughout Meets c inputs := by
  induction inputs generalizing c with
  | nil => exact Iff.rfl
  | cons a rest ih =>
    unfold Throughout
    rw [clean_iff steady]
    refine and_congr_right fun meets => ?_
    cases ran : step c a with
    | error e => exact Iff.rfl
    | ok result => exact ih (steady_step steady meets ran)

instance (P : CAN → Input → Prop) [∀ c a, Decidable (P c a)] : ∀ inputs c, Decidable (Throughout P c inputs)
  | [], _ => .isTrue trivial
  | a :: rest, c =>
      have _further : Decidable (match step c a with
          | .error _ => True
          | .ok (_, d) => Throughout P d rest) :=
        match step c a with
        | .error _ => .isTrue trivial
        | .ok (_, d) => instDecidableThroughout P rest d
      inferInstanceAs (Decidable (_ ∧ _))

theorem fresh_init (registers : Fin 0x72 → BitVec 8) (txBuf : Fin 3 → MCPFrame) (rxBuf : Fin 2 → MCPFrame) :
    Fresh (init registers txBuf rxBuf) :=
  ⟨(by decide : (-1 : BitVec 16).toInt < 0), (by decide : (-1 : BitVec 16).toInt < 0), rfl, rfl, rfl⟩

/-- Whatever the registers and buffers hold at first, and for every stream of bytes and frames. -/
theorem commands_clean_iff (registers : Fin 0x72 → BitVec 8) (txBuf : Fin 3 → MCPFrame) (rxBuf : Fin 2 → MCPFrame)
    (inputs : List Input) : Throughout Clean (init registers txBuf rxBuf) inputs ↔
      Throughout Meets (init registers txBuf rxBuf) inputs :=
  throughout_clean_iff (fresh_init registers txBuf rxBuf).steady inputs

def bytes (stream : List (BitVec 8)) : List Input := stream.map .byte

/-- A controller whose arrays happen to be clear. -/
def blank : CAN := init (fun _ => 0) (fun _ => ⟨fun _ => 0, 0, fun _ => 0⟩) (fun _ => ⟨fun _ => 0, 0, fun _ => 0⟩)

/-- The command to send all buffers; a register behind the last one; data beside the mask; a load of
nothing; and a command to send that another command than `MCP_READ` follows. -/
theorem commands_unclean : ¬ Throughout Clean blank (bytes [0x87, 0x00]) ∧
    ¬ Throughout Clean blank (bytes [0x02, 0x80, 0xff]) ∧
    ¬ Throughout Clean blank (bytes [0x05, 0x2b, 0x0f, 0xf0]) ∧
    ¬ Throughout Clean blank (bytes [0x40, 0x00, 0x00, 0x00, 0x00, 0x00]) ∧
    ¬ Throughout Clean blank (bytes [0x81, 0x02]) := by
  have steady : Steady blank := (fresh_init _ _ _).steady
  simp only [throughout_clean_iff steady]
  decide

end RiscvVp.Can
