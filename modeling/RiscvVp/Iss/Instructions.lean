/-
# RiscvVp.Iss.Instructions -- the transition of each instruction

What can trap in an ordinary instruction comes before what it does.  So there are two
transitions to an instruction, `Q` up to the last check and `R` for the whole, and it is
`Atomic R Q IsTrap`: where a trap ends it, it was a `Q`.  With `Q` equal to `R` that is a
transition of the whole alone.  `Precise` is the case of `Still` and `Plain`.

Five kinds of instruction are not ordinary: writes of a CSR, the three trap returns, and
the conditional store, which sets its destination register first.
-/
import RiscvVp.Iss.Effects

namespace RiscvVp

set_option autoImplicit false

open Lib Transition

def IsTrap : Exc → Prop
  | .trap _ => True
  | _ => False

namespace Mapping

def isCsr : Mapping → Bool
  | .csrrw | .csrrs | .csrrc | .csrrwi | .csrrsi | .csrrci => true
  | _ => false

def isReturn : Mapping → Bool
  | .uret | .sret | .mret => true
  | _ => false

def isSc : Mapping → Bool
  | .scW | .scD => true
  | _ => false

def isJump : Mapping → Bool
  | .jal | .jalr | .beq | .bne | .blt | .bge | .bltu | .bgeu => true
  | _ => false

/-- Neither a CSR instruction nor a trap return nor a conditional store. -/
def isOrdinary (op : Mapping) : Bool := !op.isCsr && !op.isReturn && !op.isSc

/-- The A extension. -/
def isAtomic : Mapping → Bool
  | .lrW | .scW | .amoswapW | .amoaddW | .amoxorW | .amoandW | .amoorW
  | .amominW | .amominuW | .amomaxW | .amomaxuW
  | .lrD | .scD | .amoswapD | .amoaddD | .amoxorD | .amoandD | .amoorD
  | .amominD | .amominuD | .amomaxD | .amomaxuD => true
  | _ => false

/-- The F and D extensions. -/
def isFloat : Mapping → Bool
  | .flw | .fsw | .fmaddS | .fmsubS | .fnmaddS | .fnmsubS | .faddS | .fsubS | .fmulS | .fdivS
  | .fsqrtS | .fsgnjS | .fsgnjnS | .fsgnjxS | .fminS | .fmaxS | .fcvtWS | .fcvtWuS | .fmvXW
  | .feqS | .fltS | .fleS | .fclassS | .fcvtSW | .fcvtSWu | .fmvWX
  | .fcvtLS | .fcvtLuS | .fcvtSL | .fcvtSLu
  | .fld | .fsd | .fmaddD | .fmsubD | .fnmsubD | .fnmaddD | .faddD | .fsubD | .fmulD | .fdivD
  | .fsqrtD | .fsgnjD | .fsgnjnD | .fsgnjxD | .fminD | .fmaxD | .fcvtSD | .fcvtDS
  | .feqD | .fltD | .fleD | .fclassD | .fcvtWD | .fcvtWuD | .fcvtDW | .fcvtDWu
  | .fcvtLD | .fcvtLuD | .fmvXD | .fcvtDL | .fcvtDLu | .fmvDX => true
  | _ => false

end Mapping

/-! ## Stores -/

section World

variable {World : Type} (plat : Platform World)

instance : Le (Gentle plat) (Ordinary plat) := ⟨And.right⟩

instance {α : Type} (f : World → α × World) :
    Sat (Settled (Ordinary plat) IsTrap) (Exec.call f : Exec World Exc α) :=
  .call fun _ => ⟨nofun, nofun⟩

instance (f : World → World) :
    Sat (Settled (Ordinary plat) IsTrap) (Exec.update f : Exec World Exc Unit) :=
  .update fun _ => ⟨nofun, nofun⟩

instance (e : MemoryDMI) (addr : BitVec 64) (n : Nat) :
    Sat (Settled (Ordinary plat) IsTrap) (Platform.dmiCheck e addr n : Exec World Exc Unit) := by
  unfold Platform.dmiCheck
  refine .ite (fun _ => inferInstance) fun _ => .raise fun w => ?_
  exact ⟨fun _ same => by cases same; exact id, fun _ same => by cases same; exact id⟩

instance (addr : BitVec 64) (n : Nat) (value : BitVec (8 * n)) (ranges : List MemoryDMI) :
    Sat (Settled (Ordinary plat) IsTrap) (plat.dmiStores addr n value ranges) := by
  induction ranges with
  | nil =>
    unfold Platform.dmiStores
    infer_instance
  | cons e ranges ih =>
    unfold Platform.dmiStores Platform.dmiStore
    infer_instance

/-- A bus that refuses a store was not written. -/
instance (addr : BitVec 64) (n : Nat) (value : BitVec (8 * n)) :
    Sat (Atomic (Ordinary plat) (Gentle plat) IsTrap) (plat.busStore addr n value) where
  holds w := by
    have ordinary := (inferInstance : Sat (Ordinary plat) (plat.busStore addr n value)).holds w
    refine ⟨ordinary, ?_⟩
    cases answer : plat.busWrite addr n value w with
    | mk accepted w' =>
      cases accepted with
      | false =>
        rw [Platform.run_busStore_false answer] at ordinary ⊢
        exact fun _ _ _ => ⟨.refused answer, ordinary⟩
      | true =>
        rw [Platform.run_busStore_true answer]
        exact nofun

instance (hart addr : BitVec 64) (n : Nat) (value : BitVec (8 * n)) :
    Sat (Atomic (Ordinary plat) (Gentle plat) IsTrap) (plat.rawStoreData hart addr n value) := by
  unfold Platform.rawStoreData
  refine .bind_atomic inferInstance fun _ => ?_
  cases windows : plat.dmiRanges.any (·.contains addr) with
  | true =>
    simp only [Bool.not_true, Bool.false_eq_true, not_false_eq_true, Exec.when_neg]
    exact .atomic_of_settled inferInstance
  | false =>
    simp only [Bool.not_false, Exec.when_pos, Platform.dmiStores_outside plat value windows]
    exact .bind_atomic inferInstance fun _ => .atomic_bind inferInstance fun _ => inferInstance

end World

namespace Iss

variable {isa : Isa} {World : Type} {α β : Type}

/-! ## Transitions that allow what an instruction does -/

class Writes (R : Transition (Iss isa World) Exc) : Prop where
  reg : ∀ s index value, R s none (s.setReg index value)
  exit : ∀ s, R s none { s with shallExit := true }

class FpWrites (R : Transition (Iss isa World) Exc) : Prop where
  reg : ∀ s index value, R s none (s.setFpReg index value)
  flags : ∀ s flags, R s none { s with softfloatExceptionFlags := flags }
  dirty : Sat R fpSetDirty
  accrue : ∀ value, Sat R (writeField .fcsr Fcsr.fflags value)

class Stores (plat : Platform World) (Q R : Transition (Iss isa World) Exc) : Prop where
  store : ∀ addr n value, Sat (Atomic R Q IsTrap) (rawStoreData plat addr n value)
  syscall : ∀ number a0 a1 a2 a3,
    Sat R (onWorld (Exec.call (plat.executeSyscall number a0 a1 a2 a3)))

/-! ## What is done after the last check -/

section Done

variable {R : Transition (Iss isa World) Exc}

instance [Writes R] (field : BitVec 32) (value : Word isa) : Sat R (writeReg field value) :=
  .update fun s => Writes.reg s (regIndex field) value

instance [Writes R] (field : BitVec 32) (value : Word isa) :
    Sat (Settled R IsTrap) (writeReg field value) := .settled inferInstance fun _ => rfl

instance [Notes R] (condition : Prop) [Decidable condition] (cause : Abort)
    [given : OrdinaryAbort cause] : Sat (Settled R IsTrap) (assert condition cause) := by
  have aborted : Sat (Settled R IsTrap) (abort cause : IssM isa World Unit) :=
    .raise fun s => ⟨Notes.abort s cause (given.explained s), fun _ same => by cases same; exact id⟩
  unfold assert
  infer_instance

section Fp

variable [Closed R] [fp : FpWrites R]

instance (field : BitVec 32) (value : BitVec 64) : Sat (Settled R IsTrap) (writeF64 field value) :=
  .settled (.update fun s => FpWrites.reg s (regIndex field) value) fun _ => rfl

instance (field : BitVec 32) (value : BitVec 32) : Sat (Settled R IsTrap) (writeF32 field value) := by
  unfold writeF32
  infer_instance

instance (call : α × BitVec 8) : Sat (Settled R IsTrap) (softfloat call) :=
  .settled (.bind (.update fun s => fp.flags s _) fun _ => inferInstance) fun _ => rfl

instance : Sat (Settled R IsTrap) fpSetDirty := .settled fp.dirty fun _ => rfl

instance : Sat (Settled R IsTrap) fpUpdateExceptionFlags := by
  have cleared : Sat (Settled R IsTrap)
      (Exec.update fun s : Iss isa World => { s with softfloatExceptionFlags := 0 }) :=
    .settled (.update fun s => fp.flags s 0) fun _ => rfl
  have accrued : ∀ value, Sat (Settled R IsTrap) (writeField .fcsr Fcsr.fflags value) :=
    fun value => .settled (fp.accrue value) fun _ => rfl
  unfold fpUpdateExceptionFlags
  infer_instance

instance : Sat (Settled R IsTrap) fpFinishInstr := by
  unfold fpFinishInstr
  infer_instance

instance (plat : Platform World) (a b : BitVec 32) :
    Sat (Settled R IsTrap) (f32Before plat a b) := by
  unfold f32Before
  infer_instance

instance (plat : Platform World) (a b : BitVec 64) :
    Sat (Settled R IsTrap) (f64Before plat a b) := by
  unfold f64Before
  infer_instance

end Fp

end Done

/-! ## The shapes of instructions -/

section Shapes

variable (instr : Instruction) (Q R : Transition (Iss isa World) Exc) [Le Q R]

section Jump

variable [Moves Q] [Moves R] [Writes R]

instance : Sat (Atomic R Q IsTrap) (execJal instr) := by
  unfold execJal
  infer_instance

instance : Sat (Atomic R Q IsTrap) (execJalr instr) := by
  unfold execJalr
  infer_instance

instance (taken : Word isa → Word isa → Bool) : Sat (Atomic R Q IsTrap) (execBranch instr taken) := by
  unfold execBranch
  infer_instance

end Jump

variable [Notes R]

section Core

variable [Notes Q] [Writes R]

instance (f : Word isa → Word isa → Word isa) : Sat (Atomic R Q IsTrap) (execImm instr f) := by
  unfold execImm
  infer_instance

instance (f : Word isa → Word isa → Word isa) : Sat (Atomic R Q IsTrap) (execReg instr f) := by
  unfold execReg
  infer_instance

instance (f : Word isa → Nat → Word isa) : Sat (Atomic R Q IsTrap) (execShamt instr f) := by
  unfold execShamt
  infer_instance

instance (f : BitVec 32 → BitVec 32 → BitVec 32) : Sat (Atomic R Q IsTrap) (execRegW instr f) := by
  unfold execRegW
  infer_instance

instance (f : BitVec 32 → BitVec 32) : Sat (Atomic R Q IsTrap) (execImmW instr f) := by
  unfold execImmW
  infer_instance

instance : Sat (Atomic R Q IsTrap) (execLui instr) := by
  unfold execLui
  infer_instance

instance : Sat (Atomic R Q IsTrap) (execAuipc instr) := by
  unfold execAuipc
  infer_instance

end Core

section Memory

variable (plat : Platform World) [Loads plat Q] [stores : Stores plat Q R]

instance (addr : BitVec 64) (n : Nat) (value : BitVec (8 * n)) :
    Sat (Atomic R Q IsTrap) (rawStoreData plat addr n value) := stores.store addr n value

instance (addr : Word isa) (n : Nat) (value : BitVec (8 * n)) :
    Sat (Atomic R Q IsTrap) (storeData plat (dataAddr addr) n value) := by
  unfold storeData
  infer_instance

instance (addr : Word isa) (n : Nat) (value : BitVec (8 * n)) :
    Sat (Atomic R Q IsTrap) (atomicStoreData plat (dataAddr addr) n value) := by
  unfold atomicStoreData
  infer_instance

instance (bytes : Nat) : Sat (Atomic R Q IsTrap) (execStore instr plat bytes) := by
  unfold execStore
  infer_instance

instance : Sat Q (execWfi plat) := by
  unfold execWfi
  repeat refine .bind inferInstance fun _ => ?_
  infer_instance

instance : Sat Q (execSfenceVma plat) := by
  unfold execSfenceVma
  infer_instance

section Write

variable [Writes R]

instance (bytes : Nat) (extend : BitVec (8 * bytes) → Word isa) :
    Sat (Atomic R Q IsTrap) (execLoad instr plat bytes extend) := by
  unfold execLoad
  infer_instance

/-- A system call is made by the platform: it does not trap. -/
instance : Sat (Atomic R Q IsTrap) (executeSyscall plat) := by
  have exits : Sat (Settled R IsTrap)
      (Exec.update fun s : Iss isa World => { s with shallExit := true }) :=
    .settled (.update Writes.exit) fun _ => rfl
  have calls : ∀ number a0 a1 a2 a3, Sat (Settled R IsTrap)
      (onWorld (Exec.call (plat.executeSyscall number a0 a1 a2 a3))) :=
    fun number a0 a1 a2 a3 => .settled (stores.syscall number a0 a1 a2 a3) fun _ => rfl
  apply Sat.atomic_of_settled
  unfold executeSyscall
  repeat refine .bind inferInstance fun _ => ?_
  infer_instance

/-- Only a level that does not exist is unknown to `ECALL`. -/
instance : Sat (Atomic R Q IsTrap) (execEcall plat) where
  holds s := by
    unfold execEcall
    split
    · exact Sat.holds s
    rw [Exec.run_read_bind, Exec.run_read_bind]
    by_cases machine : s.prv = machineMode
    · rw [if_pos machine]
      exact Sat.holds s
    by_cases supervisor : s.prv = supervisorMode
    · rw [if_neg machine, if_pos supervisor]
      exact Sat.holds s
    by_cases user : s.prv = userMode
    · rw [if_neg machine, if_neg supervisor, if_pos user]
      exact Sat.holds s
    rw [if_neg machine, if_neg supervisor, if_neg user]
    have unknown : Abort.Explained s .unknownPrivilegeLevel := by
      rintro ⟨level | level | level, -⟩
      · exact user level
      · exact supervisor level
      · exact machine level
    refine ⟨Notes.abort s _ unknown, fun _ same trap => ?_⟩
    cases same
    exact trap.elim

/-! ### Under the bus lock -/

variable [locks : Locks plat Q] [Locks plat R]

instance (bytes : Nat) : Sat (Atomic R Q IsTrap) (execLr instr plat bytes) := by
  have counted : Sat (Settled R IsTrap) (setLrScCounter 17 : IssM isa World Unit) :=
    .settled (Locks.counter plat 17) fun _ => rfl
  unfold execLr
  repeat refine .bind_atomic inferInstance fun _ => ?_
  infer_instance

omit [Notes R] [Le Q R] [Loads plat Q] stores [Writes R] locks [Locks plat R] in
/-- The handler of the AMO's load renames the trap. -/
theorem amoFault_trap (e : SimulationTrap) : ∃ reason,
    (reason = .illegalInstr → e.reason = .illegalInstr) ∧
      (amoFault (.trap e) : IssM isa World α) = raiseTrap reason e.mtval := by
  unfold amoFault
  dsimp only
  split
  · exact ⟨.storeAmoAccessFault, nofun, rfl⟩
  · exact ⟨e.reason, id, rfl⟩

instance (bytes : Nat) (addr : Word isa) :
    Sat Q ((atomicLoadData plat (dataAddr addr) bytes).tryCatch amoFault) where
  holds s := SatAt.tryCatch (.of_sat inferInstance) fun e t thrown => by
    cases e with
    | abort cause => exact thrown
    | blocked => exact thrown
    | trap e =>
      obtain ⟨reason, illegal, renamed⟩ := @amoFault_trap isa World (BitVec (8 * bytes)) e
      have passed := Notes.rethrow reason t.op t.instr illegal thrown
      rw [renamed]
      exact passed

instance (bytes : Nat) (operation : BitVec (8 * bytes) → BitVec (8 * bytes) → BitVec (8 * bytes)) :
    Sat (Atomic R Q IsTrap) (executeAmo instr plat bytes operation) := by
  unfold executeAmo
  infer_instance

instance (operation : BitVec 32 → BitVec 32 → BitVec 32) :
    Sat (Atomic R Q IsTrap) (executeAmoW instr plat operation) := by
  unfold executeAmoW
  exact .bind_atomic inferInstance fun _ =>
    (inferInstance : Sat (Atomic R Q IsTrap) (@executeAmo isa World instr plat 4 operation))

instance (operation : BitVec 64 → BitVec 64 → BitVec 64) :
    Sat (Atomic R Q IsTrap) (executeAmoD instr plat operation) := by
  unfold executeAmoD
  have wide : Sat (Atomic R Q IsTrap) (@executeAmo isa World instr plat 8 operation) :=
    inferInstance
  infer_instance

instance (addr : Word isa) (n : Nat) (value : BitVec (8 * n)) :
    Sat (Atomic R Q IsTrap) (atomicStoreConditionalData plat (dataAddr addr) n value) := by
  unfold atomicStoreConditionalData
  refine .bind_atomic inferInstance fun _ => .ite (fun _ => ?_) fun _ => inferInstance
  exact .bind_atomic inferInstance fun _ => .ite (fun _ => inferInstance) fun _ => inferInstance

end Write

end Memory

/-! ### Floating point -/

section Float

variable [Notes Q] [FpWrites R]

section Body

variable (ext : Word isa) (body : IssM isa World Unit) [Sat (Settled R IsTrap) body]

instance : Sat (Atomic R Q IsTrap) (fpRounding instr ext body) := by
  unfold fpRounding
  repeat refine .bind_atomic inferInstance fun _ => ?_
  infer_instance

instance : Sat (Atomic R Q IsTrap) (fpMoving ext body) := by
  unfold fpMoving
  repeat refine .bind_atomic inferInstance fun _ => ?_
  infer_instance

instance : Sat (Atomic R Q IsTrap) (fpComparing ext body) := by
  unfold fpComparing
  repeat refine .bind_atomic inferInstance fun _ => ?_
  infer_instance

end Body

instance (f : BitVec 8 → BitVec 32 → BitVec 32 → BitVec 32 × BitVec 8) :
    Sat (Atomic R Q IsTrap) (f32Binary instr f) := by
  unfold f32Binary
  infer_instance

instance (f : BitVec 8 → BitVec 64 → BitVec 64 → BitVec 64 × BitVec 8) :
    Sat (Atomic R Q IsTrap) (f64Binary instr f) := by
  unfold f64Binary
  infer_instance

instance (f : BitVec 32 → BitVec 32 → BitVec 32) : Sat (Atomic R Q IsTrap) (f32Sign instr f) := by
  unfold f32Sign
  infer_instance

instance (f : BitVec 64 → BitVec 64 → BitVec 64) : Sat (Atomic R Q IsTrap) (f64Sign instr f) := by
  unfold f64Sign
  infer_instance

instance (first : BitVec 32 → BitVec 32 → IssM isa World Bool)
    [∀ a b, Sat (Settled R IsTrap) (first a b)] : Sat (Atomic R Q IsTrap) (f32Select instr first) := by
  unfold f32Select
  repeat refine .bind_atomic inferInstance fun _ => ?_
  infer_instance

instance (first : BitVec 64 → BitVec 64 → IssM isa World Bool)
    [∀ a b, Sat (Settled R IsTrap) (first a b)] : Sat (Atomic R Q IsTrap) (f64Select instr first) := by
  unfold f64Select
  repeat refine .bind_atomic inferInstance fun _ => ?_
  infer_instance

instance (plat : Platform World) (negProduct negAddend : BitVec 32 → BitVec 32) :
    Sat (Atomic R Q IsTrap) (f32Fused instr plat negProduct negAddend) := by
  unfold f32Fused
  infer_instance

instance (plat : Platform World) (negProduct negAddend : BitVec 64 → BitVec 64) :
    Sat (Atomic R Q IsTrap) (f64Fused instr plat negProduct negAddend) := by
  unfold f64Fused
  infer_instance

section Conversion

variable {n m : Nat} (ext : Word isa) (source : BitVec 32 → IssM isa World (BitVec n))
  (target : BitVec 32 → BitVec m → IssM isa World Unit)
  [∀ field, Sat (Settled R IsTrap) (source field)]
  [∀ field x, Sat (Settled R IsTrap) (target field x)] (f : BitVec 8 → BitVec n → BitVec m × BitVec 8)

instance : Sat (Atomic R Q IsTrap) (intToFp instr ext target f) := by
  unfold intToFp
  infer_instance

instance : Sat (Atomic R Q IsTrap) (fpUnary instr ext source target f) := by
  unfold fpUnary
  infer_instance

instance [Writes R] : Sat (Atomic R Q IsTrap) (fpToInt instr ext source f) := by
  unfold fpToInt
  infer_instance

end Conversion

variable [Writes R]

instance (f : BitVec 32 → BitVec 32 → Bool × BitVec 8) :
    Sat (Atomic R Q IsTrap) (f32Compare instr f) := by
  unfold f32Compare
  infer_instance

instance (f : BitVec 64 → BitVec 64 → Bool × BitVec 8) :
    Sat (Atomic R Q IsTrap) (f64Compare instr f) := by
  unfold f64Compare
  infer_instance

instance (ext : Word isa) (value : IssM isa World (Word isa)) [Sat Q value] :
    Sat (Atomic R Q IsTrap) (fpInspect instr ext value) := by
  unfold fpInspect
  infer_instance

end Float

section FloatMemory

variable (plat : Platform World) [Loads plat Q] [FpWrites R] [Stores plat Q R]

instance : Sat (Atomic R Q IsTrap) (execFlw instr plat) := by
  unfold execFlw
  repeat refine .bind_atomic inferInstance fun _ => ?_
  infer_instance

instance : Sat (Atomic R Q IsTrap) (execFsw instr plat) := by
  unfold execFsw
  refine .bind_atomic inferInstance fun _ => .bind_atomic inferInstance fun _ => ?_
  infer_instance

instance : Sat (Atomic R Q IsTrap) (execFld instr plat) := by
  unfold execFld
  repeat refine .bind_atomic inferInstance fun _ => ?_
  infer_instance

instance : Sat (Atomic R Q IsTrap) (execFsd instr plat) := by
  unfold execFsd
  refine .bind_atomic inferInstance fun _ => .bind_atomic inferInstance fun _ => ?_
  infer_instance

end FloatMemory

end Shapes

/-! ## The switch -/

section Switch

variable (instr : Instruction) (plat : Platform World) {Q R : Transition (Iss isa World) Exc}
  [Le Q R] [Writes R] {op : Mapping}

theorem atomic_exec_jump [Moves Q] [Moves R] (jump : op.isJump = true) :
    Sat (Atomic R Q IsTrap) (exec instr plat op) := by
  cases op
  all_goals first
    | cases jump; done
    | (unfold exec; infer_instance)

variable [Loads plat Q] [Notes R] [Stores plat Q R]

/-- Neither the bus lock nor FP registers are needed. -/
theorem atomic_exec_core (ordinary : op.isOrdinary = true) (plain : op.isAtomic = false)
    (int : op.isFloat = false) (straight : op.isJump = false) :
    Sat (Atomic R Q IsTrap) (exec instr plat op) := by
  cases op
  all_goals first
    | cases ordinary; done
    | cases plain; done
    | cases int; done
    | cases straight; done
    | (unfold exec; infer_instance)

theorem atomic_exec_float [FpWrites R] (float : op.isFloat = true) :
    Sat (Atomic R Q IsTrap) (exec instr plat op) := by
  cases op
  all_goals first
    | cases float; done
    | (unfold exec; infer_instance)

theorem atomic_exec_atomic [Locks plat Q] [Locks plat R] (atomic : op.isAtomic = true)
    (ordinary : op.isOrdinary = true) : Sat (Atomic R Q IsTrap) (exec instr plat op) := by
  cases op
  all_goals first
    | cases atomic; done
    | cases ordinary; done
    | (unfold exec; infer_instance)

theorem atomic_exec_straight [FpWrites R] [Locks plat Q] [Locks plat R]
    (ordinary : op.isOrdinary = true) (straight : op.isJump = false) :
    Sat (Atomic R Q IsTrap) (exec instr plat op) := by
  cases float : op.isFloat with
  | true => exact atomic_exec_float instr plat float
  | false =>
    cases atomic : op.isAtomic with
    | true => exact atomic_exec_atomic instr plat atomic ordinary
    | false => exact atomic_exec_core instr plat ordinary atomic float straight

omit [Notes R] in
theorem atomic_exec [Moves Q] [Moves R] [FpWrites R] [Locks plat Q] [Locks plat R]
    (ordinary : op.isOrdinary = true) : Sat (Atomic R Q IsTrap) (exec instr plat op) := by
  cases jump : op.isJump with
  | true => exact atomic_exec_jump instr plat jump
  | false => exact atomic_exec_straight instr plat ordinary jump

end Switch

section Whole

variable (instr : Instruction) (plat : Platform World) {R : Transition (Iss isa World) Exc}
  [Loads plat R] [locks : Locks plat R] [Writes R] [Stores plat R R] {op : Mapping}

theorem sat_execSc (bytes : Nat) : Sat R (execSc instr plat bytes) := by
  have counted := locks.counter 0
  have stored : ∀ (addr : Word isa) value,
      Sat R (atomicStoreConditionalData plat (dataAddr addr) bytes value) :=
    fun addr value => .of_atomic (inferInstance : Sat (Atomic R R IsTrap) _)
  unfold execSc
  repeat refine .bind inferInstance fun _ => ?_
  infer_instance

/-- Every instruction but the CSR instructions, the trap returns, the jumps and the FP
instructions. -/
theorem sat_exec_core (csr : op.isCsr = false) (ret : op.isReturn = false) (int : op.isFloat = false)
    (straight : op.isJump = false) : Sat R (exec instr plat op) := by
  cases conditional : op.isSc with
  | false =>
    have ordinary : op.isOrdinary = true := by simp [Mapping.isOrdinary, csr, ret, conditional]
    cases atomic : op.isAtomic with
    | true =>
      exact .of_atomic
        (@atomic_exec_atomic isa World instr plat R R _ _ op _ _ _ _ _ atomic ordinary)
    | false =>
      exact .of_atomic
        (@atomic_exec_core isa World instr plat R R _ _ op _ _ _ ordinary atomic int straight)
  | true =>
    have store := @sat_execSc isa World instr plat R _ _ _ _
    cases op
    case scW | scD =>
      unfold exec
      infer_instance
    all_goals cases conditional

theorem sat_exec_int [Moves R] (csr : op.isCsr = false) (ret : op.isReturn = false)
    (int : op.isFloat = false) : Sat R (exec instr plat op) := by
  cases jump : op.isJump with
  | true => exact .of_atomic (@atomic_exec_jump isa World instr plat R R _ _ op _ _ jump)
  | false => exact sat_exec_core instr plat csr ret int jump

omit locks in
theorem sat_exec_float [FpWrites R] (float : op.isFloat = true) : Sat R (exec instr plat op) :=
  .of_atomic (@atomic_exec_float isa World instr plat R R _ _ op _ _ _ _ float)

/-- Every instruction but the CSR instructions, the trap returns and the jumps. -/
theorem sat_exec_straight [FpWrites R] (csr : op.isCsr = false) (ret : op.isReturn = false)
    (straight : op.isJump = false) : Sat R (exec instr plat op) := by
  cases float : op.isFloat with
  | true => exact sat_exec_float instr plat float
  | false => exact sat_exec_core instr plat csr ret float straight

/-- Every instruction but the CSR instructions and the trap returns. -/
theorem sat_exec [Moves R] [FpWrites R] (csr : op.isCsr = false) (ret : op.isReturn = false) :
    Sat R (exec instr plat op) := by
  cases float : op.isFloat with
  | true => exact sat_exec_float instr plat float
  | false => exact sat_exec_int instr plat csr ret float

end Whole

/-! ## Precise instructions -/

section Precise

variable (plat : Platform World)

theorem Still.plain {plat : Platform World} {s t : Iss isa World} {o : Option Exc}
    (still : Still plat s o t) : Plain plat s o t :=
  ⟨still.prv, fun c _ _ => congrFun still.reg c, fun _ _ => by rw [still.reg], still.levels⟩

instance : Le (@Still isa World plat) (Plain plat) := ⟨Still.plain⟩

/-- A `Plain` transition that is `Still` if it is a trap. -/
def Precise (plat : Platform World) : Transition (Iss isa World) Exc :=
  Atomic (Plain plat) (Still plat) IsTrap

instance : Checks (@Plain isa World plat) where
  trap s reason value own := (Notes.trap s reason value own : Still plat _ _ _).plain
  rethrow _ _ _ _ plain := { plain with levels := fun _ same bad => by cases same; exact bad.elim }
  abort s cause explained := (Notes.abort s cause explained : Still plat _ _ _).plain
  scratch _ _ _ _ := ⟨rfl, fun _ _ _ => rfl, fun _ _ => rfl, nofun⟩
  issue _ _ _ := ⟨rfl, fun _ _ _ => rfl, fun _ _ => rfl, nofun⟩
  move _ _ := ⟨rfl, fun _ _ _ => rfl, fun _ _ => rfl, nofun⟩
  cycle := inferInstance

instance : Loads plat (@Plain isa World plat) where
  load _ _ := inferInstance
  translate va type := (Reads.translate va type : Sat (Still plat) _).mono Still.plain
  proxy _ _ := inferInstance
  time := inferInstance
  release := inferInstance
  sleep := inferInstance

instance : Locks plat (@Plain isa World plat) where
  lock := inferInstance
  unlock := inferInstance
  lrAddr addr := (Locks.lrAddr plat addr : Sat (Still plat) _).mono Still.plain
  counter n := (Locks.counter plat n : Sat (Still plat) _).mono Still.plain

instance : Writes (@Plain isa World plat) where
  reg _ _ _ := ⟨rfl, fun _ _ _ => rfl, fun _ _ => rfl, nofun⟩
  exit _ := ⟨rfl, fun _ _ _ => rfl, fun _ _ => rfl, nofun⟩

/-- A write of bits of `mstatus` that tell of the FP registers. -/
theorem plain_fpStatus {len : Nat} {f : Field len} (fp : ∀ i, f.Covers i → FpStatus isa i)
    (value : BitVec len) : Sat (Plain plat) (writeField .mstatus f value : IssM isa World Unit) :=
  .update fun s =>
    { prv := rfl
      reg := fun c other _ => setCsr_reg_of_ne s other _
      status := fun i free => by
        rw [setCsr_reg_self, Field.getLsbD_set, if_neg fun covered => free (fp i covered)]
      levels := nofun }

instance : FpWrites (@Plain isa World plat) where
  reg _ _ _ := ⟨rfl, fun _ _ _ => rfl, fun _ _ => rfl, nofun⟩
  flags _ _ := ⟨rfl, fun _ _ _ => rfl, fun _ _ => rfl, nofun⟩
  dirty := by
    have sd := @plain_fpStatus isa World plat 1 (Mstatus.sd isa) (fun _ => .inr)
    have fs := @plain_fpStatus isa World plat 2 Mstatus.fs (fun _ => .inl)
    unfold fpSetDirty
    infer_instance
  accrue _ := .update fun s =>
    ⟨rfl, fun _ _ other => setCsr_reg_of_ne s other _, fun _ _ => rfl, nofun⟩

instance (m : Exec World Exc α) [atomic : Sat (Atomic (Ordinary plat) (Gentle plat) IsTrap) m] :
    Sat (Precise plat) (onWorld m : IssM isa World α) where
  holds s :=
    have ⟨ordinary, refused⟩ := atomic.holds s.world
    ⟨⟨rfl, fun _ _ _ => rfl, fun _ _ => rfl, fun e ended bad => absurd bad (ordinary e ended)⟩,
      fun e ended trap =>
        ⟨rfl, rfl, rfl, rfl, rfl, (refused e ended trap).1,
          fun e ended bad => absurd bad (ordinary e ended)⟩⟩

instance : Stores plat (@Still isa World plat) (Plain plat) where
  store addr n value := by
    have access := fun hart => (inferInstance : Sat (Precise plat)
      (onWorld (plat.rawStoreData hart addr n value) : IssM isa World Unit))
    unfold rawStoreData
    exact .bind_atomic inferInstance access
  syscall _ _ _ _ _ := ⟨fun _ => ⟨rfl, fun _ _ _ => rfl, fun _ _ => rfl, nofun⟩⟩

instance : Stores plat (@Plain isa World plat) (Plain plat) where
  store _ _ _ := .atomic_of_quiet inferInstance
  syscall _ _ _ _ _ := ⟨fun _ => ⟨rfl, fun _ _ _ => rfl, fun _ _ => rfl, nofun⟩⟩

end Precise

variable (instr : Instruction) (plat : Platform World) {op : Mapping}

theorem precise_exec (ordinary : op.isOrdinary = true) :
    Sat (Precise plat) (exec instr plat op : IssM isa World Unit) :=
  @atomic_exec isa World instr plat (Still plat) (Plain plat) _ _ op _ _ _ _ _ _ _ ordinary

theorem plain_exec (csr : op.isCsr = false) (ret : op.isReturn = false) :
    Sat (Plain plat) (exec instr plat op : IssM isa World Unit) := sat_exec instr plat csr ret

end Iss

end RiscvVp
