/-
# RiscvVp.Iss.Interrupts -- which interrupt is taken, and where

An interrupt is pending when `mie` and `mip` both have its bit; `mideleg` and `sideleg` give
it a level; it can be delivered there when the core is below, or is there with interrupts
enabled.  `compute_pending_interrupts` finds the highest level that has one, with all that
are pending for it, and `prepare_interrupt` takes the first of these in a fixed order.  That
there is one needs `mie` to have no bit but the nine of its mask, which every run keeps.
-/
import RiscvVp.Iss.Handlers
import RiscvVp.Iss.Hardwired

namespace RiscvVp.Iss

set_option autoImplicit false

open Lib Transition

variable {isa : Isa} {World : Type}

/-! ## What there is to deliver -/

section Delivery

variable (s : Iss isa World)

def Pending (i : Nat) : Prop :=
  (s.csrs.reg .mie).getLsbD i = true ∧ (s.csrs.reg .mip).getLsbD i = true

/-- The level that the delegation registers choose. -/
def delegatedTo (i : Nat) : PrivilegeLevel :=
  if (s.csrs.reg .mideleg).getLsbD i = false then machineMode
  else if (s.csrs.reg .sideleg).getLsbD i = false then supervisorMode
  else userMode

/-- Interrupts are globally enabled at the level. -/
def Enabled (level : PrivilegeLevel) : Prop :=
  (trapRegs level).ie.get (s.csrs.reg .mstatus) = 1#1

/-- The core can be interrupted by the level. -/
def Open (level : PrivilegeLevel) : Prop := s.prv < level ∨ s.prv = level ∧ Enabled s level

def Deliverable (i : Nat) : Prop := Pending s i ∧ Open s (delegatedTo s i)

end Delivery

/-- The order in which interrupts of one level are taken. -/
def interruptOrder : List InterruptCode :=
  [.mExternal, .mSoftware, .mTimer, .sExternal, .sSoftware, .sTimer, .uExternal, .uSoftware, .uTimer]

/-! ## The set of a level -/

section Sets

variable {w : Nat}

theorem eq_zero_iff_bits (x : BitVec w) : x = 0 ↔ ∀ i, x.getLsbD i = false :=
  BitVec.zero_iff_eq_false

theorem ne_zero_iff_bits (x : BitVec w) : x ≠ 0 ↔ ∃ i, x.getLsbD i = true := by
  rw [Ne, eq_zero_iff_bits]
  simp

variable {s : Iss isa World} {i : Nat}

/-- The interrupts that are pending for a level, as the source masks them out. -/
def pendingFor (s : Iss isa World) (level : PrivilegeLevel) : Word isa :=
  let pending := s.csrs.reg .mie &&& s.csrs.reg .mip
  if level = machineMode then pending &&& ~~~s.csrs.reg .mideleg
  else if level = supervisorMode then pending &&& s.csrs.reg .mideleg &&& ~~~s.csrs.reg .sideleg
  else pending &&& s.csrs.reg .mideleg &&& s.csrs.reg .sideleg

theorem lt_of_pending (pending : Pending s i) : i < isa.xlen := by
  by_contra outside
  have out := BitVec.getLsbD_of_ge (s.csrs.reg .mie) i (Nat.le_of_not_lt outside)
  rw [pending.1] at out
  cases out

theorem getLsbD_pendingFor {level : PrivilegeLevel} (known : KnownLevel level) :
    (pendingFor s level).getLsbD i = true ↔ Pending s i ∧ delegatedTo s i = level := by
  by_cases pending : Pending s i
  · have inside := lt_of_pending pending
    obtain ⟨enabled, asserted⟩ := pending
    rcases known with rfl | rfl | rfl
    · show (s.csrs.reg .mie &&& s.csrs.reg .mip &&& s.csrs.reg .mideleg &&&
        s.csrs.reg .sideleg).getLsbD i = true ↔ _
      simp only [Pending, delegatedTo, BitVec.getLsbD_and, enabled, asserted]
      cases (s.csrs.reg .mideleg).getLsbD i <;> cases (s.csrs.reg .sideleg).getLsbD i <;> decide
    · show (s.csrs.reg .mie &&& s.csrs.reg .mip &&& s.csrs.reg .mideleg &&&
        ~~~s.csrs.reg .sideleg).getLsbD i = true ↔ _
      simp only [Pending, delegatedTo, BitVec.getLsbD_and, BitVec.getLsbD_not, enabled, asserted,
        decide_eq_true inside]
      cases (s.csrs.reg .mideleg).getLsbD i <;> cases (s.csrs.reg .sideleg).getLsbD i <;> decide
    · show (s.csrs.reg .mie &&& s.csrs.reg .mip &&& ~~~s.csrs.reg .mideleg).getLsbD i = true ↔ _
      simp only [Pending, delegatedTo, BitVec.getLsbD_and, BitVec.getLsbD_not, enabled, asserted,
        decide_eq_true inside]
      cases (s.csrs.reg .mideleg).getLsbD i <;> cases (s.csrs.reg .sideleg).getLsbD i <;> decide
  · have absent : (pendingFor s level).getLsbD i = false := by
      have masked : (s.csrs.reg .mie &&& s.csrs.reg .mip).getLsbD i = false := by
        rw [BitVec.getLsbD_and, ← Bool.not_eq_true, Bool.and_eq_true]
        exact pending
      unfold pendingFor
      dsimp only
      split
      · rw [BitVec.getLsbD_and, masked, Bool.false_and]
      split
      · rw [BitVec.getLsbD_and, BitVec.getLsbD_and, masked, Bool.false_and, Bool.false_and]
      · rw [BitVec.getLsbD_and, BitVec.getLsbD_and, masked, Bool.false_and, Bool.false_and]
    simp [absent, pending]

end Sets

/-! ## The choice of a level -/

section Choice

variable {s : Iss isa World}

/-- The level is open and something is pending for it. -/
def Wants (s : Iss isa World) (level : PrivilegeLevel) : Prop :=
  pendingFor s level ≠ 0 ∧ Open s level

instance (s : Iss isa World) (level : PrivilegeLevel) : Decidable (Wants s level) :=
  inferInstanceAs (Decidable (_ ∧ (_ ∨ _ ∧ _ = _)))

/-- The levels are asked from the highest down. -/
theorem computePendingInterrupts_eq (s : Iss isa World) : computePendingInterrupts s =
    if Wants s machineMode then some (machineMode, pendingFor s machineMode)
    else if Wants s supervisorMode then some (supervisorMode, pendingFor s supervisorMode)
    else if Wants s userMode then some (userMode, pendingFor s userMode)
    else none := by
  have nothing : s.csrs.reg .mie &&& s.csrs.reg .mip = 0 → ∀ level, pendingFor s level = 0 := by
    intro none level
    unfold pendingFor
    rw [none]
    simp
  have user : s.prv = userMode ∧ Mstatus.uie.get (s.csrs.reg .mstatus) = 1#1 ↔ Open s userMode := by
    have least : ¬ s.prv < userMode := by bv_omega
    unfold Open
    simp only [least, false_or]
    exact Iff.rfl
  unfold computePendingInterrupts
  dsimp only
  split
  case isTrue none =>
    have refuses : ∀ level, ¬ Wants s level := fun level wants => wants.1 (nothing none level)
    rw [if_neg (refuses _), if_neg (refuses _), if_neg (refuses _)]
  case isFalse =>
    refine if_congr Iff.rfl rfl (if_congr Iff.rfl rfl (if_congr ?_ rfl rfl))
    exact and_congr Iff.rfl user

/-- A level wants an interrupt when one of its interrupts can be delivered. -/
theorem wants_iff {level : PrivilegeLevel} (known : KnownLevel level) :
    Wants s level ↔ ∃ i, Deliverable s i ∧ delegatedTo s i = level := by
  unfold Wants
  rw [ne_zero_iff_bits]
  constructor
  · rintro ⟨⟨i, set⟩, open_⟩
    obtain ⟨pending, target⟩ := (getLsbD_pendingFor known).mp set
    exact ⟨i, ⟨pending, target ▸ open_⟩, target⟩
  · rintro ⟨i, ⟨pending, open_⟩, target⟩
    exact ⟨⟨i, (getLsbD_pendingFor known).mpr ⟨pending, target⟩⟩, target ▸ open_⟩

theorem delegatedTo_known (i : Nat) : KnownLevel (delegatedTo s i) := by
  unfold delegatedTo
  split
  · exact .inr (.inr rfl)
  split
  · exact .inr (.inl rfl)
  · exact .inl rfl

/-- What is chosen is the highest level that wants an interrupt. -/
theorem computePendingInterrupts_some {level : PrivilegeLevel} {pending : Word isa}
    (found : computePendingInterrupts s = some (level, pending)) :
    pending = pendingFor s level ∧ Wants s level ∧ ∀ other, KnownLevel other → Wants s other →
      other ≤ level := by
  rw [computePendingInterrupts_eq] at found
  split at found
  case isTrue machine =>
    cases found
    exact ⟨rfl, machine, fun other _ _ => by bv_omega⟩
  case isFalse machine =>
    split at found
    case isTrue supervisor =>
      cases found
      refine ⟨rfl, supervisor, fun other known wants => ?_⟩
      rcases known with rfl | rfl | rfl
      · decide
      · decide
      · exact absurd wants machine
    case isFalse supervisor =>
      split at found
      case isTrue user =>
        cases found
        refine ⟨rfl, user, fun other known wants => ?_⟩
        rcases known with rfl | rfl | rfl
        · decide
        · exact absurd wants supervisor
        · exact absurd wants machine
      case isFalse => cases found

theorem computePendingInterrupts_none :
    computePendingInterrupts s = none ↔ ∀ i, ¬ Deliverable s i := by
  constructor
  · intro none i deliverable
    have wants : Wants s (delegatedTo s i) :=
      (wants_iff (delegatedTo_known i)).mpr ⟨i, deliverable, rfl⟩
    rw [computePendingInterrupts_eq] at none
    split at none
    case isTrue => cases none
    split at none
    case isTrue => cases none
    split at none
    case isTrue => cases none
    rcases delegatedTo_known (s := s) i with level | level | level
    all_goals
      rw [level] at wants
      contradiction
  · intro nothing
    have refuses : ∀ level, KnownLevel level → ¬ Wants s level := by
      intro level known wants
      obtain ⟨i, deliverable, -⟩ := (wants_iff known).mp wants
      exact nothing i deliverable
    rw [computePendingInterrupts_eq, if_neg (refuses _ (.inr (.inr rfl))),
      if_neg (refuses _ (.inr (.inl rfl))), if_neg (refuses _ (.inl rfl))]

end Choice

/-! ## The choice among the pending -/

section Select

/-- The fields of `csr_mip` are the bits with the numbers of the interrupts. -/
theorem get_one_iff {w lo : Nat} (x : BitVec w) : (⟨lo⟩ : Field 1).get x = 1#1 ↔ x.getLsbD lo = true := by
  have bit : ∀ b : BitVec 1, b = 1#1 ↔ b.getLsbD 0 = true := by decide
  rw [bit, Field.getLsbD_get]
  simp

theorem find?_cons_ite {α : Type} (p : α → Bool) (a : α) (rest : List α) :
    (a :: rest).find? p = if p a = true then some a else rest.find? p := by
  rw [List.find?_cons]
  split <;> simp [*]

theorem selectInterrupt_eq (pending : Word isa) :
    selectInterrupt pending = interruptOrder.find? fun exc => pending.getLsbD exc.code := by
  unfold selectInterrupt interruptOrder
  simp only [find?_cons_ite, List.find?_nil, Mip.meip, Mip.msip, Mip.mtip, Mip.seip, Mip.ssip,
    Mip.stip, Mip.ueip, Mip.usip, Mip.utip, get_one_iff, InterruptCode.code]

/-- The mask has the bits of the nine interrupts and no others. -/
theorem mie_mask_iff (i : Nat) :
    (Mask.mie isa).getLsbD i = true ↔ ∃ exc ∈ interruptOrder, exc.code = i := by
  by_cases small : i < 12
  · have table : ∀ i < 12, (Mask.mie isa).getLsbD i = true ↔
        ∃ exc ∈ interruptOrder, exc.code = i := by
      cases isa <;> decide
    exact table i small
  · constructor
    · intro set
      have clear : Mask.mie isa >>> 12 = 0 := by cases isa <;> decide
      have bit : (Mask.mie isa >>> 12).getLsbD (i - 12) = true := by
        rw [BitVec.getLsbD_ushiftRight, Nat.add_sub_cancel' (Nat.le_of_not_lt small), set]
      rw [clear] at bit
      cases BitVec.getLsbD_zero.symm.trans bit
    · rintro ⟨exc, -, rfl⟩
      exact absurd (by cases exc <;> decide) small

/-- `mie` holds the bits of interrupts only. -/
def Masked (s : Iss isa World) : Prop := s.csrs.reg .mie &&& ~~~Mask.mie isa = 0

theorem masked_iff (s : Iss isa World) : Masked s ↔
    ∀ i, (Mask.mie isa).getLsbD i = false → (s.csrs.reg .mie).getLsbD i = false := by
  unfold Masked
  rw [eq_zero_iff_bits]
  refine forall_congr' fun i => ?_
  by_cases inside : i < isa.xlen
  · simp only [BitVec.getLsbD_and, BitVec.getLsbD_not, decide_eq_true inside]
    cases (Mask.mie isa).getLsbD i <;> cases (s.csrs.reg .mie).getLsbD i <;> decide
  · have outside := BitVec.getLsbD_of_ge (s.csrs.reg .mie) i (Nat.le_of_not_lt inside)
    simp [outside]

/-- Among the interrupts that are pending for a level there is one that can be named. -/
theorem selectInterrupt_some {s : Iss isa World} (masked : Masked s) {level : PrivilegeLevel}
    (known : KnownLevel level) (some_ : pendingFor s level ≠ 0) :
    ∃ exc, selectInterrupt (pendingFor s level) = some exc := by
  obtain ⟨i, set⟩ := (ne_zero_iff_bits _).mp some_
  obtain ⟨pending, -⟩ := (getLsbD_pendingFor known).mp set
  have allowed : (Mask.mie isa).getLsbD i = true := by
    rw [← Bool.not_eq_false]
    intro outside
    have clear := (masked_iff s).mp masked i outside
    rw [pending.1] at clear
    cases clear
  obtain ⟨exc, listed, rfl⟩ := (mie_mask_iff i).mp allowed
  rw [selectInterrupt_eq, ← Option.isSome_iff_exists, List.find?_isSome]
  exact ⟨exc, listed, set⟩

/-- The cause of the level is set. -/
theorem run_prepareInterrupt {s : Iss isa World} {level : PrivilegeLevel} (known : KnownLevel level)
    {pending : Word isa} {exc : InterruptCode} (selected : selectInterrupt pending = some exc) :
    (prepareInterrupt level pending).run s =
      (.ok (), s.setCsr (trapRegs level).cause (causeValue true exc.code)) := by
  unfold prepareInterrupt
  rw [selected]
  rcases known with rfl | rfl | rfl <;> rfl

end Select

/-! ## The two together -/

/-- Which interrupt is taken and where, in every state whose `mie` is within its mask. -/
theorem interrupt_selected {s : Iss isa World} (masked : Masked s) :
    (computePendingInterrupts s = none ↔ ∀ i, ¬ Deliverable s i) ∧
    ∀ level pending, computePendingInterrupts s = some (level, pending) →
      pending ≠ 0 ∧
      (∀ i, pending.getLsbD i = true ↔ Pending s i ∧ delegatedTo s i = level) ∧
      s.prv ≤ level ∧ (s.prv = level → Enabled s level) ∧
      (∀ i, Deliverable s i → delegatedTo s i ≤ level) ∧
      ∃ exc, (interruptOrder.find? fun exc => pending.getLsbD exc.code) = some exc ∧
        (prepareInterrupt level pending).run s =
          (.ok (), s.setCsr (trapRegs level).cause (causeValue true exc.code)) := by
  refine ⟨computePendingInterrupts_none, fun level pending found => ?_⟩
  have known := computePendingInterrupts_known found
  obtain ⟨rfl, ⟨some_, open_⟩, highest⟩ := computePendingInterrupts_some found
  obtain ⟨exc, selected⟩ := selectInterrupt_some masked known some_
  refine ⟨some_, fun _ => getLsbD_pendingFor known, ?_, ?_, ?_, exc, ?_, run_prepareInterrupt known selected⟩
  · rcases open_ with below | ⟨same, -⟩
    · exact BitVec.le_of_lt below
    · exact same ▸ BitVec.le_refl _
  · intro same
    rcases open_ with below | ⟨-, enabled⟩
    · exact absurd same (BitVec.ne_of_lt below)
    · exact enabled
  · intro i deliverable
    exact highest _ (delegatedTo_known i) ((wants_iff (delegatedTo_known i)).mpr ⟨i, deliverable, rfl⟩)
  · rw [← selectInterrupt_eq]
    exact selected

/-- `mie` is within its mask whenever a run comes to the choice. -/
theorem masked_of_run {plat : Platform World} {s u v : Iss isa World} (reached : Reachable plat s)
    (executed : (execStep plat).run (beforeExec plat s) = (.ok (), u))
    (polled : (pollInterrupts plat).run u = (.ok (), v)) : Masked v := by
  obtain ⟨hart, useEBaseIsa, entrypoint, sp, world, ignoreWfi, run⟩ := reached
  rw [masked_iff]
  intro i outside
  have fixed := hardwired_mie outside
  calc (v.csrs.reg .mie).getLsbD i
      _ = (u.csrs.reg .mie).getLsbD i := (sat_pollInterrupts plat Wired).ok polled _ i fixed
      _ = ((beforeExec plat s).csrs.reg .mie).getLsbD i := (wired_execStep plat _).ok executed _ i fixed
      _ = (s.csrs.reg .mie).getLsbD i := wired_beforeExec plat s _ i fixed
      _ = (0 : Word isa).getLsbD i := wired_of_run plat run fixed
      _ = false := BitVec.getLsbD_zero

/-- A machine timer and a delegated supervisor interrupt, in user mode. -/
def timerAndSoftware : Iss .rv64 Flat :=
  (({ everywhere 0x13 with prv := userMode }.setCsr .mie 0x82).setCsr .mip 0x82).setCsr .mideleg 0x2

theorem timer_selected : computePendingInterrupts timerAndSoftware = some (machineMode, 0x80) ∧
    (prepareInterrupt machineMode (0x80 : Word .rv64)).run timerAndSoftware =
      (.ok (), timerAndSoftware.setCsr .mcause 0x8000000000000007) := by
  have found : computePendingInterrupts timerAndSoftware = some (machineMode, 0x80) := by decide
  have masked : Masked timerAndSoftware := by
    unfold Masked
    decide
  obtain ⟨-, -, -, -, -, exc, first, ran⟩ := (interrupt_selected masked).2 _ _ found
  cases first
  exact ⟨found, ran⟩

end RiscvVp.Iss
