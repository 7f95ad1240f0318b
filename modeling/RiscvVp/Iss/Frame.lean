/-
# RiscvVp.Iss.Frame -- what the parts of an instruction leave alone

Two transitions of the core.  `Still` is what everything does that comes before an
instruction takes effect: checks, translations, loads, reads of a CSR.  Registers, CSRs
and the privilege level stay as they are, and nothing is written to the world but flags
of page-table entries.  `Plain` is what every instruction does that is neither a write
of a CSR by a CSR instruction nor a trap return: the privilege level and the CSRs stay,
but for the counters, `fcsr` and the bits of `mstatus` that say that FP registers are in
use.  Both raise an error about a privilege level only when there is no such level.
-/
import RiscvVp.Iss.Exec
import RiscvVp.Iss.Backing
import RiscvVp.Iss.Translate

namespace RiscvVp

set_option autoImplicit false

open Lib Transition

/-! ## The world -/

section World

variable {World : Type}

/-- `w'` is reached from `w` without a write of data: by waits, by taking and giving back
the bus lock, by reads, by transactions that were refused, and by setting flags in a
page-table entry right after reading it. -/
inductive Untouched (plat : Platform World) : World → World → Prop where
  | refl (w : World) : Untouched plat w w
  | trans {w₁ w₂ w₃ : World} :
      Untouched plat w₁ w₂ → Untouched plat w₂ w₃ → Untouched plat w₁ w₃
  | wait {hart : BitVec 64} {w w' : World} :
      plat.waitForAccessRights hart w = some w' → Untouched plat w w'
  | lock {hart : BitVec 64} {w w' : World} : plat.lock hart w = some w' → Untouched plat w w'
  | unlock (hart : BitVec 64) (w : World) : Untouched plat w (plat.unlock hart w)
  | busRead (addr : BitVec 64) (n : Nat) (w : World) :
      Untouched plat w (plat.busRead addr n w).2
  | dmiRead (e : MemoryDMI) (addr : BitVec 64) (n : Nat) (w : World) :
      Untouched plat w (plat.dmiRead e addr n w).2
  | refused {addr : BitVec 64} {n : Nat} {value : BitVec (8 * n)} {w w' : World} :
      plat.busWrite addr n value w = (false, w') → Untouched plat w w'
  | updateAndGetMtime (w : World) : Untouched plat w (plat.updateAndGetMtime w).2
  | waitForInterrupt {w w' : World} : plat.waitForInterrupt w = some w' → Untouched plat w w'
  | flags {hart addr : BitVec 64} {n : Nat} {pte : BitVec (8 * n)} {type : MemoryAccessType}
      {r : Except Exc Unit} {w w₁ w₂ : World} : n = 4 ∨ n = 8 →
      (plat.rawLoadData hart addr n).run w = (.ok pte, w₁) →
      (plat.rawStoreData hart addr 4 ((pte.setWidth 64 ||| adBits type).setWidth 32)).run w₁ =
        (r, w₂) → Untouched plat w w₂

/-- The two errors about privilege levels. -/
def LevelError : Exc → Prop
  | .abort .unknownPrivilegeLevel | .abort .mmuMode => True
  | _ => False

/-- An access to the world of `plat` raises no such error. -/
def Ordinary (_ : Platform World) (_ : World) (o : Option Exc) (_ : World) : Prop :=
  ∀ e, o = some e → ¬ LevelError e

instance (plat : Platform World) : Closed (Ordinary plat) where
  refl _ := nofun
  trans _ second := second

/-- ... and this one writes no data. -/
def Gentle (plat : Platform World) (w : World) (o : Option Exc) (w' : World) : Prop :=
  Untouched plat w w' ∧ Ordinary plat w o w'

instance (plat : Platform World) : Closed (Gentle plat) where
  refl w := ⟨.refl w, Closed.refl w⟩
  trans first second := ⟨first.1.trans second.1, Closed.trans first.2 second.2⟩

variable (plat : Platform World)

instance {α : Type} (m : Exec World Exc α) [gentle : Sat (Gentle plat) m] : Sat (Ordinary plat) m :=
  gentle.mono And.right

theorem gentle_await {wait : World → Option World}
    (harmless : ∀ w w', wait w = some w' → Untouched plat w w') :
    Sat (Gentle plat) (Platform.await wait) where
  holds w := by
    cases answer : wait w with
    | none =>
      rw [Platform.run_await_none answer]
      exact ⟨.refl w, fun _ same => by cases same; exact id⟩
    | some w' =>
      rw [Platform.run_await_some answer]
      exact ⟨harmless w w' answer, nofun⟩

instance (hart : BitVec 64) :
    Sat (Gentle plat) (Platform.await (plat.waitForAccessRights hart)) :=
  gentle_await plat fun _ _ => .wait

instance (hart : BitVec 64) : Sat (Gentle plat) (Platform.await (plat.lock hart)) :=
  gentle_await plat fun _ _ => .lock

instance : Sat (Gentle plat) (Platform.await plat.waitForInterrupt) :=
  gentle_await plat fun _ _ => .waitForInterrupt

instance (addr : BitVec 64) (n : Nat) : Sat (Gentle plat) (plat.busLoad addr n) where
  holds w := by
    have reached : Untouched plat w (plat.busRead addr n w).2 := .busRead addr n w
    cases answer : plat.busRead addr n w with
    | mk data w' =>
      rw [answer] at reached
      cases data with
      | none =>
        rw [Platform.run_busLoad_none answer]
        exact ⟨reached, fun _ same => by cases same; exact id⟩
      | some data =>
        rw [Platform.run_busLoad_some answer]
        exact ⟨reached, nofun⟩

instance (e : MemoryDMI) (addr : BitVec 64) (n : Nat) :
    Sat (Gentle plat) (Platform.dmiCheck e addr n : Exec World Exc Unit) := by
  unfold Platform.dmiCheck
  refine .ite (fun _ => inferInstance) fun _ => .raise fun w => ?_
  exact ⟨.refl w, fun _ same => by cases same; exact id⟩

instance (e : MemoryDMI) (addr : BitVec 64) (n : Nat) : Sat (Gentle plat) (plat.dmiLoad e addr n) := by
  have read : Sat (Gentle plat) (Exec.call (plat.dmiRead e addr n)) :=
    .call fun w => ⟨.dmiRead e addr n w, nofun⟩
  unfold Platform.dmiLoad
  infer_instance

instance (hart addr : BitVec 64) (n : Nat) : Sat (Gentle plat) (plat.rawLoadData hart addr n) := by
  unfold Platform.rawLoadData
  split <;> infer_instance

instance (hart : BitVec 64) :
    Sat (Gentle plat) (Exec.update (plat.unlock hart) : Exec World Exc Unit) :=
  .update fun w => ⟨.unlock hart w, nofun⟩

instance (addr : BitVec 64) (n : Nat) (value : BitVec (8 * n)) :
    Sat (Ordinary plat) (plat.busStore addr n value) where
  holds w := by
    cases answer : plat.busWrite addr n value w with
    | mk accepted w' =>
      cases accepted with
      | false =>
        rw [Platform.run_busStore_false answer]
        exact fun _ same => by cases same; exact id
      | true =>
        rw [Platform.run_busStore_true answer]
        exact nofun

instance (f : World → World) : Sat (Ordinary plat) (Exec.update f : Exec World Exc Unit) :=
  .update fun _ => nofun

instance (addr : BitVec 64) (n : Nat) (value : BitVec (8 * n)) (ranges : List MemoryDMI) :
    Sat (Ordinary plat) (plat.dmiStores addr n value ranges) := by
  induction ranges with
  | nil =>
    unfold Platform.dmiStores
    infer_instance
  | cons e ranges ih =>
    unfold Platform.dmiStores Platform.dmiStore
    infer_instance

instance (hart addr : BitVec 64) (n : Nat) (value : BitVec (8 * n)) :
    Sat (Ordinary plat) (plat.rawStoreData hart addr n value) := by
  unfold Platform.rawStoreData
  infer_instance

end World

namespace Iss

variable {isa : Isa} {World : Type}

/-! ## The two transitions -/

/-- A level that exists. -/
def KnownLevel (level : PrivilegeLevel) : Prop :=
  level = userMode ∨ level = supervisorMode ∨ level = machineMode

/-- The level of the core, and the one that `mprv` can put in its place, exist. -/
def KnownLevels (s : Iss isa World) : Prop :=
  KnownLevel s.prv ∧ KnownLevel (Mstatus.mpp.get (s.csrs.reg .mstatus))

structure Still (plat : Platform World) (s : Iss isa World) (o : Option Exc) (t : Iss isa World) :
    Prop where
  regs : t.regs = s.regs
  fpRegs : t.fpRegs = s.fpRegs
  lastPc : t.lastPc = s.lastPc
  prv : t.prv = s.prv
  reg : t.csrs.reg = s.csrs.reg
  world : Untouched plat s.world t.world
  levels : ∀ e, o = some e → LevelError e → ¬ KnownLevels s

theorem Still.knownLevels {plat : Platform World} {s t : Iss isa World} {o : Option Exc}
    (still : Still plat s o t) : KnownLevels t ↔ KnownLevels s := by
  unfold KnownLevels
  rw [still.prv, still.reg]

instance (plat : Platform World) : Closed (@Still isa World plat) where
  refl _ := ⟨rfl, rfl, rfl, rfl, rfl, .refl _, nofun⟩
  trans first second :=
    { regs := second.regs.trans first.regs
      fpRegs := second.fpRegs.trans first.fpRegs
      lastPc := second.lastPc.trans first.lastPc
      prv := second.prv.trans first.prv
      reg := second.reg.trans first.reg
      world := first.world.trans second.world
      levels := fun e ended bad known => second.levels e ended bad (first.knownLevels.mpr known) }

/-- The bits of `mstatus` that an FP instruction sets. -/
def FpStatus (isa : Isa) (i : Nat) : Prop := Mstatus.fs.Covers i ∨ (Mstatus.sd isa).Covers i

instance (isa : Isa) (i : Nat) : Decidable (FpStatus isa i) :=
  inferInstanceAs (Decidable (_ ∨ _))

theorem fpStatus_high {i : Nat} (fp : FpStatus isa i) : 13 ≤ i := by
  rcases fp with ⟨above, -⟩ | ⟨above, -⟩
  · exact above
  · cases isa
    · exact Nat.le_trans (by decide) above
    · exact Nat.le_trans (by decide) above

structure Plain (_ : Platform World) (s : Iss isa World) (o : Option Exc) (t : Iss isa World) :
    Prop where
  prv : t.prv = s.prv
  reg : ∀ c, c ≠ .mstatus → c ≠ .fcsr → t.csrs.reg c = s.csrs.reg c
  status : ∀ i, ¬ FpStatus isa i →
    (t.csrs.reg .mstatus).getLsbD i = (s.csrs.reg .mstatus).getLsbD i
  levels : ∀ e, o = some e → LevelError e → ¬ KnownLevels s

theorem mpp_of_status {x y : Word isa}
    (same : ∀ i, ¬ FpStatus isa i → x.getLsbD i = y.getLsbD i) :
    Mstatus.mpp.get x = Mstatus.mpp.get y := by
  apply Field.get_congr
  intro i covered
  apply same
  obtain ⟨low, high⟩ : 11 ≤ i ∧ i < 13 := covered
  intro fp
  have above := fpStatus_high fp
  omega

theorem Plain.knownLevels {plat : Platform World} {s t : Iss isa World} {o : Option Exc}
    (plain : Plain plat s o t) : KnownLevels t ↔ KnownLevels s := by
  unfold KnownLevels
  rw [plain.prv, mpp_of_status plain.status]

instance (plat : Platform World) : Closed (@Plain isa World plat) where
  refl _ := ⟨rfl, fun _ _ _ => rfl, fun _ _ => rfl, nofun⟩
  trans first second :=
    { prv := second.prv.trans first.prv
      reg := fun c a b => (second.reg c a b).trans (first.reg c a b)
      status := fun i free => (second.status i free).trans (first.status i free)
      levels := fun e ended bad known => second.levels e ended bad (first.knownLevels.mpr known) }

section Rules

variable {α : Type} (plat : Platform World)

instance (m : IssM isa World α) [still : Sat (Still plat) m] : Sat (Plain plat) m :=
  still.mono fun step => ⟨step.prv, fun c _ _ => congrFun step.reg c, fun _ _ => by rw [step.reg],
    step.levels⟩

instance (m : Exec World Exc α) [gentle : Sat (Gentle plat) m] :
    Sat (Still plat) (onWorld m : IssM isa World α) where
  holds s := ⟨rfl, rfl, rfl, rfl, rfl, (gentle.holds s.world).1,
    fun e ended bad => absurd bad ((gentle.holds s.world).2 e ended)⟩

instance (m : Exec World Exc α) [ordinary : Sat (Ordinary plat) m] :
    Sat (Plain plat) (onWorld m : IssM isa World α) where
  holds s := ⟨rfl, fun _ _ _ => rfl, fun _ _ => rfl,
    fun e ended bad => absurd bad (ordinary.holds s.world e ended)⟩

/-- An update of what neither transition speaks of. -/
theorem still_update {f : Iss isa World → Iss isa World}
    (same : ∀ s, (f s).regs = s.regs ∧ (f s).fpRegs = s.fpRegs ∧ (f s).lastPc = s.lastPc ∧
      (f s).prv = s.prv ∧ (f s).csrs.reg = s.csrs.reg ∧ (f s).world = s.world) :
    Sat (Still plat) (Exec.update f : IssM isa World Unit) :=
  .update fun s =>
    let ⟨regs, fpRegs, lastPc, prv, reg, world⟩ := same s
    ⟨regs, fpRegs, lastPc, prv, reg, by rw [world]; exact .refl _, nofun⟩

end Rules

end Iss

end RiscvVp
