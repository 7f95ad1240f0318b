/-
# RiscvVp.Iss.Satp -- the translation mode in a run

The RV64 core knows the modes BARE, SV39 and SV48.  A write of `satp` with another one is
turned down by putting back the mode field; the page number that came with it stays.  So the
mode is one of the three in every state, and a walk never meets an unknown one, but a write
that is turned down is not without effect.
-/
import RiscvVp.Iss.CsrWrite
import RiscvVp.Iss.Modes

namespace RiscvVp

set_option autoImplicit false

open Lib Transition

namespace Satp

/-- The modes that the RV64 core takes. -/
def Supported (mode : Nat) : Prop := mode = bare ∨ mode = sv39 ∨ mode = sv48

instance (mode : Nat) : Decidable (Supported mode) := inferInstanceAs (Decidable (_ ∨ _))

def modeField : Field 4 := ⟨60⟩

theorem mode_eq (satp : Word .rv64) : mode satp = (modeField.get satp).toNat := rfl

/-- A mode that the core takes, and nothing outside the mask. -/
def Valid (satp : Word .rv64) : Prop :=
  Supported (mode satp) ∧ satp &&& ~~~Mask.satp .rv64 = 0

instance (satp : Word .rv64) : Decidable (Valid satp) := inferInstanceAs (Decidable (_ ∧ _))

/-- `satp` takes the value of a write with a supported mode, and keeps its own otherwise. -/
def AllOrNothing (before value after : Word .rv64) : Prop :=
  (Supported (mode value) → after = value &&& Mask.satp .rv64) ∧
    (¬ Supported (mode value) → after = before)

end Satp

namespace Iss

open Satp

variable {World : Type}

/-! ## The value after a write -/

section Value

variable (before value : Word .rv64)

theorem mode_maskedWrite : mode (maskedWrite before value (Mask.satp .rv64)) = mode value := by
  have inside : ∀ i < 64, 60 ≤ i → (Mask.satp .rv64).getLsbD i = true := by decide
  rw [mode_eq, mode_eq]
  congr 1
  apply Field.get_congr
  rintro i ⟨low, high⟩
  rw [getLsbD_maskedWrite, if_pos (inside i high low)]

variable {before value}

theorem satpWritten_taken (supported : Supported (mode value)) :
    satpWritten before value = maskedWrite before value (Mask.satp .rv64) := by
  unfold satpWritten
  dsimp only
  rw [mode_maskedWrite, if_neg]
  rintro ⟨bare, sv39, sv48⟩
  rcases supported with own | own | own
  · exact bare own
  · exact sv39 own
  · exact sv48 own

theorem satpWritten_rejected (unsupported : ¬ Supported (mode value)) :
    satpWritten before value =
      modeField.set (modeField.get before) (maskedWrite before value (Mask.satp .rv64)) := by
  unfold satpWritten
  dsimp only
  rw [mode_maskedWrite, if_pos]
  · rfl
  · exact ⟨fun own => unsupported (.inl own), fun own => unsupported (.inr (.inl own)),
      fun own => unsupported (.inr (.inr own))⟩

theorem mode_satpWritten : mode (satpWritten before value) =
    if Supported (mode value) then mode value else mode before := by
  split
  case isTrue supported => rw [satpWritten_taken supported, mode_maskedWrite]
  case isFalse unsupported =>
    rw [satpWritten_rejected unsupported, mode_eq, Field.get_set (by decide), mode_eq]

/-- Bit by bit: the mode of a write that is turned down is put back, the rest of the mask is
written. -/
theorem getLsbD_satpWritten (i : Nat) : (satpWritten before value).getLsbD i =
    if (Mask.satp .rv64).getLsbD i = true ∧ (Supported (mode value) ∨ i < 60) then value.getLsbD i
    else before.getLsbD i := by
  by_cases supported : Supported (mode value)
  · rw [satpWritten_taken supported, getLsbD_maskedWrite]
    simp [supported]
  rw [satpWritten_rejected supported, Field.getLsbD_set, getLsbD_maskedWrite]
  by_cases covered : modeField.Covers i
  · have high : 60 ≤ i := covered.1
    have bound : i < 64 := covered.2
    have back : (modeField.get before).getLsbD (i - 60) = before.getLsbD i := by
      rw [Field.getLsbD_get]
      show (decide (i - 60 < 4) && before.getLsbD (60 + (i - 60))) = before.getLsbD i
      rw [Nat.add_sub_cancel' high, decide_eq_true (by omega), Bool.true_and]
    rw [if_pos covered, if_neg (by rintro ⟨-, inside | below⟩ <;> [exact supported inside; omega])]
    show (decide (i < 64) && (modeField.get before).getLsbD (i - 60)) = before.getLsbD i
    rw [back, decide_eq_true bound, Bool.true_and]
  · rw [if_neg covered]
    by_cases writable : (Mask.satp .rv64).getLsbD i = true
    · have below : i < 60 := by
        by_contra high
        have bound : ∀ i, 64 ≤ i → (Mask.satp .rv64).getLsbD i = false :=
          fun i large => BitVec.getLsbD_of_ge _ i large
        have inside : i < 64 := by
          by_contra large
          rw [bound i (by omega)] at writable
          cases writable
        exact covered ⟨by show 60 ≤ i; omega, inside⟩
      rw [if_pos writable, if_pos ⟨writable, .inr below⟩]
    · rw [if_neg writable, if_neg fun both => writable both.1]

theorem valid_outside (valid : Valid before) {i : Nat} (hidden : (Mask.satp .rv64).getLsbD i = false) :
    before.getLsbD i = false := by
  by_cases bound : i < 64
  · have zero := congrArg (fun x => x.getLsbD i) valid.2
    rw [BitVec.getLsbD_and, BitVec.getLsbD_not, hidden, decide_eq_true bound] at zero
    simpa using zero
  · exact BitVec.getLsbD_of_ge _ i (Nat.le_of_not_lt bound)

theorem valid_satpWritten (valid : Valid before) : Valid (satpWritten before value) := by
  refine ⟨?_, ?_⟩
  · rw [mode_satpWritten]
    split
    · assumption
    · exact valid.1
  · apply BitVec.eq_of_getLsbD_eq
    intro i bound
    rw [BitVec.getLsbD_and, BitVec.getLsbD_not, getLsbD_satpWritten]
    cases hidden : (Mask.satp .rv64).getLsbD i
    · simp [valid_outside valid hidden]
    · simp

/-- A write that is turned down has an effect unless it comes with the page number that is
there. -/
theorem allOrNothing_satpWritten (valid : Valid before) :
    AllOrNothing before value (satpWritten before value) ↔
      Supported (mode value) ∨ value.extractLsb' 0 44 = before.extractLsb' 0 44 := by
  have page : ∀ i < 44, (Mask.satp .rv64).getLsbD i = true := by decide
  have gap : ∀ i < 60, 44 ≤ i → (Mask.satp .rv64).getLsbD i = false := by decide
  constructor
  · intro both
    refine or_iff_not_imp_left.mpr fun unsupported => ?_
    apply BitVec.eq_of_getLsbD_eq
    intro i bound
    have kept := congrArg (fun x => x.getLsbD i) (both.2 unsupported)
    simp only [getLsbD_satpWritten] at kept
    rw [if_pos ⟨page i bound, .inr (by omega)⟩] at kept
    simpa [bound] using kept
  · intro fine
    refine ⟨fun supported => ?_, fun unsupported => ?_⟩
    · apply BitVec.eq_of_getLsbD_eq
      intro i bound
      rw [getLsbD_satpWritten, BitVec.getLsbD_and]
      cases hidden : (Mask.satp .rv64).getLsbD i
      · simp [valid_outside valid hidden]
      · simp [supported]
    · have same := fine.resolve_left unsupported
      apply BitVec.eq_of_getLsbD_eq
      intro i bound
      rw [getLsbD_satpWritten]
      split
      case isFalse => rfl
      case isTrue written =>
        have below : i < 60 := written.2.resolve_left unsupported
        have low : i < 44 := by
          by_contra high
          rw [gap i below (by omega)] at written
          cases written.1
        have bit := congrArg (fun x => x.getLsbD i) same
        simpa [low] using bit

end Value

/-- A write is refused under `tvm`, and otherwise changes `satp` alone. -/
theorem run_setCsrValue_satp (value : Word .rv64) (s : Iss .rv64 World) :
    (setCsrValue CsrAddr.satp.addr value).run s =
        (raiseIllegalInstruction : IssM .rv64 World Unit).run s ∨
      (setCsrValue CsrAddr.satp.addr value).run s =
        (.ok (), s.setCsr .satp (satpWritten (s.csrs.reg .satp) value)) := by
  have named : CsrAddr.named CsrAddr.satp.addr = some .satp := by decide
  unfold setCsrValue
  rw [named]
  unfold setNamedCsr
  rw [run_readField_bind]
  split
  · exact .inl rfl
  · exact .inr (run_writeSatp_rv64 value s)

/-! ## What a step does to it -/

/-- A valid `satp` stays so, and with one there is no error about an unknown mode. -/
structure Satped (s : Iss .rv64 World) (o : Option Exc) (t : Iss .rv64 World) : Prop where
  valid : Valid (s.csrs.reg .satp) → Valid (t.csrs.reg .satp)
  known : o = some (.abort .unknownSatpMode) → ¬ Valid (s.csrs.reg .satp)

instance : Closed (@Satped World) where
  refl _ := ⟨id, nofun⟩
  trans first second :=
    ⟨fun valid => second.valid (first.valid valid), fun ended valid => second.known ended (first.valid valid)⟩

theorem satped_of_same {s t : Iss .rv64 World} {o : Option Exc}
    (same : t.csrs.reg .satp = s.csrs.reg .satp) (other : o ≠ some (.abort .unknownSatpMode)) :
    Satped s o t := ⟨fun valid => by rwa [same], fun ended => absurd ended other⟩

instance : Checks (@Satped World) where
  trap _ _ _ _ := satped_of_same rfl nofun
  rethrow _ _ _ _ step := ⟨step.valid, nofun⟩
  abort s cause explained := ⟨id, fun ended valid => by
    cases ended
    rcases valid.1 with mode | mode | mode
    · exact explained _ (by decide) mode
    · exact explained _ (by decide) mode
    · exact explained _ (by decide) mode⟩
  scratch _ _ _ _ := satped_of_same rfl nofun
  issue _ _ _ := satped_of_same rfl nofun
  move _ _ := satped_of_same rfl nofun
  cycle := .bind inferInstance fun _ => .update fun _ => satped_of_same rfl nofun

instance : Indifferent (@Satped World) where
  refused _ _ _ _ := satped_of_same rfl nofun
  world _ _ := satped_of_same rfl nofun
  stuck _ _ e stuck := satped_of_same rfl fun same => by
    rcases stuck with rfl | rfl <;> cases same
  counter _ k _ _ := satped_of_same (by cases k <;> rfl) nofun
  reservation _ _ _ := satped_of_same rfl nofun
  mode _ _ _ := satped_of_same rfl nofun
  csr s c value own := satped_of_same
    (setCsr_reg_of_ne s (fun same => by rw [← same] at own; cases own) value) nofun
  status s value _ := satped_of_same (setCsr_reg_of_ne s (by decide) value) nofun

section Steps

variable (plat : Platform World)

instance : Writes (@Satped World) where
  reg _ _ _ := satped_of_same rfl nofun
  exit _ := satped_of_same rfl nofun

instance : FpWrites (@Satped World) where
  reg _ _ _ := satped_of_same rfl nofun
  flags _ _ := satped_of_same rfl nofun
  dirty := ⟨fun _ => satped_of_same rfl nofun⟩
  accrue _ := .update fun s => satped_of_same (setCsr_reg_of_ne s (by decide) _) nofun

/-- Only its own address writes it. -/
theorem cell_satp {a : CsrAddr} (own : a.cell .rv64 = some (.reg .satp)) : a = .satp := by
  cases a
  case satp => rfl
  case pmpcfg i =>
    revert i
    decide
  all_goals cases own

theorem satped_setCsrValue (addr : BitVec 12) (value : Word .rv64) :
    Sat Satped (setCsrValue addr value : IssM .rv64 World Unit) where
  holds s := by
    rcases setCsrValue_cases addr value with illegal | ⟨a, named, write⟩
    · rw [illegal]
      exact Sat.holds s
    by_cases own : a = .satp
    · subst own
      subst named
      rcases run_setCsrValue_satp value s with refused | written
      · rw [refused]
        exact Sat.holds s
      · rw [written]
        refine ⟨fun valid => ?_, nofun⟩
        rw [setCsr_reg_self]
        exact valid_satpWritten valid
    · have step := (written_setNamedCsr a value).holds s
      rw [write]
      refine satped_of_same ?_ fun ended => ?_
      · apply BitVec.eq_of_getLsbD_eq
        intro i _
        exact step.kept .satp i fun both => own (cell_satp both.1)
      · obtain ⟨reason, trap⟩ := step.trap _ ended
        cases trap

theorem satped_runStep (s : Iss .rv64 World) : SatAt Satped (runStep plat) s := by
  have performance := sat_performance plat Satped (Locks.counter plat) fun _ _ =>
    satped_of_same rfl nofun
  have forget : ∀ {s e t}, @Satped World s (some (.trap e)) t → Satped s none t :=
    fun step => ⟨step.valid, nofun⟩
  refine (stepParts_of_modes plat Satped performance forget).runStep ?_
  refine satAt_execStep inferInstance fun u _ _ => satAt_exec plat Satped (fun csr => ?_)
    fun float => .of_sat (sat_exec_float _ plat float)
  exact satAt_exec_csr Satped (fun _ _ _ => .of_sat (satped_setCsrValue _ _)) csr

end Steps

/-! ## Runs -/

/-- In every state of a run the mode is one that the core takes and nothing outside the mask
is set; a write is all or nothing exactly when its mode is one of those, or it brings the page
number that is there; and the step from there meets no unknown mode. -/
theorem satp_of_run {plat : Platform World} {s : Iss .rv64 World} (reached : Reachable plat s) :
    Valid (s.csrs.reg .satp) ∧
    (∀ value t, (setCsrValue CsrAddr.satp.addr value).run s = (.ok (), t) →
      (AllOrNothing (s.csrs.reg .satp) value (t.csrs.reg .satp) ↔ Supported (mode value) ∨
        value.extractLsb' 0 44 = (s.csrs.reg .satp).extractLsb' 0 44)) ∧
    ∀ t, (runStep plat).run s ≠ (.error (.abort .unknownSatpMode), t) := by
  have valid : Valid (s.csrs.reg .satp) := by
    refine @ReachableBy.invariant _ _ plat _ (fun s => Valid (s.csrs.reg .satp)) ?_ ?_ ?_ s reached
    · intros
      exact (by decide : Valid 0)
    · exact fun valid _ ran => ((satped_runStep plat _).ok ran).valid valid
    · exact fun _ _ _ _ valid => valid
  refine ⟨valid, fun value t ran => ?_, fun t ran => ((satped_runStep plat s).error ran).known rfl valid⟩
  rcases run_setCsrValue_satp value s with refused | written
  · rw [refused] at ran
    cases ran
  · rw [written] at ran
    cases ran
    rw [setCsr_reg_self]
    exact allOrNothing_satpWritten valid

/-- SV39 with the page 1, out of reset. -/
theorem satp_of_reset : Valid ((everywhere 0x13).csrs.reg .satp) ∧
    AllOrNothing ((everywhere 0x13).csrs.reg .satp) 0x8000000000000001#64
      (((setCsrValue CsrAddr.satp.addr 0x8000000000000001#64).run (everywhere 0x13)).2.csrs.reg
        .satp) := by
  obtain ⟨valid, write, -⟩ :=
    @satp_of_run Flat Flat.platform (everywhere 0x13) ⟨0, false, 0, 0, _, false, .start⟩
  exact ⟨valid, (write 0x8000000000000001#64 _ (Prod.ext (by decide) rfl)).mpr (.inl (by decide))⟩

/-- A mode that is turned down, with a page number that is not. -/
theorem satp_rejected_write : ¬ ∀ s : Iss .rv64 Flat, Reachable Flat.platform s → ∀ value t,
    (setCsrValue CsrAddr.satp.addr value).run s = (.ok (), t) →
      AllOrNothing (s.csrs.reg .satp) value (t.csrs.reg .satp) := by
  intro allOrNothing
  have reached : Reachable Flat.platform (everywhere 0x13) := ⟨0, false, 0, 0, _, false, .start⟩
  have kept := (allOrNothing _ reached 0x1000000000000001#64 _ (Prod.ext (by decide) rfl)).2
    (by decide)
  exact absurd kept (by decide)

end Iss

end RiscvVp
