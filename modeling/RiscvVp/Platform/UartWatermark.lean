/-
# RiscvVp.Platform.UartWatermark -- the interrupts of the FIFOs

An interrupt is pending where the transmit queue is shorter than one mark, or the receive queue longer than
another.  Whoever turns that on notifies the event that `interrupt` waits for, and `interrupt` looks again.  A
write to a control register notifies when it lowers the mark.  For the transmitter it is raising it that turns
the interrupt on; and both look at the word behind the data pointer instead of what the register will hold, which
a write of one or two bytes makes something else.
-/
import RiscvVp.Platform.Uart

namespace RiscvVp.Uart

set_option autoImplicit false

open Lib

/-- `UART_TXWM`. -/
def txwm : BitVec 32 := 1

/-- `UART_RXWM`. -/
def rxwm : BitVec 32 := 2

namespace AbstractUart

variable (s : AbstractUart)

/-- The interrupts as a read of `ip` computes them. -/
def ip : BitVec 32 :=
  (if s.txFifo.length < ctrlCnt (s.reg .txctrl) then txwm else 0) |||
    if ctrlCnt (s.reg .rxctrl) < s.rxFifo.length then rxwm else 0

/-- Whether `interrupt` triggers the interrupt of the UART. -/
def interrupt : Bool :=
  (s.reg .ie &&& rxwm != 0 && decide (ctrlCnt (s.reg .rxctrl) < s.rxFifo.length)) ||
    (s.reg .ie &&& txwm != 0 && decide (s.txFifo.length < ctrlCnt (s.reg .txctrl)))

/-- Whether a step of a thread notifies the event of `interrupt`. -/
def notifies : Action → Bool
  | .pushRx => true
  | .popTx => true
  | .write .txctrl _ _ nv => ctrlCnt nv < ctrlCnt (s.reg .txctrl)
  | .write .rxctrl _ _ nv => ctrlCnt nv < ctrlCnt (s.reg .rxctrl)
  | .write .ie _ _ _ => true
  | _ => false

def Pending : Prop := s.reg .ie &&& s.ip ≠ 0

instance : Decidable s.Pending := inferInstanceAs (Decidable (_ ≠ _))

end AbstractUart

/-! ## The device with its event -/

/-- A thread takes a step, or the kernel runs `interrupt`. -/
inductive Event where
  | thread (a : Action)
  | interrupt

structure Device where
  uart : AbstractUart
  /-- The event was notified, and `interrupt` has not run since. -/
  scheduled : Bool

/-- What came of an event, from which state. -/
structure Turn where
  before : AbstractUart
  after : AbstractUart
  notified : Bool
  triggered : Bool

namespace Device

def step (s : Device) : Event → Except Fault (Turn × Device)
  | .thread a =>
      (Uart.step s.uart a).map fun (_, t) =>
        (⟨s.uart, t, s.uart.notifies a, false⟩, ⟨t, s.scheduled || s.uart.notifies a⟩)
  | .interrupt =>
      if s.scheduled then .ok (⟨s.uart, s.uart, false, s.uart.interrupt⟩, ⟨s.uart, false⟩)
      else .error .blocked

def init : Device where
  uart := Uart.init
  scheduled := false

end Device

/-- A step that turns an interrupt on notifies, and `interrupt` triggers what it finds turned on. -/
def Seen (turn : Event × Turn) : Prop :=
  match turn.1 with
  | .thread _ => ¬ turn.2.before.Pending → turn.2.after.Pending → turn.2.notified = true
  | .interrupt => turn.2.before.Pending → turn.2.triggered = true

/-- What the write leaves a mark at turns no enabled interrupt on, or the word behind the data pointer has a
lower mark than the register. -/
def Harmless (s : AbstractUart) (off len : Nat) (nv : BitVec 32) : Reg → Prop
  | .txctrl => s.reg .ie &&& txwm ≠ 0 →
      AbstractUart.ctrlCnt (s.written .txctrl off len nv) ≤ s.txFifo.length ∨
        AbstractUart.ctrlCnt nv < AbstractUart.ctrlCnt (s.reg .txctrl)
  | .rxctrl => s.reg .ie &&& rxwm ≠ 0 →
      s.rxFifo.length ≤ AbstractUart.ctrlCnt (s.written .rxctrl off len nv) ∨
        AbstractUart.ctrlCnt nv < AbstractUart.ctrlCnt (s.reg .rxctrl)
  | _ => True

/-- Where nothing is pending every write is harmless. -/
def Unraised (turn : Event × Turn) : Prop :=
  ∀ r off len nv, turn.1 = .thread (.write r off len nv) → ¬ turn.2.before.Pending →
    Harmless turn.2.before off len nv r

/-! ## One step -/

namespace AbstractUart

variable {s t : AbstractUart}

theorem and_ite_eq_zero_iff {c : Prop} [Decidable c] (x y : BitVec 32) :
    (x &&& if c then y else 0) = 0#32 ↔ (x &&& y ≠ 0 → ¬ c) := by
  split
  case isTrue holds => simp [holds]
  case isFalse fails => simp [fails]

theorem pending_iff : s.Pending ↔
    (s.reg .ie &&& txwm ≠ 0 ∧ s.txFifo.length < ctrlCnt (s.reg .txctrl)) ∨
      (s.reg .ie &&& rxwm ≠ 0 ∧ ctrlCnt (s.reg .rxctrl) < s.rxFifo.length) := by
  unfold Pending ip
  rw [BitVec.and_or_distrib_left]
  change ¬ _ = 0#32 ↔ _
  rw [BitVec.or_eq_zero_iff, and_ite_eq_zero_iff, and_ite_eq_zero_iff]
  tauto

/-- `interrupt` finds what is pending. -/
theorem interrupt_iff : s.interrupt = true ↔ s.Pending := by
  rw [pending_iff]
  unfold interrupt
  simp only [Bool.or_eq_true, Bool.and_eq_true, bne_iff_ne, decide_eq_true_iff]
  exact or_comm

/-- More to send, less to read and the same marks turn nothing on. -/
theorem pending_frame (marks : t.reg .ie = s.reg .ie ∧ t.reg .txctrl = s.reg .txctrl ∧ t.reg .rxctrl = s.reg .rxctrl)
    (tx : s.txFifo.length ≤ t.txFifo.length) (rx : t.rxFifo.length ≤ s.rxFifo.length) (on : t.Pending) :
    s.Pending := by
  obtain ⟨ie, txctrl, rxctrl⟩ := marks
  rw [pending_iff] at on ⊢
  rw [ie, txctrl, rxctrl] at on
  exact on.imp (And.imp_right tx.trans_lt) (And.imp_right fun short => short.trans_le rx)

theorem setReg_other {q r : Reg} (other : q ≠ r) (value : BitVec 32) : (s.setReg r value).reg q = s.reg q :=
  if_neg other

end AbstractUart

section Step

variable {s t : AbstractUart}

/-- A write to the control register of the transmitter. -/
theorem notifies_txctrl_iff {value : BitVec 32} {notified : Prop} (off : ¬ s.Pending) :
    ((s.setReg .txctrl value).Pending → notified) ↔
      (s.reg .ie &&& txwm ≠ 0 → AbstractUart.ctrlCnt value ≤ s.txFifo.length ∨ notified) := by
  have after : (s.setReg .txctrl value).Pending ↔
      s.reg .ie &&& txwm ≠ 0 ∧ s.txFifo.length < AbstractUart.ctrlCnt value := by
    rw [AbstractUart.pending_iff] at off ⊢
    exact or_iff_left fun rx => off (.inr rx)
  rw [after, and_imp, ← Nat.not_lt]
  exact forall_congr' fun _ => imp_iff_not_or

/-- A write to that of the receiver. -/
theorem notifies_rxctrl_iff {value : BitVec 32} {notified : Prop} (off : ¬ s.Pending) :
    ((s.setReg .rxctrl value).Pending → notified) ↔
      (s.reg .ie &&& rxwm ≠ 0 → s.rxFifo.length ≤ AbstractUart.ctrlCnt value ∨ notified) := by
  have after : (s.setReg .rxctrl value).Pending ↔
      s.reg .ie &&& rxwm ≠ 0 ∧ AbstractUart.ctrlCnt value < s.rxFifo.length := by
    rw [AbstractUart.pending_iff] at off ⊢
    exact or_iff_right fun tx => off (.inl tx)
  rw [after, and_imp, ← Nat.not_lt]
  exact forall_congr' fun _ => imp_iff_not_or

/-- The other writes turn nothing on. -/
theorem pending_write {r : Reg} {off len : Nat} {nv : BitVec 32} (other : r ≠ .ie ∧ r ≠ .txctrl ∧ r ≠ .rxctrl)
    (on : (s.write r off len nv).2.Pending) : s.Pending := by
  obtain ⟨ie, txctrl, rxctrl⟩ := other
  have marks : (s.write r off len nv).2.reg = (s.setReg r (s.written r off len nv)).reg := by
    unfold AbstractUart.write
    dsimp only
    split
    case h_1 => split <;> rfl
    case h_2 => rfl
  have tx : s.txFifo.length ≤ (s.write r off len nv).2.txFifo.length := by
    unfold AbstractUart.write
    dsimp only
    split
    case h_1 =>
      split
      case isTrue => exact Nat.le_refl _
      case isFalse =>
        dsimp only
        rw [List.length_append]
        exact Nat.le_add_right _ _
    case h_2 => exact Nat.le_refl _
  have rx : (s.write r off len nv).2.rxFifo = s.rxFifo := by
    unfold AbstractUart.write
    dsimp only
    split
    case h_1 => split <;> rfl
    case h_2 => rfl
  refine AbstractUart.pending_frame ?_ tx (Nat.le_of_eq (congrArg List.length rx)) on
  rw [marks]
  exact ⟨AbstractUart.setReg_other ie.symm _, AbstractUart.setReg_other txctrl.symm _,
    AbstractUart.setReg_other rxctrl.symm _⟩

/-- A read takes at most a byte from the host's. -/
theorem pending_read {r : Reg} (on : (s.read r).2.Pending) : s.Pending := by
  cases r with
  | txdata => exact AbstractUart.pending_frame ⟨rfl, rfl, rfl⟩ (Nat.le_refl _) (Nat.le_refl _) on
  | rxdata =>
    have same : (s.read .rxdata).2.reg .ie = s.reg .ie ∧ (s.read .rxdata).2.reg .txctrl = s.reg .txctrl ∧
        (s.read .rxdata).2.reg .rxctrl = s.reg .rxctrl ∧ (s.read .rxdata).2.txFifo = s.txFifo ∧
        (s.read .rxdata).2.rxFifo.length ≤ s.rxFifo.length := by
      unfold AbstractUart.read
      cases queue : s.rxFifo with
      | nil => exact ⟨rfl, rfl, rfl, rfl, Nat.le_of_eq (congrArg List.length queue)⟩
      | cons data rest => exact ⟨rfl, rfl, rfl, rfl, Nat.le_succ _⟩
    obtain ⟨ie, txctrl, rxctrl, tx, rx⟩ := same
    exact AbstractUart.pending_frame ⟨ie, txctrl, rxctrl⟩ (Nat.le_of_eq (congrArg List.length tx.symm)) rx on
  | ip => exact AbstractUart.pending_frame ⟨rfl, rfl, rfl⟩ (Nat.le_refl _) (Nat.le_refl _) on
  | _ => exact on

/-- A step that is no write to a control register notifies when it turns an interrupt on. -/
theorem notifies_other {a : Action} {b : Answer} (ran : Uart.step s a = .ok (b, t))
    (other : ∀ off len nv, a ≠ .write .txctrl off len nv ∧ a ≠ .write .rxctrl off len nv) (off : ¬ s.Pending)
    (on : t.Pending) : s.notifies a = true := by
  have framed (marks : t.reg .ie = s.reg .ie ∧ t.reg .txctrl = s.reg .txctrl ∧ t.reg .rxctrl = s.reg .rxctrl)
      (tx : s.txFifo.length ≤ t.txFifo.length) (rx : t.rxFifo.length ≤ s.rxFifo.length) :
      s.notifies a = true := absurd (AbstractUart.pending_frame marks tx rx on) off
  cases step_did ran with
  | pushRx => rfl
  | popTx => rfl
  | read => exact absurd (pending_read on) off
  | @write r from_ len nv _ _ =>
    cases r with
    | ie => rfl
    | txctrl => exact absurd rfl (other from_ len nv).1
    | rxctrl => exact absurd rfl (other from_ len nv).2
    | _ => exact absurd (pending_write (s := s) ⟨by decide, by decide, by decide⟩ on) off
  | _ => exact framed ⟨rfl, rfl, rfl⟩ (Nat.le_refl _) (Nat.le_refl _)

/-- One step of a thread. -/
theorem seen_thread_iff {a : Action} {b : Answer} (ran : Uart.step s a = .ok (b, t)) :
    Seen (.thread a, ⟨s, t, s.notifies a, false⟩) ↔ Unraised (.thread a, ⟨s, t, s.notifies a, false⟩) := by
  -- the writes to the control registers are decided by what they leave there
  have write {r : Reg} {from_ len : Nat} {nv : BitVec 32} (same : a = .write r from_ len nv) :
      Unraised (.thread a, ⟨s, t, s.notifies a, false⟩) ↔ (¬ s.Pending → Harmless s from_ len nv r) := by
    subst same
    refine ⟨fun unraised => unraised r from_ len nv rfl, fun harmless q from' len' nv' same => ?_⟩
    cases same
    exact harmless
  by_cases txctrl : ∃ from_ len nv, a = .write .txctrl from_ len nv
  case pos =>
    obtain ⟨from_, len, nv, rfl⟩ := txctrl
    cases step_did ran
    rw [write rfl]
    refine forall_congr' fun off => (notifies_txctrl_iff off).trans ?_
    exact forall_congr' fun _ => or_congr_right decide_eq_true_iff
  by_cases rxctrl : ∃ from_ len nv, a = .write .rxctrl from_ len nv
  case pos =>
    obtain ⟨from_, len, nv, rfl⟩ := rxctrl
    cases step_did ran
    rw [write rfl]
    refine forall_congr' fun off => (notifies_rxctrl_iff off).trans ?_
    exact forall_congr' fun _ => or_congr_right decide_eq_true_iff
  have other : ∀ from_ len nv, a ≠ .write .txctrl from_ len nv ∧ a ≠ .write .rxctrl from_ len nv :=
    fun from_ len nv => ⟨fun same => txctrl ⟨from_, len, nv, same⟩, fun same => rxctrl ⟨from_, len, nv, same⟩⟩
  refine iff_of_true (notifies_other ran other) fun r from_ len nv same _ => ?_
  cases same
  cases r with
  | txctrl => exact absurd rfl (other from_ len nv).1
  | rxctrl => exact absurd rfl (other from_ len nv).2
  | _ => trivial

end Step

/-! ## Runs -/

theorem seen_iff_unraised {s t : Device} {e : Event} {turn : Turn} (ran : Device.step s e = .ok (turn, t)) :
    Seen (e, turn) ↔ Unraised (e, turn) := by
  cases e with
  | thread a =>
    obtain ⟨⟨b, u⟩, took, same⟩ := ok_of_map ran
    cases same
    exact seen_thread_iff took
  | interrupt =>
    obtain ⟨_, took⟩ := ok_of_guard ran
    cases took
    have triggers : s.uart.Pending → s.uart.interrupt = true := AbstractUart.interrupt_iff.mpr
    refine iff_of_true triggers fun r off len nv same => ?_
    cases same

/-- In every run, whatever the order of the threads, no interrupt that a step turns on is missed if and only if
no write leaves a mark that turns one on without a lower mark behind its data pointer. -/
theorem watermarks_iff {log : List (Event × Turn)} {s : Device}
    (run : Runs Device.step (fun _ _ => True) Device.init log s) :
    (∀ turn ∈ log, Seen turn) ↔ ∀ turn ∈ log, Unraised turn := by
  have each : ∀ turn ∈ log, Seen turn ↔ Unraised turn :=
    run.invariant_log (I := fun log _ => ∀ turn ∈ log, Seen turn ↔ Unraised turn)
      (fun _ none => absurd none List.not_mem_nil)
      fun before _ ran => List.forall_mem_append.mpr ⟨before, List.forall_mem_singleton.mpr (seen_iff_unraised ran)⟩
  exact forall₂_congr each

/-- A driver that sets the mark first and enables the interrupt behind it gets its interrupt. -/
theorem watermarks_enabled_last : ∃ log s, Runs Device.step (fun _ _ => True) Device.init log s ∧
    (∀ turn ∈ log, Seen turn) ∧ ∃ turn ∈ log, turn.2.triggered = true := by
  have run : Runs Device.step (fun _ _ => True) Device.init
      [(.thread (.write .txctrl 0 4 0x10000), _), (.thread (.write .ie 0 4 1), _), (.interrupt, _)] _ :=
    ((Runs.start.next trivial rfl).next trivial rfl).next trivial rfl
  refine ⟨_, _, run, (watermarks_iff run).mpr ?_, (.interrupt, _), .tail _ (.tail _ (.head _)), rfl⟩
  intro turn member r off len nv same _
  simp only [List.mem_cons, List.not_mem_nil, or_false] at member
  rcases member with rfl | rfl | rfl
  · cases same
    exact fun enabled => absurd rfl enabled
  · cases same
    trivial
  · cases same

/-- One that enables it first never does: the queue is shorter than the new mark, and nobody looks. -/
theorem not_watermarks : ¬ ∀ log s, Runs Device.step (fun _ _ => True) Device.init log s →
    ∀ turn ∈ log, Seen turn := by
  intro all
  have run : Runs Device.step (fun _ _ => True) Device.init
      [(.thread (.write .ie 0 4 1), _), (.interrupt, _), (.thread (.write .txctrl 0 4 0x10000), _)] _ :=
    ((Runs.start.next trivial rfl).next trivial rfl).next trivial rfl
  have seen := all _ _ run _ (.tail _ (.tail _ (.head _)))
  exact absurd (seen (by decide) (by decide)) (by decide)

/-- Nor does one that lowers the mark of the receiver by a halfword with the old mark behind it. -/
theorem not_watermarks_halfword : ¬ ∀ log s, Runs Device.step (fun _ _ => True) Device.init log s →
    ∀ turn ∈ log, Seen turn := by
  intro all
  have run : Runs Device.step (fun _ _ => True) Device.init
      [(.thread (.write .rxctrl 0 4 0x10000), _), (.thread (.write .ie 0 4 2), _), (.thread (.rxpush 0x41), _),
        (.thread .waitRxempty, _), (.thread .pushRx, _), (.interrupt, _),
        (.thread (.write .rxctrl 2 2 0x10000), _)] _ :=
    ((((((Runs.start.next trivial rfl).next trivial rfl).next trivial rfl).next trivial rfl).next
      trivial rfl).next trivial rfl).next trivial rfl
  have seen := all _ _ run _ (List.mem_of_getLast? rfl)
  exact absurd (seen (by decide) (by decide)) (by decide)

/-- The interrupt was triggered, and has been pending since. -/
def Answered (log : List (Event × Turn)) : Prop :=
  ∃ before turn after, log = before ++ (.interrupt, turn) :: after ∧ turn.triggered = true ∧
    ∀ later ∈ after, later.2.before.Pending

/-- Behind a run where no step was missed, what is pending is about to be looked at or was answered. -/
theorem scheduled_or_answered {log : List (Event × Turn)} {s : Device}
    (run : Runs Device.step (fun _ _ => True) Device.init log s) (seen : ∀ turn ∈ log, Seen turn)
    (pending : s.uart.Pending) : s.scheduled = true ∨ Answered log := by
  induction run with
  | start => exact absurd pending (by decide)
  | @next log s t e turn run _ ran ih =>
    obtain ⟨earlier, now⟩ := List.forall_mem_append.mp seen
    have now : Seen (e, turn) := List.forall_mem_singleton.mp now
    cases e with
    | thread a =>
      obtain ⟨⟨b, u⟩, took, same⟩ := ok_of_map ran
      cases same
      by_cases before : s.uart.Pending
      case neg =>
        have notified : s.uart.notifies a = true := now before pending
        exact .inl (Bool.or_eq_true_iff.mpr (.inr notified))
      case pos =>
        refine (ih earlier before).imp (fun waiting => Bool.or_eq_true_iff.mpr (.inl waiting)) ?_
        rintro ⟨first, answer, rest, rfl, triggered, since⟩
        refine ⟨first, answer, rest ++ [_], List.append_assoc _ _ _, triggered, ?_⟩
        exact List.forall_mem_append.mpr ⟨since, List.forall_mem_singleton.mpr before⟩
    | interrupt =>
      obtain ⟨_, took⟩ := ok_of_guard ran
      cases took
      have triggered : s.uart.interrupt = true := AbstractUart.interrupt_iff.mpr pending
      exact .inr ⟨log, _, [], rfl, triggered, fun _ none => absurd none List.not_mem_nil⟩

end RiscvVp.Uart
