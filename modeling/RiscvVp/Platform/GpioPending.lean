/-
# RiscvVp.Platform.GpioPending -- acknowledging interrupts of the GPIO controller

A guest that writes ones to a pending register means to acknowledge those pins.  The register is
inverted and written as a whole, so the pins where it writes a zero become pending: this is what was
meant as long as they are pending already (`Acknowledges`).  `able` are the edges that may fire as
the writes and the triggers of a run say, and along runs of such writes the registers are that.
-/
import RiscvVp.Lib.Runs
import RiscvVp.Platform.GpioEdges

namespace RiscvVp.Gpio

set_option autoImplicit false

open Lib RegisterMapping

/-- The server changes a pin, the kernel calls `synchronousChange`, the guest makes an access. -/
inductive Input where
  | change (bit : Fin 64) (val : BitVec 8)
  | synchronous (reads : List (BitVec 64 × BitVec 64))
  | access (trans : Payload) (data : ByteMemory)

def step (base : BitVec 32) (s : GpioState) : Input → Except Fault (List Trigger × GpioState)
  | .change bit val => .ok ([], asyncOnchange bit val s)
  | .synchronous reads => .ok ((synchronousChange base reads s).2, (synchronousChange base reads s).1)
  | .access payload data => (transport payload data s).map ([], ·)

/-! ## What the registers stand for -/

/-- The pins whose edge was triggered. -/
def fired (e : Edge) : List Trigger → BitVec 32
  | [] => 0
  | call :: triggers => (if call.edge = e then 1#32 <<< call.pin else 0) ||| fired e triggers

/-- The access writes to the pending register of the edge. -/
def Hits (e : Edge) (trans : Payload) : Prop :=
  trans.cmd = .write ∧ trans.address - trans.address % 4 = e.pending.addr

instance (e : Edge) (trans : Payload) : Decidable (Hits e trans) := inferInstanceAs (Decidable (_ ∧ _))

/-- The pins that are written, and those of them that are acknowledged. -/
def written (e : Edge) : Input → BitVec 32
  | .access payload _ => if Hits e payload then payload.field.set (BitVec.allOnes _) 0 else 0
  | _ => 0

def acknowledged (e : Edge) : Input → BitVec 32
  | .access payload data => if Hits e payload then payload.field.set (data.read 0 payload.length) 0 else 0
  | _ => 0

/-- Triggering an edge takes its pin away, acknowledging brings it back. -/
def record (e : Edge) (able : BitVec 32) (entry : Input × List Trigger) : BitVec 32 :=
  able &&& ~~~fired e entry.2 ||| acknowledged e entry.1

/-- The pins whose edge may fire. -/
def able (e : Edge) (log : List (Input × List Trigger)) : BitVec 32 := log.foldl (record e) 0xffffffff

/-- Every pin where the guest writes a zero is pending. -/
def Acknowledges (s : GpioState) (input : Input) : Prop :=
  ∀ e : Edge, s.reg e.pending &&& written e input &&& ~~~acknowledged e input = 0

variable {base : BitVec 32} {s t : GpioState} {e : Edge} {trans : Payload} {data : ByteMemory}
  {triggers : List Trigger} {j : Nat}

/-! ## Writes of the guest -/

theorem addr_inj {q q' : Reg} (same : q.addr = q'.addr) : q = q' := by
  revert same
  cases q <;> cases q' <;> decide

theorem find_bank {a : BitVec 64} {r : RegMapping Reg} (found : find bank a = some r) :
    ∃ q : Reg, r = mapping q ∧ q.addr = a := by
  obtain ⟨among, here⟩ := of_find found
  obtain ⟨q, -, rfl⟩ := List.mem_map.mp among
  exact ⟨q, rfl, here⟩

theorem pending_ne_value (e : Edge) : e.pending ≠ .value := by
  cases e <;> nofun

theorem and_mask (x : BitVec 32) (q : Reg) : x &&& (mapping q).mask = x := BitVec.and_allOnes

/-- The callback changes a pending register through `fn` alone. -/
theorem callback_pending {q : Reg} (proper : Proper bank (mapping q) trans)
    (ran : (registerAccessCallback (access (mapping q) trans s)).run s = (.ok (), t)) :
    t.reg e.pending = if trans.cmd = .write ∧ q = e.pending then
      trans.field.set (s.data.read 0 trans.length) (s.reg e.pending) else s.reg e.pending := by
  by_cases ignored : (access (mapping q) trans s).write = true ∧ (access (mapping q) trans s).vptr = .value
  case pos =>
    simp only [registerAccessCallback] at ran
    rw [if_pos ignored] at ran
    cases ran
    rw [if_neg fun both => pending_ne_value e (both.2.symm.trans ignored.2)]
  case neg =>
    simp only [registerAccessCallback] at ran
    rw [if_neg ignored] at ran
    obtain ⟨bak, u, backed, ran⟩ := Exec.run_bind_eq_ok.mp ran
    cases backed
    obtain ⟨_, u, performed, ran⟩ := Exec.run_bind_eq_ok.mp ran
    -- what comes behind `fn` changes the value and the server
    have after : t.reg e.pending = u.reg e.pending := by
      by_cases write : (access (mapping q) trans s).write = true
      case neg =>
        rw [Exec.when_neg write] at ran
        cases ran
        rfl
      case pos =>
        rw [Exec.when_pos write] at ran
        by_cases port : (access (mapping q) trans s).vptr = .port
        · rw [if_pos port] at ran
          cases ran
          exact State.set_reg_of_ne (pending_ne_value e)
        · rw [if_neg port] at ran
          by_cases pullup : (access (mapping q) trans s).vptr = .pullupEn
          · rw [if_pos pullup] at ran
            cases ran
            exact State.set_reg_of_ne (pending_ne_value e)
          · rw [if_neg pullup] at ran
            cases ran
            rfl
    rw [after]
    rcases proper.mode with ⟨read, can⟩ | ⟨write, can⟩
    · have fn := (run_performAccess_read read can).symm.trans performed
      cases fn
      rw [if_neg (by simp [read])]
    · have fn := (run_performAccess_write write can).symm.trans performed
      cases fn
      rw [and_mask]
      by_cases here : q = e.pending
      · subst here
        rw [if_pos ⟨write, rfl⟩]
        exact State.set_reg_self
      · rw [if_neg fun both => here both.2]
        exact State.set_reg_of_ne (Ne.symm here)

theorem transport_pending (ran : transport trans data s = .ok t) :
    t.reg e.pending = if Hits e trans then trans.field.set (data.read 0 trans.length) (s.reg e.pending)
      else s.reg e.pending := by
  unfold transport at ran
  cases performed : (RegisterMapping.transport bank registerAccessCallback trans).run { s with data := data } with
  | mk result u =>
    rw [performed] at ran
    cases result with
    | error _ => cases ran
    | ok =>
      cases ran
      obtain ⟨r, proper, called⟩ := transport_ok performed
      obtain ⟨q, rfl, place⟩ := find_bank proper.found
      rw [callback_pending proper called]
      refine if_congr ?_ rfl rfl
      unfold Hits
      rw [← place]
      exact and_congr_right fun _ => ⟨fun same => same ▸ rfl, addr_inj⟩

/-! ## The loop -/

theorem getLsbD_fired : (fired e triggers).getLsbD j =
    decide (j < 32 ∧ ∃ call ∈ triggers, call.edge = e ∧ call.pin = j) := by
  induction triggers with
  | nil => simp [fired]
  | cons call triggers ih =>
    have bit : (if call.edge = e then 1#32 <<< call.pin else 0).getLsbD j =
        decide (j < 32 ∧ call.edge = e ∧ call.pin = j) := by
      by_cases edge : call.edge = e
      · rw [if_pos edge, ← BitVec.twoPow_eq, BitVec.getLsbD_twoPow]
        by_cases same : call.pin = j
        · subst same
          simp [edge]
        · simp [edge, same]
      · simp [edge]
    rw [fired, BitVec.getLsbD_or, bit, ih]
    by_cases inside : j < 32
    · simp [inside]
    · simp [inside]

theorem fired_append (more : List Trigger) : fired e (triggers ++ more) = fired e triggers ||| fired e more := by
  induction triggers with
  | nil => exact (BitVec.zero_or).symm
  | cons call triggers ih => rw [List.cons_append, fired, fired, ih, BitVec.or_assoc]

theorem nothing_fired : s.reg e.pending = s.reg e.pending &&& ~~~fired e [] := by
  rw [fired, show ~~~(0 : BitVec 32) = BitVec.allOnes 32 from rfl, BitVec.and_allOnes]

theorem updated_pending : (updated base s).1.reg e.pending = s.reg e.pending &&& ~~~fired e (updated base s).2 := by
  have law : LoopLaw base s.device.state (difference s) (List.range 32) s []
      (changePins base s.device.state (difference s) s) := changePins_law
  apply BitVec.eq_of_getLsbD_eq
  intro j inside
  rw [updated, State.set_reg_of_ne (pending_ne_value e), law.pending, BitVec.getLsbD_and, BitVec.getLsbD_not,
    getLsbD_fired, decide_eq_true inside, Bool.true_and, law.triggers, List.nil_append]
  congr 2
  refine decide_eq_decide.mpr ?_
  constructor
  · rintro ⟨among, detected, edge⟩
    exact ⟨inside, _, List.mem_map.mpr ⟨j, List.mem_filter.mpr ⟨among, decide_eq_true detected⟩, rfl⟩, edge, rfl⟩
  · rintro ⟨-, call, listed, edge, pin⟩
    obtain ⟨i, among, rfl⟩ := List.mem_map.mp listed
    obtain ⟨among, detected⟩ := List.mem_filter.mp among
    cases pin
    exact ⟨among, of_decide_eq_true detected, edge⟩

theorem synchronousChange_pending (reads : List (BitVec 64 × BitVec 64)) :
    (synchronousChange base reads s).1.reg e.pending =
      s.reg e.pending &&& ~~~fired e (synchronousChange base reads s).2 := by
  induction reads generalizing s with
  | nil =>
    rw [synchronousChange_steady (by simp)]
    split
    · exact nothing_fired
    · exact updated_pending
  | cons read reads ih =>
    have unfolded : synchronousChange base (read :: reads) s = if difference s = 0 then (s, [])
        else if s.device.state = read.1 then updated base s
        else
          let again := synchronousChange base reads { (updated base s).1 with device := ⟨read.2⟩ }
          (again.1, (updated base s).2 ++ again.2) := rfl
    rw [unfolded]
    split
    · exact nothing_fired
    · split
      · exact updated_pending
      · simp only
        rw [ih, fired_append]
        change (updated base s).1.reg e.pending &&& _ = _
        rw [updated_pending, BitVec.not_or, BitVec.and_assoc]

/-! ## Runs of acknowledging writes -/

/-- Where the zeros that are written were zeros, writing is adding the ones. -/
theorem field_set_eq_or {len : Nat} {f : Field len} {bytes : BitVec len} {x : BitVec 32}
    (fine : x &&& f.set (BitVec.allOnes len) 0 &&& ~~~f.set bytes 0 = 0) : f.set bytes x = x ||| f.set bytes 0 := by
  apply BitVec.eq_of_getLsbD_eq
  intro j inside
  have bit := congrArg (BitVec.getLsbD · j) fine
  simp only [BitVec.getLsbD_and, BitVec.getLsbD_not, Field.getLsbD_set, inside, decide_true, Bool.true_and] at bit
  rw [BitVec.getLsbD_or, Field.getLsbD_set, Field.getLsbD_set, decide_eq_true inside, Bool.true_and]
  by_cases covered : f.Covers j
  case neg =>
    rw [if_neg covered, if_neg covered]
    simp
  case pos =>
    have within : j - f.lo < len := by
      unfold Field.Covers at covered
      omega
    rw [if_pos covered, if_pos covered]
    rw [if_pos covered, if_pos covered, BitVec.getLsbD_allOnes, decide_eq_true within] at bit
    cases one : bytes.getLsbD (j - f.lo) with
    | true => simp
    | false => simpa [one] using bit.symm

theorem record_nothing {able : BitVec 32} {input : Input} (nothing : acknowledged e input = 0) :
    record e able (input, []) = able := by
  rw [record, nothing, fired, show ~~~(0 : BitVec 32) = BitVec.allOnes 32 from rfl, BitVec.and_allOnes]
  exact BitVec.or_zero

theorem record_step {input : Input} (fine : Acknowledges s input)
    (ran : step base s input = .ok (triggers, t)) :
    t.reg e.pending = record e (s.reg e.pending) (input, triggers) := by
  cases input with
  | change bit val =>
    cases ran
    have kept : (asyncOnchange bit val s).reg = s.reg := by
      unfold asyncOnchange
      split_ifs <;> rfl
    rw [kept, record_nothing rfl]
  | synchronous reads =>
    cases ran
    rw [synchronousChange_pending]
    exact BitVec.or_zero.symm
  | access payload data =>
    obtain ⟨u, moved, same⟩ := ok_of_map ran
    cases same
    have wrote := fine e
    rw [transport_pending moved]
    simp only [written, acknowledged] at wrote
    simp only [record, acknowledged]
    split
    case isTrue hits =>
      rw [if_pos hits, if_pos hits] at wrote
      rw [← nothing_fired, field_set_eq_or wrote]
    case isFalse =>
      rw [← nothing_fired]
      exact BitVec.or_zero.symm

theorem able_of_runs {log : List (Input × List Trigger)} (run : Runs (step base) Acknowledges init log t) (e : Edge) :
    t.reg e.pending = able e log := by
  refine run.invariant_log (I := fun log t => t.reg e.pending = able e log) ?_ ?_
  · cases e <;> rfl
  · intro log t input triggers u kept fine ran
    rw [record_step fine ran, kept, able, able, List.foldl_append]
    rfl

def wordAt (value : BitVec 32) : ByteMemory := ByteMemory.write (fun _ => 0) 0 4 value

/-- A word to the pending register. -/
def toPending (e : Edge) : Payload := ⟨.write, e.pending.addr, 4⟩

theorem proper_toPending (e : Edge) : Proper bank (mapping e.pending) (toPending e) := by
  cases e
  · exact ⟨rfl, by decide, .inr ⟨rfl, rfl⟩⟩
  · exact ⟨rfl, by decide, .inr ⟨rfl, rfl⟩⟩

theorem run_callback_toPending (s : GpioState) (e : Edge) :
    (registerAccessCallback (access (mapping e.pending) (toPending e) s)).run s =
      (.ok (), s.set e.pending (s.data.read 0 4)) := by
  have fn : (access (mapping e.pending) (toPending e) s).fn.run s = (.ok (), s.set e.pending (s.data.read 0 4)) := by
    change (performAccess (mapping e.pending) (toPending e)).run s = _
    have aligned : (toPending e).off = 0 := by cases e <;> rfl
    rw [run_performAccess_write rfl rfl, field_set_word rfl aligned, and_mask]
    rfl
  have writes : (access (mapping e.pending) (toPending e) s).write = true := rfl
  have other : (access (mapping e.pending) (toPending e) s).vptr ≠ .port ∧
      (access (mapping e.pending) (toPending e) s).vptr ≠ .pullupEn := by
    cases e <;> exact ⟨nofun, nofun⟩
  simp only [registerAccessCallback]
  rw [if_neg fun both => pending_ne_value e both.2, Exec.run_read_bind, Exec.run_bind_ok fn, Exec.when_pos writes,
    if_neg other.1, if_neg other.2]
  rfl

/-- It is stored as it is, and that is all that happens. -/
theorem step_toPending (e : Edge) (data : ByteMemory) : step base s (.access (toPending e) data) =
    .ok ([], { s with data := data }.set e.pending (data.read 0 4)) := by
  simp only [step, transport]
  rw [run_transport (proper_toPending e) (run_callback_toPending { s with data := data } e)]
  rfl

theorem or_eq_iff {w : Nat} {x m : BitVec w} : m = x ||| m ↔ x &&& ~~~m = 0 := by
  constructor
  · intro same
    rw [same, BitVec.not_or, ← BitVec.and_assoc, BitVec.and_not_self]
    exact BitVec.zero_and
  · intro fine
    apply BitVec.eq_of_getLsbD_eq
    intro j inside
    have bit := congrArg (BitVec.getLsbD · j) fine
    simp only [BitVec.getLsbD_and, BitVec.getLsbD_not, inside, decide_true, Bool.true_and] at bit
    rw [BitVec.getLsbD_or]
    cases one : m.getLsbD j with
    | true => rw [Bool.or_true]
    | false => simpa [one] using bit.symm

/-- Along runs of acknowledging writes the pending registers are what the writes and the triggers
make them, and a word that is written next clears the pins of its ones and no others if it
acknowledges every pin that may fire. -/
theorem pending_of_runs {log : List (Input × List Trigger)} (run : Runs (step base) Acknowledges init log t) :
    (∀ e, t.reg e.pending = able e log) ∧ ∀ e data, ∃ u, step base t (.access (toPending e) data) = .ok ([], u) ∧
      (u.reg e.pending = t.reg e.pending ||| data.read 0 4 ↔ t.reg e.pending &&& ~~~data.read 0 4 = 0) := by
  refine ⟨able_of_runs run, fun e data => ⟨_, step_toPending e data, ?_⟩⟩
  rw [State.set_reg_self]
  exact or_eq_iff

/-- Behind an acknowledgement of all pins. -/
theorem acknowledged_all : (({ init with data := wordAt 0xffffffff } : GpioState).set .riseIntrPending 0xffffffff).reg
    .riseIntrPending = able .rise [(.access (toPending .rise) (wordAt 0xffffffff), [])] := by
  have ran : step 32 init (.access (toPending .rise) (wordAt 0xffffffff)) =
      .ok ([], ({ init with data := wordAt 0xffffffff } : GpioState).set .riseIntrPending 0xffffffff) :=
    step_toPending .rise (wordAt 0xffffffff)
  have fine : Acknowledges init (.access (toPending .rise) (wordAt 0xffffffff)) := by
    rintro (_ | _) <;> rfl
  exact (pending_of_runs (Runs.start.next fine ran)).1 .rise

/-- The rising edges of pins 2 and 3 are enabled, pin 2 is acknowledged, and pin 3 goes up. -/
def acknowledgeTwo : List (Input × List Trigger) :=
  [(.access ⟨.write, 0x4, 4⟩ (wordAt 0xc), []), (.access ⟨.write, 0x18, 4⟩ (wordAt 0xc), []),
    (.access (toPending .rise) (wordAt 4), []), (.change 3 1, []), (.synchronous [], [])]

/-- The edge of pin 3 may fire, and is not triggered. -/
theorem not_pending_of_runs : ∃ t, Runs (step 32) (fun _ _ => True) init acknowledgeTwo t ∧
    t.reg .riseIntrPending = 4 ∧ able .rise acknowledgeTwo = 0xffffffff := by
  have run : Runs (step 32) (fun _ _ => True) init acknowledgeTwo _ :=
    ((((Runs.start.next trivial rfl).next trivial rfl).next trivial rfl).next trivial rfl).next trivial rfl
  exact ⟨_, run, by decide, by decide⟩

end RiscvVp.Gpio
