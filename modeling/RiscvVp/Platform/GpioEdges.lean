/-
# RiscvVp.Platform.GpioEdges -- which interrupts the change of a pin triggers

One pass of the loop changes the pending bit of its own pin and nothing else, so that each pin is
judged by the registers as the call has found them (`LoopLaw`).  A call where the server stands
still then detects exactly the edges that are enabled and not pending (`Detects`), and there is
nothing left to detect for the next one.
-/
import RiscvVp.Platform.Gpio

namespace RiscvVp.Gpio

set_option autoImplicit false

open Lib RegisterMapping

variable {base : BitVec 32} {snapshot : BitVec 64} {diff : BitVec 32} {s t : GpioState} {done : List Trigger}
  {pins : List Nat} {i j : Nat} {e : Edge}

/-- The edge of a pin that has changed to the level of the server. -/
def edgeOf (snapshot : BitVec 64) (i : Nat) : Edge := if snapshot.getLsbD i then .rise else .fall

/-- Enabled, and not pending. -/
def Armed (s : GpioState) (e : Edge) (i : Nat) : Prop :=
  (s.reg e.enable).getLsbD i = true ∧ (s.reg e.pending).getLsbD i = true

instance : Decidable (Armed s e i) := inferInstanceAs (Decidable (_ ∧ _))

/-- The pin changed, and its edge is armed. -/
def Detected (snapshot : BitVec 64) (diff : BitVec 32) (s : GpioState) (i : Nat) : Prop :=
  diff.getLsbD i = true ∧ Armed s (edgeOf snapshot i) i

instance : DecidablePred (Detected snapshot diff s) := fun _ => inferInstanceAs (Decidable (_ ∧ _))

def trigger (base : BitVec 32) (snapshot : BitVec 64) (i : Nat) : Trigger :=
  ⟨edgeOf snapshot i, i, base + BitVec.ofNat 32 i⟩

def markPending (s : GpioState) (e : Edge) (i : Nat) : GpioState :=
  s.set e.pending (s.reg e.pending &&& ~~~(1#32 <<< i))

/-! ## One pass -/

theorem pending_inj {e e' : Edge} (same : e.pending = e'.pending) : e = e' := by
  cases e <;> cases e' <;> first | rfl | cases same

theorem enable_ne_pending (e e' : Edge) : e.enable ≠ e'.pending := by
  cases e <;> cases e' <;> nofun

@[simp] theorem markPending_device : (markPending s e i).device = s.device := rfl

@[simp] theorem markPending_data : (markPending s e i).data = s.data := rfl

theorem markPending_reg_of_ne {r : Reg} (other : r ≠ e.pending) : (markPending s e i).reg r = s.reg r :=
  State.set_reg_of_ne other

theorem getLsbD_markPending {e' : Edge} : ((markPending s e i).reg e'.pending).getLsbD j =
    ((s.reg e'.pending).getLsbD j && !decide (j = i ∧ e' = e)) := by
  by_cases same : e' = e
  case neg =>
    have other : e'.pending ≠ e.pending := fun clash => same (pending_inj clash)
    rw [markPending_reg_of_ne other]
    simp [same]
  case pos =>
    subst same
    have stored : (markPending s e' i).reg e'.pending = s.reg e'.pending &&& ~~~(1#32 <<< i) := State.set_reg_self
    rw [stored, BitVec.getLsbD_and, BitVec.getLsbD_not, ← BitVec.twoPow_eq, BitVec.getLsbD_twoPow]
    by_cases inside : j < 32
    · by_cases here : j = i
      · subst here
        simp [inside]
      · simp [inside, here, Ne.symm here]
    · rw [BitVec.getLsbD_of_ge _ j (Nat.le_of_not_lt inside)]
      simp

/-- The nested tests of the loop, as one. -/
theorem changePin_eq (inside : i < 32) : changePin base snapshot diff (s, done) i =
    if Detected snapshot diff s i then
      (markPending s (edgeOf snapshot i) i, done ++ [trigger base snapshot i])
    else (s, done) := by
  have fires : ∀ e, fire base e i (s, done) =
      if Armed s e i then (markPending s e i, done ++ [⟨e, i, base + BitVec.ofNat 32 i⟩]) else (s, done) := by
    intro e
    unfold fire
    by_cases enabled : (s.reg e.enable).getLsbD i = true
    · by_cases armed : (s.reg e.pending).getLsbD i = true
      · rw [if_pos enabled, if_neg (by simp [armed]), if_pos ⟨enabled, armed⟩]
        rfl
      · rw [if_pos enabled, if_pos (by simpa [inside] using armed), if_neg fun both => armed both.2]
    · rw [if_neg enabled, if_neg fun both => enabled both.1]
  have edge : changePin base snapshot diff (s, done) i =
      if diff.getLsbD i = true then fire base (edgeOf snapshot i) i (s, done) else (s, done) := by
    unfold changePin edgeOf
    by_cases high : snapshot.getLsbD i = true
    · rw [if_pos high, if_pos high]
    · rw [if_neg high, if_neg high]
  rw [edge, fires]
  by_cases changed : diff.getLsbD i = true
  · by_cases armed : Armed s (edgeOf snapshot i) i
    · rw [if_pos changed, if_pos armed, if_pos ⟨changed, armed⟩]
      rfl
    · rw [if_pos changed, if_neg armed, if_neg fun both => armed both.2]
  · rw [if_neg changed, if_neg fun both => changed both.1]

/-! ## The loop -/

/-- What a loop over some of the pins makes of `s` and the triggers before it. -/
structure LoopLaw (base : BitVec 32) (snapshot : BitVec 64) (diff : BitVec 32) (pins : List Nat)
    (s : GpioState) (done : List Trigger) (u : GpioState × List Trigger) : Prop where
  triggers : u.2 = done ++ (pins.filter (Detected snapshot diff s)).map (trigger base snapshot)
  pending : ∀ e j, (u.1.reg e.pending).getLsbD j = ((s.reg e.pending).getLsbD j &&
    !decide (j ∈ pins ∧ Detected snapshot diff s j ∧ edgeOf snapshot j = e))
  others : ∀ r, (∀ e : Edge, r ≠ e.pending) → u.1.reg r = s.reg r
  device : u.1.device = s.device

/-- Another pin is as it was. -/
theorem detected_markPending (other : j ≠ i) :
    Detected snapshot diff (markPending s e i) j ↔ Detected snapshot diff s j := by
  unfold Detected Armed
  rw [getLsbD_markPending, markPending_reg_of_ne (enable_ne_pending _ _)]
  simp [other]

theorem loopLaw (distinct : pins.Nodup) (inside : ∀ i ∈ pins, i < 32) :
    LoopLaw base snapshot diff pins s done (pins.foldl (changePin base snapshot diff) (s, done)) := by
  induction pins generalizing s done with
  | nil => exact ⟨by simp, by simp, fun _ _ => rfl, rfl⟩
  | cons i pins ih =>
    obtain ⟨fresh, distinct⟩ := List.nodup_cons.mp distinct
    obtain ⟨here, inside⟩ := List.forall_mem_cons.mp inside
    rw [List.foldl_cons, changePin_eq here]
    by_cases detected : Detected snapshot diff s i
    case neg =>
      rw [if_neg detected]
      obtain ⟨triggers, pending, others, device⟩ := @ih s done distinct inside
      refine ⟨?_, fun e j => ?_, others, device⟩
      · rw [triggers, List.filter_cons_of_neg (by simpa using detected)]
      · rw [pending]
        by_cases first : j = i
        · subst first
          simp [fresh, detected]
        · simp [first]
    case pos =>
      rw [if_pos detected]
      obtain ⟨triggers, pending, others, device⟩ :=
        @ih (markPending s (edgeOf snapshot i) i) (done ++ [trigger base snapshot i]) distinct inside
      have same : pins.filter (Detected snapshot diff (markPending s (edgeOf snapshot i) i)) =
          pins.filter (Detected snapshot diff s) := by
        refine List.filter_congr fun j among => ?_
        have other : j ≠ i := fun clash => fresh (clash ▸ among)
        simp [detected_markPending other]
      refine ⟨?_, fun e j => ?_, fun r apart => ?_, device⟩
      · rw [triggers, same, List.filter_cons_of_pos (by simpa using detected), List.map_cons, List.append_assoc]
        rfl
      · rw [pending, getLsbD_markPending]
        by_cases first : j = i
        · subst first
          by_cases edge : edgeOf snapshot j = e
          · subst edge
            simp [detected]
          · simp [fresh, edge, Ne.symm edge]
        · simp [first, detected_markPending first]
      · rw [others r apart, markPending_reg_of_ne (apart _)]

theorem changePins_law : LoopLaw base snapshot diff (List.range 32) s [] (changePins base snapshot diff s) :=
  loopLaw List.nodup_range fun _ among => List.mem_range.mp among

/-! ## A call while the server stands still -/

/-- An input whose level is not the one that the server has for it, with its edge enabled and not
yet pending. -/
def Due (s : GpioState) (i : Nat) : Prop :=
  (s.reg .inputEn).getLsbD i = true ∧ s.device.state.getLsbD i ≠ (s.reg .value).getLsbD i ∧
    Armed s (edgeOf s.device.state i) i

instance : DecidablePred (Due s) := fun _ => inferInstanceAs (Decidable (_ ∧ _ ∧ _))

/-- The interrupts of the pins that are due, their edges marked, and the inputs as the server has them. -/
structure Detects (base : BitVec 32) (s t : GpioState) (triggers : List Trigger) : Prop where
  triggers : triggers = ((List.range 32).filter (Due s)).map (trigger base s.device.state)
  pending : ∀ e, ∀ i < 32, (t.reg e.pending).getLsbD i =
    ((s.reg e.pending).getLsbD i && !decide (Due s i ∧ edgeOf s.device.state i = e))
  inputs : ∀ i < 32, (s.reg .inputEn).getLsbD i = true → (t.reg .value).getLsbD i = s.device.state.getLsbD i
  others : ∀ r, r ≠ .value → (∀ e : Edge, r ≠ e.pending) → t.reg r = s.reg r
  device : t.device = s.device

theorem getLsbD_difference (inside : i < 32) : (difference s).getLsbD i =
    ((s.device.state.getLsbD i != (s.reg .value).getLsbD i) && (s.reg .inputEn).getLsbD i) := by
  unfold difference
  rw [BitVec.getLsbD_and, BitVec.getLsbD_xor, BitVec.getLsbD_setWidth, decide_eq_true inside, Bool.true_and]

theorem due_iff (inside : i < 32) : Detected s.device.state (difference s) s i ↔ Due s i := by
  unfold Detected Due
  rw [getLsbD_difference inside, Bool.and_eq_true, bne_iff_ne]
  tauto

theorem difference_eq_zero_iff : difference s = 0 ↔
    ∀ i < 32, (s.reg .inputEn).getLsbD i = true → (s.reg .value).getLsbD i = s.device.state.getLsbD i := by
  constructor
  · intro none i inside input
    have bit := getLsbD_difference (s := s) inside
    rw [none, input, Bool.and_true] at bit
    exact (by simpa using bit.symm : s.device.state.getLsbD i = _).symm
  · intro same
    apply BitVec.eq_of_getLsbD_eq
    intro i inside
    rw [getLsbD_difference inside]
    by_cases input : (s.reg .inputEn).getLsbD i = true
    · simp [same i inside input]
    · simp [input]

/-- Without a difference nothing is due. -/
theorem detects_of_equal (equal : difference s = 0) : Detects base s s [] := by
  have inputs := difference_eq_zero_iff.mp equal
  have nothing : ∀ i < 32, ¬ Due s i := by
    rintro i inside ⟨input, change, -⟩
    exact change (inputs i inside input).symm
  refine ⟨?_, fun e i inside => ?_, inputs, fun _ _ _ => rfl, rfl⟩
  · rw [List.filter_eq_nil_iff.mpr fun i among => ?_, List.map_nil]
    simpa using nothing i (List.mem_range.mp among)
  · simp [nothing i inside]

/-- An input that is no output takes the level of the server. -/
theorem getLsbD_newValue (input : (s.reg .inputEn).getLsbD i = true)
    (apart : s.reg .inputEn &&& s.reg .outputEn = 0) :
    (newValue snapshot s).getLsbD i = snapshot.getLsbD i := by
  have bit := congrArg (BitVec.getLsbD · i) apart
  simp only [BitVec.getLsbD_and, input, Bool.true_and] at bit
  have output : (s.reg .outputEn).getLsbD i = false := bit.trans (BitVec.getLsbD_zero)
  have inside : i < 32 := BitVec.lt_of_getLsbD input
  unfold newValue
  rw [BitVec.getLsbD_or, BitVec.getLsbD_and, BitVec.getLsbD_and, BitVec.getLsbD_setWidth, input, output,
    decide_eq_true inside, Bool.true_and, Bool.and_true, Bool.and_false, Bool.or_false]

/-- The pass over all pins with the update of the value behind it. -/
def updated (base : BitVec 32) (s : GpioState) : GpioState × List Trigger :=
  let u := changePins base s.device.state (difference s) s
  (u.1.set .value (newValue s.device.state u.1), u.2)

theorem detects_updated (apart : s.reg .inputEn &&& s.reg .outputEn = 0) :
    Detects base s (updated base s).1 (updated base s).2 := by
  have law : LoopLaw base s.device.state (difference s) (List.range 32) s []
      (changePins base s.device.state (difference s) s) := changePins_law
  obtain ⟨triggers, pending, others, device⟩ := law
  have inputEn : (changePins base s.device.state (difference s) s).1.reg .inputEn = s.reg .inputEn :=
    others _ (by rintro (_ | _) <;> nofun)
  have outputEn : (changePins base s.device.state (difference s) s).1.reg .outputEn = s.reg .outputEn :=
    others _ (by rintro (_ | _) <;> nofun)
  refine ⟨?_, fun e i inside => ?_, fun i _ input => ?_, fun r other apart => ?_, device⟩
  · rw [updated, triggers, List.nil_append]
    congr 1
    refine List.filter_congr fun i among => ?_
    exact decide_eq_decide.mpr (due_iff (List.mem_range.mp among))
  · rw [updated, State.set_reg_of_ne (by cases e <;> nofun), pending]
    simp only [List.mem_range, inside, true_and, due_iff inside]
  · rw [updated, State.set_reg_self]
    exact getLsbD_newValue (inputEn ▸ input) (by rw [inputEn, outputEn, apart])
  · rw [updated, State.set_reg_of_ne other, others r apart]

theorem synchronousChange_steady {reads : List (BitVec 64 × BitVec 64)} (steady : ∀ r ∈ reads, r.1 = s.device.state) :
    synchronousChange base reads s = if difference s = 0 then (s, []) else updated base s := by
  unfold synchronousChange
  refine if_congr Iff.rfl rfl ?_
  cases reads with
  | nil => rfl
  | cons read reads =>
    have same : s.device.state = read.1 := (steady read List.mem_cons_self).symm
    exact if_pos same

/-- A call during which the state of the server does not change, and the call behind it. -/
theorem synchronousChange_detects {reads : List (BitVec 64 × BitVec 64)}
    (apart : s.reg .inputEn &&& s.reg .outputEn = 0) (steady : ∀ r ∈ reads, r.1 = s.device.state) :
    Detects base s (synchronousChange base reads s).1 (synchronousChange base reads s).2 ∧
      ∀ reads', synchronousChange base reads' (synchronousChange base reads s).1 =
        ((synchronousChange base reads s).1, []) := by
  have detects : Detects base s (synchronousChange base reads s).1 (synchronousChange base reads s).2 := by
    rw [synchronousChange_steady steady]
    by_cases equal : difference s = 0
    · rw [if_pos equal]
      exact detects_of_equal equal
    · rw [if_neg equal]
      exact detects_updated apart
  refine ⟨detects, fun reads' => ?_⟩
  generalize synchronousChange base reads s = u at *
  have inputEn : u.1.reg .inputEn = s.reg .inputEn := detects.others _ nofun (by rintro (_ | _) <;> nofun)
  have equal : difference u.1 = 0 := by
    refine difference_eq_zero_iff.mpr fun i inside input => ?_
    rw [detects.device]
    exact detects.inputs i inside (inputEn ▸ input)
  unfold synchronousChange
  exact if_pos equal

/-- Pin 2 goes up, pins 0 and 1 are as they were, and pin 3 goes down: all are inputs with both edges
enabled, and the falling edge of pin 3 is pending. -/
def fourInputs : GpioState where
  reg
    | .inputEn => 0xf
    | .value => 0x9
    | .riseIntrEn => 0xf
    | .fallIntrEn => 0xf
    | .riseIntrPending => 0xffffffff
    | .fallIntrPending => 0xfffffff7
    | _ => 0
  device := ⟨0x5⟩
  data _ := 0

theorem fourInputs_detects :
    Detects 32 fourInputs (synchronousChange 32 [] fourInputs).1 (synchronousChange 32 [] fourInputs).2 :=
  (synchronousChange_detects (by decide) (by simp)).1

example : (synchronousChange 32 [] fourInputs).2 = [⟨.rise, 2, 34⟩] := by decide

end RiscvVp.Gpio
