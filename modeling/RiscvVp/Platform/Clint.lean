/-
# RiscvVp.Platform.Clint -- the timer of the CLINT

`run` waits for its event, brings `mtime` up to date, tells every core whether its time has come
and notifies the event for those whose time is to come.  The times are scaled to picoseconds in
64 bits, so a compare value far ahead is taken modulo 2^64: the event never comes late, and it
comes after no time at all exactly where the distance is a multiple of 2^58.
-/
import Mathlib.Data.BitVec
import Mathlib.Data.List.Basic

namespace RiscvVp

set_option autoImplicit false

/-- What `update_and_get_mtime` reads and writes: the register, and the simulated time in
its units. -/
structure Clint where
  mtime : BitVec 64
  now : BitVec 64
deriving DecidableEq

/-- The time is not updated backwards. -/
def Clint.updateAndGetMtime (c : Clint) : BitVec 64 × Clint :=
  let mtime := if c.mtime < c.now then c.now else c.mtime
  (mtime, { c with mtime := mtime })

/-- A second look at the same time sees the same. -/
theorem Clint.updateAndGetMtime_twice (c : Clint) :
    c.updateAndGetMtime.2.updateAndGetMtime.1 = c.updateAndGetMtime.1 := by
  unfold Clint.updateAndGetMtime
  by_cases later : c.mtime < c.now
  · simp [later]
  · simp [later]

/-! ## The event -/

/-- The delay of a pending notification.  A notification gives way to an earlier one. -/
abbrev ScEvent := Option (BitVec 64)

def ScEvent.notify (event : ScEvent) (delay : BitVec 64) : ScEvent :=
  match event with
  | none => some delay
  | some earlier => if delay < earlier then some delay else some earlier

/-- What is pending behind the notifications for `delays`: the earliest of them. -/
def Earliest (delays : List (BitVec 64)) : ScEvent → Prop
  | none => delays = []
  | some delay => delay ∈ delays ∧ ∀ other ∈ delays, delay ≤ other

theorem earliest_notify {delays : List (BitVec 64)} {event : ScEvent} (delay : BitVec 64)
    (earliest : Earliest delays event) : Earliest (delays ++ [delay]) (event.notify delay) := by
  cases event with
  | none =>
    have none : delays = [] := earliest
    subst none
    exact ⟨by simp, fun other known => by rw [List.mem_singleton.mp known]; exact BitVec.le_refl _⟩
  | some earlier =>
    obtain ⟨known, first⟩ := earliest
    unfold ScEvent.notify
    by_cases before : delay < earlier
    · simp only [before, if_true]
      refine ⟨by simp, fun other among => ?_⟩
      rcases List.mem_append.mp among with old | new
      · have next := first other old
        rw [BitVec.le_def] at next ⊢
        rw [BitVec.lt_def] at before
        omega
      · rw [List.mem_singleton.mp new]
        exact BitVec.le_refl _
    · simp only [before, if_false]
      refine ⟨by simp [known], fun other among => ?_⟩
      rcases List.mem_append.mp among with old | new
      · exact first other old
      · rw [List.mem_singleton.mp new]
        exact BitVec.not_lt.mp before

/-! ## The thread -/

/-- Scale from picoseconds to microseconds. -/
def scaler : BitVec 64 := 1000000

/-- What `run` reads and writes: the registers, the lines of the cores and its event. -/
structure ClintTimer where
  clint : Clint
  mtimecmp : Nat → BitVec 64
  timerInterrupt : Nat → Bool
  irqEvent : ScEvent

namespace ClintTimer

variable (s : ClintTimer)

/-- The time to come of a core that waits. -/
def delay (i : Nat) : BitVec 64 := s.mtimecmp i * scaler - s.clint.mtime * scaler

def trigger (i : Nat) (status : Bool) : ClintTimer :=
  { s with timerInterrupt := fun j => if j = i then status else s.timerInterrupt j }

/-- One core in the loop of `run`. -/
def serve (s : ClintTimer) (i : Nat) : ClintTimer :=
  if 0 < s.mtimecmp i ∧ s.mtimecmp i ≤ s.clint.mtime then s.trigger i true
  else if 0 < s.mtimecmp i ∧ s.mtimecmp i < BitVec.allOnes 64 then
    { s.trigger i false with irqEvent := s.irqEvent.notify (s.delay i) }
  else s.trigger i false

/-- From one wait for `irq_event` to the next; the notification that ended the wait is gone. -/
def run (numberOfCores : Nat) : ClintTimer :=
  (List.range numberOfCores).foldl serve { s with clint := s.clint.updateAndGetMtime.2, irqEvent := none }

/-! ## What an activation leaves -/

/-- A core whose time is to come; the largest compare value means never. -/
def Waits (mtime cmp : BitVec 64) : Prop := 0 < cmp ∧ mtime < cmp ∧ cmp < BitVec.allOnes 64

instance {mtime cmp : BitVec 64} : Decidable (Waits mtime cmp) := inferInstanceAs (Decidable (_ ∧ _))

/-- The notifications for the first `n` cores. -/
def delays (n : Nat) : List (BitVec 64) :=
  ((List.range n).filter fun i => Waits s.clint.mtime (s.mtimecmp i)).map s.delay

/-- What the loop knows behind the first `n` cores. -/
structure Looped (s : ClintTimer) (n : Nat) (t : ClintTimer) : Prop where
  clint : t.clint = s.clint
  mtimecmp : t.mtimecmp = s.mtimecmp
  line : ∀ i < n, t.timerInterrupt i = true ↔ 0 < s.mtimecmp i ∧ s.mtimecmp i ≤ s.clint.mtime
  event : Earliest (s.delays n) t.irqEvent

variable {s}

theorem looped_serve {n : Nat} {t : ClintTimer} (looped : Looped s n t) : Looped s (n + 1) (t.serve n) := by
  have cmp : t.mtimecmp n = s.mtimecmp n := congrFun looped.mtimecmp n
  have mtime : t.clint.mtime = s.clint.mtime := congrArg Clint.mtime looped.clint
  have lines {status : Bool} (right : status = true ↔ 0 < s.mtimecmp n ∧ s.mtimecmp n ≤ s.clint.mtime) :
      ∀ i < n + 1, (t.trigger n status).timerInterrupt i = true ↔
        0 < s.mtimecmp i ∧ s.mtimecmp i ≤ s.clint.mtime := by
    intro i below
    unfold trigger
    simp only
    split
    case isTrue here => rw [here]; exact right
    case isFalse other => exact looped.line i (by omega)
  have same (idle : ¬ Waits s.clint.mtime (s.mtimecmp n)) : s.delays (n + 1) = s.delays n := by
    unfold delays
    rw [List.range_succ, List.filter_append, List.filter_cons_of_neg (by simpa using idle), List.filter_nil,
      List.append_nil]
  have more (waits : Waits s.clint.mtime (s.mtimecmp n)) : s.delays (n + 1) = s.delays n ++ [s.delay n] := by
    unfold delays
    rw [List.range_succ, List.filter_append, List.filter_cons_of_pos (by simpa using waits), List.filter_nil,
      List.map_append, List.map_singleton]
  have delay : t.delay n = s.delay n := by
    unfold ClintTimer.delay
    rw [cmp, mtime]
  unfold serve
  rw [cmp, mtime, delay]
  by_cases due : 0 < s.mtimecmp n ∧ s.mtimecmp n ≤ s.clint.mtime
  case pos =>
    rw [if_pos due]
    refine ⟨looped.clint, looped.mtimecmp, lines ⟨fun _ => due, fun _ => rfl⟩, ?_⟩
    rw [same fun waits => BitVec.not_le.mpr waits.2.1 due.2]
    exact looped.event
  case neg =>
    rw [if_neg due]
    by_cases soon : 0 < s.mtimecmp n ∧ s.mtimecmp n < BitVec.allOnes 64
    · rw [if_pos soon]
      have waits : Waits s.clint.mtime (s.mtimecmp n) :=
        ⟨soon.1, BitVec.not_le.mp fun passed => due ⟨soon.1, passed⟩, soon.2⟩
      refine ⟨looped.clint, looped.mtimecmp, lines ⟨nofun, fun now => absurd now due⟩, ?_⟩
      rw [more waits]
      exact earliest_notify _ looped.event
    · rw [if_neg soon]
      refine ⟨looped.clint, looped.mtimecmp, lines ⟨nofun, fun now => absurd now due⟩, ?_⟩
      rw [same fun waits => soon ⟨waits.1, waits.2.2⟩]
      exact looped.event

theorem looped_foldl (n : Nat) (fresh : s.irqEvent = none) :
    Looped s n ((List.range n).foldl serve s) := by
  induction n with
  | zero =>
    refine ⟨rfl, rfl, fun i below => absurd below (Nat.not_lt_zero i), ?_⟩
    rw [List.range_zero, List.foldl_nil, fresh]
    rfl
  | succ n ih =>
    rw [List.range_succ, List.foldl_append]
    exact looped_serve ih

/-- The delay of a core that waits is its distance modulo 2^64. -/
theorem toNat_delay {i : Nat} (waits : Waits s.clint.mtime (s.mtimecmp i)) :
    (s.delay i).toNat = ((s.mtimecmp i).toNat - s.clint.mtime.toNat) * 1000000 % 2 ^ 64 := by
  have before := BitVec.lt_def.mp waits.2.1
  have scale : scaler.toNat = 1000000 := rfl
  unfold delay
  rw [BitVec.toNat_sub, BitVec.toNat_mul, BitVec.toNat_mul, scale]
  omega

/-- 10^6 is 2^6 times an odd number. -/
theorem dvd_scaled_iff (x : Nat) : 2 ^ 64 ∣ x * 1000000 ↔ 2 ^ 58 ∣ x := by
  have odd : Nat.Coprime (2 ^ 58) 15625 := Nat.Coprime.pow_left 58 (by decide)
  rw [show x * 1000000 = x * 15625 * 2 ^ 6 by omega, show 2 ^ 64 = 2 ^ 58 * 2 ^ 6 from rfl,
    Nat.mul_dvd_mul_iff_right (by decide)]
  exact odd.dvd_mul_right

theorem delay_eq_zero_iff {i : Nat} (waits : Waits s.clint.mtime (s.mtimecmp i)) :
    s.delay i = 0 ↔ 2 ^ 58 ∣ (s.mtimecmp i).toNat - s.clint.mtime.toNat := by
  rw [← dvd_scaled_iff, Nat.dvd_iff_mod_eq_zero, ← toNat_delay waits, BitVec.toNat_eq]
  rfl

/-- The lines are right, and where a core waits the event is pending: later than now, and no
later than the time of any core that waits. -/
structure Scheduled (numberOfCores : Nat) (t : ClintTimer) : Prop where
  line : ∀ i < numberOfCores, t.timerInterrupt i = true ↔ 0 < t.mtimecmp i ∧ t.mtimecmp i ≤ t.clint.mtime
  wake : ∀ i < numberOfCores, Waits t.clint.mtime (t.mtimecmp i) → ∃ delay, t.irqEvent = some delay ∧
    0 < delay.toNat ∧ ∀ j < numberOfCores, Waits t.clint.mtime (t.mtimecmp j) →
      delay.toNat ≤ ((t.mtimecmp j).toNat - t.clint.mtime.toNat) * 10 ^ 6

/-- An activation schedules the timer exactly where no distance to come is a multiple of 2^58. -/
theorem scheduled_run_iff (s : ClintTimer) (numberOfCores : Nat) :
    Scheduled numberOfCores (s.run numberOfCores) ↔ ∀ i < numberOfCores,
      Waits s.clint.updateAndGetMtime.1 (s.mtimecmp i) →
        ¬ 2 ^ 58 ∣ (s.mtimecmp i).toNat - s.clint.updateAndGetMtime.1.toNat := by
  have looped : Looped { s with clint := s.clint.updateAndGetMtime.2, irqEvent := none } numberOfCores
      (s.run numberOfCores) := looped_foldl numberOfCores rfl
  generalize before : ({ s with clint := s.clint.updateAndGetMtime.2, irqEvent := none } : ClintTimer) = u at looped
  have mtime : s.clint.updateAndGetMtime.1 = u.clint.mtime := by
    rw [← before]
    rfl
  have cmp : s.mtimecmp = u.mtimecmp := by rw [← before]
  generalize s.run numberOfCores = t at looped
  rw [mtime, cmp]
  have among {i : Nat} (here : i < numberOfCores) (waits : Waits u.clint.mtime (u.mtimecmp i)) :
      u.delay i ∈ u.delays numberOfCores := by
    unfold delays
    refine List.mem_map_of_mem (List.mem_filter.mpr ⟨List.mem_range.mpr here, by simpa using waits⟩)
  constructor
  · intro scheduled i here waits zero
    rw [← delay_eq_zero_iff waits] at zero
    have waits' := waits
    rw [← looped.clint, ← looped.mtimecmp] at waits'
    obtain ⟨delay, pending, positive, -⟩ := scheduled.wake i here waits'
    have first := looped.event
    rw [pending] at first
    have least := BitVec.le_def.mp (first.2 _ (among here waits))
    rw [zero] at least
    exact absurd least (Nat.not_le.mpr positive)
  · intro fine
    refine ⟨?_, ?_⟩
    · rw [looped.clint, looped.mtimecmp]
      exact looped.line
    · rw [looped.clint, looped.mtimecmp]
      intro i here waits
      have event := looped.event
      cases pending : t.irqEvent with
      | none =>
        rw [pending] at event
        have none : u.delays numberOfCores = [] := event
        have member := among here waits
        rw [none] at member
        cases member
      | some delay =>
        rw [pending] at event
        obtain ⟨known, first⟩ := event
        refine ⟨delay, rfl, ?_, fun j there later => ?_⟩
        · unfold delays at known
          obtain ⟨k, member, rfl⟩ := List.mem_map.mp known
          obtain ⟨place, waiting⟩ := List.mem_filter.mp member
          have waiting : Waits u.clint.mtime (u.mtimecmp k) := by simpa using waiting
          refine Nat.pos_of_ne_zero fun zero => ?_
          exact fine k (List.mem_range.mp place) waiting
            ((delay_eq_zero_iff waiting).mp (BitVec.eq_of_toNat_eq zero))
        · have least := BitVec.le_def.mp (first _ (among there later))
          rw [toNat_delay later] at least
          exact least.trans (Nat.mod_le _ _)

/-- Far ahead by a multiple of 2^58, `run` is woken again after no time. -/
theorem not_scheduled_far :
    ¬ Scheduled 1 (ClintTimer.run ⟨⟨0, 0⟩, fun _ => 0x400000000000000, fun _ => false, none⟩ 1) := by
  intro scheduled
  obtain ⟨delay, pending, positive, -⟩ := scheduled.wake 0 (by decide) (by decide +kernel)
  have zero : some (0 : BitVec 64) = some delay := pending
  cases zero
  exact absurd positive (by decide)

end ClintTimer

end RiscvVp
