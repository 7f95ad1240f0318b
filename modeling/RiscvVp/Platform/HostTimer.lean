/-
# RiscvVp.Platform.HostTimer -- the timers of the CLINT that runs on the host's clock

`Timer` runs its callback in a thread that sleeps for what is left of the duration, in slices that
`nanosleep` takes, and notifies the controller then.  Nobody starts the timer again, so that its one
interrupt must not come early.  What is left of a deadline in ticks is a whole number of microseconds: when
the thread is done sleeping, the clock has reached the deadline, although it rounds down.
-/
import RiscvVp.Platform.RealClintTime

namespace RiscvVp

set_option autoImplicit false

open Lib

namespace Timer

/-- `NS_MAX`, as in nanosleep(3). -/
def nsMax : BitVec 64 := 999999999

def usMax : BitVec 64 := nsMax / 1000

def longMax : BitVec 64 := 0x7FFFFFFFFFFFFFFF

/-- The assertions of the callback. -/
inductive Fault where
  | overflow
  | long
deriving DecidableEq

/-- The nanoseconds that the callback sleeps for, one call after the other. -/
def callback (count : BitVec 64) : Except Fault (List (BitVec 64)) :=
  if usMax < count then (callback (count - usMax)).map (nsMax :: ·)
  else
    let ns := count * 1000
    if count < ns then
      if ns ≤ longMax then .ok [ns] else .error .long
    else .error .overflow
termination_by count.toNat
decreasing_by
  rename_i long
  rw [BitVec.lt_def, show usMax.toNat = 999999 by decide] at long
  rw [BitVec.toNat_sub, show usMax.toNat = 999999 by decide]
  omega

/-- What is left behind the slices, in nanoseconds. -/
theorem toNat_rest {count : BitVec 64} (last : ¬ usMax < count) :
    count.toNat ≤ 999999 ∧ (count * 1000).toNat = count.toNat * 1000 := by
  rw [BitVec.lt_def, show usMax.toNat = 999999 by decide] at last
  refine ⟨by omega, ?_⟩
  rw [BitVec.toNat_mul, show BitVec.toNat (1000 : BitVec 64) = 1000 from rfl]
  omega

/-- All of the duration is slept for, and no call gets more than it takes. -/
theorem callback_ok {count : BitVec 64} (some : 0 < count.toNat) : ∃ requests, callback count = .ok requests ∧
    (∀ ns ∈ requests, ns ≤ nsMax) ∧ count.toNat * 1000 ≤ (requests.map BitVec.toNat).sum := by
  have slice : usMax.toNat = 999999 := by decide
  have call : nsMax.toNat = 999999999 := by decide
  fun_induction callback count with
  | case1 count long ih =>
    rw [BitVec.lt_def, slice] at long
    have rest : (count - usMax).toNat = count.toNat - 999999 := by
      rw [BitVec.toNat_sub, slice]
      omega
    obtain ⟨requests, slept, short, enough⟩ := ih (by omega)
    refine ⟨nsMax :: requests, ?_, ?_, ?_⟩
    · rw [slept]
      rfl
    · exact List.forall_mem_cons.mpr ⟨BitVec.le_refl _, short⟩
    · rw [rest, Nat.sub_mul] at enough
      rw [List.map_cons, List.sum_cons, call]
      omega
  | case2 count long ns above fits =>
    obtain ⟨short, whole⟩ := toNat_rest long
    refine ⟨[ns], rfl, ?_, ?_⟩
    · rw [List.forall_mem_singleton, BitVec.le_def, whole, call]
      omega
    · rw [List.map_singleton, List.sum_singleton, whole]
  | case3 count long ns above beyond =>
    obtain ⟨short, whole⟩ := toNat_rest long
    rw [BitVec.le_def, whole, show longMax.toNat = 2 ^ 63 - 1 by decide] at beyond
    omega
  | case4 count long ns below =>
    obtain ⟨short, whole⟩ := toNat_rest long
    rw [BitVec.lt_def, whole] at below
    omega

end Timer

/-- What the clock of the host says: the nanoseconds since `first_mtime`, a signed number of 64 bits that is
not negative. -/
abbrev HostTime := Fin (2 ^ 63)

namespace HostTime

/-- `duration_cast<usecs>`. -/
def usecs (now : HostTime) : BitVec 64 := BitVec.ofNat 64 (now.val / 1000)

theorem toNat_usecs (now : HostTime) : now.usecs.toNat = now.val / 1000 := by
  have bound := now.isLt
  unfold usecs
  rw [BitVec.toNat_ofNat]
  omega

/-- A thread that sleeps: no call returns before its time, and the last one at `woken`. -/
inductive Slept : HostTime → List (BitVec 64) → HostTime → Prop where
  | done (now : HostTime) : Slept now [] now
  | sleep {now later woken : HostTime} {ns : BitVec 64} {rest : List (BitVec 64)} :
      now.val + ns.toNat ≤ later.val → Slept later rest woken → Slept now (ns :: rest) woken

theorem Slept.long {now woken : HostTime} {requests : List (BitVec 64)} (slept : Slept now requests woken) :
    now.val + (requests.map BitVec.toNat).sum ≤ woken.val := by
  induction slept with
  | done now => exact Nat.le_refl _
  | sleep late _ ih =>
    rw [List.map_cons, List.sum_cons]
    omega

end HostTime

namespace RealClint

variable {s t : RealClint} {harts : Nat}

theorem mtime_setMtime (value : BitVec 64) : (s.setMtime value).mtime = value :=
  ByteMemory.read_write_self (n := 8) _ _ (by decide) value

/-- A write to a deadline that has not come yet starts the timer of the hart. -/
theorem postWriteMtimecmp_ok {addr : BitVec 64} {n : Nat} (ran : s.postWriteMtimecmp harts addr n = .ok t)
    (ahead : usecToTicks s.elapsed < t.mtimecmp (addr.toNat / 8)) : addr.toNat / 8 < harts ∧
      t.timers (addr.toNat / 8) =
        some (ticksToUsec (t.mtimecmp (addr.toNat / 8) - usecToTicks s.elapsed)) := by
  unfold postWriteMtimecmp at ran
  obtain ⟨-, ran⟩ := ok_of_guard ran
  obtain ⟨known, ran⟩ := ok_of_guard ran
  dsimp only at ran
  split at ran
  case isTrue past =>
    cases ran
    exact absurd ahead (BitVec.not_lt.mpr past)
  case isFalse =>
    cases ran
    exact ⟨known, if_pos rfl⟩

/-- What the loop over the harts leaves: the time and the deadlines, and an interrupt for every hart whose
deadline has come. -/
theorem interrupt_foldl (order : List Nat) {i : Nat} (due : s.mtimecmp i ≤ s.mtime)
    (raised : s.timerInterrupt i = true ∨ i ∈ order) :
    (order.foldl (fun s i => if s.mtimecmp i ≤ s.mtime then s.trigger i true else s) s).timerInterrupt i = true := by
  induction order generalizing s with
  | nil => exact raised.resolve_right List.not_mem_nil
  | cons j order ih =>
    rw [List.foldl_cons]
    by_cases late : s.mtimecmp j ≤ s.mtime
    · rw [if_pos late]
      have turn : (s.trigger j true).timerInterrupt i = if i = j then true else s.timerInterrupt i := rfl
      refine ih (s := s.trigger j true) due ?_
      rw [turn]
      split
      case isTrue => exact .inl rfl
      case isFalse other => exact raised.imp_right fun among => (List.mem_cons.mp among).resolve_left other
    · rw [if_neg late]
      refine ih due (raised.imp_right fun among => (List.mem_cons.mp among).resolve_left ?_)
      rintro rfl
      exact late due

theorem timerInterrupt_interrupt {i : Nat} (known : i < harts) (due : s.mtimecmp i ≤ usecToTicks s.elapsed) :
    (s.interrupt harts).timerInterrupt i = true := by
  refine interrupt_foldl _ ?_ (.inr (List.mem_range.mpr known))
  have time : s.updateAndGetMtime.2.mtime = usecToTicks s.elapsed := mtime_setMtime _
  rw [time]
  exact due

/-- What a write to the deadlines that returns has done. -/
theorem write_mtimecmp_ok {n : Nat} {addr : BitVec 64} {value : BitVec (8 * n)} {elapsed : BitVec 64} {b : Answer}
    (ran : step harts s (elapsed, .write n addr value) = .ok (b, t)) (reached : target harts addr = some .mtimecmp) :
    ∃ u : RealClint, u.elapsed = elapsed ∧ u.postWriteMtimecmp harts (addr - 0x4000) n = .ok t := by
  obtain ⟨⟨data, v⟩, called, same⟩ := ok_of_map ran
  obtain ⟨-, rfl⟩ := Prod.mk.inj same
  obtain ⟨r, found, -, -, -, go, u, before, after⟩ := route_write_found called
  obtain ⟨register, first, rfl⟩ := find_range found
  cases Option.some.inj (reached.symm.trans first)
  cases before
  rcases after with ⟨done, -⟩ | ⟨-, after⟩
  · cases done
  · exact ⟨_, rfl, after⟩

/-- The ticks of the clock when a timer that was started `ahead` ticks before the deadline is done. -/
theorem usecToTicks_of_slept {now started woken later : HostTime} {requests : List (BitVec 64)} {cmp : BitVec 64}
    (ahead : usecToTicks now.usecs < cmp) (fits : (cmp - usecToTicks now.usecs).toNat * 30 < 2 ^ 63)
    (enough : (ticksToUsec (cmp - usecToTicks now.usecs)).toNat * 1000 ≤ (requests.map BitVec.toNat).sum)
    (start : now ≤ started) (slept : HostTime.Slept started requests woken) (after : woken ≤ later) :
    cmp ≤ usecToTicks later.usecs := by
  have long := slept.long
  rw [toNat_ticksToUsec (by omega), BitVec.toNat_sub_of_le (BitVec.le_of_lt ahead), toNat_usecToTicks, HostTime.toNat_usecs] at enough
  rw [BitVec.lt_def, toNat_usecToTicks, HostTime.toNat_usecs] at ahead
  rw [BitVec.le_def, toNat_usecToTicks, HostTime.toNat_usecs]
  rw [Fin.le_def] at start after
  omega

/-- A write to a deadline ahead starts a timer whose sleeps `nanosleep` takes and that lasts long enough.  When
it is done the clock has reached the deadline, and where that is what the register still says, whatever else
has happened, the hart gets its interrupt. -/
theorem deadline_met {n : Nat} {addr : BitVec 64} {value : BitVec (8 * n)} {now : HostTime} {b : Answer}
    {hart : Nat} {cmp : BitVec 64} (ran : step harts s (now.usecs, .write n addr value) = .ok (b, t))
    (reached : target harts addr = some .mtimecmp) (own : hart = (addr - 0x4000).toNat / 8)
    (written : t.mtimecmp hart = cmp) (ahead : usecToTicks now.usecs < cmp)
    (fits : (cmp - usecToTicks now.usecs).toNat * 30 < 2 ^ 63) :
    ∃ requests, t.timers hart = some (ticksToUsec (cmp - usecToTicks now.usecs)) ∧
      Timer.callback (ticksToUsec (cmp - usecToTicks now.usecs)) = .ok requests ∧
      (∀ ns ∈ requests, ns ≤ Timer.nsMax) ∧
      (ticksToUsec (cmp - usecToTicks now.usecs)).toNat * 1000 ≤ (requests.map BitVec.toNat).sum ∧
      ∀ (started woken later : HostTime) (u : RealClint), now ≤ started →
        HostTime.Slept started requests woken → woken ≤ later → u.mtimecmp hart = cmp →
          cmp ≤ usecToTicks later.usecs ∧
            ∃ v, step harts u (later.usecs, .interrupt) = .ok (none, v) ∧ v.timerInterrupt hart = true := by
  obtain ⟨u, clock, called⟩ := write_mtimecmp_ok ran reached
  subst own written
  rw [← clock] at ahead fits ⊢
  obtain ⟨known, timer⟩ := postWriteMtimecmp_ok called ahead
  have some : 0 < (ticksToUsec (t.mtimecmp ((addr - 0x4000).toNat / 8) - usecToTicks u.elapsed)).toNat := by
    rw [toNat_ticksToUsec (by omega), BitVec.toNat_sub_of_le (BitVec.le_of_lt ahead)]
    rw [BitVec.lt_def] at ahead
    omega
  obtain ⟨requests, slept, short, enough⟩ := Timer.callback_ok some
  refine ⟨requests, timer, slept, short, enough, fun started woken later v start asleep after same => ?_⟩
  rw [clock] at ahead fits enough
  have due := usecToTicks_of_slept ahead fits enough start asleep after
  refine ⟨due, _, rfl, timerInterrupt_interrupt known ?_⟩
  show v.mtimecmp _ ≤ _
  rw [same]
  exact due

/-- A deadline of one tick: the thread sleeps for 30 microseconds, and the hart gets its interrupt. -/
theorem deadline_met_tick : ∃ b t, step 1 init ((0 : HostTime).usecs, .write 8 0x4000 1) = .ok (b, t) ∧
    Timer.callback (ticksToUsec 1) = .ok [30000] ∧
    ∃ v, step 1 t (HostTime.usecs 30000, .interrupt) = .ok (none, v) ∧ v.timerInterrupt 0 = true := by
  obtain ⟨b, t, took⟩ : ∃ b t, step 1 init ((0 : HostTime).usecs, .write 8 0x4000 1) = .ok (b, t) := ⟨_, _, rfl⟩
  have written : t.mtimecmp 0 = 1 := by
    cases took
    decide +kernel
  have asked : Timer.callback (ticksToUsec 1) = .ok [30000] := by
    unfold Timer.callback
    rfl
  obtain ⟨requests, -, slept, -, -, fires⟩ := deadline_met took (by decide +kernel)
    (show 0 = (0x4000#64 - 0x4000).toNat / 8 by decide) written (by decide) (by decide)
  cases slept.symm.trans asked
  have asleep : HostTime.Slept 0 [30000] 30000 := .sleep (by decide) (.done 30000)
  exact ⟨b, t, took, asked, (fires 0 30000 30000 t (by decide) asleep (by decide) written).2⟩

end RealClint

end RiscvVp
