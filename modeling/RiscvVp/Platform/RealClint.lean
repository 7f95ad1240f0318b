/-
# RiscvVp.Platform.RealClint -- the CLINT that runs on the host's clock

`RealCLINT` takes its time from the clock of the host, in ticks of 30 microseconds, and keeps a timer for
every hart.  The callback for the software interrupts is that of the CLINT, and so is what follows for
the words and the lines of both.
-/
import RiscvVp.Platform.ClintDevice

namespace RiscvVp

set_option autoImplicit false

open Lib

/-- `elapsed` are the microseconds since `first_mtime`, and a timer that was started has a duration in
microseconds. -/
structure RealClint where
  regsMtime : ByteMemory
  regsMtimecmp : ByteMemory
  software : SoftwareInterrupts
  timerInterrupt : Nat → Bool
  timers : Nat → Option (BitVec 64)
  elapsed : BitVec 64

namespace RealClint

/-- The harts of the constructor; their registers have room in a vector. -/
structure Harts where
  number : Nat
  some : 0 < number
  fits : 4 * number ≤ 2 ^ 63

/-- `DIVIDEND`, a quotient of integers. -/
def dividend : BitVec 64 := 15625 / 512

def usecToTicks (usec : BitVec 64) : BitVec 64 := usec / dividend

def ticksToUsec (ticks : BitVec 64) : BitVec 64 := ticks * dividend

variable (s : RealClint)

/-! ## Registers -/

def mtime : BitVec 64 := s.regsMtime.read 0 8

def setMtime (value : BitVec 64) : RealClint := { s with regsMtime := s.regsMtime.write 0 8 value }

def mtimecmp (i : Nat) : BitVec 64 := s.regsMtimecmp.read (BitVec.ofNat 64 (8 * i)) 8

def setSoftware (software : SoftwareInterrupts) (s : RealClint) : RealClint := { s with software := software }

def trigger (i : Nat) (status : Bool) : RealClint :=
  { s with timerInterrupt := fun j => if j = i then status else s.timerInterrupt j }

def setTimer (i : Nat) (duration : Option (BitVec 64)) : RealClint :=
  { s with timers := fun j => if j = i then duration else s.timers j }

def updateAndGetMtime : BitVec 64 × RealClint := (usecToTicks s.elapsed, s.setMtime (usecToTicks s.elapsed))

/-! ## Callbacks -/

def preReadMtime (_addr : BitVec 64) (_size : Nat) (s : RealClint) : Except ClintFault RealClint :=
  .ok s.updateAndGetMtime.2

def postWriteMtimecmp (harts : Nat) (addr : BitVec 64) (_size : Nat) (s : RealClint) :
    Except ClintFault RealClint :=
  if addr.toNat % 4 = 0 then
    let hart := addr.toNat / 8
    if hart < harts then
      let cmp := s.mtimecmp hart
      let (time, s) := s.updateAndGetMtime
      let s := s.setTimer hart none
      if cmp ≤ time then .ok (s.trigger hart true)
      else .ok ((s.trigger hart false).setTimer hart (some (ticksToUsec (cmp - time))))
    else .error .index
  else .error .address

/-- A timer has fired. -/
def interrupt (harts : Nat) : RealClint :=
  (List.range harts).foldl (fun s i => if s.mtimecmp i ≤ s.mtime then s.trigger i true else s) s.updateAndGetMtime.2

/-! ## The bus -/

def range (harts : Nat) : ClintRegister → RegisterRange RealClint ClintFault
  | .mtimecmp => {
      start := 0x4000
      size := 8 * harts
      mem := regsMtimecmp
      setMem m s := { s with regsMtimecmp := m }
      alignment := 4
      postWrite := postWriteMtimecmp harts }
  | .msip => SoftwareInterrupts.regsMsip software setSoftware harts
  | .mtime => {
      start := 0xBFF8
      size := 8
      mem := regsMtime
      setMem m s := { s with regsMtime := m }
      alignment := 4
      preRead := preReadMtime }

def registers : List ClintRegister := [.mtimecmp, .msip, .mtime]

/-- The range that an access goes to. -/
def target (harts : Nat) (addr : BitVec 64) : Option ClintRegister :=
  registers.find? fun r => (range harts r).contains addr

def transport (harts : Nat) {n : Nat} (cmd : TlmCommand n) (addr : BitVec 64) (s : RealClint) :
    Except (AccessError ClintFault) (BitVec (8 * n) × RealClint) := route (registers.map (range harts)) cmd addr s

/-! ## Runs -/

inductive Input where
  | read (n : Nat) (addr : BitVec 64)
  | write (n : Nat) (addr : BitVec 64) (value : BitVec (8 * n))
  | updateAndGetMtime
  | interrupt

/-- What the clock of the host says, and what happens then. -/
abbrev Turn := BitVec 64 × Input

/-- What a read gives back. -/
abbrev Answer := Option (Σ n, BitVec (8 * n))

def act (harts : Nat) (s : RealClint) : Input → Except (AccessError ClintFault) (Answer × RealClint)
  | .read n addr => (transport harts .read addr s).map fun (data, t) => (some ⟨n, data⟩, t)
  | .write _ addr value => (transport harts (.write value) addr s).map fun (_, t) => (none, t)
  | .updateAndGetMtime => .ok (some ⟨8, s.updateAndGetMtime.1⟩, s.updateAndGetMtime.2)
  | .interrupt => .ok (none, s.interrupt harts)

def step (harts : Nat) (s : RealClint) (turn : Turn) : Except (AccessError ClintFault) (Answer × RealClint) :=
  act harts { s with elapsed := turn.1 } turn.2

def init : RealClint where
  regsMtime _ := 0
  regsMtimecmp _ := 0
  software := .init
  timerInterrupt _ := false
  timers _ := none
  elapsed := 0

/-! ## Software interrupts -/

section Step

variable {s} {t : RealClint} {harts : Nat}

theorem software_interrupt : (s.interrupt harts).software = s.software := by
  unfold interrupt
  generalize List.range harts = order
  suffices general : ∀ u : RealClint, (order.foldl
      (fun s i => if s.mtimecmp i ≤ s.mtime then s.trigger i true else s) u).software = u.software from general _
  intro u
  induction order generalizing u with
  | nil => rfl
  | cons i order ih =>
    rw [List.foldl_cons, ih]
    split <;> rfl

theorem software_postWriteMtimecmp {addr : BitVec 64} {n : Nat} (ran : s.postWriteMtimecmp harts addr n = .ok t) :
    t.software = s.software := by
  unfold postWriteMtimecmp at ran
  obtain ⟨-, ran⟩ := ok_of_guard ran
  obtain ⟨-, ran⟩ := ok_of_guard ran
  dsimp only at ran
  split at ran
  · cases ran
    rfl
  · cases ran
    rfl

variable {n : Nat} {addr : BitVec 64}

theorem transport_read_ok {data : BitVec (8 * n)} (ran : transport harts .read addr s = .ok (data, t)) :
    t.software = s.software := by
  obtain ⟨r, found, -, called, -⟩ := route_read_found ran
  obtain ⟨register, -, rfl⟩ := find_range found
  cases register with
  | mtime =>
    cases called
    rfl
  | mtimecmp =>
    cases called
    rfl
  | msip =>
    cases called
    rfl

theorem transport_write_ok {value data : BitVec (8 * n)} (ran : transport harts (.write value) addr s = .ok (data, t)) :
    if target harts addr = some .msip then
      (addr.toNat % 4 = 0 ∧ n % 4 = 0) ∧ addr.toNat + n ≤ 4 * harts ∧
        { s.software with msip := s.software.msip.write addr n value }.postWriteMsip harts addr n = .ok t.software
    else t.software = s.software := by
  obtain ⟨r, found, aligned, -, fits, go, u, before, after⟩ := route_write_found ran
  obtain ⟨register, reached, rfl⟩ := find_range found
  have reached : target harts addr = some register := reached
  rw [reached]
  cases register with
  | mtime =>
    cases before
    rcases after with ⟨done, -⟩ | ⟨-, after⟩
    · cases done
    · obtain rfl := Except.ok.inj after
      rfl
  | mtimecmp =>
    cases before
    rcases after with ⟨done, -⟩ | ⟨-, after⟩
    · cases done
    · have kept := software_postWriteMtimecmp (n := n) after
      exact kept
  | msip =>
    cases before
    rcases after with ⟨done, -⟩ | ⟨-, after⟩
    · cases done
    · have start : (range harts .msip).toLocal addr = addr := sub_zero addr
      obtain ⟨software, called, rfl⟩ := ok_of_map after
      rw [start] at called fits
      exact ⟨aligned, fits, called⟩

/-- A write to the software interrupts brings nothing new behind its first word. -/
def Settled (harts : Nat) (s : RealClint) (turn : Turn) : Prop :=
  match turn.2 with
  | .write _ addr value => target harts addr = some .msip → s.software.Settled harts addr value
  | _ => True

theorem right_step {turn : Turn} {b : Answer} (fits : 4 * harts ≤ 2 ^ 63) (right : s.software.Right harts)
    (ran : step harts s turn = .ok (b, t)) : t.software.Right harts ↔ Settled harts s turn := by
  obtain ⟨elapsed, a⟩ := turn
  unfold Settled
  cases a with
  | read n addr =>
    obtain ⟨⟨bytes, v⟩, called, same⟩ := ok_of_map ran
    obtain ⟨-, rfl⟩ := Prod.mk.inj same
    rw [transport_read_ok called]
    exact iff_of_true right trivial
  | write n addr value =>
    obtain ⟨⟨bytes, v⟩, called, same⟩ := ok_of_map ran
    obtain ⟨-, rfl⟩ := Prod.mk.inj same
    have did := transport_write_ok called
    exact SoftwareInterrupts.right_iff_of_write fits right did
  | updateAndGetMtime =>
    cases ran
    exact iff_of_true right trivial
  | interrupt =>
    cases ran
    rw [software_interrupt]
    exact iff_of_true right trivial

end Step

end RealClint

/-! ## Both controllers -/

/-- Where no write brings anything new behind its first word, every register for a software interrupt is 0 or
1 and the line of its hart the same, whatever else happens. -/
theorem software_right (cores : ClintDevice.Cores) (log : List (ClintDevice.Turn × ClintDevice.Answer))
    (s : ClintDevice) (harts : RealClint.Harts) (log' : List (RealClint.Turn × RealClint.Answer)) (s' : RealClint) :
    (Runs (ClintDevice.step cores.number) (ClintDevice.Settled cores.number) ClintDevice.init log s →
      s.software.Right cores.number) ∧
    (Runs (RealClint.step harts.number) (RealClint.Settled harts.number) RealClint.init log' s' →
      s'.software.Right harts.number) := by
  constructor
  · intro run
    have bound := cores.bound
    exact run.invariant (I := fun s => s.software.Right cores.number) (SoftwareInterrupts.right_init _)
      fun right settled ran => (ClintDevice.right_step (by omega) right ran).mpr settled
  · intro run
    exact run.invariant (I := fun s => s.software.Right harts.number) (SoftwareInterrupts.right_init _)
      fun right settled ran => (RealClint.right_step harts.fits right ran).mpr settled

/-- The first of two harts is signalled, with a write that covers both registers. -/
theorem software_right_pair :
    (∃ log s, Runs (ClintDevice.step 2) (ClintDevice.Settled 2) ClintDevice.init log s ∧
      log.map Prod.fst = [(0, .write 8 0x0 0 0x3#64)] ∧ s.software.Right 2) ∧
    ∃ log s, Runs (RealClint.step 2) (RealClint.Settled 2) RealClint.init log s ∧
      log.map Prod.fst = [(0, .write 8 0x0 0x3#64)] ∧ s.software.Right 2 := by
  have settled : SoftwareInterrupts.init.Settled 2 (n := 8) 0x0 0x3#64 := by decide +kernel
  have right (log s log' s') := software_right ⟨2, by decide, by decide⟩ log s ⟨2, by decide, by decide⟩ log' s'
  constructor
  · obtain ⟨b, s, took⟩ : ∃ b t, ClintDevice.step 2 ClintDevice.init (0, .write 8 0x0 0 0x3#64) = .ok (b, t) :=
      ⟨_, _, rfl⟩
    have allowed : ClintDevice.Settled 2 ClintDevice.init (0, .write 8 0x0 0 0x3#64) := fun _ => settled
    have run := Runs.start.next allowed took
    exact ⟨_, s, run, rfl, (right _ s [] .init).1 run⟩
  · obtain ⟨b, s, took⟩ : ∃ b t, RealClint.step 2 RealClint.init (0, .write 8 0x0 0x3#64) = .ok (b, t) := ⟨_, _, rfl⟩
    have allowed : RealClint.Settled 2 RealClint.init (0, .write 8 0x0 0x3#64) := fun _ => settled
    have run := Runs.start.next allowed took
    exact ⟨_, s, run, rfl, (right [] .init _ s).2 run⟩

/-- A write of two words that is to signal two harts signals the first, and the second word keeps all its
bits. -/
theorem not_software_right :
    (¬ ∀ (cores : ClintDevice.Cores) log s,
      Runs (ClintDevice.step cores.number) (fun _ _ => True) ClintDevice.init log s → s.software.Right cores.number) ∧
    ¬ ∀ (harts : RealClint.Harts) log s,
      Runs (RealClint.step harts.number) (fun _ _ => True) RealClint.init log s → s.software.Right harts.number := by
  have changed : ¬ SoftwareInterrupts.init.Settled 2 (n := 8) 0x0 0x300000001#64 := by decide +kernel
  constructor
  · intro all
    obtain ⟨b, s, took⟩ : ∃ b t,
        ClintDevice.step 2 ClintDevice.init (0, .write 8 0x0 0 0x300000001#64) = .ok (b, t) := ⟨_, _, rfl⟩
    have right := all ⟨2, by decide, by decide⟩ _ s (Runs.start.next trivial took)
    have settled := (ClintDevice.right_step (s := .init) (by decide) (SoftwareInterrupts.right_init 2) took).mp right
    exact changed (settled (by decide +kernel))
  · intro all
    obtain ⟨b, s, took⟩ : ∃ b t, RealClint.step 2 RealClint.init (0, .write 8 0x0 0x300000001#64) = .ok (b, t) :=
      ⟨_, _, rfl⟩
    have right := all ⟨2, by decide, by decide⟩ _ s (Runs.start.next trivial took)
    have settled := (RealClint.right_step (s := .init) (by decide) (SoftwareInterrupts.right_init 2) took).mp right
    exact changed (settled (by decide +kernel))

end RiscvVp
