/-
# RiscvVp.Platform.ClintDevice -- the registers of the CLINT

The harts read `mtime` over the bus, ahead of the simulated time by the delay of the transaction, and
as a CSR without it; `run` looks at it too.  A CSR read and `run` raise the register to the simulated
time (`Clint.updateAndGetMtime`), but a read over the bus sets it to the time of the reader.
-/
import Mathlib.Order.Nat
import RiscvVp.Lib.Clock
import RiscvVp.Lib.Runs
import RiscvVp.Platform.Clint
import RiscvVp.Platform.Msip

namespace RiscvVp

set_option autoImplicit false

open Lib

/-- `stamp` is the simulated time (`sc_time_stamp`) and `delay` that of the transaction, both in
picoseconds. -/
structure ClintDevice where
  regsMtime : ByteMemory
  regsMtimecmp : ByteMemory
  software : SoftwareInterrupts
  timerInterrupt : Nat → Bool
  irqEvent : ScEvent
  stamp : BitVec 64
  delay : BitVec 64

namespace ClintDevice

/-- `NumberOfCores`; the registers stay within the address range. -/
structure Cores where
  number : Nat
  some : 0 < number
  bound : number < 4096

def clockCycle : BitVec 64 := 10000

variable (s : ClintDevice)

/-! ## Registers -/

def mtime : BitVec 64 := s.regsMtime.read 0 8

def setMtime (value : BitVec 64) : ClintDevice := { s with regsMtime := s.regsMtime.write 0 8 value }

def mtimecmp (i : Nat) : BitVec 64 := s.regsMtimecmp.read (BitVec.ofNat 64 (8 * i)) 8

def setSoftware (software : SoftwareInterrupts) (s : ClintDevice) : ClintDevice := { s with software := software }

/-- The register and the simulated time, as `update_and_get_mtime` sees them. -/
def clint : Clint where
  mtime := s.mtime
  now := s.stamp / scaler

def updateAndGetMtime : BitVec 64 × ClintDevice :=
  (s.clint.updateAndGetMtime.1, s.setMtime s.clint.updateAndGetMtime.2.mtime)

/-- An activation of `run`. -/
def run (cores : Nat) : ClintDevice :=
  let timer := (ClintTimer.mk s.clint s.mtimecmp s.timerInterrupt s.irqEvent).run cores
  { s.setMtime timer.clint.mtime with timerInterrupt := timer.timerInterrupt, irqEvent := timer.irqEvent }

/-! ## Callbacks -/

def preReadMtime (_addr : BitVec 64) (_size : Nat) (s : ClintDevice) : Except ClintFault ClintDevice :=
  .ok (s.setMtime ((s.stamp + s.delay) / scaler))

def postWriteMtimecmp (_addr : BitVec 64) (_size : Nat) (s : ClintDevice) : Except ClintFault ClintDevice :=
  .ok { s with irqEvent := s.irqEvent.notify s.delay }

end ClintDevice

/-! ## The bus -/

/-- The register ranges of both controllers. -/
inductive ClintRegister where
  | mtime
  | mtimecmp
  | msip
deriving DecidableEq

namespace ClintDevice

def range (cores : Nat) : ClintRegister → RegisterRange ClintDevice ClintFault
  | .mtime => {
      start := 0xBFF8
      size := 8
      mem := regsMtime
      setMem m s := { s with regsMtime := m }
      alignment := 4
      preRead := preReadMtime }
  | .mtimecmp => {
      start := 0x4000
      size := 8 * cores
      mem := regsMtimecmp
      setMem m s := { s with regsMtimecmp := m }
      alignment := 4
      postWrite := postWriteMtimecmp }
  | .msip => SoftwareInterrupts.regsMsip software setSoftware cores

def registers : List ClintRegister := [.mtime, .mtimecmp, .msip]

/-- The range that an access goes to. -/
def target (cores : Nat) (addr : BitVec 64) : Option ClintRegister :=
  registers.find? fun r => (range cores r).contains addr

def transport (cores : Nat) {n : Nat} (cmd : TlmCommand n) (addr delay : BitVec 64) (s : ClintDevice) :
    Except (AccessError ClintFault) (BitVec (8 * n) × ClintDevice) :=
  route (registers.map (range cores)) cmd addr { s with delay := delay + 2 * clockCycle }

/-! ## Runs -/

inductive Input where
  | read (n : Nat) (addr delay : BitVec 64)
  | write (n : Nat) (addr delay : BitVec 64) (value : BitVec (8 * n))
  | updateAndGetMtime
  | run

/-- What comes back, and the register behind the step. -/
structure Answer where
  data : Option (Σ n, BitVec (8 * n))
  mtime : BitVec 64

/-- The simulated time, and what happens at it. -/
abbrev Turn := BitVec 64 × Input

def act (cores : Nat) (s : ClintDevice) : Input →
    Except (AccessError ClintFault) (Option (Σ n, BitVec (8 * n)) × ClintDevice)
  | .read n addr delay => (transport cores .read addr delay s).map fun (data, t) => (some ⟨n, data⟩, t)
  | .write _ addr delay value => (transport cores (.write value) addr delay s).map fun (_, t) => (none, t)
  | .updateAndGetMtime => .ok (some ⟨8, s.updateAndGetMtime.1⟩, s.updateAndGetMtime.2)
  | .run => .ok (none, s.run cores)

def step (cores : Nat) (s : ClintDevice) (turn : Turn) : Except (AccessError ClintFault) (Answer × ClintDevice) :=
  (act cores { s with stamp := turn.1 } turn.2).map fun (data, t) => (⟨data, t.mtime⟩, t)

def init : ClintDevice where
  regsMtime _ := 0
  regsMtimecmp _ := 0
  software := .init
  timerInterrupt _ := false
  irqEvent := none
  stamp := 0
  delay := 0

/-! ## What a step does to `mtime` -/

/-- A write to `mtime` itself. -/
def WritesMtime (cores : Nat) (turn : Turn) : Prop :=
  match turn.2 with
  | .write _ addr _ _ => target cores addr = some .mtime
  | _ => False

/-- How a step that looks at `mtime` updates it: in microseconds, to the simulated time, or to the time of
the reader. -/
def update (cores : Nat) (turn : Turn) : Option (Update Nat) :=
  match turn.2 with
  | .read _ addr delay =>
      if target cores addr = some .mtime then some (.set ((turn.1 + (delay + 2 * clockCycle)) / scaler).toNat) else none
  | .write .. => none
  | .updateAndGetMtime => some (.raise (turn.1 / scaler).toNat)
  | .run => some (.raise (turn.1 / scaler).toNat)

/-- What comes back of `mtime` is the register. -/
def Shows (turn : Turn) (answer : Answer) : Prop :=
  match turn.2 with
  | .read n addr _ => answer.data = some ⟨n, answer.mtime.extractLsb' (8 * (addr - 0xBFF8).toNat) (8 * n)⟩
  | .updateAndGetMtime => answer.data = some ⟨8, answer.mtime⟩
  | _ => True

section Step

variable {s t : ClintDevice} {cores : Nat}

@[simp] theorem mtime_setMtime (value : BitVec 64) : (s.setMtime value).mtime = value :=
  ByteMemory.read_write_self (n := 8) _ _ (by decide) value

theorem toNat_updateAndGetMtime (c : Clint) :
    c.updateAndGetMtime.2.mtime.toNat = max c.mtime.toNat c.now.toNat := by
  unfold Clint.updateAndGetMtime
  dsimp only
  split
  case isTrue later =>
    have below := BitVec.lt_def.mp later
    omega
  case isFalse other =>
    rw [BitVec.lt_def] at other
    omega

theorem mtime_run : (s.run cores).mtime = s.clint.updateAndGetMtime.2.mtime := by
  have looped := ClintTimer.looped_foldl (s := ClintTimer.mk s.clint.updateAndGetMtime.2 s.mtimecmp
    s.timerInterrupt none) cores rfl
  exact (mtime_setMtime _).trans (congrArg Clint.mtime looped.clint)

variable {n : Nat} {addr delay : BitVec 64}

/-- A read of another register changes nothing but the delay. -/
theorem transport_read_ok {data : BitVec (8 * n)} (ran : transport cores .read addr delay s = .ok (data, t)) :
    target cores addr = some .mtime ∧ t.mtime = (s.stamp + (delay + 2 * clockCycle)) / scaler ∧
        data = t.mtime.extractLsb' (8 * (addr - 0xBFF8).toNat) (8 * n) ∧ t.software = s.software ∨
      target cores addr ≠ some .mtime ∧ t = { s with delay := delay + 2 * clockCycle } := by
  obtain ⟨r, found, fits, called, read⟩ := route_read_found ran
  obtain ⟨register, reached, rfl⟩ := find_range found
  have reached : target cores addr = some register := reached
  cases register with
  | mtime =>
    have fits : (addr - 0xBFF8).toNat + n ≤ 8 := fits
    have set : t = { s with delay := delay + 2 * clockCycle }.setMtime
        ((s.stamp + (delay + 2 * clockCycle)) / scaler) := (Except.ok.inj called).symm
    have read : data = t.regsMtime.read (addr - 0xBFF8) n := read
    have part := t.regsMtime.extractLsb'_read 0 fits
    rw [zero_add, BitVec.ofNat_toNat, BitVec.setWidth_eq] at part
    refine .inl ⟨reached, ?_, read.trans part.symm, ?_⟩
    · rw [set, mtime_setMtime]
    · rw [set]
      rfl
  | mtimecmp =>
    cases called
    exact .inr ⟨by rw [reached]; decide, rfl⟩
  | msip =>
    cases called
    exact .inr ⟨by rw [reached]; decide, rfl⟩

/-- A write; the software interrupts go with their own register. -/
theorem transport_write_ok {value data : BitVec (8 * n)}
    (ran : transport cores (.write value) addr delay s = .ok (data, t)) :
    (target cores addr ≠ some .mtime → t.mtime = s.mtime) ∧
      if target cores addr = some .msip then
        (addr.toNat % 4 = 0 ∧ n % 4 = 0) ∧ addr.toNat + n ≤ 4 * cores ∧
          { s.software with msip := s.software.msip.write addr n value }.postWriteMsip cores addr n = .ok t.software
      else t.software = s.software := by
  obtain ⟨r, found, aligned, -, fits, go, u, before, after⟩ := route_write_found ran
  obtain ⟨register, reached, rfl⟩ := find_range found
  have reached : target cores addr = some register := reached
  rw [reached]
  cases register with
  | mtime =>
    cases before
    rcases after with ⟨done, -⟩ | ⟨-, after⟩
    · cases done
    · obtain rfl := Except.ok.inj after
      exact ⟨fun other => absurd rfl other, rfl⟩
  | mtimecmp =>
    cases before
    rcases after with ⟨done, -⟩ | ⟨-, after⟩
    · cases done
    · obtain rfl := Except.ok.inj after
      exact ⟨fun _ => rfl, rfl⟩
  | msip =>
    cases before
    rcases after with ⟨done, -⟩ | ⟨-, after⟩
    · cases done
    · have start : (range cores .msip).toLocal addr = addr := sub_zero addr
      obtain ⟨software, called, rfl⟩ := ok_of_map after
      rw [start] at called fits
      exact ⟨fun _ => rfl, aligned, fits, called⟩

/-- One step that does not write to `mtime`. -/
theorem mtime_step {turn : Turn} {b : Answer} (ran : step cores s turn = .ok (b, t)) (fine : ¬ WritesMtime cores turn) :
    b.mtime = t.mtime ∧ match update cores turn with
      | none => t.mtime = s.mtime
      | some u => t.mtime.toNat = u.apply s.mtime.toNat ∧ Shows turn b := by
  obtain ⟨stamp, a⟩ := turn
  obtain ⟨⟨data, u⟩, did, same⟩ := ok_of_map ran
  obtain ⟨rfl, rfl⟩ := Prod.mk.inj same
  refine ⟨rfl, ?_⟩
  cases a with
  | read n addr delay =>
    obtain ⟨⟨bytes, v⟩, called, same⟩ := ok_of_map did
    obtain ⟨rfl, rfl⟩ := Prod.mk.inj same
    unfold update
    dsimp only
    rcases transport_read_ok called with ⟨reached, mtime, read, -⟩ | ⟨elsewhere, rfl⟩
    · rw [if_pos reached]
      exact ⟨congrArg BitVec.toNat mtime, congrArg (fun bytes => Option.some (Sigma.mk n bytes)) read⟩
    · rw [if_neg elsewhere]
      rfl
  | write n addr delay value =>
    obtain ⟨⟨bytes, v⟩, called, same⟩ := ok_of_map did
    obtain ⟨rfl, rfl⟩ := Prod.mk.inj same
    exact (transport_write_ok called).1 fine
  | updateAndGetMtime =>
    cases did
    have raised := toNat_updateAndGetMtime (clint { s with stamp := stamp })
    have set := mtime_setMtime (s := { s with stamp := stamp }) (clint { s with stamp := stamp }).updateAndGetMtime.2.mtime
    refine ⟨(congrArg BitVec.toNat set).trans raised, ?_⟩
    exact congrArg (fun bytes => Option.some (Sigma.mk 8 bytes)) set.symm
  | run =>
    cases did
    have raised := toNat_updateAndGetMtime (clint { s with stamp := stamp })
    exact ⟨(congrArg BitVec.toNat mtime_run).trans raised, trivial⟩

/-- The software interrupts change with a write to their register alone. -/
theorem software_step {turn : Turn} {b : Answer} (ran : step cores s turn = .ok (b, t)) :
    match turn.2 with
    | .write n addr _ value =>
        if target cores addr = some .msip then
          (addr.toNat % 4 = 0 ∧ n % 4 = 0) ∧ addr.toNat + n ≤ 4 * cores ∧
            { s.software with msip := s.software.msip.write addr n value }.postWriteMsip cores addr n = .ok t.software
        else t.software = s.software
    | _ => t.software = s.software := by
  obtain ⟨stamp, a⟩ := turn
  obtain ⟨⟨data, u⟩, did, same⟩ := ok_of_map ran
  obtain ⟨-, rfl⟩ := Prod.mk.inj same
  cases a with
  | read n addr delay =>
    obtain ⟨⟨bytes, v⟩, called, same⟩ := ok_of_map did
    obtain ⟨-, rfl⟩ := Prod.mk.inj same
    rcases transport_read_ok called with ⟨-, -, -, kept⟩ | ⟨-, rfl⟩
    · exact kept
    · rfl
  | write n addr delay value =>
    obtain ⟨⟨bytes, v⟩, called, same⟩ := ok_of_map did
    obtain ⟨-, rfl⟩ := Prod.mk.inj same
    exact (transport_write_ok called).2
  | updateAndGetMtime =>
    cases did
    rfl
  | run =>
    cases did
    rfl

end Step

/-! ## What is seen of `mtime` -/

/-- The register at the steps that look at it. -/
def observed (cores : Nat) (log : List (Turn × Answer)) : List Nat :=
  log.filterMap fun (turn, answer) => (update cores turn).map fun _ => answer.mtime.toNat

def updates (cores : Nat) (turns : List Turn) : List (Update Nat) := turns.filterMap (update cores)

section Runs

variable {s : ClintDevice} {cores : Nat} {log : List (Turn × Answer)}

theorem mtime_init : init.mtime = 0 := by
  unfold mtime init
  simp [ByteMemory.read]

/-- The register is a clock that the steps raise and set. -/
theorem observed_eq_seen (run : Runs (step cores) (fun _ turn => ¬ WritesMtime cores turn) init log s) :
    s.mtime.toNat = Update.last 0 (updates cores (log.map Prod.fst)) ∧
      observed cores log = Update.seen 0 (updates cores (log.map Prod.fst)) := by
  refine run.invariant_log (I := fun log s => s.mtime.toNat = Update.last 0 (updates cores (log.map Prod.fst)) ∧
    observed cores log = Update.seen 0 (updates cores (log.map Prod.fst))) ⟨?_, rfl⟩ ?_
  · rw [mtime_init]
    rfl
  · rintro log s turn b t ⟨clock, same⟩ fine ran
    obtain ⟨answer, did⟩ := mtime_step ran fine
    unfold observed updates at same
    unfold updates at clock
    unfold observed updates
    rw [List.map_append, List.filterMap_append, List.filterMap_append, same]
    cases u : update cores turn with
    | none =>
      rw [u] at did
      simp [u, did, clock]
    | some u' =>
      rw [u] at did
      simp [u, did.1, answer, clock, Update.seen_append]

theorem shows_of_runs (run : Runs (step cores) (fun _ turn => ¬ WritesMtime cores turn) init log s) :
    ∀ turn ∈ log, update cores turn.1 ≠ none → Shows turn.1 turn.2 := by
  refine run.invariant_log (I := fun log _ => ∀ turn ∈ log, update cores turn.1 ≠ none → Shows turn.1 turn.2)
    (by simp) ?_
  intro log s turn b t before fine ran entry among looks
  rcases List.mem_append.mp among with old | new
  · exact before entry old looks
  · obtain rfl := List.mem_singleton.mp new
    have did := (mtime_step ran fine).2
    cases u : update cores turn with
    | none => exact absurd u looks
    | some u' =>
      rw [u] at did
      exact did.2

/-- What is seen of `mtime` never goes back exactly where no step that looks at it is later than a read
behind it, which sets it to the time of the reader. -/
theorem observed_sorted_iff (run : Runs (step cores) (fun _ turn => ¬ WritesMtime cores turn) init log s) :
    (∀ turn ∈ log, update cores turn.1 ≠ none → Shows turn.1 turn.2) ∧
      ((observed cores log).Pairwise (· ≤ ·) ↔ Update.InOrder (updates cores (log.map Prod.fst))) := by
  refine ⟨shows_of_runs run, ?_⟩
  rw [(observed_eq_seen run).2]
  exact Update.pairwise_seen_iff (updates cores (log.map Prod.fst))

end Runs

/-- A read two microseconds ahead, and a CSR read one microsecond later. -/
theorem observed_ahead : ∃ log s, Runs (step 1) (fun _ turn => ¬ WritesMtime 1 turn) init log s ∧
    log.map Prod.fst = [(0, .read 8 0xBFF8 2000000), (1000000, .updateAndGetMtime)] ∧
      (observed 1 log).Pairwise (· ≤ ·) := by
  obtain ⟨b, t, first⟩ : ∃ b t, step 1 init (0, .read 8 0xBFF8 2000000) = .ok (b, t) := ⟨_, _, rfl⟩
  obtain ⟨c, u, second⟩ : ∃ c u, step 1 t (1000000, .updateAndGetMtime) = .ok (c, u) := ⟨_, _, rfl⟩
  have run : Runs (step 1) (fun _ turn => ¬ WritesMtime 1 turn) init _ u :=
    (Runs.start.next id first).next id second
  have order : Update.InOrder (updates 1 [(0, .read 8 0xBFF8 2000000), (1000000, .updateAndGetMtime)]) := by
    decide +kernel
  exact ⟨_, u, run, rfl, (observed_sorted_iff run).2.mpr order⟩

/-- Two harts read at the same time, the first of them two microseconds ahead. -/
theorem not_observed_sorted : ¬ ∀ (cores : Cores) log s,
    Runs (step cores.number) (fun _ turn => ¬ WritesMtime cores.number turn) init log s →
      (log.map fun turn => turn.1.1).Pairwise (· ≤ ·) → (observed cores.number log).Pairwise (· ≤ ·) := by
  intro all
  obtain ⟨b, t, first⟩ : ∃ b t, step 1 init (0, .read 8 0xBFF8 2000000) = .ok (b, t) := ⟨_, _, rfl⟩
  obtain ⟨c, u, second⟩ : ∃ c u, step 1 t (0, .read 8 0xBFF8 0) = .ok (c, u) := ⟨_, _, rfl⟩
  have run : Runs (step 1) (fun _ turn => ¬ WritesMtime 1 turn) init _ u :=
    (Runs.start.next id first).next id second
  have sorted := all ⟨1, by decide, by decide⟩ _ u run (by simp)
  have back : ¬ (Update.seen 0 (updates 1 [(0, .read 8 0xBFF8 2000000), (0, .read 8 0xBFF8 0)])).Pairwise
      (· ≤ ·) := by decide +kernel
  rw [(observed_eq_seen run).2] at sorted
  exact back sorted

/-! ## Software interrupts -/

/-- A write to the software interrupts brings nothing new behind its first word. -/
def Settled (cores : Nat) (s : ClintDevice) (turn : Turn) : Prop :=
  match turn.2 with
  | .write _ addr _ value => target cores addr = some .msip → s.software.Settled cores addr value
  | _ => True

theorem right_step {s t : ClintDevice} {cores : Nat} {turn : Turn} {b : Answer} (fits : 4 * cores ≤ 2 ^ 63)
    (right : s.software.Right cores) (ran : step cores s turn = .ok (b, t)) :
    t.software.Right cores ↔ Settled cores s turn := by
  have did := software_step ran
  obtain ⟨stamp, a⟩ := turn
  unfold Settled
  cases a with
  | write n addr delay value => exact SoftwareInterrupts.right_iff_of_write fits right did
  | read n addr delay =>
    rw [show t.software = s.software from did]
    exact iff_of_true right trivial
  | updateAndGetMtime =>
    rw [show t.software = s.software from did]
    exact iff_of_true right trivial
  | run =>
    rw [show t.software = s.software from did]
    exact iff_of_true right trivial

end ClintDevice

end RiscvVp
