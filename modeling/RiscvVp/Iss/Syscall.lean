/-
# RiscvVp.Iss.Syscall -- the system calls of the RV32 core

`SyscallHandler` takes the number and the arguments of a call from the registers of the core, lets the host
do what the call asks for, and writes the `int` that came of it to `a0`.  On the way that `int` is sign-extended
to 64 bits, and `write_register` casts it to `uint32_t`, checked: of a failure of the host the guest never hears.
The break goes through an `int` of its own.
-/
import RiscvVp.Iss.Exec
import RiscvVp.Lib.ByteMemory

namespace RiscvVp

set_option autoImplicit false

open Lib

namespace Syscall

/-- What ends the simulation within a system call. -/
inductive Fault where
  | assertion
  | badLexicalCast
  | runtimeError (what : String)
deriving DecidableEq

/-! ## The host -/

structure Timespec where
  sec : BitVec 64
  nsec : BitVec 64

/-- `struct stat` of the host. -/
structure Stat where
  dev : BitVec 64
  ino : BitVec 64
  mode : BitVec 32
  nlink : BitVec 64
  uid : BitVec 32
  gid : BitVec 32
  rdev : BitVec 64
  size : BitVec 64
  blksize : BitVec 64
  blocks : BitVec 64
  atim : Timespec
  mtim : Timespec
  ctim : Timespec

/-- What the host does for a call, over a state of its own.  A pointer is an offset into the memory that the
handler was given, and the results have the widths of `int`, `time_t`, `off_t` and `ssize_t`. -/
structure Host (Sim : Type) where
  fstat : (fd : BitVec 32) → Sim → (BitVec 32 × Stat) × Sim
  /-- The answer with `tv_sec` and `tv_usec`. -/
  gettimeofday : Sim → (BitVec 32 × BitVec 64 × BitVec 64) × Sim
  time : Sim → BitVec 64 × Sim
  write : (fd : BitVec 32) → (p count : BitVec 64) → ByteMemory → Sim → BitVec 64 × Sim
  read : (fd : BitVec 32) → (p count : BitVec 64) → ByteMemory → Sim → (BitVec 64 × ByteMemory) × Sim
  lseek : (fd : BitVec 32) → (offset : BitVec 64) → (whence : BitVec 32) → Sim → BitVec 64 × Sim
  openPath : (pathname : BitVec 64) → (flags mode : BitVec 32) → ByteMemory → Sim → BitVec 32 × Sim
  close : (fd : BitVec 32) → Sim → BitVec 32 × Sim

end Syscall

/-- `attached`: the pointer `mem` is not null. -/
structure SyscallHandler (Sim : Type) where
  attached : Bool
  mem : ByteMemory
  memOffset : BitVec 64
  hp : BitVec 64
  maxHeap : BitVec 64
  shallExit : Bool
  sim : Sim

namespace Syscall

variable {Sim : Type}

abbrev SysM (Sim : Type) := Exec (SyscallHandler Sim) Fault

def onHost {α : Type} (f : Sim → α × Sim) : SysM Sim α :=
  Exec.call fun w => ((f w.sim).1, { w with sim := (f w.sim).2 })

def guestAddressToHostPointer (addr : BitVec 64) : SysM Sim (BitVec 64) := do
  Exec.ensure (← Exec.read SyscallHandler.attached) .assertion
  pure (addr - (← Exec.read SyscallHandler.memOffset))

def store (p : BitVec 64) (n : Nat) (value : BitVec (8 * n)) : SysM Sim Unit :=
  Exec.update fun w => { w with mem := w.mem.write p n value }

/-- `boost::lexical_cast` of an unsigned word to `int`. -/
def lexicalCastInt (value : BitVec 64) : SysM Sim (BitVec 32) := do
  Exec.ensure (value.toNat < 2 ^ 31) .badLexicalCast
  pure (value.setWidth 32)

/-! ## The calls -/

/-- A field of `rv32_stat`: its offset, its size and its value. -/
structure StatField where
  offset : BitVec 64
  size : Nat
  value : BitVec (8 * size)

/-- `_copy_timespec`. -/
def copyTimespec (offset : BitVec 64) (src : Timespec) : List StatField :=
  [⟨offset, 4, src.sec.setWidth 32⟩, ⟨offset + 4, 4, src.nsec.setWidth 32⟩]

def statFields (x : Stat) : List StatField :=
  [⟨0, 8, x.dev⟩, ⟨8, 8, x.ino⟩, ⟨16, 4, x.mode⟩, ⟨20, 4, x.nlink.setWidth 32⟩, ⟨24, 4, x.uid⟩, ⟨28, 4, x.gid⟩,
    ⟨32, 8, x.rdev⟩, ⟨48, 8, x.size⟩, ⟨56, 4, x.blksize.setWidth 32⟩, ⟨64, 8, x.blocks⟩] ++
  copyTimespec 72 x.atim ++ copyTimespec 80 x.mtim ++ copyTimespec 88 x.ctim

def storeStat (p : BitVec 64) (x : Stat) : SysM Sim Unit :=
  Exec.update fun w =>
    { w with mem := (statFields x).foldl (fun mem f => mem.write (p + f.offset) f.size f.value) w.mem }

variable (host : Host Sim)

def sysFstat (fd : BitVec 32) (sAddr : BitVec 64) : SysM Sim (BitVec 32) := do
  let (ans, x) ← onHost (host.fstat fd)
  Exec.when (ans = 0) do
    storeStat (← guestAddressToHostPointer sAddr) x
  pure ans

def sysGettimeofday (tp tzp : BitVec 64) : SysM Sim (BitVec 32) := do
  Exec.ensure (tzp = 0) .assertion
  let (ans, sec, usec) ← onHost host.gettimeofday
  let p ← guestAddressToHostPointer tp
  store p 4 (sec.setWidth 32)
  store (p + 4) 4 (usec.setWidth 32)
  pure ans

def sysTime (tloc : BitVec 64) : SysM Sim (BitVec 32) := do
  let hostAns ← onHost host.time
  Exec.ensure (-2 ^ 31 ≤ hostAns.toInt ∧ hostAns.toInt < 2 ^ 31) .badLexicalCast
  Exec.when (tloc ≠ 0) do
    store (← guestAddressToHostPointer tloc) 4 (hostAns.setWidth 32)
  pure (hostAns.setWidth 32)

/-- Zero asks for the break. -/
def sysBrk (addr : BitVec 64) : SysM Sim (BitVec 32) := do
  if addr = 0 then lexicalCastInt (← Exec.read SyscallHandler.hp)
  else
    Exec.update fun w => { w with hp := addr, maxHeap := if w.maxHeap < addr then addr else w.maxHeap }
    lexicalCastInt addr

def sysWrite (fd : BitVec 32) (buf count : BitVec 64) : SysM Sim (BitVec 32) := do
  let p ← guestAddressToHostPointer buf
  let ans ← onHost (host.write fd p count (← Exec.read SyscallHandler.mem))
  Exec.ensure (0 ≤ ans.toInt) .assertion
  pure (ans.setWidth 32)

def sysRead (fd : BitVec 32) (buf count : BitVec 64) : SysM Sim (BitVec 32) := do
  let p ← guestAddressToHostPointer buf
  let (ans, mem) ← onHost (host.read fd p count (← Exec.read SyscallHandler.mem))
  Exec.update fun w => { w with mem := mem }
  Exec.ensure (0 ≤ ans.toInt) .assertion
  pure (ans.setWidth 32)

def sysLseek (fd : BitVec 32) (offset : BitVec 64) (whence : BitVec 32) : SysM Sim (BitVec 32) := do
  pure ((← onHost (host.lseek fd offset whence)).setWidth 32)

/-- The flags of `rv_sc`, each with the one of the host's `fcntl.h`: read, write, both, append, create and
truncate. -/
def openFlags : List (BitVec 32 × BitVec 32) :=
  [(0x0000, 0), (0x0001, 1), (0x0002, 2), (0x0008, 0x400), (0x0200, 0x40), (0x0400, 0x200)]

def hostFlags (flags : BitVec 32) : BitVec 32 :=
  openFlags.foldl (fun ret f => ret ||| if flags &&& f.1 ≠ 0 then f.2 else 0) 0

def translateRVFlagsToHost (flags : BitVec 32) : SysM Sim (BitVec 32) := do
  Exec.ensure (¬ (hostFlags flags = 0 ∧ flags ≠ 0)) (.runtimeError "unsupported flag")
  pure (hostFlags flags)

def sysOpen (pathname : BitVec 64) (flags mode : BitVec 32) : SysM Sim (BitVec 32) := do
  let hostPathname ← guestAddressToHostPointer pathname
  let flags ← translateRVFlagsToHost flags
  onHost (host.openPath hostPathname flags mode (← Exec.read SyscallHandler.mem))

/-- The standard streams stay open. -/
def sysClose (fd : BitVec 32) : SysM Sim (BitVec 32) :=
  if fd = 1 ∨ fd = 0 ∨ fd = 2 then pure 0 else onHost (host.close fd)

def sysExit : SysM Sim (BitVec 32) := do
  Exec.update fun w => { w with shallExit := true }
  pure 0

namespace Sys

def fstat : BitVec 64 := 80
def gettimeofday : BitVec 64 := 169
def brk : BitVec 64 := 214
def time : BitVec 64 := 1062
def write : BitVec 64 := 64
def read : BitVec 64 := 63
def lseek : BitVec 64 := 62
def openPath : BitVec 64 := 1024
def close : BitVec 64 := 57
def exit : BitVec 64 := 93
def hostError : BitVec 64 := 1
def hostTestPass : BitVec 64 := 2
def hostTestFail : BitVec 64 := 3

end Sys

/-- `int execute_syscall`. -/
def executeSyscall (n a0 a1 a2 : BitVec 64) : SysM Sim (BitVec 32) :=
  switch n
    [(Sys.fstat, sysFstat host (a0.setWidth 32) a1),
      (Sys.gettimeofday, sysGettimeofday host a0 a1),
      (Sys.brk, sysBrk a0),
      (Sys.time, sysTime host a0),
      (Sys.write, sysWrite host (a0.setWidth 32) a1 a2),
      (Sys.read, sysRead host (a0.setWidth 32) a1 a2),
      (Sys.lseek, sysLseek host (a0.setWidth 32) a1 (a2.setWidth 32)),
      (Sys.openPath, sysOpen host a0 (a1.setWidth 32) (a2.setWidth 32)),
      (Sys.close, sysClose host (a0.setWidth 32)),
      (Sys.exit, sysExit),
      (Sys.hostError, Exec.raise (.runtimeError "SYS_host_error")),
      (Sys.hostTestPass, sysExit),
      (Sys.hostTestFail, sysExit)]
    (Exec.raise (.runtimeError ("unsupported syscall '" ++ toString n.toNat ++ "'")))

/-! ## The core -/

abbrev Core (Sim : Type) := Iss .rv32 (SyscallHandler Sim)

abbrev CoreM (Sim : Type) := Exec (Core Sim) Fault

def getSyscallRegisterIndex (s : Core Sim) : BitVec 5 := if s.hasExtension Misa.extE then 15 else 17

/-- `read_register` zero-extends. -/
def readRegister (idx : BitVec 5) (s : Core Sim) : BitVec 64 := (s.regs idx).setWidth 64

/-- `write_register` casts. -/
def writeRegister (idx : BitVec 5) (value : BitVec 64) : CoreM Sim Unit := do
  Exec.ensure (value.toNat < 2 ^ 32) .badLexicalCast
  Exec.update (Iss.setReg idx (value.setWidth 32))

/-- `execute_syscall` for a core: the `int` becomes an `int32_t`, and that a `uint64_t`. -/
def executeSyscallOf : CoreM Sim Unit := do
  let n ← Exec.read fun s => readRegister (getSyscallRegisterIndex s) s
  let a2 ← Exec.read (readRegister 12)
  let a1 ← Exec.read (readRegister 11)
  let a0 ← Exec.read (readRegister 10)
  let ans ← Exec.onPart Iss.world (fun w s => { s with world := w }) (executeSyscall host n a0 a1 a2)
  writeRegister 10 (ans.signExtend 64)
  if (← Exec.read Iss.world).shallExit then Exec.update fun s => { s with shallExit := true }

variable (s : Core Sim)

/-- The number of the call. -/
def number : BitVec 64 := readRegister (getSyscallRegisterIndex s) s

/-- What the handler does with the call. -/
def called : Except Fault (BitVec 32) × SyscallHandler Sim :=
  (executeSyscall host (number s) (readRegister 10 s) (readRegister 11 s) (readRegister 12 s)).run s.world

/-- The call returns to the guest, with the answer in `a0`. -/
def ResultHeld (ans : BitVec 32) : Prop :=
  ∃ t, (executeSyscallOf host).run s = (.ok (), t) ∧ t.regs 10 = ans

/-- It also left the break where the guest wants it. -/
def BreakHeld (address : BitVec 32) : Prop :=
  ∃ t, (executeSyscallOf host).run s = (.ok (), t) ∧ t.world.hp = address.setWidth 64 ∧ t.regs 10 = address

/-- The `int` that the host answers a call with; a call that asks nothing of the host has no failure. -/
def hostAnswer (w : SyscallHandler Sim) (n a0 a1 a2 : BitVec 64) : BitVec 32 :=
  let fd : BitVec 32 := a0.setWidth 32
  switch n
    [(Sys.fstat, (host.fstat fd w.sim).1.1),
      (Sys.gettimeofday, (host.gettimeofday w.sim).1.1),
      (Sys.brk, 0),
      (Sys.time, (host.time w.sim).1.setWidth 32),
      (Sys.write, (host.write fd (a1 - w.memOffset) a2 w.mem w.sim).1.setWidth 32),
      (Sys.read, (host.read fd (a1 - w.memOffset) a2 w.mem w.sim).1.1.setWidth 32),
      (Sys.lseek, (host.lseek fd a1 (a2.setWidth 32) w.sim).1.setWidth 32),
      (Sys.openPath,
        (host.openPath (a0 - w.memOffset) (hostFlags (a1.setWidth 32)) (a2.setWidth 32) w.mem w.sim).1),
      (Sys.close, if fd = 1 ∨ fd = 0 ∨ fd = 2 then 0 else (host.close fd w.sim).1),
      (Sys.exit, 0),
      (Sys.hostError, 0),
      (Sys.hostTestPass, 0),
      (Sys.hostTestFail, 0)]
    0

/-! ## One call -/

section Calls

variable {host} {w w' : SyscallHandler Sim} {ans : BitVec 32} {m : SysM Sim (BitVec 32)}

/-- What returns behind a check. -/
theorem ok_of_ensure {α : Type} {c : Prop} [Decidable c] {e : Fault} {k : Unit → SysM Sim α} {a : α}
    (ran : (Exec.ensure c e >>= k).run w = (.ok a, w')) : c ∧ (k ()).run w = (.ok a, w') := by
  by_cases holds : c
  · rw [Exec.ensure_pos holds] at ran
    exact ⟨holds, ran⟩
  · rw [Exec.ensure_neg holds] at ran
    cases ran

theorem lexicalCastInt_ok {value : BitVec 64} (ran : (lexicalCastInt value).run w = (.ok ans, w')) :
    value.toNat < 2 ^ 31 ∧ ans = value.setWidth 32 ∧ w' = w := by
  obtain ⟨small, ran⟩ := ok_of_ensure ran
  cases ran
  exact ⟨small, rfl, rfl⟩

theorem run_lexicalCastInt {value : BitVec 64} (small : value.toNat < 2 ^ 31) :
    (lexicalCastInt value).run w = (.ok (value.setWidth 32), w) := by
  unfold lexicalCastInt
  rw [Exec.ensure_pos small]
  rfl

theorem toInt_nonneg_of_small {value : BitVec 64} (small : value.toNat < 2 ^ 31) :
    0 ≤ (value.setWidth 32).toInt := by
  have low : (value.setWidth 32).toNat < 2 ^ 31 := by
    rw [BitVec.toNat_setWidth, Nat.mod_eq_of_lt (small.trans (by decide))]
    exact small
  rw [BitVec.toInt_eq_toNat_of_lt (by omega)]
  exact Int.natCast_nonneg _

theorem sysFstat_ok {fd : BitVec 32} {sAddr : BitVec 64} (ran : (sysFstat host fd sAddr).run w = (.ok ans, w')) :
    ans = (host.fstat fd w.sim).1.1 := by
  obtain ⟨answer, v, asked, ran⟩ := Exec.run_bind_eq_ok.mp ran
  cases asked
  obtain ⟨-, v, -, ran⟩ := Exec.run_bind_eq_ok.mp ran
  cases ran
  rfl

theorem sysGettimeofday_ok {tp tzp : BitVec 64} (ran : (sysGettimeofday host tp tzp).run w = (.ok ans, w')) :
    ans = (host.gettimeofday w.sim).1.1 := by
  obtain ⟨-, ran⟩ := ok_of_ensure ran
  obtain ⟨answer, v, asked, ran⟩ := Exec.run_bind_eq_ok.mp ran
  cases asked
  obtain ⟨p, v, -, ran⟩ := Exec.run_bind_eq_ok.mp ran
  cases ran
  rfl

theorem sysTime_ok {tloc : BitVec 64} (ran : (sysTime host tloc).run w = (.ok ans, w')) :
    ans = (host.time w.sim).1.setWidth 32 := by
  obtain ⟨answer, v, asked, ran⟩ := Exec.run_bind_eq_ok.mp ran
  cases asked
  obtain ⟨-, ran⟩ := ok_of_ensure ran
  obtain ⟨-, v, -, ran⟩ := Exec.run_bind_eq_ok.mp ran
  cases ran
  rfl

/-- The break comes back as an `int` that is not negative, or not at all. -/
theorem sysBrk_ok {addr : BitVec 64} (ran : (sysBrk addr).run w = (.ok ans, w')) : 0 ≤ ans.toInt := by
  unfold sysBrk at ran
  rw [Exec.run_ite] at ran
  split at ran
  case isTrue =>
    obtain ⟨small, rfl, -⟩ := lexicalCastInt_ok ran
    exact toInt_nonneg_of_small small
  case isFalse =>
    obtain ⟨small, rfl, -⟩ := lexicalCastInt_ok ran
    exact toInt_nonneg_of_small small

theorem guestAddressToHostPointer_ok {addr p : BitVec 64}
    (ran : (guestAddressToHostPointer addr).run w = (.ok p, w')) : p = addr - w.memOffset ∧ w' = w := by
  obtain ⟨-, ran⟩ := ok_of_ensure ran
  cases ran
  exact ⟨rfl, rfl⟩

theorem sysWrite_ok {fd : BitVec 32} {buf count : BitVec 64} (ran : (sysWrite host fd buf count).run w = (.ok ans, w')) :
    ans = (host.write fd (buf - w.memOffset) count w.mem w.sim).1.setWidth 32 := by
  obtain ⟨p, v, pointed, ran⟩ := Exec.run_bind_eq_ok.mp ran
  obtain ⟨rfl, rfl⟩ := guestAddressToHostPointer_ok pointed
  obtain ⟨answer, v, asked, ran⟩ := Exec.run_bind_eq_ok.mp ran
  cases asked
  obtain ⟨-, ran⟩ := ok_of_ensure ran
  cases ran
  rfl

theorem sysRead_ok {fd : BitVec 32} {buf count : BitVec 64} (ran : (sysRead host fd buf count).run w = (.ok ans, w')) :
    ans = (host.read fd (buf - w.memOffset) count w.mem w.sim).1.1.setWidth 32 := by
  obtain ⟨p, v, pointed, ran⟩ := Exec.run_bind_eq_ok.mp ran
  obtain ⟨rfl, rfl⟩ := guestAddressToHostPointer_ok pointed
  obtain ⟨answer, v, asked, ran⟩ := Exec.run_bind_eq_ok.mp ran
  cases asked
  obtain ⟨-, ran⟩ := ok_of_ensure ran
  cases ran
  rfl

theorem sysOpen_ok {pathname : BitVec 64} {flags mode : BitVec 32}
    (ran : (sysOpen host pathname flags mode).run w = (.ok ans, w')) :
    ans = (host.openPath (pathname - w.memOffset) (hostFlags flags) mode w.mem w.sim).1 := by
  obtain ⟨p, v, pointed, ran⟩ := Exec.run_bind_eq_ok.mp ran
  obtain ⟨rfl, rfl⟩ := guestAddressToHostPointer_ok pointed
  obtain ⟨translated, v, checked, ran⟩ := Exec.run_bind_eq_ok.mp ran
  obtain ⟨-, checked⟩ := ok_of_ensure checked
  cases checked
  cases ran
  rfl

theorem sysClose_ok {fd : BitVec 32} (ran : (sysClose host fd).run w = (.ok ans, w')) :
    ans = if fd = 1 ∨ fd = 0 ∨ fd = 2 then 0 else (host.close fd w.sim).1 := by
  unfold sysClose at ran
  rw [Exec.run_ite] at ran
  split at ran
  case isTrue standard =>
    cases ran
    rw [if_pos standard]
  case isFalse other =>
    cases ran
    rw [if_neg other]

variable (host) in
/-- A call that returns fails where the host did. -/
theorem negative_iff {n a0 a1 a2 : BitVec 64} (ran : (executeSyscall host n a0 a1 a2).run w = (.ok ans, w')) :
    0 ≤ ans.toInt ↔ 0 ≤ (hostAnswer host w n a0 a1 a2).toInt := by
  let Agrees (m : SysM Sim (BitVec 32)) (answer : BitVec 32) : Prop :=
    m.run w = (.ok ans, w') → (0 ≤ ans.toInt ↔ 0 ≤ answer.toInt)
  have of_eq {m : SysM Sim (BitVec 32)} {answer : BitVec 32} (same : m.run w = (.ok ans, w') → ans = answer) :
      Agrees m answer := fun ran => by rw [same ran]
  have of_exit : Agrees sysExit 0 := of_eq fun ran => by cases ran; rfl
  suffices rows : Agrees (executeSyscall host n a0 a1 a2) (hostAnswer host w n a0 a1 a2) from rows ran
  refine switch_cons_of₂ (fun _ => of_eq sysFstat_ok) ?_
  refine switch_cons_of₂ (fun _ => of_eq sysGettimeofday_ok) ?_
  refine switch_cons_of₂ (fun _ ran => iff_of_true (sysBrk_ok ran) (by decide)) ?_
  refine switch_cons_of₂ (fun _ => of_eq sysTime_ok) ?_
  refine switch_cons_of₂ (fun _ => of_eq sysWrite_ok) ?_
  refine switch_cons_of₂ (fun _ => of_eq sysRead_ok) ?_
  refine switch_cons_of₂ (fun _ => of_eq fun ran => ?_) ?_
  · cases ran
    rfl
  refine switch_cons_of₂ (fun _ => of_eq sysOpen_ok) ?_
  refine switch_cons_of₂ (fun _ => of_eq sysClose_ok) ?_
  refine switch_cons_of₂ (fun _ => of_exit) ?_
  refine switch_cons_of₂ (fun _ => of_eq nofun) ?_
  refine switch_cons_of₂ (fun _ => of_exit) ?_
  refine switch_cons_of₂ (fun _ => of_exit) ?_
  exact of_eq nofun

end Calls

/-! ## What the guest gets -/

section Results

/-- The cast of the sign-extended `int` passes exactly where there is no sign. -/
theorem signExtend_lt_iff (ans : BitVec 32) : (ans.signExtend 64).toNat < 2 ^ 32 ↔ 0 ≤ ans.toInt := by
  have extended : (ans.signExtend 64).toInt = ans.toInt := BitVec.toInt_signExtend_of_le (by decide)
  rw [BitVec.toInt_eq_toNat_cond] at extended
  have low := BitVec.toInt_lt (x := ans)
  have bound := (ans.signExtend 64).isLt
  split at extended
  case isTrue => omega
  case isFalse => omega

theorem setWidth_signExtend (ans : BitVec 32) : (ans.signExtend 64).setWidth 32 = ans := by
  apply BitVec.eq_of_getElem_eq
  intro i bound
  rw [BitVec.getElem_setWidth, BitVec.getLsbD_signExtend]
  simp only [bound, if_true, show i < 64 by omega, decide_true, Bool.true_and]
  exact BitVec.getLsbD_eq_getElem bound

theorem setReg_self (idx : BitVec 5) (value : BitVec 32) (s : Core Sim) : (Iss.setReg idx value s).regs idx = value :=
  if_pos rfl

/-- The whole call, from what the handler did with it. -/
theorem run_executeSyscallOf : (executeSyscallOf host).run s =
    match called host s with
    | (.error e, w) => (.error e, { s with world := w })
    | (.ok ans, w) =>
        if 0 ≤ ans.toInt then
          (.ok (), { Iss.setReg 10 ans { s with world := w } with shallExit := s.shallExit || w.shallExit })
        else (.error .badLexicalCast, { s with world := w }) := by
  have handled : (Exec.onPart Iss.world (fun w s => { s with world := w }) (executeSyscall host (number s)
      (readRegister 10 s) (readRegister 11 s) (readRegister 12 s))).run s =
      ((called host s).1, { s with world := (called host s).2 }) := rfl
  unfold executeSyscallOf
  rw [Exec.run_read_bind, Exec.run_read_bind, Exec.run_read_bind, Exec.run_read_bind]
  rcases ran : called host s with ⟨e | ans, w⟩
  case error =>
    rw [ran] at handled
    exact Exec.run_bind_error handled
  case ok =>
    rw [ran] at handled
    refine (Exec.run_bind_ok handled).trans ?_
    dsimp only
    unfold writeRegister
    by_cases signed : 0 ≤ ans.toInt
    case neg =>
      rw [if_neg signed, Exec.ensure_neg (mt (signExtend_lt_iff ans).mp signed)]
      rfl
    case pos =>
      rw [if_pos signed, Exec.ensure_pos ((signExtend_lt_iff ans).mpr signed), setWidth_signExtend]
      -- `shall_exit` is only ever set
      change (if w.shallExit then Exec.update fun s => { s with shallExit := true } else pure () :
        CoreM Sim Unit).run (Iss.setReg 10 ans { s with world := w }) = _
      cases w.shallExit
      case false =>
        rw [Bool.or_false]
        rfl
      case true =>
        rw [Bool.or_true]
        rfl

/-- An `int` of the handler reaches `a0`, or nothing does. -/
theorem resultHeld_iff {ans : BitVec 32} {w : SyscallHandler Sim} (ran : called host s = (.ok ans, w)) :
    ResultHeld host s ans ↔ 0 ≤ ans.toInt := by
  unfold ResultHeld
  rw [run_executeSyscallOf, ran]
  dsimp only
  by_cases signed : 0 ≤ ans.toInt
  case pos =>
    rw [if_pos signed]
    exact iff_of_true ⟨_, rfl, setReg_self 10 ans { s with world := w }⟩ signed
  case neg =>
    rw [if_neg signed]
    exact iff_of_false (fun ⟨_, ran, _⟩ => nomatch ran) signed

/-- The break is kept and returned where it is an `int`. -/
theorem breakHeld_iff {address : BitVec 32} (call : number s = Sys.brk) (argument : s.regs 10 = address)
    (some : address ≠ 0) : BreakHeld host s address ↔ address.toNat < 2 ^ 31 := by
  have wide : (address.setWidth 64).toNat = address.toNat := by
    rw [BitVec.toNat_setWidth, Nat.mod_eq_of_lt (address.isLt.trans (by decide))]
  have nonzero : address.setWidth 64 ≠ 0 := by
    intro zero
    apply some
    apply BitVec.eq_of_toNat_eq
    rw [← wide, zero]
    rfl
  let moved : SyscallHandler Sim :=
    { s.world with
      hp := address.setWidth 64
      maxHeap := if s.world.maxHeap < address.setWidth 64 then address.setWidth 64 else s.world.maxHeap }
  have called : called host s = (lexicalCastInt (address.setWidth 64)).run moved := by
    unfold Syscall.called readRegister
    rw [call, argument]
    change (sysBrk (address.setWidth 64)).run s.world = _
    unfold sysBrk
    rw [if_neg nonzero]
    rfl
  unfold BreakHeld
  rw [run_executeSyscallOf, called]
  by_cases small : address.toNat < 2 ^ 31
  case pos =>
    have same : (address.setWidth 64).setWidth 32 = address := by
      rw [BitVec.setWidth_setWidth_of_le _ (by decide), BitVec.setWidth_eq]
    rw [run_lexicalCastInt (wide.trans_lt small), same]
    have signed : 0 ≤ address.toInt := by
      rw [← same]
      exact toInt_nonneg_of_small (wide.trans_lt small)
    dsimp only
    rw [if_pos signed]
    exact iff_of_true ⟨_, rfl, rfl, setReg_self 10 address { s with world := moved }⟩ small
  case neg =>
    have large : ¬ (address.setWidth 64).toNat < 2 ^ 31 := fun low => small (wide ▸ low)
    unfold lexicalCastInt
    rw [Exec.ensure_neg large]
    exact iff_of_false (fun ⟨_, ran, _⟩ => nomatch ran) small

/-- What a call returns to the guest: the answer of the host where it is no failure, and a break in the lower half
of the address space. -/
theorem results_iff :
    (∀ ans w, called host s = (.ok ans, w) →
      (ResultHeld host s ans ↔ 0 ≤ (hostAnswer host s.world (number s) (readRegister 10 s) (readRegister 11 s)
        (readRegister 12 s)).toInt)) ∧
    ∀ address, number s = Sys.brk → s.regs 10 = address → address ≠ 0 →
      (BreakHeld host s address ↔ address.toNat < 2 ^ 31) :=
  ⟨fun _ _ ran => (resultHeld_iff host s ran).trans (negative_iff host ran),
    fun _ call argument some => breakHeld_iff host s call argument some⟩

/-- A host with one answer to everything. -/
def steadyHost (ans : BitVec 32) : Host Unit where
  fstat _ _ := ((ans, ⟨0, 0, 0, 0, 0, 0, 0, 0, 0, 0, ⟨0, 0⟩, ⟨0, 0⟩, ⟨0, 0⟩⟩), ())
  gettimeofday _ := ((ans, 0, 0), ())
  time _ := (ans.signExtend 64, ())
  write _ _ _ _ _ := (ans.signExtend 64, ())
  read _ _ _ mem _ := ((ans.signExtend 64, mem), ())
  lseek _ _ _ _ := (ans.signExtend 64, ())
  openPath _ _ _ _ _ := (ans, ())
  close _ _ := (ans, ())

/-- A core at a call, with the heap at 1 GiB. -/
def callingCore (n a0 : BitVec 32) : Core Unit :=
  Iss.setReg 10 a0 (Iss.setReg 17 n (Iss.reset 0 false 0 0
    { attached := true, mem := fun _ => 0, memOffset := 0, hp := 0x40000000, maxHeap := 0x40000000, shallExit := false,
      sim := () }))

theorem results_close_and_brk : ResultHeld (steadyHost 0) (callingCore 57 5) 0 ∧
    BreakHeld (steadyHost 0) (callingCore 214 0x40001000) 0x40001000 := by
  have closed : called (steadyHost 0) (callingCore 57 5) = (.ok 0, (callingCore 57 5).world) := rfl
  exact ⟨((results_iff (steadyHost 0) (callingCore 57 5)).1 0 _ closed).mpr (by decide),
    ((results_iff (steadyHost 0) (callingCore 214 0x40001000)).2 0x40001000 rfl rfl (by decide)).mpr (by decide)⟩

/-- Closing a file that is not open, and a break at 2 GiB. -/
theorem not_results :
    (¬ ∀ (host : Host Unit) s ans w, called host s = (.ok ans, w) → ResultHeld host s ans) ∧
      ¬ ∀ (host : Host Unit) s address, number s = Sys.brk → s.regs 10 = address → address ≠ 0 →
        BreakHeld host s address := by
  constructor
  · intro all
    obtain ⟨t, ran, -⟩ := all (steadyHost (-1)) (callingCore 57 5) (-1) (callingCore 57 5).world rfl
    cases ran
  · intro all
    obtain ⟨t, ran, -⟩ := all (steadyHost 0) (callingCore 214 0x80000000) 0x80000000 rfl rfl (by decide)
    cases ran

/-- A core whose platform is the handler makes the same of what the handler returns. -/
theorem run_platform (plat : Platform (SyscallHandler Sim)) {ans : BitVec 32} {w : SyscallHandler Sim}
    (ran : called host s = (.ok ans, w))
    (answers : plat.executeSyscall (number s) (readRegister 10 s) (readRegister 11 s) (readRegister 12 s)
      (readRegister 13 s) s.world = ((ans, w.shallExit), w)) :
    (Iss.executeSyscall plat).run s =
      match (executeSyscallOf host).run s with
      | (.ok u, t) => (.ok u, t)
      | (.error _, t) => (.error (.abort .lexicalCast), t) := by
  have index : (Iss.regIndex (if Isa.rv32 = .rv32 ∧ s.hasExtension Misa.extE then 15 else 17)) =
      getSyscallRegisterIndex s := by
    unfold getSyscallRegisterIndex
    cases s.hasExtension Misa.extE <;> rfl
  unfold Iss.executeSyscall
  rw [Exec.run_read_bind, Iss.run_readReg_bind, Iss.run_readReg_bind, Iss.run_readReg_bind, Iss.run_readReg_bind,
    Iss.run_readReg_bind, index]
  rw [run_executeSyscallOf, ran]
  have handled : (Iss.onWorld (Exec.call (plat.executeSyscall (number s) (readRegister 10 s) (readRegister 11 s)
      (readRegister 12 s) (readRegister 13 s))) : IssM .rv32 (SyscallHandler Sim) _).run s =
      (.ok (ans, w.shallExit), { s with world := w }) := by
    change (Except.ok (plat.executeSyscall _ _ _ _ _ s.world).1,
      ({ s with world := (plat.executeSyscall _ _ _ _ _ s.world).2 } : Core Sim)) = _
    rw [answers]
  refine (Exec.run_bind_ok handled).trans ?_
  dsimp only
  by_cases signed : 0 ≤ ans.toInt
  case neg =>
    rw [if_neg signed, Iss.assert, if_neg (fun holds => signed (holds rfl))]
    rfl
  case pos =>
    have same : ans.signExtend Isa.rv32.xlen = ans := BitVec.signExtend_eq ans
    rw [if_pos signed, Iss.run_assert_bind _ (show Isa.rv32 = .rv32 → 0 ≤ ans.toInt from fun _ => signed), same]
    cases w.shallExit
    case false =>
      rw [Bool.or_false]
      rfl
    case true =>
      rw [Bool.or_true]
      rfl

end Results

end Syscall

end RiscvVp
