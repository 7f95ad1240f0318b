/-
# RiscvVp.Plic.Fu540 -- the interrupt controller of the FU540

`FU540_PLIC`: every hart has a machine context, and every hart but the first a supervisor context
too.  A trigger sets a pending bit and notifies `run`, which signals one context of a hart; a claim
takes the best interrupt of its context, and a completion clears the line of its context.
-/
import RiscvVp.Lib.Arbiter
import RiscvVp.Lib.Runs
import RiscvVp.Util.MemoryMap

namespace RiscvVp.Fu540

set_option autoImplicit false

open Lib

/-- `NUMIRQ`, `MAX_THR` and `MAX_PRIO`. -/
def numirq : Nat := 53

def maxThr : BitVec 32 := 7

def maxPrio : BitVec 32 := 7

/-- The privilege levels that have contexts. -/
inductive Level where
  | machine
  | supervisor
deriving DecidableEq

structure Context where
  hart : Nat
  level : Level
deriving DecidableEq

/-- The contexts in the order of their registers; hart 0 has no supervisor mode. -/
def contexts (harts : Nat) : List Context :=
  (List.range harts).flatMap fun i =>
    if i = 0 then [⟨i, .machine⟩] else [⟨i, .machine⟩, ⟨i, .supervisor⟩]

def Context.index : Context → Nat
  | ⟨0, _⟩ => 0
  | ⟨i + 1, .machine⟩ => 2 * i + 1
  | ⟨i + 1, .supervisor⟩ => 2 * i + 2

/-- `line` is what the harts were told last, and `eRun` an outstanding notification. -/
structure Plic where
  interruptPriorities : ByteMemory
  pendingInterrupts : ByteMemory
  enabledIrqs : Context → ByteMemory
  hartContext : Context → ByteMemory
  line : Context → Bool
  eRun : Bool

/-- The assertions, and the exception for a bad interrupt. -/
inductive Fault where
  | invalidIrq
  | arrayView
  | supervisor
  | contextAddress
  | contextSize
deriving DecidableEq

namespace Plic

variable (s : Plic) (c : Context)

/-! ## Registers -/

/-- `interrupt_priorities[irq]`. -/
def priority (irq : Nat) : BitVec 32 := s.interruptPriorities.word irq

def isEnabled (irq : Nat) : Bool := (s.enabledIrqs c).bit irq

def isPending (irq : Nat) : Bool := s.pendingInterrupts.bit irq

def getThreshold : BitVec 32 := (s.hartContext c).word 0

def setPending (irq : Nat) (status : Bool) : Plic :=
  { s with pendingInterrupts := s.pendingInterrupts.setBit irq status }

def setEnabledIrqs (m : ByteMemory) : Plic :=
  { s with enabledIrqs := fun d => if d = c then m else s.enabledIrqs d }

def setHartContext (m : ByteMemory) : Plic :=
  { s with hartContext := fun d => if d = c then m else s.hartContext d }

/-- `trigger_external_interrupt` and `clear_external_interrupt` of a hart. -/
def setLine (status : Bool) : Plic := { s with line := fun d => if d = c then status else s.line d }

/-! ## Arbitration -/

/-- One turn of the loop of `next_pending_irq`. -/
def visit (ignth : Bool) (best : Nat × Nat) (irq : Nat) : Except Fault (Nat × Nat) :=
  if s.isEnabled c irq && s.isPending irq then
    if irq < numirq then
      if ignth = false ∧ s.priority irq < s.getThreshold c then .ok best
      else .ok (if best.2 < (s.priority irq).toNat then (irq, (s.priority irq).toNat) else best)
    else .error .arrayView
  else .ok best

def nextPendingIrq (ignth : Bool) : Except Fault Nat :=
  if c.hart = 0 ∧ c.level = .supervisor then .error .supervisor
  else ((List.range' 1 numirq).foldlM (s.visit c ignth) (0, 0)).map Prod.fst

/-- The level comes back where there is something to signal. -/
def hasPendingIrq (hart : Nat) : Except Fault (Option Level) := do
  if hart ≠ 0 then
    if 0 < (← s.nextPendingIrq ⟨hart, .supervisor⟩ false) then return some .supervisor
  if 0 < (← s.nextPendingIrq ⟨hart, .machine⟩ false) then return some .machine
  return none

/-! ## Callbacks -/

def gatewayTriggerInterrupt (irq : Nat) : Except Fault Plic :=
  if irq = 0 ∨ numirq < irq then .error .invalidIrq else .ok { s.setPending irq true with eRun := true }

def isClaimAccess (addr : BitVec 64) : Bool := addr.toNat / 4 % 2 = 1

def readHartctx (addr : BitVec 64) (size : Nat) (s : Plic) : Except Fault Plic :=
  if addr.toNat % 4 = 0 then
    if size = 4 then
      if isClaimAccess addr then
        match s.nextPendingIrq c true with
        | .error e => .error e
        | .ok irq =>
            let s := s.setHartContext c ((s.hartContext c).setWord 1 (BitVec.ofNat 32 irq))
            .ok (if irq ≠ 0 then s.setPending irq false else s)
      else .ok s
    else .error .contextSize
  else .error .contextAddress

/-- The threshold is cut to its range. -/
def clampThreshold : Plic :=
  s.setHartContext c ((s.hartContext c).setWord 0
    (if maxThr < s.getThreshold c then maxThr else s.getThreshold c))

def writeHartctx (addr : BitVec 64) (size : Nat) (s : Plic) : Except Fault Plic :=
  if addr.toNat % 4 = 0 then
    if size = 4 then
      if isClaimAccess addr then .ok (s.setLine c false) else .ok (s.clampThreshold c)
    else .error .contextSize
  else .error .contextAddress

def writeIrqPrios (addr : BitVec 64) (_size : Nat) (s : Plic) : Except Fault Plic :=
  let idx := addr.toNat / 4
  if idx ≤ numirq ∧ idx < numirq then
    let elem := if maxPrio < s.priority idx then maxPrio else s.priority idx
    .ok { s with interruptPriorities := s.interruptPriorities.setWord idx elem }
  else .error .arrayView

/-- One hart in an activation of `run`. -/
def signal (s : Plic) (hart : Nat) : Except Fault Plic :=
  match s.hasPendingIrq hart with
  | .error e => .error e
  | .ok (some level) => .ok (s.setLine ⟨hart, level⟩ true)
  | .ok none => .ok s

/-- From one wait for `e_run` to the next. -/
def run (harts : Nat) : Except Fault Plic :=
  if s.eRun then (List.range harts).foldlM signal { s with eRun := false } else .ok s

end Plic

/-! ## The bus -/

/-- The register ranges. -/
inductive Register where
  | priorities
  | pending
  | enable (c : Context)
  | context (c : Context)

/-- `create_registers`: the ranges in the order of the search. -/
def registers (harts : Nat) : List Register :=
  [.priorities, .pending] ++ (contexts harts).map .enable ++ (contexts harts).map .context

def Register.range : Register → RegisterRange Plic Fault
  | .priorities => {
      start := 0x4
      size := 4 * numirq
      mem := Plic.interruptPriorities
      setMem m s := { s with interruptPriorities := m }
      alignment := 4
      postWrite := Plic.writeIrqPrios }
  | .pending => {
      start := 0x1000
      size := 8
      mem := Plic.pendingInterrupts
      setMem m s := { s with pendingInterrupts := m }
      alignment := 4
      preWrite _ _ s := .ok (false, s) }
  | .enable c => {
      start := BitVec.ofNat 64 (0x2000 + 0x80 * c.index)
      size := 8
      mem s := s.enabledIrqs c
      setMem m s := s.setEnabledIrqs c m
      alignment := 4 }
  | .context c => {
      start := BitVec.ofNat 64 (0x200000 + 0x1000 * c.index)
      size := 8
      mem s := s.hartContext c
      setMem m s := s.setHartContext c m
      alignment := 4
      preRead := Plic.readHartctx c
      postWrite := Plic.writeHartctx c }

def transport (harts : Nat) {n : Nat} : TlmCommand n → BitVec 64 → Plic →
    Except (AccessError Fault) (BitVec (8 * n) × Plic) := route ((registers harts).map Register.range)

/-! ## Runs -/

inductive Input where
  | trigger (irq : Nat)
  | read (n : Nat) (addr : BitVec 64)
  | write (n : Nat) (addr : BitVec 64) (value : BitVec (8 * n))
  | run

/-- Only a read has an answer. -/
abbrev Answer := Option (Σ n, BitVec (8 * n))

def step (harts : Nat) (s : Plic) : Input → Except (AccessError Fault) (Answer × Plic)
  | .trigger irq => ((s.gatewayTriggerInterrupt irq).mapError .device).map (none, ·)
  | .read n addr => (transport harts .read addr s).map fun (data, s) => (some ⟨n, data⟩, s)
  | .write _ addr value => (transport harts (.write value) addr s).map fun (_, s) => (none, s)
  | .run => ((s.run harts).mapError .device).map (none, ·)

/-- The constructor. -/
def init : Plic where
  interruptPriorities _ := 0
  pendingInterrupts _ := 0
  enabledIrqs _ _ := 0
  hartContext _ _ := 0
  line _ := false
  eRun := false

end RiscvVp.Fu540
