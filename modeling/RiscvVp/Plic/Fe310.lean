/-
# RiscvVp.Plic.Fe310 -- the interrupt controller of the FE310

`FE310_PLIC`: the gateways set pending bits, `run` looks for harts to signal one clock cycle
later, and a hart claims the best interrupt and completes it through its registers.  An input is
a trigger, an access over the bus, or the activation of `run`; a failed assertion leaves no
state.
-/
import RiscvVp.Lib.Arbiter
import RiscvVp.Lib.Runs
import RiscvVp.Util.MemoryMap

namespace RiscvVp.Fe310

set_option autoImplicit false

open Lib

/-- The arguments of the template: there is a bit for every interrupt, and the enable words end
below the registers of the harts. -/
structure Params where
  numberCores : Nat
  numberInterrupts : Nat
  numberInterruptEntries : Nat
  maxPriority : BitVec 32
  core : 0 < numberCores
  interrupt : 0 < numberInterrupts
  cores : numberCores ≤ 15360
  interrupts : numberInterrupts ≤ 4096
  room : numberInterrupts ≤ 32 * numberInterruptEntries
  apart : 0x2000 + 4 * (numberInterruptEntries * numberCores) ≤ 0x200000

/-- The controller of the HiFive platform. -/
def hifive : Params where
  numberCores := 1
  numberInterrupts := 53
  numberInterruptEntries := 64
  maxPriority := 7
  core := by decide
  interrupt := by decide
  cores := by decide
  interrupts := by decide
  room := by decide
  apart := by decide

/-- `line` is what the harts were told last, and `eRun` an outstanding notification. -/
structure Plic where
  interruptPriorities : ByteMemory
  pendingInterrupts : ByteMemory
  hartEnabledInterrupts : ByteMemory
  hartConfig : ByteMemory
  hartEip : Nat → Bool
  line : Nat → Bool
  eRun : Bool

/-- The assertions, and an index beyond an array that nothing checks. -/
inductive Fault where
  | interruptId
  | arrayView
  | wildIndex
  | claimAddress
  | claimSize
  | hartEip
deriving DecidableEq

variable (p : Params)

namespace Plic

variable (s : Plic)

/-! ## The arrays -/

def priority (i : Nat) : BitVec 32 := s.interruptPriorities.word i

/-- `hart_enabled_interrupts(hart_id, idx)`, with rows of one word. -/
def enabledIndex (hart idx : Nat) : Nat := hart * 1 + idx

def threshold (hart : Nat) : BitVec 32 := s.hartConfig.word (2 * hart)

def claimResponse (hart : Nat) : BitVec 32 := s.hartConfig.word (2 * hart + 1)

def enabled (hart i : Nat) : Bool :=
  (s.hartEnabledInterrupts.word (enabledIndex hart (i / 32))).getLsbD (i % 32)

def pending (i : Nat) : Bool := s.pendingInterrupts.bit i

/-! ## Arbitration -/

/-- One turn of the loop of `hart_get_next_pending_interrupt`. -/
def visit (hart : Nat) (considerThreshold : Bool) (best : Nat × Nat) (i : Nat) :
    Except Fault (Nat × Nat) :=
  if enabledIndex hart (i / 32) < p.numberInterruptEntries * p.numberCores then
    if s.enabled hart i then
      if i / 32 < p.numberInterruptEntries then
        if s.pending i then
          if i < p.numberInterrupts + 1 then
            if 0 < s.priority i then
              if considerThreshold then
                if hart < p.numberCores then
                  if s.threshold hart < s.priority i then
                    .ok (if best.2 < (s.priority i).toNat then (i, (s.priority i).toNat) else best)
                  else .ok best
                else .error .arrayView
              else .ok (if best.2 < (s.priority i).toNat then (i, (s.priority i).toNat) else best)
            else .ok best
          else .error .arrayView
        else .ok best
      else .error .arrayView
    else .ok best
  else .error .wildIndex

def hartGetNextPendingInterrupt (hart : Nat) (considerThreshold : Bool) : Except Fault Nat :=
  ((List.range' 1 (p.numberInterrupts - 1)).foldlM (s.visit p hart considerThreshold) (0, 0)).map
    Prod.fst

def hartHasPendingEnabledInterrupts (hart : Nat) : Except Fault Bool :=
  (s.hartGetNextPendingInterrupt p hart true).map fun id => decide (0 < id)

/-! ## Gateways -/

def setPending (i : Nat) (status : Bool) : Plic :=
  { s with pendingInterrupts := s.pendingInterrupts.setBit i status }

def gatewayTriggerInterrupt (irqId : Nat) : Except Fault Plic :=
  if 0 < irqId ∧ irqId < p.numberInterrupts then
    if irqId / 32 < p.numberInterruptEntries then .ok { s.setPending irqId true with eRun := true }
    else .error .arrayView
  else .error .interruptId

def clearPendingInterrupt (irqId : Nat) : Except Fault Plic :=
  if irqId < p.numberInterrupts then
    if irqId / 32 < p.numberInterruptEntries then .ok (s.setPending irqId false)
    else .error .arrayView
  else .error .interruptId

/-! ## Callbacks -/

/-- The end of an `ArrayView` is its last element, which the loop leaves out. -/
def postWriteInterruptPriorities (s : Plic) : Plic :=
  let clamp (m : ByteMemory) (i : Nat) :=
    m.setWord i (if p.maxPriority < m.word i then p.maxPriority else m.word i)
  { s with interruptPriorities := (List.range p.numberInterrupts).foldl clamp s.interruptPriorities }

def setClaimResponse (hart : Nat) (value : BitVec 32) : Plic :=
  { s with hartConfig := s.hartConfig.setWord (2 * hart + 1) value }

def preReadHartConfig (addr : BitVec 64) (size : Nat) (s : Plic) : Except Fault Plic :=
  if addr.toNat % 4 = 0 then
    let idx := addr.toNat / 4
    if idx % 2 = 1 then
      if size = 4 then
        let idx := idx - 1
        match s.hartGetNextPendingInterrupt p 0 false with
        | .error e => .error e
        | .ok minId =>
            if idx < p.numberCores then
              (s.setClaimResponse idx (BitVec.ofNat 32 minId)).clearPendingInterrupt p minId
            else .error .arrayView
      else .error .claimSize
    else .ok s
  else .error .claimAddress

/-- `trigger_external_interrupt` and `clear_external_interrupt` of a hart. -/
def setLine (hart : Nat) (status : Bool) : Plic :=
  { s with line := fun h => if h = hart then status else s.line h }

def setEip (hart : Nat) (status : Bool) : Plic :=
  { s with hartEip := fun h => if h = hart then status else s.hartEip h }

def postWriteHartConfig (addr : BitVec 64) (size : Nat) (s : Plic) : Except Fault Plic :=
  if addr.toNat % 4 = 0 then
    let idx := addr.toNat / 4
    if idx % 2 = 1 then
      if size = 4 then
        let idx := idx - 1
        match s.hartHasPendingEnabledInterrupts p idx with
        | .error e => .error e
        | .ok signals =>
            if idx < p.numberCores then
              if signals then
                if s.hartEip idx then .ok (s.setLine idx true) else .error .hartEip
              else .ok ((s.setEip idx false).setLine idx false)
            else .error .wildIndex
      else .error .claimSize
    else .ok s
  else .error .claimAddress

/-- One hart in an activation of `run`. -/
def signal (s : Plic) (hart : Nat) : Except Fault Plic :=
  if s.hartEip hart then .ok s
  else
    match s.hartHasPendingEnabledInterrupts p hart with
    | .error e => .error e
    | .ok true => .ok ((s.setEip hart true).setLine hart true)
    | .ok false => .ok s

/-- From one wait for `e_run` to the next. -/
def run : Except Fault Plic :=
  if s.eRun then (List.range p.numberCores).foldlM (signal p) { s with eRun := false } else .ok s

end Plic

/-! ## The bus -/

def regsInterruptPriorities : RegisterRange Plic Fault where
  start := 0x0
  size := 4 * (p.numberInterrupts + 1)
  mem := Plic.interruptPriorities
  setMem m s := { s with interruptPriorities := m }
  postWrite _ _ s := .ok (Plic.postWriteInterruptPriorities p s)

def regsPendingInterrupts : RegisterRange Plic Fault where
  start := 0x1000
  size := 4 * p.numberInterruptEntries
  mem := Plic.pendingInterrupts
  setMem m s := { s with pendingInterrupts := m }
  readonly := true

def regsHartEnabledInterrupts : RegisterRange Plic Fault where
  start := 0x2000
  size := 4 * (p.numberInterruptEntries * p.numberCores)
  mem := Plic.hartEnabledInterrupts
  setMem m s := { s with hartEnabledInterrupts := m }

/-- The registers of the harts without what claims and completions do. -/
def plainHartConfig : RegisterRange Plic Fault where
  start := 0x200000
  size := 8 * p.numberCores
  mem := Plic.hartConfig
  setMem m s := { s with hartConfig := m }
  alignment := 4

def regsHartConfig : RegisterRange Plic Fault :=
  { plainHartConfig p with
    preRead := Plic.preReadHartConfig p
    postWrite := Plic.postWriteHartConfig p }

def registerRanges : List (RegisterRange Plic Fault) :=
  [regsInterruptPriorities p, regsPendingInterrupts p, regsHartEnabledInterrupts p, regsHartConfig p]

def transport {n : Nat} : TlmCommand n → BitVec 64 → Plic →
    Except (AccessError Fault) (BitVec (8 * n) × Plic) := route (registerRanges p)

/-! ## Runs -/

inductive Input where
  | trigger (irqId : Nat)
  | read (n : Nat) (addr : BitVec 64)
  | write (n : Nat) (addr : BitVec 64) (value : BitVec (8 * n))
  | run

/-- Only a read has an answer. -/
abbrev Answer := Option (Σ n, BitVec (8 * n))

def step (s : Plic) : Input → Except (AccessError Fault) (Answer × Plic)
  | .trigger irqId => ((s.gatewayTriggerInterrupt p irqId).mapError .device).map (none, ·)
  | .read n addr => (transport p .read addr s).map fun (data, s) => (some ⟨n, data⟩, s)
  | .write _ addr value => (transport p (.write value) addr s).map fun (_, s) => (none, s)
  | .run => ((s.run p).mapError .device).map (none, ·)

/-- The constructor. -/
def init : Plic where
  interruptPriorities a := if a.toNat % 4 = 0 ∧ a.toNat / 4 < p.numberInterrupts then 1 else 0
  pendingInterrupts _ := 0
  hartEnabledInterrupts _ := 0
  hartConfig _ := 0
  hartEip _ := false
  line _ := false
  eRun := false

end RiscvVp.Fe310
