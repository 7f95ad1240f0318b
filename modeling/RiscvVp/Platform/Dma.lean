/-
# RiscvVp.Platform.Dma -- requests of the DMA controller

`SimpleDMA`: a write to the operation register notifies an event, the thread that waits for it
copies block by block, and an interrupt ends the request.  The thread looks at the registers as
they are when it gets there, and the event is neither queued nor kept: a request is served as it
was made where the guest is `Calm` in the meantime.  `expected` are the transactions that the
writes of a run asked for, read off the writes alone.
-/
import RiscvVp.Lib.ByteMemory
import RiscvVp.Lib.Runs

namespace RiscvVp.Dma

set_option autoImplicit false

open Lib

inductive Reg where
  | src
  | dst
  | len
  | op
deriving DecidableEq

abbrev Regs := Reg → BitVec 32

/-- The size of the buffer. -/
def blockSize (n : Nat) : Nat := if 64 < n then 64 else n

/-- The thread: at its wait, woken by the event, before and behind the read of the block at `off`
with `n` bytes left, and behind the copy. -/
inductive Thread where
  | waiting
  | ready
  | reading (off : BitVec 32) (n : Nat)
  | writing (off : BitVec 32) (n : Nat) (buffer : BitVec (8 * blockSize n))
  | interrupting

/-- `runEvent` is a pending notification. -/
structure SimpleDma where
  reg : Regs
  runEvent : Bool
  thread : Thread
  memory : ByteMemory

inductive Input where
  | write (r : Reg) (value : BitVec 32)
  | others (memory : ByteMemory)
  | fire
  | start
  | readBlock
  | writeBlock
  | interrupt

/-- What the controller does to the outside. -/
inductive Event where
  | read (addr : BitVec 64) (n : Nat)
  | write (addr : BitVec 64) (n : Nat)
  | interrupt
deriving DecidableEq

/-- A step that cannot be taken now, and the assertion on the operation. -/
inductive Fault where
  | blocked
  | unknownOperation
deriving DecidableEq

def setReg (reg : Regs) (r : Reg) (value : BitVec 32) : Regs := fun q => if q = r then value else reg q

/-- An address register and an offset, as an address of the bus. -/
def address (base off : BitVec 32) : BitVec 64 := (base + off).setWidth 64

def step (s : SimpleDma) : Input → Except Fault (Option Event × SimpleDma)
  | .write r value =>
      .ok (none, { s with reg := setReg s.reg r value, runEvent := s.runEvent || r = .op })
  | .others memory => .ok (none, { s with memory := memory })
  | .fire =>
      if s.runEvent then
        match s.thread with
        | .waiting => .ok (none, { s with runEvent := false, thread := .ready })
        | _ => .ok (none, { s with runEvent := false })
      else .error .blocked
  | .start =>
      match s.thread with
      | .ready =>
          if s.reg .op = 0 then .ok (none, { s with thread := .interrupting })
          else if s.reg .op = 1 then .ok (none, { s with thread := .reading 0 (s.reg .len).toNat })
          else .error .unknownOperation
      | _ => .error .blocked
  | .readBlock =>
      match s.thread with
      | .reading off n =>
          let addr := address (s.reg .src) off
          .ok (some (.read addr (blockSize n)),
            { s with thread := .writing off n (s.memory.read addr (blockSize n)) })
      | _ => .error .blocked
  | .writeBlock =>
      match s.thread with
      | .writing off n buffer =>
          let addr := address (s.reg .dst) off
          .ok (some (.write addr (blockSize n)), { s with
            memory := s.memory.write addr (blockSize n) buffer
            thread := if 64 < n then .reading (off + 64) (n - 64) else .interrupting })
      | _ => .error .blocked
  | .interrupt =>
      match s.thread with
      | .interrupting => .ok (some .interrupt, { s with thread := .waiting })
      | _ => .error .blocked

/-- The constructor; the memory is anything. -/
def init (memory : ByteMemory) : SimpleDma where
  reg _ := 0
  runEvent := false
  thread := .waiting
  memory := memory

/-! ## What was asked for -/

/-- The transactions of a copy from the block at `off` on. -/
def blocks (reg : Regs) (off : BitVec 32) (n : Nat) : List Event :=
  .read (address (reg .src) off) (blockSize n) :: .write (address (reg .dst) off) (blockSize n) ::
    if 64 < n then blocks reg (off + 64) (n - 64) else []
termination_by n

/-- One request: a copy and an interrupt, or an interrupt for `OP_NOP`.  The other operations
end the simulation. -/
def request (reg : Regs) : List Event :=
  if reg .op = 0 then [.interrupt]
  else if reg .op = 1 then blocks reg 0 (reg .len).toNat ++ [.interrupt]
  else []

/-- The registers and the transactions asked for behind one more input. -/
def ask (asked : Regs × List Event) : Input × Option Event → Regs × List Event
  | (.write r value, _) =>
      let reg := setReg asked.1 r value
      (reg, if r = .op then asked.2 ++ request reg else asked.2)
  | _ => asked

/-- What the writes of a run asked for, each with the registers as it found them. -/
def expected (log : List (Input × Option Event)) : List Event :=
  (log.foldl ask (fun _ => 0, [])).2

def performed (log : List (Input × Option Event)) : List Event := log.filterMap Prod.snd

/-- What is left to do if no register changes. -/
def Thread.rest (reg : Regs) : Thread → List Event
  | .waiting => []
  | .ready => request reg
  | .reading off n => blocks reg off n ++ [.interrupt]
  | .writing off n _ => (blocks reg off n).tail ++ [.interrupt]
  | .interrupting => [.interrupt]

def todo (s : SimpleDma) : List Event :=
  s.thread.rest s.reg ++ if s.runEvent then request s.reg else []

/-! ## Calm runs -/

/-- The source register is still to be read by the copy that is running. -/
def Thread.needsSrc : Thread → Prop
  | .reading _ _ => True
  | .writing _ n _ => 64 < n
  | _ => False

def Thread.needsDst : Thread → Prop
  | .reading _ _ => True
  | .writing _ _ _ => True
  | _ => False

/-- The guest makes no request while one is notified, changes no register that a request that was
made is still to read, and the event comes while the thread waits for it. -/
def Calm (s : SimpleDma) : Input → Prop
  | .write .op value => s.runEvent = false ∧ (s.thread = .ready → value = s.reg .op)
  | .write r value => value = s.reg r ∨ s.runEvent = false ∧ s.thread ≠ .ready ∧
      (r = .src → ¬ s.thread.needsSrc) ∧ (r = .dst → ¬ s.thread.needsDst)
  | .fire => s.thread = .waiting
  | _ => True

variable {log : List (Input × Option Event)} {s t : SimpleDma} {a : Input} {b : Option Event}

theorem setReg_self (reg : Regs) (r : Reg) : setReg reg r (reg r) = reg := by
  funext q
  unfold setReg
  split
  case isTrue same => rw [same]
  case isFalse => rfl

/-- A copy reads two of the registers. -/
theorem blocks_congr {reg reg' : Regs} (src : reg .src = reg' .src) (dst : reg .dst = reg' .dst)
    (off : BitVec 32) (n : Nat) : blocks reg off n = blocks reg' off n := by
  induction n using Nat.strong_induction_on generalizing off with
  | _ n ih =>
    rw [blocks.eq_1 reg, blocks.eq_1 reg', src, dst]
    split
    case isTrue more => rw [ih (n - 64) (by omega)]
    case isFalse => rfl

/-- The last block of a copy needs no source any more. -/
theorem tail_blocks_congr {reg reg' : Regs} {off : BitVec 32} {n : Nat} (dst : reg .dst = reg' .dst)
    (last : ¬ 64 < n) : (blocks reg off n).tail = (blocks reg' off n).tail := by
  rw [blocks.eq_1 reg, blocks.eq_1 reg', dst, if_neg last, if_neg last]
  rfl

theorem setReg_of_ne {reg : Regs} {r q : Reg} {value : BitVec 32} (other : q ≠ r) :
    setReg reg r value q = reg q := if_neg other

/-- A write that is allowed leaves what is left of the copy. -/
theorem rest_setReg {r : Reg} {value : BitVec 32} {thread : Thread} {reg : Regs} (idle : thread ≠ .ready)
    (src : r = .src → ¬ thread.needsSrc) (dst : r = .dst → ¬ thread.needsDst) :
    thread.rest (setReg reg r value) = thread.rest reg := by
  cases thread with
  | waiting => rfl
  | ready => exact absurd rfl idle
  | reading off n =>
    have other : r ≠ .src ∧ r ≠ .dst := ⟨fun same => src same trivial, fun same => dst same trivial⟩
    simp only [Thread.rest]
    rw [blocks_congr (setReg_of_ne other.1.symm) (setReg_of_ne other.2.symm)]
  | writing off n buffer =>
    have other : r ≠ .dst := fun same => dst same trivial
    simp only [Thread.rest]
    by_cases same : r = .src
    · rw [tail_blocks_congr (setReg_of_ne other.symm) (src same)]
    · rw [blocks_congr (setReg_of_ne (Ne.symm same)) (setReg_of_ne other.symm)]
  | interrupting => rfl

/-- The transactions of a run, with those to come, are those that were asked for. -/
structure Served (log : List (Input × Option Event)) (s : SimpleDma) : Prop where
  reg : s.reg = (log.foldl ask (fun _ => 0, [])).1
  events : performed log ++ todo s = expected log

theorem performed_append : performed (log ++ [(a, b)]) = performed log ++ b.toList := by
  unfold performed
  rw [List.filterMap_append]
  cases b <;> rfl

theorem expected_append : expected (log ++ [(a, b)]) = (ask (log.foldl ask (fun _ => 0, [])) (a, b)).2 := by
  unfold expected
  rw [List.foldl_append]
  rfl

/-- A step that asks for nothing. -/
theorem served_of_progress (served : Served log s) (same : t.reg = s.reg)
    (silent : ∀ asked, ask asked (a, b) = asked) (moved : todo s = b.toList ++ todo t) :
    Served (log ++ [(a, b)]) t := by
  refine ⟨?_, ?_⟩
  · rw [same, List.foldl_append, List.foldl_cons, silent]
    exact served.reg
  · rw [performed_append, expected_append, silent, List.append_assoc, ← moved]
    exact served.events

theorem served_write {r : Reg} {value : BitVec 32} (served : Served log s) (calm : Calm s (.write r value)) :
    Served (log ++ [(.write r value, none)])
      { s with reg := setReg s.reg r value, runEvent := s.runEvent || r = .op } := by
  obtain ⟨reg, events⟩ := served
  refine ⟨?_, ?_⟩
  · rw [List.foldl_append, List.foldl_cons, List.foldl_nil]
    simp only [ask]
    rw [← reg]
  · rw [performed_append, expected_append]
    simp only [ask, Option.toList_none, List.append_nil, ← reg]
    by_cases op : r = .op
    · subst op
      obtain ⟨quiet, ready⟩ := calm
      have kept : s.thread.rest (setReg s.reg .op value) = s.thread.rest s.reg := by
        by_cases woken : s.thread = .ready
        · rw [ready woken, setReg_self]
        · exact rest_setReg woken nofun nofun
      have now : todo s = s.thread.rest s.reg := by simp [todo, quiet]
      rw [if_pos rfl]
      unfold todo
      simp only [quiet, kept, decide_true, Bool.false_or, if_true]
      rw [← List.append_assoc, ← now, events]
      rfl
    · rw [if_neg op]
      have same : todo { s with reg := setReg s.reg r value, runEvent := s.runEvent || r = .op } = todo s := by
        unfold todo
        simp only [op, decide_false, Bool.or_false]
        have harmless : value = s.reg r ∨ s.runEvent = false ∧ s.thread ≠ .ready ∧
            (r = .src → ¬ s.thread.needsSrc) ∧ (r = .dst → ¬ s.thread.needsDst) := by
          cases r with
          | op => exact absurd rfl op
          | src => exact calm
          | dst => exact calm
          | len => exact calm
        rcases harmless with rfl | ⟨quiet, idle, src, dst⟩
        · rw [setReg_self]
        · rw [rest_setReg idle src dst, quiet]
          rfl
      rw [same, events]
      rfl

theorem served_step (served : Served log s) (calm : Calm s a) (ran : step s a = .ok (b, t)) :
    Served (log ++ [(a, b)]) t := by
  cases a with
  | write r value =>
    cases ran
    exact served_write served calm
  | others memory =>
    cases ran
    exact served_of_progress served rfl (fun _ => rfl) rfl
  | fire =>
    have waiting : s.thread = .waiting := calm
    simp only [step, waiting] at ran
    split at ran
    case isFalse => cases ran
    case isTrue notified =>
      cases ran
      refine served_of_progress served rfl (fun _ => rfl) ?_
      simp [todo, waiting, notified, Thread.rest]
  | start =>
    simp only [step] at ran
    split at ran
    case h_2 => cases ran
    case h_1 ready =>
      split at ran
      case isTrue nop =>
        cases ran
        refine served_of_progress served rfl (fun _ => rfl) ?_
        simp [todo, ready, Thread.rest, request, nop]
      case isFalse some =>
        split at ran
        case isFalse => cases ran
        case isTrue memcpy =>
          cases ran
          refine served_of_progress served rfl (fun _ => rfl) ?_
          simp [todo, ready, Thread.rest, request, memcpy]
  | readBlock =>
    simp only [step] at ran
    split at ran
    case h_2 => cases ran
    case h_1 off n reading =>
      cases ran
      refine served_of_progress served rfl (fun _ => rfl) ?_
      unfold todo
      simp only [reading, Thread.rest]
      rw [blocks]
      rfl
  | writeBlock =>
    simp only [step] at ran
    split at ran
    case h_2 => cases ran
    case h_1 off n buffer writing =>
      cases ran
      refine served_of_progress served rfl (fun _ => rfl) ?_
      unfold todo
      simp only [writing, Thread.rest]
      rw [blocks]
      split
      · rfl
      · rfl
  | interrupt =>
    simp only [step] at ran
    split at ran
    case h_2 => cases ran
    case h_1 interrupting =>
      cases ran
      refine served_of_progress served rfl (fun _ => rfl) ?_
      unfold todo
      simp only [interrupting, Thread.rest]
      rfl

theorem served_of_runs {memory : ByteMemory} (run : Runs step Calm (init memory) log s) : Served log s :=
  run.invariant_log ⟨rfl, rfl⟩ fun served calm ran => served_step served calm ran

/-! ## Progress -/

/-- An input that is a step of the controller. -/
def Input.ofDma : Input → Bool
  | .write _ _ => false
  | .others _ => false
  | _ => true

def Thread.rank : Thread → Nat
  | .waiting => 2
  | .ready => 1
  | _ => 0

/-- Where something is left to do the controller can go on, and gets nearer to the end. -/
theorem progress (left : todo s ≠ []) : ∃ a b t, a.ofDma = true ∧ Calm s a ∧ step s a = .ok (b, t) ∧
    3 * (todo t).length + t.thread.rank < 3 * (todo s).length + s.thread.rank := by
  cases now : s.thread with
  | waiting =>
    have notified : s.runEvent = true := by
      by_contra quiet
      exact left (by simp [todo, now, Thread.rest, quiet])
    refine ⟨.fire, none, { s with runEvent := false, thread := .ready }, rfl, now, by simp [step, now, notified], ?_⟩
    simp [todo, now, notified, Thread.rest, Thread.rank]
  | ready =>
    by_cases nop : s.reg .op = 0
    · refine ⟨.start, none, { s with thread := .interrupting }, rfl, trivial, by simp [step, now, nop], ?_⟩
      simp [todo, now, Thread.rest, Thread.rank, request, nop]
    · by_cases memcpy : s.reg .op = 1
      · refine ⟨.start, none, { s with thread := .reading 0 (s.reg .len).toNat }, rfl, trivial,
          by simp [step, now, memcpy], ?_⟩
        simp [todo, now, Thread.rest, Thread.rank, request, memcpy]
      · have nothing : request s.reg = [] := by
          unfold request
          rw [if_neg nop, if_neg memcpy]
        exact absurd (by simp [todo, now, Thread.rest, nothing]) left
  | reading off n =>
    refine ⟨.readBlock, _, _, rfl, trivial, by simp only [step, now]; rfl, ?_⟩
    simp only [todo, now, Thread.rest, Thread.rank]
    rw [blocks.eq_1 s.reg off n]
    simp
  | writing off n buffer =>
    refine ⟨.writeBlock, _, _, rfl, trivial, by simp only [step, now]; rfl, ?_⟩
    by_cases more : 64 < n
    · simp only [todo, now, Thread.rest, Thread.rank, more, if_true]
      rw [blocks.eq_1 s.reg off n, if_pos more]
      simp
    · simp only [todo, now, Thread.rest, Thread.rank, more, if_false]
      rw [blocks.eq_1 s.reg off n, if_neg more]
      simp
  | interrupting =>
    refine ⟨.interrupt, some .interrupt, { s with thread := .waiting }, rfl, trivial, by simp [step, now], ?_⟩
    simp [todo, now, Thread.rest, Thread.rank]
    omega

/-- Left alone, the controller gets everything done. -/
theorem drains (s : SimpleDma) : ∃ log t, Runs step Calm s log t ∧
    (∀ entry ∈ log, entry.1.ofDma = true) ∧ todo t = [] := by
  generalize size : 3 * (todo s).length + s.thread.rank = m
  induction m using Nat.strong_induction_on generalizing s with
  | _ m ih =>
    by_cases left : todo s = []
    · exact ⟨[], s, .start, nofun, left⟩
    · obtain ⟨a, b, t, own, calm, ran, less⟩ := progress left
      obtain ⟨log, u, run, all, done⟩ := ih _ (size ▸ less) t rfl
      refine ⟨[(a, b)] ++ log, u, (Runs.start.next calm ran).append run, ?_, done⟩
      intro entry among
      rcases List.mem_append.mp among with first | later
      · rw [List.mem_singleton.mp first]
        exact own
      · exact all entry later

/-- What the controller does asks for nothing. -/
theorem expected_of_dma {more : List (Input × Option Event)} (own : ∀ entry ∈ more, entry.1.ofDma = true) :
    expected (log ++ more) = expected log := by
  unfold expected
  rw [List.foldl_append]
  generalize log.foldl ask (fun _ => 0, []) = asked
  induction more with
  | nil => rfl
  | cons entry more ih =>
    obtain ⟨a, b⟩ := entry
    have first := own _ List.mem_cons_self
    have silent : ask asked (a, b) = asked := by
      cases a with
      | write r value => cases first
      | _ => rfl
    rw [List.foldl_cons, silent]
    exact ih fun entry among => own entry (List.mem_cons_of_mem _ among)

/-- In a calm run the transactions are the first of those that the writes asked for, in order and
with the registers of each request; left alone, the controller performs all of them. -/
theorem requests_served {memory : ByteMemory} (run : Runs step Calm (init memory) log s) :
    performed log ++ todo s = expected log ∧
      ∃ more t, Runs step Calm (init memory) (log ++ more) t ∧
        (∀ entry ∈ more, entry.1.ofDma = true) ∧ performed (log ++ more) = expected log := by
  refine ⟨(served_of_runs run).events, ?_⟩
  obtain ⟨more, t, rest, own, done⟩ := drains s
  have whole := run.append rest
  have events := (served_of_runs whole).events
  rw [done, List.append_nil, expected_of_dma own] at events
  exact ⟨more, t, whole, own, events⟩

/-- A copy of four bytes. -/
theorem requests_served_copy : ∃ log s, Runs step Calm (init fun _ => 0) log s ∧
    performed log = [.read 0x100 4, .write 0x200 4, .interrupt] ∧ expected log = performed log := by
  have src : Calm (init fun _ => 0) (.write .src 0x100) := .inr ⟨rfl, nofun, fun _ => id, fun _ => id⟩
  have first : Runs step Calm (init fun _ => 0) [(.write .src 0x100, none)] _ := Runs.start.next src rfl
  have dst : Runs step Calm (init fun _ => 0) [(.write .src 0x100, none), (.write .dst 0x200, none)] _ :=
    first.next (.inr ⟨rfl, nofun, fun _ => id, fun _ => id⟩) rfl
  have len : Runs step Calm (init fun _ => 0)
      [(.write .src 0x100, none), (.write .dst 0x200, none), (.write .len 4, none)] _ :=
    dst.next (.inr ⟨rfl, nofun, fun _ => id, fun _ => id⟩) rfl
  have op : Runs step Calm (init fun _ => 0) [(.write .src 0x100, none), (.write .dst 0x200, none),
      (.write .len 4, none), (.write .op 1, none)] _ := len.next ⟨rfl, nofun⟩ rfl
  have woken := op.next (show Calm _ .fire from (rfl : Thread.waiting = .waiting)) rfl
  have started := woken.next (show Calm _ .start from trivial) rfl
  have copied := (started.next (show Calm _ .readBlock from trivial) rfl).next
    (show Calm _ .writeBlock from trivial) rfl
  have run := copied.next (show Calm _ .interrupt from trivial) rfl
  refine ⟨_, _, run, rfl, ?_⟩
  have served := (requests_served run).1
  exact served.symm.trans (List.append_nil _)

/-- Two requests within the delay of the event are served once, with the registers of the second. -/
theorem not_requests_served : ∃ log s, Runs step (fun _ _ => True) (init fun _ => 0) log s ∧
    todo s = [] ∧ performed log ≠ expected log := by
  have run : Runs step (fun _ _ => True) (init fun _ => 0) [(.write .src 0x100, none), (.write .dst 0x200, none),
      (.write .len 4, none), (.write .op 1, none), (.write .src 0x300, none), (.write .op 1, none),
      (.fire, none), (.start, none), (.readBlock, some (.read 0x300 4)), (.writeBlock, some (.write 0x200 4)),
      (.interrupt, some .interrupt)] _ :=
    ((((((((((Runs.start.next trivial rfl).next trivial rfl).next trivial rfl).next trivial rfl).next trivial
      rfl).next trivial rfl).next trivial rfl).next trivial rfl).next trivial rfl).next trivial rfl).next trivial rfl
  refine ⟨_, _, run, rfl, ?_⟩
  intro same
  have shorter := congrArg List.length same
  simp [performed, expected, ask, request, setReg, blocks] at shorter

end RiscvVp.Dma
