/-
# RiscvVp.Platform.Uart -- the FIFOs of the UART

`AbstractUART` has three threads: the host side pushes received bytes (`rxpush`), the guest reads
and writes registers, and the transmit thread sends.  They share two queues, each under a mutex,
and two semaphores.  A step is what a thread does under a mutex or at a semaphore; a step that
its thread cannot take now is `blocked`.  Nobody has asked the threads to stop.  The conservation
laws are kept by every step: what went in at one end is what came out at the other, the queue, and
what a thread holds in between.
-/
import RiscvVp.Lib.BitField
import RiscvVp.Lib.Runs

namespace RiscvVp.Uart

set_option autoImplicit false

open Lib

/-- `UART_FIFO_DEPTH`. -/
def fifoDepth : Nat := 8

inductive Reg where
  | txdata
  | rxdata
  | txctrl
  | rxctrl
  | ie
  | ip
  | div
deriving DecidableEq

/-- The guest within a register access: behind the push of a byte, before the post; and between
the two queues of a read of `ip`. -/
inductive Guest where
  | idle
  | posting
  | readingIp (ret : BitVec 32)

/-- The host side within `rxpush`: before and behind the wait. -/
inductive Receiver where
  | idle
  | waiting (data : BitVec 8)
  | granted (data : BitVec 8)

/-- The transmit thread: before the wait, behind it, and with a byte to write. -/
inductive Transmitter where
  | waiting
  | granted
  | sending (data : BitVec 8)

structure AbstractUart where
  reg : Reg → BitVec 32
  txFifo : List (BitVec 8)
  rxFifo : List (BitVec 8)
  txfull : Nat
  rxempty : Nat
  guest : Guest
  receiver : Receiver
  transmitter : Transmitter

/-- A read shows the whole word; the bytes of it that a shorter one wants are the same.  `nv` is the
word behind the data pointer of a write, of which the first `len` bytes are the data, to be stored
from byte `off` of the register on. -/
inductive Action where
  | rxpush (data : BitVec 8)
  | waitRxempty
  | pushRx
  | read (r : Reg)
  | readIpRx
  | write (r : Reg) (off len : Nat) (nv : BitVec 32)
  | postTxfull
  | waitTxfull
  | popTx
  | writeData

/-- What a step shows: the word of a read, whether a write to `txdata` found room, and the byte
sent. -/
inductive Answer where
  | none
  | word (value : BitVec 32)
  | stored (room : Bool)
  | sent (data : BitVec 8)

/-- A thread that has to wait, `front` of an empty queue, and an access beyond the register. -/
inductive Fault where
  | blocked
  | emptyQueue
  | beyondRegister
deriving DecidableEq

namespace AbstractUart

variable (s : AbstractUart)

def setReg (r : Reg) (value : BitVec 32) : AbstractUart :=
  { s with reg := fun q => if q = r then value else s.reg q }

/-- `UART_CTRL_CNT`. -/
def ctrlCnt (value : BitVec 32) : Nat := (value >>> 16).toNat

/-- A read: the callback sets the register, and its value is the answer. -/
def read (r : Reg) : Answer × AbstractUart :=
  match r with
  | .txdata =>
      let value := if fifoDepth ≤ s.txFifo.length then 0x80000000 else 0
      (.word value, s.setReg .txdata value)
  | .rxdata =>
      match s.rxFifo with
      | [] => (.word 0x80000000, s.setReg .rxdata 0x80000000)
      | data :: rest =>
          let value := data.setWidth 32
          (.word value, { s.setReg .rxdata value with rxFifo := rest, rxempty := s.rxempty + 1 })
  | .ip =>
      let ret := if s.txFifo.length < ctrlCnt (s.reg .txctrl) then 1 else 0
      (.none, { s with guest := .readingIp ret })
  | r => (.word (s.reg r), s)

/-- The second queue of a read of `ip`. -/
def readIpRx (ret : BitVec 32) : Answer × AbstractUart :=
  let value := if ctrlCnt (s.reg .rxctrl) < s.rxFifo.length then ret ||| 2 else ret
  (.word value, { s.setReg .ip value with guest := .idle })

/-- The register behind the `memcpy` of a write. -/
def written (r : Reg) (off len : Nat) (nv : BitVec 32) : BitVec 32 :=
  (⟨8 * off⟩ : Lib.Field (8 * len)).set (nv.setWidth (8 * len)) (s.reg r)

/-- A write: the register is set, and a byte for `txdata` is pushed where there is room. -/
def write (r : Reg) (off len : Nat) (nv : BitVec 32) : Answer × AbstractUart :=
  let s := s.setReg r (s.written r off len nv)
  match r with
  | .txdata =>
      if fifoDepth ≤ s.txFifo.length then (.stored false, s)
      else (.stored true, { s with
        txFifo := s.txFifo ++ [(s.reg .txdata).setWidth 8]
        guest := .posting })
  | _ => (.none, s)

end AbstractUart

def step (s : AbstractUart) (a : Action) : Except Fault (Answer × AbstractUart) :=
  match a with
  | .rxpush data =>
      match s.receiver with
      | .idle => .ok (.none, { s with receiver := .waiting data })
      | _ => .error .blocked
  | .waitRxempty =>
      match s.receiver with
      | .waiting data =>
          if 0 < s.rxempty then
            .ok (.none, { s with rxempty := s.rxempty - 1, receiver := .granted data })
          else .error .blocked
      | _ => .error .blocked
  | .pushRx =>
      match s.receiver with
      | .granted data => .ok (.none, { s with rxFifo := s.rxFifo ++ [data], receiver := .idle })
      | _ => .error .blocked
  | .read r =>
      match s.guest with
      | .idle => .ok (s.read r)
      | _ => .error .blocked
  | .readIpRx =>
      match s.guest with
      | .readingIp ret => .ok (s.readIpRx ret)
      | _ => .error .blocked
  | .write r off len nv =>
      match s.guest with
      | .idle => if off + len ≤ 4 then .ok (s.write r off len nv) else .error .beyondRegister
      | _ => .error .blocked
  | .postTxfull =>
      match s.guest with
      | .posting => .ok (.none, { s with txfull := s.txfull + 1, guest := .idle })
      | _ => .error .blocked
  | .waitTxfull =>
      match s.transmitter with
      | .waiting =>
          if 0 < s.txfull then
            .ok (.none, { s with txfull := s.txfull - 1, transmitter := .granted })
          else .error .blocked
      | _ => .error .blocked
  | .popTx =>
      match s.transmitter with
      | .granted =>
          match s.txFifo with
          | [] => .error .emptyQueue
          | data :: rest => .ok (.none, { s with txFifo := rest, transmitter := .sending data })
      | _ => .error .blocked
  | .writeData =>
      match s.transmitter with
      | .sending data => .ok (.sent data, { s with transmitter := .waiting })
      | _ => .error .blocked

/-- The constructor. -/
def init : AbstractUart where
  reg _ := 0
  txFifo := []
  rxFifo := []
  txfull := 0
  rxempty := fifoDepth
  guest := .idle
  receiver := .idle
  transmitter := .waiting

/-! ## The byte streams -/

/-- The bytes that the host delivered. -/
def delivered (log : List (Action × Answer)) : List (BitVec 8) :=
  log.filterMap fun
    | (.rxpush data, _) => some data
    | _ => none

/-- The bytes that the guest read with the empty flag clear. -/
def received (log : List (Action × Answer)) : List (BitVec 8) :=
  log.filterMap fun
    | (.read .rxdata, .word value) => if value.getLsbD 31 then none else some (value.setWidth 8)
    | _ => none

/-- The low bytes of the writes to `txdata` that found room. -/
def accepted (log : List (Action × Answer)) : List (BitVec 8) :=
  log.filterMap fun
    | (.write .txdata _ _ nv, .stored true) => some (nv.setWidth 8)
    | _ => none

/-- The bytes that the host was sent. -/
def sent (log : List (Action × Answer)) : List (BitVec 8) :=
  log.filterMap fun
    | (.writeData, .sent data) => some data
    | _ => none

/-- An access of 32 bits. -/
def Action.Word : Action → Prop
  | .write _ off len _ => off = 0 ∧ len = 4
  | _ => True

/-- The byte that is on its way into the queue. -/
def Receiver.held : Receiver → List (BitVec 8)
  | .idle => []
  | .waiting data => [data]
  | .granted data => [data]

/-- The places in the queue that the host side has taken and not used. -/
def Receiver.grants : Receiver → Nat
  | .granted _ => 1
  | _ => 0

/-- The byte that left the queue and was not written. -/
def Transmitter.held : Transmitter → List (BitVec 8)
  | .sending data => [data]
  | _ => []

/-- The bytes in the queue that the transmit thread has a right to. -/
def Transmitter.grants : Transmitter → Nat
  | .granted => 1
  | _ => 0

/-- The bytes in the queue that were not counted yet. -/
def Guest.posts : Guest → Nat
  | .posting => 1
  | _ => 0

/-- What the host delivered was read, is in the queue or on its way; the semaphore counts the
places left. -/
structure RxConserved (log : List (Action × Answer)) (s : AbstractUart) : Prop where
  stream : received log ++ s.rxFifo ++ s.receiver.held = delivered log
  space : s.rxempty + s.rxFifo.length + s.receiver.grants = fifoDepth

/-- What the guest wrote into the queue was sent, is about to be or is in the queue; the
semaphore counts the bytes that nobody has a right to yet. -/
structure TxConserved (log : List (Action × Answer)) (s : AbstractUart) : Prop where
  stream : sent log ++ s.transmitter.held ++ s.txFifo = accepted log
  count : s.txfull + s.guest.posts + s.transmitter.grants = s.txFifo.length
  depth : s.txFifo.length ≤ fifoDepth

variable {log : List (Action × Answer)} {s t : AbstractUart} {a : Action} {b : Answer}

@[simp] theorem delivered_append : delivered (log ++ [(a, b)]) = delivered log ++ delivered [(a, b)] :=
  List.filterMap_append

@[simp] theorem received_append : received (log ++ [(a, b)]) = received log ++ received [(a, b)] :=
  List.filterMap_append

@[simp] theorem accepted_append : accepted (log ++ [(a, b)]) = accepted log ++ accepted [(a, b)] :=
  List.filterMap_append

@[simp] theorem sent_append : sent (log ++ [(a, b)]) = sent log ++ sent [(a, b)] :=
  List.filterMap_append

/-- A step on the other side. -/
theorem rxConserved_frame (conserved : RxConserved log s)
    (same : t.rxFifo = s.rxFifo ∧ t.rxempty = s.rxempty ∧ t.receiver = s.receiver)
    (silent : delivered [(a, b)] = [] ∧ received [(a, b)] = []) : RxConserved (log ++ [(a, b)]) t := by
  obtain ⟨fifo, rxempty, receiver⟩ := same
  refine ⟨?_, ?_⟩
  · rw [received_append, delivered_append, silent.1, silent.2, List.append_nil, List.append_nil, fifo, receiver]
    exact conserved.stream
  · rw [fifo, rxempty, receiver]
    exact conserved.space

theorem txConserved_frame (conserved : TxConserved log s)
    (same : t.txFifo = s.txFifo ∧ t.txfull = s.txfull ∧ t.transmitter = s.transmitter ∧
      t.guest.posts = s.guest.posts)
    (silent : accepted [(a, b)] = [] ∧ sent [(a, b)] = []) : TxConserved (log ++ [(a, b)]) t := by
  obtain ⟨fifo, txfull, transmitter, guest⟩ := same
  refine ⟨?_, ?_, ?_⟩
  · rw [sent_append, accepted_append, silent.1, silent.2, List.append_nil, List.append_nil, fifo, transmitter]
    exact conserved.stream
  · rw [fifo, txfull, transmitter, guest]
    exact conserved.count
  · rw [fifo]
    exact conserved.depth

/-! ## Reads and writes of the guest -/

/-- A read of `rxdata` shows the first byte of the queue, or the empty flag. -/
theorem rxConserved_read {r : Reg} (conserved : RxConserved log s) :
    RxConserved (log ++ [(.read r, (s.read r).1)]) (s.read r).2 := by
  cases r with
  | rxdata =>
    unfold AbstractUart.read
    cases queue : s.rxFifo with
    | nil => exact rxConserved_frame conserved ⟨rfl, rfl, rfl⟩ ⟨rfl, rfl⟩
    | cons data rest =>
      obtain ⟨stream, space⟩ := conserved
      -- a byte leaves the flag clear
      have shown : received [(.read .rxdata, .word (data.setWidth 32))] = [data] := by
        simp [received]
      refine ⟨?_, ?_⟩
      · simp only [received_append, delivered_append, shown, AbstractUart.setReg]
        rw [show delivered [(.read .rxdata, .word (data.setWidth 32))] = [] from rfl, ← stream, queue]
        simp
      · rw [queue, List.length_cons] at space
        simp only [AbstractUart.setReg]
        omega
  | _ => exact rxConserved_frame conserved ⟨rfl, rfl, rfl⟩ ⟨rfl, rfl⟩

theorem txConserved_read {r : Reg} (conserved : TxConserved log s) (idle : s.guest = .idle) :
    TxConserved (log ++ [(.read r, (s.read r).1)]) (s.read r).2 := by
  cases r with
  | rxdata =>
    unfold AbstractUart.read
    cases queue : s.rxFifo with
    | nil => exact txConserved_frame conserved ⟨rfl, rfl, rfl, rfl⟩ ⟨rfl, rfl⟩
    | cons data rest => exact txConserved_frame conserved ⟨rfl, rfl, rfl, rfl⟩ ⟨rfl, rfl⟩
  | ip => exact txConserved_frame conserved ⟨rfl, rfl, rfl, by rw [idle]; rfl⟩ ⟨rfl, rfl⟩
  | _ => exact txConserved_frame conserved ⟨rfl, rfl, rfl, rfl⟩ ⟨rfl, rfl⟩

theorem rxConserved_write {r : Reg} {off len : Nat} {nv : BitVec 32} (conserved : RxConserved log s) :
    RxConserved (log ++ [(.write r off len nv, (s.write r off len nv).1)]) (s.write r off len nv).2 := by
  refine rxConserved_frame conserved ?_ ⟨rfl, rfl⟩
  cases r with
  | txdata =>
    unfold AbstractUart.write
    simp only
    split
    · exact ⟨rfl, rfl, rfl⟩
    · exact ⟨rfl, rfl, rfl⟩
  | _ => exact ⟨rfl, rfl, rfl⟩

/-- A write of a word brings the register the value `nv`. -/
theorem written_word {r : Reg} {nv : BitVec 32} : s.written r 0 4 nv = nv := by
  unfold AbstractUart.written
  apply BitVec.eq_of_getLsbD_eq
  intro i bound
  have covered : (⟨8 * 0⟩ : Lib.Field (8 * 4)).Covers i := ⟨Nat.zero_le i, by simpa using bound⟩
  rw [Lib.Field.getLsbD_set, if_pos covered, decide_eq_true bound]
  simp [bound]

/-- A write to `txdata` is turned away where the queue is full. -/
theorem txConserved_write {r : Reg} {nv : BitVec 32} (conserved : TxConserved log s) (idle : s.guest = .idle) :
    TxConserved (log ++ [(.write r 0 4 nv, (s.write r 0 4 nv).1)]) (s.write r 0 4 nv).2 := by
  cases r with
  | txdata =>
    unfold AbstractUart.write
    by_cases full : fifoDepth ≤ s.txFifo.length
    case pos =>
      have found : fifoDepth ≤ (s.setReg .txdata (s.written .txdata 0 4 nv)).txFifo.length := full
      simp only [found, if_true]
      exact txConserved_frame conserved ⟨rfl, rfl, rfl, rfl⟩ ⟨rfl, rfl⟩
    case neg =>
      have found : ¬ fifoDepth ≤ (s.setReg .txdata (s.written .txdata 0 4 nv)).txFifo.length := full
      obtain ⟨stream, count, depth⟩ := conserved
      rw [idle] at count
      simp only [found, if_false]
      refine ⟨?_, ?_, ?_⟩
      · have taken : accepted [(.write .txdata 0 4 nv, .stored true)] = [nv.setWidth 8] := rfl
        have quiet : sent [(.write .txdata 0 4 nv, .stored true)] = [] := rfl
        rw [sent_append, accepted_append, taken, quiet, ← stream]
        simp [AbstractUart.setReg, written_word]
      · simp only [AbstractUart.setReg, List.length_append, List.length_singleton]
        simp only [Guest.posts] at count ⊢
        omega
      · simp only [AbstractUart.setReg, List.length_append, List.length_singleton]
        omega
  | _ => exact txConserved_frame conserved ⟨rfl, rfl, rfl, rfl⟩ ⟨rfl, rfl⟩

/-! ## Runs -/

/-- What a step did. -/
inductive Did (s : AbstractUart) : Action → Answer → AbstractUart → Prop where
  | rxpush {data : BitVec 8} (now : s.receiver = .idle) :
      Did s (.rxpush data) .none { s with receiver := .waiting data }
  | waitRxempty {data : BitVec 8} (now : s.receiver = .waiting data) (some : 0 < s.rxempty) :
      Did s .waitRxempty .none { s with rxempty := s.rxempty - 1, receiver := .granted data }
  | pushRx {data : BitVec 8} (now : s.receiver = .granted data) :
      Did s .pushRx .none { s with rxFifo := s.rxFifo ++ [data], receiver := .idle }
  | read {r : Reg} (now : s.guest = .idle) : Did s (.read r) (s.read r).1 (s.read r).2
  | readIpRx {ret : BitVec 32} (now : s.guest = .readingIp ret) :
      Did s .readIpRx (s.readIpRx ret).1 (s.readIpRx ret).2
  | write {r : Reg} {off len : Nat} {nv : BitVec 32} (now : s.guest = .idle) (inside : off + len ≤ 4) :
      Did s (.write r off len nv) (s.write r off len nv).1 (s.write r off len nv).2
  | postTxfull (now : s.guest = .posting) :
      Did s .postTxfull .none { s with txfull := s.txfull + 1, guest := .idle }
  | waitTxfull (now : s.transmitter = .waiting) (some : 0 < s.txfull) :
      Did s .waitTxfull .none { s with txfull := s.txfull - 1, transmitter := .granted }
  | popTx {data : BitVec 8} {rest : List (BitVec 8)} (now : s.transmitter = .granted)
      (queue : s.txFifo = data :: rest) :
      Did s .popTx .none { s with txFifo := rest, transmitter := .sending data }
  | writeData {data : BitVec 8} (now : s.transmitter = .sending data) :
      Did s .writeData (.sent data) { s with transmitter := .waiting }

theorem step_did (ran : step s a = .ok (b, t)) : Did s a b t := by
  cases a with
  | rxpush data =>
    simp only [step] at ran
    split at ran
    case h_1 now => cases ran; exact .rxpush now
    case h_2 => cases ran
  | waitRxempty =>
    simp only [step] at ran
    split at ran
    case h_1 now =>
      split at ran
      case isTrue some => cases ran; exact .waitRxempty now some
      case isFalse => cases ran
    case h_2 => cases ran
  | pushRx =>
    simp only [step] at ran
    split at ran
    case h_1 now => cases ran; exact .pushRx now
    case h_2 => cases ran
  | read r =>
    simp only [step] at ran
    split at ran
    case h_1 now =>
      have did : Did s (.read r) (s.read r).1 (s.read r).2 := .read now
      rw [Except.ok.inj ran] at did
      exact did
    case h_2 => cases ran
  | readIpRx =>
    simp only [step] at ran
    split at ran
    case h_1 now => cases ran; exact .readIpRx now
    case h_2 => cases ran
  | write r off len nv =>
    simp only [step] at ran
    split at ran
    case h_1 now =>
      obtain ⟨inside, ran⟩ := ok_of_guard ran
      have did : Did s (.write r off len nv) (s.write r off len nv).1 (s.write r off len nv).2 :=
        .write now inside
      rw [Except.ok.inj ran] at did
      exact did
    case h_2 => cases ran
  | postTxfull =>
    simp only [step] at ran
    split at ran
    case h_1 now => cases ran; exact .postTxfull now
    case h_2 => cases ran
  | waitTxfull =>
    simp only [step] at ran
    split at ran
    case h_1 now =>
      split at ran
      case isTrue some => cases ran; exact .waitTxfull now some
      case isFalse => cases ran
    case h_2 => cases ran
  | popTx =>
    simp only [step] at ran
    split at ran
    case h_1 now =>
      split at ran
      case h_1 => cases ran
      case h_2 queue => cases ran; exact .popTx now queue
    case h_2 => cases ran
  | writeData =>
    simp only [step] at ran
    split at ran
    case h_1 now => cases ran; exact .writeData now
    case h_2 => cases ran

theorem rxConserved_step (conserved : RxConserved log s) (ran : step s a = .ok (b, t)) :
    RxConserved (log ++ [(a, b)]) t := by
  have ⟨stream, space⟩ := conserved
  cases step_did ran with
  | rxpush now =>
    rw [now] at stream space
    refine ⟨?_, space⟩
    rw [received_append, delivered_append, ← stream]
    simp [received, delivered, Receiver.held]
  | waitRxempty now some =>
    rw [now] at stream space
    refine ⟨?_, ?_⟩
    · rw [received_append, delivered_append, ← stream]
      simp [received, delivered, Receiver.held]
    · simp only [Receiver.grants] at space ⊢
      omega
  | pushRx now =>
    rw [now] at stream space
    refine ⟨?_, ?_⟩
    · rw [received_append, delivered_append, ← stream]
      simp [received, delivered, Receiver.held]
    · simp only [Receiver.grants, List.length_append, List.length_singleton] at space ⊢
      omega
  | read => exact rxConserved_read conserved
  | write => exact rxConserved_write conserved
  | _ => exact rxConserved_frame conserved ⟨rfl, rfl, rfl⟩ ⟨rfl, rfl⟩

theorem txConserved_step (conserved : TxConserved log s) (word : a.Word) (ran : step s a = .ok (b, t)) :
    TxConserved (log ++ [(a, b)]) t := by
  have ⟨stream, count, depth⟩ := conserved
  cases step_did ran with
  | read now => exact txConserved_read conserved now
  | readIpRx now => exact txConserved_frame conserved ⟨rfl, rfl, rfl, by rw [now]; rfl⟩ ⟨rfl, rfl⟩
  | write now =>
    obtain ⟨rfl, rfl⟩ := word
    exact txConserved_write conserved now
  | postTxfull now =>
    rw [now] at count
    refine ⟨?_, ?_, depth⟩
    · rw [sent_append, accepted_append, ← stream]
      simp [sent, accepted]
    · simp only [Guest.posts] at count ⊢
      omega
  | waitTxfull now some =>
    rw [now] at stream count
    refine ⟨?_, ?_, depth⟩
    · rw [sent_append, accepted_append, ← stream]
      simp [sent, accepted, Transmitter.held]
    · simp only [Transmitter.grants] at count ⊢
      omega
  | popTx now queue =>
    rw [now, queue] at stream count
    rw [queue, List.length_cons] at depth
    refine ⟨?_, ?_, ?_⟩
    · rw [sent_append, accepted_append, ← stream]
      simp [sent, accepted, Transmitter.held]
    · simp only [Transmitter.grants, List.length_cons] at count ⊢
      omega
    · simp only
      omega
  | writeData now =>
    rw [now] at stream count
    refine ⟨?_, count, depth⟩
    rw [sent_append, accepted_append, ← stream]
    simp [sent, accepted, Transmitter.held]
  | _ => exact txConserved_frame conserved ⟨rfl, rfl, rfl, rfl⟩ ⟨rfl, rfl⟩

/-- A read takes the first byte of the queue and shows it with the empty flag clear; there is the
flag when the queue is empty, and nothing else. -/
def ReadsFirst (s : AbstractUart) : Prop :=
  s.guest = .idle → ∃ t, match s.rxFifo with
    | [] => step s (.read .rxdata) = .ok (.word 0x80000000, t) ∧ t.rxFifo = []
    | data :: rest => step s (.read .rxdata) = .ok (.word (data.setWidth 32), t) ∧ t.rxFifo = rest

/-- A write puts its low byte behind the others exactly when the queue is not full. -/
def AcceptsUnlessFull (s : AbstractUart) : Prop :=
  s.guest = .idle → ∀ nv, ∃ t,
    step s (.write .txdata 0 4 nv) = .ok (.stored (decide (s.txFifo.length < fifoDepth)), t) ∧
      t.txFifo = if s.txFifo.length < fifoDepth then s.txFifo ++ [nv.setWidth 8] else s.txFifo

theorem readsFirst (s : AbstractUart) : ReadsFirst s := by
  intro idle
  have reads : step s (.read .rxdata) = .ok (s.read .rxdata) := by simp only [step, idle]
  refine ⟨(s.read .rxdata).2, ?_⟩
  rw [reads]
  unfold AbstractUart.read
  cases queue : s.rxFifo with
  | nil => exact ⟨rfl, queue⟩
  | cons data rest => exact ⟨rfl, rfl⟩

theorem acceptsUnlessFull (s : AbstractUart) : AcceptsUnlessFull s := by
  intro idle nv
  have writes : step s (.write .txdata 0 4 nv) = .ok (s.write .txdata 0 4 nv) := by
    simp only [step, idle]
    rfl
  refine ⟨(s.write .txdata 0 4 nv).2, ?_⟩
  rw [writes]
  unfold AbstractUart.write
  by_cases full : fifoDepth ≤ s.txFifo.length
  case pos =>
    have found : fifoDepth ≤ (s.setReg .txdata (s.written .txdata 0 4 nv)).txFifo.length := full
    simp only [found, if_true, if_neg (Nat.not_lt.mpr full), decide_eq_false (Nat.not_lt.mpr full)]
    exact ⟨trivial, rfl⟩
  case neg =>
    have found : ¬ fifoDepth ≤ (s.setReg .txdata (s.written .txdata 0 4 nv)).txFifo.length := full
    have room := Nat.not_le.mp full
    simp only [found, if_false, if_pos room, decide_eq_true room]
    exact ⟨trivial, by simp [AbstractUart.setReg, written_word]⟩

/-- Behind every run of 32-bit accesses both queues are within their depth, each stream is where it
came from, and the transmit thread finds a byte; the next read gets the first byte that waits, and
the next write goes in exactly if there is room. -/
theorem streams_conserved (run : Runs step (fun _ a => a.Word) init log s) :
    s.rxFifo.length ≤ fifoDepth ∧ s.txFifo.length ≤ fifoDepth ∧
      received log ++ s.rxFifo ++ s.receiver.held = delivered log ∧
      sent log ++ s.transmitter.held ++ s.txFifo = accepted log ∧
      ReadsFirst s ∧ AcceptsUnlessFull s ∧ step s .popTx ≠ .error .emptyQueue := by
  have rx : RxConserved log s :=
    run.invariant_log ⟨rfl, rfl⟩ fun conserved _ ran => rxConserved_step conserved ran
  have tx : TxConserved log s :=
    run.invariant_log ⟨rfl, rfl, by decide⟩ fun conserved word ran => txConserved_step conserved word ran
  refine ⟨?_, tx.depth, rx.stream, tx.stream, readsFirst s, acceptsUnlessFull s, ?_⟩
  · have space := rx.space
    omega
  · intro failed
    simp only [step] at failed
    split at failed
    case h_2 => cases failed
    case h_1 now =>
      split at failed
      case h_2 => cases failed
      case h_1 queue =>
        have count := tx.count
        rw [now, queue] at count
        simp only [Transmitter.grants, List.length_nil] at count
        omega

/-- A byte in each direction. -/
theorem streams_conserved_both : ∃ log s, Runs step (fun _ a => a.Word) init log s ∧
    sent log = [0x41] ∧ accepted log = [0x41] ∧ received log = [0x42] ∧ delivered log = [0x42] := by
  have run : Runs step (fun _ a => a.Word) init
      [(.write .txdata 0 4 0x141, .stored true), (.rxpush 0x42, .none), (.waitRxempty, .none),
        (.postTxfull, .none), (.pushRx, .none), (.waitTxfull, .none), (.read .rxdata, .word 0x42),
        (.popTx, .none), (.writeData, .sent 0x41)] _ :=
    ((((((((Runs.start.next ⟨rfl, rfl⟩ rfl).next trivial rfl).next trivial rfl).next trivial rfl).next
      trivial rfl).next trivial rfl).next trivial rfl).next trivial rfl).next trivial rfl
  obtain ⟨-, -, rx, tx, -⟩ := streams_conserved run
  exact ⟨_, _, run, rfl, tx.symm, rfl, rx.symm⟩

end RiscvVp.Uart
