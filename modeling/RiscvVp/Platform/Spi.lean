/-
# RiscvVp.Platform.Spi -- the SPI controller

A byte written to `txdata` goes to the target on the selected pin at once, and its answer to the end
of `rxqueue`; beyond sixteen answers the oldest one is dropped.  Reading `rxdata` takes the first one.
A guest that does both with a target selected gets the answers in their order, and all of them if and
only if it never leaves more than sixteen of them behind.
-/
import RiscvVp.Lib.DropQueue
import RiscvVp.Lib.Runs
import RiscvVp.Util.RegisterMapping

namespace RiscvVp.Spi

set_option autoImplicit false

open Lib RegisterMapping

/-- The registers in the order of the bank. -/
inductive Reg where
  | sckdiv
  | sckmode
  | csid
  | csdef
  | csmode
  | delay0
  | delay1
  | fmt
  | txdata
  | rxdata
  | txmark
  | rxmark
  | fctrl
  | ffmt
  | ie
  | ip
deriving DecidableEq

namespace Reg

def addr : Reg → BitVec 64
  | sckdiv => 0x00
  | sckmode => 0x04
  | csid => 0x10
  | csdef => 0x14
  | csmode => 0x18
  | delay0 => 0x28
  | delay1 => 0x2C
  | fmt => 0x40
  | txdata => 0x48
  | rxdata => 0x4C
  | txmark => 0x50
  | rxmark => 0x54
  | fctrl => 0x60
  | ffmt => 0x64
  | ie => 0x70
  | ip => 0x74

def reset : Reg → BitVec 32
  | csdef => 1
  | fctrl => 1
  | _ => 0

end Reg

def mapping (q : Reg) : RegMapping Reg := { addr := q.addr, vptr := q }

def bank : List (RegMapping Reg) :=
  [.sckdiv, .sckmode, .csid, .csdef, .csmode, .delay0, .delay1, .fmt, .txdata, .rxdata, .txmark, .rxmark, .fctrl,
    .ffmt, .ie, .ip].map mapping

/-! ## Targets -/

abbrev Pin := BitVec 32

variable {τ : Type}

/-- `SpiInterface::write`; `τ` is what the targets keep. -/
abbrev SpiInterface (τ : Type) := BitVec 8 → τ → BitVec 8 × τ

abbrev Targets (τ : Type) := Pin → Option (SpiInterface τ)

/-- `connect`; `insert` leaves a target that is there already. -/
def connect (cs : Pin) (interface : SpiInterface τ) (targets : Targets τ) : Targets τ :=
  if cs = 1 ∨ 3 < cs then targets
  else fun pin => if pin = cs then (targets cs).or (some interface) else targets pin

/-- A call of `write`, and what it returned. -/
structure Exchange where
  pin : Pin
  byte : BitVec 8
  answer : BitVec 8

/-- The controller without its registers; `wire` has the calls of a transaction on record. -/
structure Device (τ : Type) where
  rxqueue : List (BitVec 8)
  targets : τ
  wire : List Exchange

abbrev SpiState (τ : Type) := State Reg (Device τ)

abbrev SpiM (τ : Type) := BankM Reg (Device τ)

def queueSize : Nat := 16

/-- `SPI_IP_TXWM`. -/
def spiIpTxwm : BitVec 32 := 0x1

def exchange (pin : Pin) (write : SpiInterface τ) (byte : BitVec 8) (d : Device τ) : Device τ where
  rxqueue := DropQueue.enqueue queueSize d.rxqueue (write byte d.targets).1
  targets := (write byte d.targets).2
  wire := d.wire ++ [⟨pin, byte, (write byte d.targets).1⟩]

/-! ## The callback -/

/-- In front of a read of `rxdata`. -/
def answerRead (targets : Targets τ) (s : SpiState τ) : SpiState τ :=
  match targets (s.reg .csid) with
  | none => s
  | some _ =>
      match s.device.rxqueue with
      | [] => s.set .rxdata (1 <<< 31)
      | byte :: rest => { s.set .rxdata (byte.setWidth 32) with device := { s.device with rxqueue := rest } }

/-- With a target on the selected pin. -/
def transmit (write : SpiInterface τ) (s : SpiState τ) : SpiState τ :=
  let t := { s with device := exchange (s.reg .csid) write ((s.reg .txdata).setWidth 8) s.device }
  if 0 < t.reg .txmark ∧ t.reg .ie &&& spiIpTxwm ≠ 0 then t.set .ip (t.reg .ip ||| spiIpTxwm) else t

/-- Behind a write to `txdata`. -/
def answerWrite (targets : Targets τ) (s : SpiState τ) : SpiState τ :=
  ((targets (s.reg .csid)).elim s (transmit · s)).set .txdata 0

/-- `SPI::register_access_callback`. -/
def registerAccessCallback (targets : Targets τ) (r : RegisterAccess Reg (Device τ)) : SpiM τ Unit := do
  Exec.when (r.read = true ∧ r.vptr = .rxdata) (Exec.update (answerRead targets))
  r.fn
  Exec.when (r.write = true ∧ r.vptr = .txdata) (Exec.update (answerWrite targets))

/-- At the beginning of a transaction. -/
def opened (data : ByteMemory) (s : SpiState τ) : SpiState τ :=
  { s with data := data, device := { s.device with wire := [] } }

/-- `SPI::transport`. -/
def transport (targets : Targets τ) (trans : Payload) (data : ByteMemory) (s : SpiState τ) :
    Except Fault (SpiState τ) :=
  match (RegisterMapping.transport bank (registerAccessCallback targets) trans).run (opened data s) with
  | (.ok _, t) => .ok t
  | (.error e, _) => .error e

def init (targets : τ) : SpiState τ := ⟨Reg.reset, ⟨[], targets, []⟩, fun _ => 0⟩

/-! ## The system -/

/-- The guest makes an access, or something happens to the targets. -/
inductive Input (τ : Type) where
  | access (trans : Payload) (data : ByteMemory)
  | other (change : τ → τ)

/-- The data of the transaction, and what went over the wire. -/
structure Output where
  data : ByteMemory
  wire : List Exchange

def step (targets : Targets τ) (s : SpiState τ) : Input τ → Except Fault (Output × SpiState τ)
  | .access payload data =>
      (transport targets payload data s).map fun t => (⟨t.data, t.device.wire⟩, t)
  | .other change =>
      .ok (⟨s.data, []⟩, { s with device := { s.device with targets := change s.device.targets } })

/-- A transaction on a register. -/
def At (q : Reg) (cmd : Command) (trans : Payload) : Prop :=
  trans.cmd = cmd ∧ trans.address - trans.address % 4 = q.addr

instance (q : Reg) (cmd : Command) (trans : Payload) : Decidable (At q cmd trans) :=
  inferInstanceAs (Decidable (_ ∧ _))

/-- The data registers are used with a target selected, and `rxdata` is read as a word. -/
def Considerate (targets : Targets τ) (s : SpiState τ) : Input τ → Prop
  | .access payload _ => (At .rxdata .read payload → payload.length = 4) ∧
      (At .rxdata .read payload ∨ At .txdata .write payload → (targets (s.reg .csid)).isSome = true)
  | .other _ => True

instance (targets : Targets τ) (s : SpiState τ) (a : Input τ) : Decidable (Considerate targets s a) :=
  match a with
  | .access payload _ => inferInstanceAs (Decidable ((At .rxdata .read payload → payload.length = 4) ∧
      (At .rxdata .read payload ∨ At .txdata .write payload → (targets (s.reg .csid)).isSome = true)))
  | .other _ => inferInstanceAs (Decidable True)

/-- What a word from `rxdata` says: bit 31 is for none. -/
def received (word : BitVec 32) : List (DropQueue.Event (BitVec 8)) :=
  if word.getLsbD 31 = true then [] else [.popped (word.setWidth 8)]

/-- The answers that come and the ones that the guest gets. -/
def events : Input τ × Output → List (DropQueue.Event (BitVec 8))
  | (.access payload _, out) =>
      out.wire.map (fun e => .pushed e.answer) ++
        if At .rxdata .read payload then received (out.data.read 0 4) else []
  | (.other _, _) => []

/-- The byte that the guest writes; there is none at the other offsets of `txdata`. -/
def written : Input τ → List (BitVec 8)
  | .access payload data =>
      if At .txdata .write payload then [if payload.off = 0 ∧ 0 < payload.length then data 0 else 0] else []
  | .other _ => []

/-! ## One access -/

variable {targets : Targets τ} {s t : SpiState τ} {q : Reg} {trans : Payload} {data : ByteMemory}

theorem addr_inj {q q' : Reg} (same : q.addr = q'.addr) : q = q' := by
  revert same
  cases q <;> cases q' <;> decide

theorem find_bank {a : BitVec 64} {r : RegMapping Reg} (found : find bank a = some r) :
    ∃ q : Reg, r = mapping q ∧ q.addr = a := by
  obtain ⟨among, here⟩ := of_find found
  obtain ⟨q, -, rfl⟩ := List.mem_map.mp among
  exact ⟨q, rfl, here⟩

theorem at_iff {q' : Reg} {cmd : Command} (place : q.addr = trans.address - trans.address % 4) :
    At q' cmd trans ↔ trans.cmd = cmd ∧ q = q' := by
  unfold At
  rw [← place]
  exact and_congr_right fun _ => ⟨addr_inj, fun same => same ▸ rfl⟩

/-- Behind `fn` of a read. -/
def fetched (q : Reg) (trans : Payload) (s : SpiState τ) : SpiState τ :=
  { s with data := s.data.write 0 trans.length (trans.field.get (s.reg q)) }

/-- Behind `fn` of a write. -/
def assigned (q : Reg) (trans : Payload) (s : SpiState τ) : SpiState τ :=
  s.set q (trans.field.set (s.data.read 0 trans.length) (s.reg q))

theorem run_callback_read (command : trans.cmd = .read) :
    (registerAccessCallback targets (access (mapping q) trans s)).run s =
      (.ok (), fetched q trans (if q = .rxdata then answerRead targets s else s)) := by
  have reads : (access (mapping q) trans s).read = true := decide_eq_true command
  have writes : ¬ (access (mapping q) trans s).write = true := by simp [access, command]
  have fn : ∀ u : SpiState τ, (access (mapping q) trans s).fn.run u = (.ok (), fetched q trans u) :=
    fun u => run_performAccess_read command rfl
  unfold registerAccessCallback
  by_cases here : q = .rxdata
  · rw [Exec.when_pos ⟨reads, here⟩, Exec.run_update_bind, Exec.run_bind_ok (fn _),
      Exec.when_neg fun both => writes both.1, if_pos here]
    rfl
  · rw [Exec.when_neg fun both => here both.2, Exec.run_bind_ok (Exec.run_pure () s), Exec.run_bind_ok (fn _),
      Exec.when_neg fun both => writes both.1, if_neg here]
    rfl

theorem run_callback_write (command : trans.cmd = .write) :
    (registerAccessCallback targets (access (mapping q) trans s)).run s =
      (.ok (), if q = .txdata then answerWrite targets (assigned q trans s) else assigned q trans s) := by
  have reads : ¬ (access (mapping q) trans s).read = true := by simp [access, command]
  have writes : (access (mapping q) trans s).write = true := decide_eq_true command
  have fn : (access (mapping q) trans s).fn.run s = (.ok (), assigned q trans s) := by
    refine (run_performAccess_write command rfl).trans ?_
    rw [show (mapping q).mask = BitVec.allOnes 32 from rfl, BitVec.and_allOnes]
    rfl
  unfold registerAccessCallback
  rw [Exec.when_neg fun both => reads both.1, Exec.run_bind_ok (Exec.run_pure () s), Exec.run_bind_ok fn]
  by_cases here : q = .txdata
  · rw [Exec.when_pos ⟨writes, here⟩, if_pos here]
    rfl
  · rw [Exec.when_neg fun both => here both.2, if_neg here]
    rfl

/-- What a transaction that ends without a fault has done. -/
theorem transport_cases (ran : transport targets trans data s = .ok t) :
    ∃ q : Reg, q.addr = trans.address - trans.address % 4 ∧ trans.length + trans.off ≤ 4 ∧
      (trans.cmd = .read ∧
          t = fetched q trans (if q = .rxdata then answerRead targets (opened data s) else opened data s) ∨
        trans.cmd = .write ∧ t = if q = .txdata then answerWrite targets (assigned q trans (opened data s))
          else assigned q trans (opened data s)) := by
  unfold transport at ran
  split at ran
  case h_2 => cases ran
  case h_1 performed =>
    cases ran
    obtain ⟨r, proper, called⟩ := transport_ok performed
    obtain ⟨q, rfl, place⟩ := find_bank proper.found
    refine ⟨q, place, proper.inside, ?_⟩
    rcases proper.mode with ⟨read, -⟩ | ⟨write, -⟩
    · have ended := (run_callback_read read).symm.trans called
      cases ended
      exact .inl ⟨read, rfl⟩
    · have ended := (run_callback_write write).symm.trans called
      cases ended
      exact .inr ⟨write, rfl⟩

/-! ## The queue -/

/-- A word that was read as a whole is the register. -/
theorem read_fetched (whole : trans.length = 4) (inside : trans.length + trans.off ≤ 4) :
    (fetched q trans s).data.read 0 4 = s.reg q := by
  obtain ⟨cmd, address, length⟩ := trans
  cases whole
  have aligned : (Payload.mk cmd address 4).off = 0 := by
    change 4 + (Payload.mk cmd address 4).off ≤ 4 at inside
    omega
  refine (ByteMemory.read_write_self _ _ (show 4 < 2 ^ 64 by decide) _).trans (BitVec.eq_of_getLsbD_eq fun i bound => ?_)
  rw [Field.getLsbD_get, Payload.field_lo, aligned, decide_eq_true bound]
  simp

/-- The bits of a byte that was taken. -/
theorem received_byte (byte : BitVec 8) : received (byte.setWidth 32) = [.popped byte] := by
  have bits : (byte.setWidth 32).getLsbD 31 = false := by
    rw [BitVec.getLsbD_setWidth, BitVec.getLsbD_of_ge byte 31 (by decide), Bool.and_false]
  unfold received
  rw [bits, if_neg Bool.false_ne_true, BitVec.setWidth_setWidth_of_le byte (by decide), BitVec.setWidth_eq]

/-- The byte of `txdata` that is sent. -/
theorem sent_byte (clear : s.reg .txdata = 0) : ((assigned .txdata trans s).reg .txdata).setWidth 8 =
    if trans.off = 0 ∧ 0 < trans.length then s.data 0 else 0 := by
  have low : ∀ x : BitVec 32, x.setWidth 8 = byteOf x 0 := fun x => by
    refine BitVec.eq_of_getLsbD_eq fun j bit => ?_
    rw [getLsbD_byteOf bit, BitVec.getLsbD_setWidth, decide_eq_true bit, Bool.true_and, Nat.mul_zero, Nat.zero_add]
  unfold assigned
  rw [low, State.set_reg_self, Payload.byteOf_field_set (by decide), clear]
  have first : trans.off ≤ 0 ∧ 0 < trans.off + trans.length ↔ trans.off = 0 ∧ 0 < trans.length := by omega
  refine if_congr first ?_ rfl
  rw [Nat.zero_sub]
  rfl

theorem transmit_device (write : SpiInterface τ) : (transmit write s).device =
    exchange (s.reg .csid) write ((s.reg .txdata).setWidth 8) s.device := by
  unfold transmit
  dsimp only
  split_ifs <;> rfl

theorem answerRead_txdata : (answerRead targets s).reg .txdata = s.reg .txdata := by
  have other : Reg.txdata ≠ .rxdata := nofun
  unfold answerRead
  split
  case h_1 => rfl
  case h_2 =>
    split
    case h_1 => exact State.set_reg_of_ne other
    case h_2 byte rest _ =>
      change (s.set .rxdata (byte.setWidth 32)).reg .txdata = _
      exact State.set_reg_of_ne other

theorem answerRead_wire : (answerRead targets s).device.wire = s.device.wire := by
  unfold answerRead
  split
  · rfl
  · split <;> rfl

/-- What a read of `rxdata` tells the guest is what it takes from the queue. -/
theorem answerRead_takes {seen : List (DropQueue.Event (BitVec 8))} (selected : (targets (s.reg .csid)).isSome = true)
    (reaches : DropQueue.Reaches queueSize seen s.device.rxqueue) :
    DropQueue.Reaches queueSize (seen ++ received ((answerRead targets s).reg .rxdata))
      (answerRead targets s).device.rxqueue := by
  obtain ⟨write, found⟩ := Option.isSome_iff_exists.mp selected
  unfold answerRead
  rw [found]
  dsimp only
  cases left : s.device.rxqueue with
  | nil =>
    rw [left] at reaches
    rw [State.set_reg_self, State.set_device, left, show received (1 <<< 31) = [] from rfl, List.append_nil]
    exact reaches
  | cons byte rest =>
    rw [left] at reaches
    dsimp only
    rw [State.set_reg_self, received_byte]
    exact reaches.popped

/-! ## Runs -/

/-- The bytes that the guest wrote, and those that were sent. -/
def writtenBytes (log : List (Input τ × Output)) : List (BitVec 8) := log.flatMap fun entry => written entry.1

def sentBytes (log : List (Input τ × Output)) : List (BitVec 8) :=
  log.flatMap fun entry => entry.2.wire.map Exchange.byte

/-- Behind a log: `txdata` is clear, `rxqueue` is a queue of sixteen bytes that drops the oldest one, and
every byte has been sent. -/
structure Simulates (log : List (Input τ × Output)) (s : SpiState τ) : Prop where
  clear : s.reg .txdata = 0
  queue : DropQueue.Reaches queueSize (log.flatMap events) s.device.rxqueue
  sent : sentBytes log = writtenBytes log

namespace Simulates

variable {log : List (Input τ × Output)} {a : Input τ} {out : Output} (sim : Simulates log s)

include sim

theorem next (clear : t.reg .txdata = 0)
    (queue : DropQueue.Reaches queueSize (log.flatMap events ++ events (a, out)) t.device.rxqueue)
    (sent : out.wire.map Exchange.byte = written a) : Simulates (log ++ [(a, out)]) t where
  clear := clear
  queue := by
    rw [List.flatMap_append, List.flatMap_singleton]
    exact queue
  sent := by
    have before := sim.sent
    unfold sentBytes writtenBytes at before ⊢
    rw [List.flatMap_append, List.flatMap_append, before, List.flatMap_singleton, List.flatMap_singleton, sent]

/-- A step in which no answer comes and none is taken. -/
theorem idle (clear : t.reg .txdata = 0) (none : events (a, out) = []) (left : t.device.rxqueue = s.device.rxqueue)
    (sent : out.wire.map Exchange.byte = written a) : Simulates (log ++ [(a, out)]) t := by
  refine sim.next clear ?_ sent
  rw [none, List.append_nil, left]
  exact sim.queue

theorem read (place : q.addr = trans.address - trans.address % 4) (inside : trans.length + trans.off ≤ 4)
    (read : trans.cmd = .read) (fine : Considerate targets s (.access trans data))
    (took : t = fetched q trans (if q = .rxdata then answerRead targets (opened data s) else opened data s)) :
    Simulates (log ++ [(.access trans data, ⟨t.data, t.device.wire⟩)]) t := by
  have other : ¬ At .txdata .write trans := fun hit => nomatch read.symm.trans hit.1
  have quiet : written (.access trans data : Input τ) = [] := if_neg other
  by_cases here : q = .rxdata
  · subst here
    rw [if_pos rfl] at took
    subst took
    have hit : At .rxdata .read trans := (at_iff place).mpr ⟨read, rfl⟩
    have wire : (fetched .rxdata trans (answerRead targets (opened data s))).device.wire = [] := answerRead_wire
    refine sim.next (answerRead_txdata.trans sim.clear) ?_ ?_
    · rw [events, wire, if_pos hit, read_fetched (fine.1 hit) inside]
      exact answerRead_takes (fine.2 (.inl hit)) sim.queue
    · rw [quiet, wire]
      rfl
  · rw [if_neg here] at took
    subst took
    refine sim.idle sim.clear ?_ rfl quiet.symm
    rw [events, if_neg fun hit => here ((at_iff place).mp hit).2]
    rfl

theorem write (place : q.addr = trans.address - trans.address % 4) (write : trans.cmd = .write)
    (fine : Considerate targets s (.access trans data))
    (took : t = if q = .txdata then answerWrite targets (assigned q trans (opened data s))
      else assigned q trans (opened data s)) :
    Simulates (log ++ [(.access trans data, ⟨t.data, t.device.wire⟩)]) t := by
  have quiet : ¬ At .rxdata .read trans := fun hit => nomatch write.symm.trans hit.1
  by_cases here : q = .txdata
  · subst here
    rw [if_pos rfl] at took
    subst took
    have hit : At .txdata .write trans := (at_iff place).mpr ⟨write, rfl⟩
    obtain ⟨interface, found⟩ := Option.isSome_iff_exists.mp (fine.2 (.inr hit))
    have pin : (assigned .txdata trans (opened data s)).reg .csid = s.reg .csid :=
      State.set_reg_of_ne (show Reg.csid ≠ .txdata by nofun)
    have byte : ((assigned .txdata trans (opened data s)).reg .txdata).setWidth 8 =
        if trans.off = 0 ∧ 0 < trans.length then data 0 else 0 := sent_byte sim.clear
    have device : (answerWrite targets (assigned .txdata trans (opened data s))).device =
        exchange (s.reg .csid) interface (if trans.off = 0 ∧ 0 < trans.length then data 0 else 0)
          (opened data s).device := by
      unfold answerWrite
      rw [pin, found, Option.elim_some, State.set_device, transmit_device, pin, byte]
      rfl
    refine sim.next State.set_reg_self ?_ ?_
    · rw [events, if_neg quiet, device, List.append_nil]
      exact sim.queue.pushed _
    · rw [written, if_pos hit, device]
      rfl
  · rw [if_neg here] at took
    subst took
    refine sim.idle ((State.set_reg_of_ne (Ne.symm here)).trans sim.clear) ?_ rfl ?_
    · rw [events, if_neg quiet]
      rfl
    · exact (if_neg fun hit => here ((at_iff place).mp hit).2).symm

theorem step (fine : Considerate targets s a) (ran : Spi.step targets s a = .ok (out, t)) :
    Simulates (log ++ [(a, out)]) t := by
  cases a with
  | other change =>
    cases ran
    exact sim.idle sim.clear rfl rfl rfl
  | access payload data =>
    obtain ⟨u, moved, same⟩ := ok_of_map ran
    cases same
    obtain ⟨q, place, inside, ⟨read, took⟩ | ⟨write, took⟩⟩ := transport_cases moved
    · exact sim.read place inside read fine took
    · exact sim.write place write fine took

end Simulates

theorem runs_simulate {start : τ} {log : List (Input τ × Output)}
    (run : Runs (step targets) (Considerate targets) (init start) log t) : Simulates log t :=
  run.invariant_log ⟨rfl, .start, rfl⟩ fun sim => sim.step

/-- Every byte that is written is sent, and `txdata` never says that it is full.  The answers come back
in their order, and without a gap if and only if the guest was never more than sixteen of them behind. -/
theorem answers_arrive {start : τ} {log : List (Input τ × Output)}
    (run : Runs (step targets) (Considerate targets) (init start) log t) :
    sentBytes log = writtenBytes log ∧ t.reg .txdata = 0 ∧
      t.device.rxqueue <:+ DropQueue.arrivals (log.flatMap events) ∧ t.device.rxqueue.length ≤ queueSize ∧
      (DropQueue.departures (log.flatMap events) ++ t.device.rxqueue).Sublist
        (DropQueue.arrivals (log.flatMap events)) ∧
      (DropQueue.departures (log.flatMap events) ++ t.device.rxqueue = DropQueue.arrivals (log.flatMap events) ↔
        DropQueue.Paced queueSize (log.flatMap events)) := by
  have sim := runs_simulate run
  exact ⟨sim.sent, sim.clear, sim.queue.suffix, sim.queue.length_le, sim.queue.sublist, sim.queue.complete_iff⟩

/-- A target that answers with the byte before. -/
def echo : SpiInterface (BitVec 8) := fun byte last => (last, byte)

def echoing : Targets (BitVec 8) := connect 2 echo fun _ => none

def store (q : Reg) (value : BitVec 32) : Input (BitVec 8) :=
  .access ⟨.write, q.addr, 4⟩ (ByteMemory.write (fun _ => 0) 0 4 value)

def load (q : Reg) : Input (BitVec 8) := .access ⟨.read, q.addr, 4⟩ fun _ => 0

theorem answers_arrive_echo : ∃ log t, Runs (step echoing) (Considerate echoing) (init 0x5a) log t ∧
    t.device.rxqueue = [0x41] ∧ sentBytes log = writtenBytes log := by
  have ended : ends (step echoing) (Considerate echoing) (init 0x5a)
      [store .csid 2, store .txdata 0x41, store .txdata 0x42, load .rxdata]
      (fun t => t.device.rxqueue = [0x41]) = true := by decide
  obtain ⟨log, t, run, left⟩ := exists_runs_of_ends ended
  exact ⟨log, t, run, left, (answers_arrive run).1⟩

end RiscvVp.Spi
