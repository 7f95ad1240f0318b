/-
# RiscvVp.Util.MemoryMap -- memory mapped registers

`memory_map.h`: a `RegisterRange` is a stretch of bytes behind the bus with callbacks around its
accesses, and `route` takes an access to the first range that contains its address.  An
`ArrayView` of the range are the words of the same bytes (`ByteMemory.word`).
-/
import RiscvVp.Lib.ByteMemory

namespace RiscvVp

set_option autoImplicit false

open Lib

/-- The command of a transaction over a buffer of `n` bytes. -/
inductive TlmCommand (n : Nat) where
  | read
  | write (buffer : BitVec (8 * n))

/-- What ends an access; `device` is a failed check of a callback. -/
inductive AccessError (ε : Type) where
  | unaligned
  | readOnly
  | beyond
  | unroutable
  | device (e : ε)
deriving DecidableEq

/-- A callback of the device `σ` gets the local address and the length. -/
abbrev RegisterCallback (σ ε α : Type) := BitVec 64 → Nat → σ → Except ε α

/-- The bytes are a part of the state of the device.  No read callback of the platform refuses
its access, so these have nothing to say but the state. -/
structure RegisterRange (σ ε : Type) where
  start : BitVec 64
  size : Nat
  mem : σ → ByteMemory
  setMem : ByteMemory → σ → σ
  readonly : Bool := false
  alignment : Nat := 1
  preWrite : RegisterCallback σ ε (Bool × σ) := fun _ _ s => .ok (true, s)
  postWrite : RegisterCallback σ ε σ := fun _ _ s => .ok s
  preRead : RegisterCallback σ ε σ := fun _ _ s => .ok s

namespace RegisterRange

variable {σ ε : Type} (r : RegisterRange σ ε) {n : Nat}

/-- `end`. -/
def stop : BitVec 64 := r.start + BitVec.ofNat 64 r.size - 1

def contains (addr : BitVec 64) : Bool := r.start ≤ addr && addr ≤ r.stop

def toLocal (addr : BitVec 64) : BitVec 64 := addr - r.start

def write (addr : BitVec 64) (src : BitVec (8 * n)) (s : σ) : Except (AccessError ε) σ :=
  if (r.toLocal addr).toNat + n ≤ r.size then
    match r.preWrite (r.toLocal addr) n s with
    | .error e => .error (.device e)
    | .ok (false, s) => .ok s
    | .ok (true, s) =>
        match r.postWrite (r.toLocal addr) n (r.setMem ((r.mem s).write (r.toLocal addr) n src) s) with
        | .error e => .error (.device e)
        | .ok s => .ok s
  else .error .beyond

def read (addr : BitVec 64) (n : Nat) (s : σ) : Except (AccessError ε) (BitVec (8 * n) × σ) :=
  if (r.toLocal addr).toNat + n ≤ r.size then
    match r.preRead (r.toLocal addr) n s with
    | .error e => .error (.device e)
    | .ok s => .ok ((r.mem s).read (r.toLocal addr) n, s)
  else .error .beyond

/-- The buffer and the device behind the transaction. -/
def process (cmd : TlmCommand n) (addr : BitVec 64) (s : σ) :
    Except (AccessError ε) (BitVec (8 * n) × σ) :=
  if addr.toNat % r.alignment = 0 ∧ n % r.alignment = 0 then
    match cmd with
    | .read => r.read addr n s
    | .write buffer =>
        if r.readonly then .error .readOnly
        else
          match r.write addr buffer s with
          | .error e => .error e
          | .ok s => .ok (buffer, s)
  else .error .unaligned

theorem contains_iff {addr : BitVec 64} (some : 0 < r.size) (fits : r.start.toNat + r.size ≤ 2 ^ 64) :
    r.contains addr = true ↔ r.start.toNat ≤ addr.toNat ∧ addr.toNat < r.start.toNat + r.size := by
  have stop : r.stop.toNat = r.start.toNat + r.size - 1 := by
    unfold RegisterRange.stop
    rw [BitVec.toNat_sub, BitVec.toNat_add, BitVec.toNat_ofNat, show BitVec.toNat (1 : BitVec 64) = 1 from rfl]
    omega
  unfold contains
  rw [Bool.and_eq_true, decide_eq_true_iff, decide_eq_true_iff, BitVec.le_def, BitVec.le_def, stop]
  omega

theorem toNat_toLocal (addr : BitVec 64) (inside : r.start.toNat ≤ addr.toNat) :
    (r.toLocal addr).toNat = addr.toNat - r.start.toNat :=
  BitVec.toNat_sub_of_le (BitVec.le_def.mpr inside)

/-- A write to a range whose first callback has nothing to say. -/
theorem process_write {addr : BitVec 64} {s : σ} (writable : r.readonly = false)
    (open_ : r.preWrite = fun _ _ s => .ok (true, s)) (value : BitVec (8 * n)) :
    r.process (.write value) addr s =
      if addr.toNat % r.alignment = 0 ∧ n % r.alignment = 0 then
        if (r.toLocal addr).toNat + n ≤ r.size then
          ((r.postWrite (r.toLocal addr) n (r.setMem ((r.mem s).write (r.toLocal addr) n value) s)).mapError
            .device).map (value, ·)
        else .error .beyond
      else .error .unaligned := by
  unfold process write
  refine if_congr Iff.rfl ?_ rfl
  by_cases fits : (r.toLocal addr).toNat + n ≤ r.size
  · simp only [fits, open_, writable, Bool.false_eq_true, ↓reduceIte]
    cases r.postWrite (r.toLocal addr) n (r.setMem ((r.mem s).write (r.toLocal addr) n value) s) <;> rfl
  · simp [fits, writable]

/-- A write to a range whose first callback turns it away. -/
theorem process_write_away {addr : BitVec 64} {s : σ} (writable : r.readonly = false)
    (away : r.preWrite = fun _ _ s => .ok (false, s)) (value : BitVec (8 * n)) :
    r.process (.write value) addr s =
      if addr.toNat % r.alignment = 0 ∧ n % r.alignment = 0 then
        if (r.toLocal addr).toNat + n ≤ r.size then .ok (value, s) else .error .beyond
      else .error .unaligned := by
  unfold process write
  refine if_congr Iff.rfl ?_ rfl
  by_cases fits : (r.toLocal addr).toNat + n ≤ r.size
  · simp [fits, away, writable]
  · simp [fits, writable]

theorem process_read {addr : BitVec 64} {s : σ} : r.process (n := n) .read addr s =
    if addr.toNat % r.alignment = 0 ∧ n % r.alignment = 0 then
      if (r.toLocal addr).toNat + n ≤ r.size then
        ((r.preRead (r.toLocal addr) n s).mapError .device).map
          fun t => ((r.mem t).read (r.toLocal addr) n, t)
      else .error .beyond
    else .error .unaligned := by
  unfold process read
  refine if_congr Iff.rfl (if_congr Iff.rfl ?_ rfl) rfl
  cases r.preRead (r.toLocal addr) n s <;> rfl

theorem process_read_device_iff {addr : BitVec 64} {s : σ} {e : ε} :
    r.process (n := n) .read addr s = .error (.device e) ↔
      (addr.toNat % r.alignment = 0 ∧ n % r.alignment = 0) ∧ (r.toLocal addr).toNat + n ≤ r.size ∧
        r.preRead (r.toLocal addr) n s = .error e := by
  rw [process_read]
  by_cases aligned : addr.toNat % r.alignment = 0 ∧ n % r.alignment = 0
  case neg => simp [aligned]
  by_cases fits : (r.toLocal addr).toNat + n ≤ r.size
  case neg => simp [aligned, fits]
  cases r.preRead (r.toLocal addr) n s <;> simp [aligned, fits, Except.mapError, Except.map]

end RegisterRange

/-- `vp::mm::route`. -/
def route {σ ε : Type} {n : Nat} (ranges : List (RegisterRange σ ε)) (cmd : TlmCommand n)
    (addr : BitVec 64) (s : σ) : Except (AccessError ε) (BitVec (8 * n) × σ) :=
  match ranges.find? (·.contains addr) with
  | some r => r.process cmd addr s
  | none => .error .unroutable

section Route

variable {σ ε : Type} {ranges : List (RegisterRange σ ε)} {n : Nat} {addr : BitVec 64} {s t : σ}

/-- The search where the ranges are those of an enumeration. -/
theorem find_range {ι : Type} {range : ι → RegisterRange σ ε} {registers : List ι} {r : RegisterRange σ ε}
    (found : (registers.map range).find? (·.contains addr) = some r) :
    ∃ register, registers.find? (fun i => (range i).contains addr) = some register ∧ range register = r := by
  rw [List.find?_map] at found
  exact Option.map_eq_some_iff.mp found

/-- What a read that returns has done. -/
theorem route_read_found {data : BitVec (8 * n)} (ran : route ranges .read addr s = .ok (data, t)) :
    ∃ r, ranges.find? (·.contains addr) = some r ∧ (r.toLocal addr).toNat + n ≤ r.size ∧
      r.preRead (r.toLocal addr) n s = .ok t ∧ data = (r.mem t).read (r.toLocal addr) n := by
  unfold route at ran
  split at ran
  case h_2 => cases ran
  case h_1 r found =>
    refine ⟨r, found, ?_⟩
    unfold RegisterRange.process at ran
    split at ran
    case isFalse => cases ran
    simp only [RegisterRange.read] at ran
    by_cases fits : (r.toLocal addr).toNat + n ≤ r.size
    case neg =>
      rw [if_neg fits] at ran
      cases ran
    case pos =>
      rw [if_pos fits] at ran
      cases called : r.preRead (r.toLocal addr) n s with
      | error e => simp [called] at ran
      | ok u =>
        simp only [called, Except.ok.injEq, Prod.mk.injEq] at ran
        obtain ⟨rfl, rfl⟩ := ran
        exact ⟨fits, rfl, rfl⟩

theorem route_read_ok {data : BitVec (8 * n)} (ran : route ranges .read addr s = .ok (data, t)) :
    ∃ r ∈ ranges, r.contains addr = true ∧ (r.toLocal addr).toNat + n ≤ r.size ∧
      r.preRead (r.toLocal addr) n s = .ok t ∧ data = (r.mem t).read (r.toLocal addr) n := by
  obtain ⟨r, found, done⟩ := route_read_found ran
  exact ⟨r, List.mem_of_find?_eq_some found, by simpa using List.find?_some found, done⟩

/-- What a write that returns has done; its first callback may have turned it away. -/
theorem route_write_found {src data : BitVec (8 * n)}
    (ran : route ranges (.write src) addr s = .ok (data, t)) :
    ∃ r, ranges.find? (·.contains addr) = some r ∧ (addr.toNat % r.alignment = 0 ∧ n % r.alignment = 0) ∧
      r.readonly = false ∧ (r.toLocal addr).toNat + n ≤ r.size ∧
      ∃ go u, r.preWrite (r.toLocal addr) n s = .ok (go, u) ∧
        (go = false ∧ t = u ∨ go = true ∧
          r.postWrite (r.toLocal addr) n (r.setMem ((r.mem u).write (r.toLocal addr) n src) u) = .ok t) := by
  unfold route at ran
  split at ran
  case h_2 => cases ran
  case h_1 r found =>
    refine ⟨r, found, ?_⟩
    unfold RegisterRange.process at ran
    split at ran
    case isFalse => cases ran
    case isTrue aligned =>
      refine ⟨aligned, ?_⟩
      simp only at ran
      split at ran
      case isTrue => cases ran
      case isFalse writable =>
        unfold RegisterRange.write at ran
        refine ⟨by simpa using writable, ?_⟩
        split at ran
        case h_1 => cases ran
        case h_2 u written =>
          cases ran
          split at written
          case isFalse => cases written
          case isTrue fits =>
            refine ⟨fits, ?_⟩
            cases called : r.preWrite (r.toLocal addr) n s with
            | error e => simp [called] at written
            | ok result =>
              obtain ⟨go, u⟩ := result
              refine ⟨go, u, rfl, ?_⟩
              cases go with
              | false =>
                simp only [called, Except.ok.injEq] at written
                exact .inl ⟨rfl, written.symm⟩
              | true =>
                simp only [called] at written
                split at written
                case h_1 => cases written
                case h_2 after =>
                  cases written
                  exact .inr ⟨rfl, after⟩

theorem route_write_ok {src data : BitVec (8 * n)}
    (ran : route ranges (.write src) addr s = .ok (data, t)) :
    ∃ r ∈ ranges, r.contains addr = true ∧ r.readonly = false ∧
      (r.toLocal addr).toNat + n ≤ r.size ∧ ∃ go u, r.preWrite (r.toLocal addr) n s = .ok (go, u) ∧
        (go = false ∧ t = u ∨ go = true ∧
          r.postWrite (r.toLocal addr) n (r.setMem ((r.mem u).write (r.toLocal addr) n src) u) = .ok t) := by
  obtain ⟨r, found, -, done⟩ := route_write_found ran
  exact ⟨r, List.mem_of_find?_eq_some found, by simpa using List.find?_some found, done⟩

/-- Where a callback failed. -/
theorem route_read_device {e : ε} (ran : route (n := n) ranges .read addr s = .error (.device e)) :
    ∃ r ∈ ranges, r.contains addr = true ∧ (r.toLocal addr).toNat + n ≤ r.size ∧
      r.preRead (r.toLocal addr) n s = .error e := by
  unfold route at ran
  split at ran
  case h_2 => cases ran
  case h_1 r found =>
    refine ⟨r, List.mem_of_find?_eq_some found, by simpa using List.find?_some found, ?_⟩
    rw [RegisterRange.process_read] at ran
    split at ran
    case isFalse => cases ran
    case isTrue =>
      split at ran
      case isFalse => cases ran
      case isTrue fits =>
        refine ⟨fits, ?_⟩
        cases called : r.preRead (r.toLocal addr) n s with
        | ok t => simp [called, Except.mapError, Except.map] at ran
        | error e =>
          simp only [called, Except.mapError, Except.map, Except.error.injEq, AccessError.device.injEq] at ran
          rw [ran]

theorem route_write_device {src : BitVec (8 * n)} {e : ε}
    (ran : route ranges (.write src) addr s = .error (.device e)) :
    ∃ r ∈ ranges, r.contains addr = true ∧ (r.toLocal addr).toNat + n ≤ r.size ∧
      (r.preWrite (r.toLocal addr) n s = .error e ∨ ∃ u, r.preWrite (r.toLocal addr) n s = .ok (true, u) ∧
        r.postWrite (r.toLocal addr) n (r.setMem ((r.mem u).write (r.toLocal addr) n src) u) = .error e) := by
  unfold route at ran
  split at ran
  case h_2 => cases ran
  case h_1 r found =>
    refine ⟨r, List.mem_of_find?_eq_some found, by simpa using List.find?_some found, ?_⟩
    unfold RegisterRange.process at ran
    split at ran
    case isFalse => cases ran
    simp only at ran
    split at ran
    case isTrue => cases ran
    case isFalse =>
      unfold RegisterRange.write at ran
      by_cases fits : (r.toLocal addr).toNat + n ≤ r.size
      case neg => simp [fits] at ran
      case pos =>
        refine ⟨fits, ?_⟩
        cases called : r.preWrite (r.toLocal addr) n s with
        | error e =>
          simp only [called, fits, if_true, Except.error.injEq, AccessError.device.injEq] at ran
          exact .inl (by rw [ran])
        | ok result =>
          obtain ⟨go, u⟩ := result
          cases go with
          | false => simp [called, fits] at ran
          | true =>
            simp only [called, fits, if_true] at ran
            refine .inr ⟨u, rfl, ?_⟩
            cases after : r.postWrite (r.toLocal addr) n (r.setMem ((r.mem u).write (r.toLocal addr) n src) u) with
            | ok t => simp [after] at ran
            | error e =>
              simp only [after, Except.error.injEq, AccessError.device.injEq] at ran
              rw [ran]

end Route

end RiscvVp
