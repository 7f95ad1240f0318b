/-
# RiscvVp.Soc.DataPath -- loads and stores are those of one byte memory

The loads and stores of `CombinedMemoryInterface`, one after the other, with translation off:
what the loads return and what becomes of the memories is what a little-endian byte memory
would give, with DMI windows and without.
-/
import RiscvVp.Iss.Memory
import RiscvVp.Soc.Windows

namespace RiscvVp

set_option autoImplicit false

open Lib

/-! ## Sequences of accesses -/

inductive LoadKind where
  | double | word | half | byte | uword | uhalf | ubyte
deriving DecidableEq

inductive StoreKind where
  | double | word | half | byte
deriving DecidableEq

namespace LoadKind

def bytes : LoadKind → Nat
  | double => 8
  | word | uword => 4
  | half | uhalf => 2
  | byte | ubyte => 1

/-- The integer that the bytes stand for. -/
def value : (kind : LoadKind) → BitVec (8 * kind.bytes) → Int
  | double, data => data.toInt
  | word, data => data.toInt
  | half, data => data.toInt
  | byte, data => data.toInt
  | uword, data => data.toNat
  | uhalf, data => data.toNat
  | ubyte, data => data.toNat

end LoadKind

def StoreKind.bytes : StoreKind → Nat
  | double => 8
  | word => 4
  | half => 2
  | byte => 1

/-- An access through the memory interface of the core. -/
inductive DataAccess where
  | load (kind : LoadKind) (addr : BitVec 64)
  | store (kind : StoreKind) (addr : BitVec 64) (value : BitVec (8 * kind.bytes))

namespace DataAccess

def addr : DataAccess → BitVec 64
  | load _ addr => addr
  | store _ addr _ => addr

def bytes : DataAccess → Nat
  | load kind _ => kind.bytes
  | store kind _ _ => kind.bytes

/-- The interface of the core has the function, the address is a multiple of the width, and the
bytes are those of a memory that a window covers. -/
structure Proper (isa : Isa) (windows : List MemoryDMI) (a : DataAccess) : Prop where
  offered : isa = .rv32 → ∀ addr, a ≠ .load .uword addr
  aligned : a.addr.toNat % a.bytes = 0
  held : ∃ e ∈ windows, e.Holds a.addr a.bytes

/-! ### On a byte memory -/

def answer (m : ByteMemory) : DataAccess → Option Int
  | load kind addr => some (kind.value (m.read addr kind.bytes))
  | store _ _ _ => none

def effect (m : ByteMemory) : DataAccess → ByteMemory
  | load _ _ => m
  | store kind addr value => m.write addr kind.bytes value

/-- The byte that an access puts at an address. -/
def storedAt (a : BitVec 64) : DataAccess → Option (BitVec 8)
  | load _ _ => none
  | store kind addr value =>
      if (a - addr).toNat < kind.bytes then some (value.extractLsb' (8 * (a - addr).toNat) 8) else none

/-- The byte most recently stored at an address. -/
def lastStored (a : BitVec 64) : List DataAccess → Option (BitVec 8)
  | [] => none
  | access :: rest => (lastStored a rest).or (access.storedAt a)

/-- Behind a sequence: where nothing was stored the bytes are the old ones. -/
def recent (m : ByteMemory) (accesses : List DataAccess) : ByteMemory := fun a =>
  (lastStored a accesses).getD (m a)

/-- What the accesses of a sequence give, one after the other. -/
def answers : ByteMemory → List DataAccess → List (Option Int)
  | _, [] => []
  | m, a :: rest => a.answer m :: answers (a.effect m) rest

theorem effect_apply (m : ByteMemory) (access : DataAccess) (a : BitVec 64) :
    access.effect m a = (access.storedAt a).getD (m a) := by
  cases access with
  | load => rfl
  | store kind addr value =>
    show (if (a - addr).toNat < kind.bytes then _ else _) = Option.getD (if _ then _ else _) (m a)
    split <;> rfl

theorem recent_cons (m : ByteMemory) (access : DataAccess) (rest : List DataAccess) :
    recent m (access :: rest) = recent (access.effect m) rest := by
  funext a
  unfold recent
  rw [effect_apply, lastStored]
  cases lastStored a rest with
  | none => rfl
  | some => rfl

/-- An access sees what the ones before it have left. -/
theorem getElem?_answers (m : ByteMemory) (accesses : List DataAccess) (k : Nat) :
    (answers m accesses)[k]? = accesses[k]?.map (answer (recent m (accesses.take k))) := by
  induction accesses generalizing m k with
  | nil => rfl
  | cons access rest ih =>
    cases k with
    | zero => rfl
    | succ k =>
      rw [List.take_succ_cons, recent_cons]
      exact ih (access.effect m) k

end DataAccess

namespace Iss

variable {isa : Isa} {World : Type} (plat : Platform World)

/-! ### On the core -/

/-- The function of the interface, and the integer it returns. -/
def perform : DataAccess → IssM isa World (Option Int)
  | .load .double addr => do return some (← loadDouble plat addr).toInt
  | .load .word addr => do return some (← loadWord plat addr).toInt
  | .load .half addr => do return some (← loadHalf plat addr).toInt
  | .load .byte addr => do return some (← loadByte plat addr).toInt
  | .load .uword addr => do return some (← loadUword plat addr).toNat
  | .load .uhalf addr => do return some (← loadUhalf plat addr).toNat
  | .load .ubyte addr => do return some (← loadUbyte plat addr).toNat
  | .store .double addr value => do
      storeDouble plat addr value
      return none
  | .store .word addr value => do
      storeWord plat addr value
      return none
  | .store .half addr value => do
      storeHalf plat addr value
      return none
  | .store .byte addr value => do
      storeByte plat addr value
      return none

def performAll : List DataAccess → IssM isa World (List (Option Int))
  | [] => return []
  | a :: rest => do
      let answer ← perform plat a
      return answer :: (← performAll rest)

/-- Translation is off, or there is none. -/
def Bare (s : Iss isa World) : Prop :=
  isa = .rv32 ∧ plat.hasMmu = false ∨ Satp.mode (s.csrs.reg .satp) = Satp.bare

theorem run_v2p_bare {s : Iss isa World} (bare : Bare plat s) (addr : BitVec 64)
    (type : MemoryAccessType) : (v2p plat addr type).run s = (.ok addr, s) := by
  unfold v2p
  by_cases direct : isa = .rv32 ∧ plat.hasMmu = false
  · rw [if_pos direct]
    rfl
  · rw [if_neg direct]
    unfold translateVirtualToPhysicalAddr
    rw [run_readCsr_bind, Exec.run_read_bind, if_pos (bare.resolve_left direct)]
    rfl

end Iss

namespace Soc

open Iss DataAccess

variable {isa : Isa} {Dev : Type} {soc : Soc Dev} {base : Platform (SocState Dev)}
  {windows : List MemoryDMI} {s : Iss isa (SocState Dev)} {e : MemoryDMI} {addr : BitVec 64} {n : Nat}

section Data

variable (wired : soc.Wired s.world windows) (covers : soc.Covers s.world e) (positive : 0 < n)
  (holds : e.Holds addr n) (bare : Bare base s) (free : OpenTo s.hartId s.world)

include wired covers positive holds bare free

theorem run_loadData : (loadData (soc.platform base windows) addr n).run s =
    (.ok ((soc.bytes s.world).read addr n), s) := by
  have direct : Bare (soc.platform base windows) s := bare
  unfold loadData
  rw [Exec.run_bind_ok (run_v2p_bare _ direct addr .load)]
  unfold rawLoadData
  rw [Exec.run_read_bind, run_onWorld (run_rawLoadData wired covers positive holds free)]
  rfl

theorem run_storeData (value : BitVec (8 * n)) :
    (storeData (soc.platform base windows) addr n value).run s =
      (.ok (), s.withWorld (soc.stored s.hartId e addr n value s.world)) := by
  have direct : Bare (soc.platform base windows) s := bare
  unfold storeData
  rw [Exec.run_bind_ok (run_v2p_bare _ direct addr .store)]
  unfold rawStoreData
  rw [Exec.run_read_bind, run_onWorld (run_rawStoreData wired covers positive holds free value)]

theorem run_loadSigned {width : Nat} (wide : 8 * n ≤ width) : ∃ result,
    (loadSigned (soc.platform base windows) n width addr).run s = (.ok result, s) ∧
      result.toInt = ((soc.bytes s.world).read addr n).toInt := by
  refine ⟨_, ?_, BitVec.toInt_signExtend_of_le wide⟩
  unfold loadSigned
  rw [Exec.run_bind_ok (run_loadData wired covers positive holds bare free)]
  rfl

theorem run_loadUnsigned {width : Nat} (wide : 8 * n ≤ width) : ∃ result,
    (loadUnsigned (soc.platform base windows) n width addr).run s = (.ok result, s) ∧
      result.toNat = ((soc.bytes s.world).read addr n).toNat := by
  refine ⟨_, ?_, BitVec.toNat_setWidth_of_le wide⟩
  unfold loadUnsigned
  rw [Exec.run_bind_ok (run_loadData wired covers positive holds bare free)]
  rfl

end Data

section Returned

variable {width : Nat} {z : Int} {m : Nat}

theorem run_signed {load : IssM isa (SocState Dev) (BitVec width)}
    (loads : ∃ result, load.run s = (.ok result, s) ∧ result.toInt = z) :
    (do return some (← load).toInt : IssM isa (SocState Dev) (Option Int)).run s = (.ok (some z), s) := by
  obtain ⟨result, ran, rfl⟩ := loads
  rw [Exec.run_bind_ok ran]
  rfl

theorem run_unsigned {load : IssM isa (SocState Dev) (BitVec width)}
    (loads : ∃ result, load.run s = (.ok result, s) ∧ result.toNat = m) :
    (do return some (← load).toNat : IssM isa (SocState Dev) (Option Int)).run s = (.ok (some m), s) := by
  obtain ⟨result, ran, rfl⟩ := loads
  rw [Exec.run_bind_ok ran]
  rfl

theorem run_stored {store : IssM isa (SocState Dev) Unit} {t : Iss isa (SocState Dev)}
    (stores : store.run s = (.ok (), t)) :
    (do store; return none : IssM isa (SocState Dev) (Option Int)).run s = (.ok none, t) := by
  rw [Exec.run_bind_ok stores]
  rfl

end Returned

/-- The state behind an access. -/
def after (soc : Soc Dev) (hart : BitVec 64) (e : MemoryDMI) (w : SocState Dev) : DataAccess → SocState Dev
  | .load _ _ => w
  | .store kind addr value => soc.stored hart e addr kind.bytes value w

/-- One access: the answer of the byte memory, with the windows or without. -/
theorem run_perform {a : DataAccess} (wired : soc.Wired s.world windows) (covers : soc.Covers s.world e)
    (holds : e.Holds a.addr a.bytes) (bare : Bare base s) (free : OpenTo s.hartId s.world) :
    (perform (soc.platform base windows) a).run s =
      (.ok (a.answer (soc.bytes s.world)), s.withWorld (soc.after s.hartId e s.world a)) := by
  have word : 32 ≤ isa.xlen := by cases isa <;> decide
  cases a with
  | load kind addr =>
    cases kind with
    | double => exact run_signed (run_loadSigned (n := 8) wired covers (by omega) holds bare free (by omega))
    | word => exact run_signed (run_loadSigned (n := 4) wired covers (by omega) holds bare free (by omega))
    | half => exact run_signed (run_loadSigned (n := 2) wired covers (by omega) holds bare free (by omega))
    | byte => exact run_signed (run_loadSigned (n := 1) wired covers (by omega) holds bare free (by omega))
    | uword => exact run_unsigned (run_loadUnsigned (n := 4) wired covers (by omega) holds bare free (by omega))
    | uhalf => exact run_unsigned (run_loadUnsigned (n := 2) wired covers (by omega) holds bare free (by omega))
    | ubyte => exact run_unsigned (run_loadUnsigned (n := 1) wired covers (by omega) holds bare free (by omega))
  | store kind addr value =>
    cases kind with
    | double => exact run_stored (run_storeData (n := 8) wired covers (by omega) holds bare free value)
    | word => exact run_stored (run_storeData (n := 4) wired covers (by omega) holds bare free value)
    | half => exact run_stored (run_storeData (n := 2) wired covers (by omega) holds bare free value)
    | byte => exact run_stored (run_storeData (n := 1) wired covers (by omega) holds bare free value)

/-! ## Sequences -/

section After

variable {a : DataAccess} {hart : BitVec 64} {w : SocState Dev}

theorem bytes_after (covers : soc.Covers w e) (holds : e.Holds a.addr a.bytes) :
    soc.bytes (soc.after hart e w a) = a.effect (soc.bytes w) := by
  cases a with
  | load => rfl
  | store kind addr value => exact bytes_dmiWrite covers holds value

theorem sameShape_after : SameShape w (soc.after hart e w a) := by
  cases a with
  | load => exact ⟨fun _ => rfl, rfl, rfl⟩
  | store kind addr value => exact soc.sameShape_stored hart e addr value w

theorem openTo_after (free : OpenTo hart w) : OpenTo hart (soc.after hart e w a) := by
  cases a with
  | load => exact free
  | store kind addr value => exact soc.openTo_stored free e addr value

end After

/-- Windows over memories, no translation, and no other hart in the way. -/
structure Ready (soc : Soc Dev) (base : Platform (SocState Dev)) (windows : List MemoryDMI)
    (s : Iss isa (SocState Dev)) : Prop where
  wired : soc.Wired s.world windows
  bare : Bare base s
  free : OpenTo s.hartId s.world

/-- A step of both: the same answer, the same state, and all stays ready for the next one. -/
theorem Ready.step (ready : Ready soc base windows s) {a : DataAccess} (proper : a.Proper isa windows) :
    ∃ t, (perform (soc.platform base windows) a).run s = (.ok (a.answer (soc.bytes s.world)), t) ∧
      (perform (soc.platform base []) a).run s = (.ok (a.answer (soc.bytes s.world)), t) ∧
      soc.bytes t.world = a.effect (soc.bytes s.world) ∧ SameShape s.world t.world ∧
      Ready soc base windows t := by
  obtain ⟨e, known, holds⟩ := proper.held
  have covers := ready.wired.covers e known
  have shape : SameShape s.world (soc.after s.hartId e s.world a) := sameShape_after
  have unwired : soc.Wired s.world [] := ⟨nofun, .nil⟩
  refine ⟨_, run_perform ready.wired covers holds ready.bare ready.free,
    run_perform unwired covers holds ready.bare ready.free, bytes_after covers holds, shape, ?_⟩
  exact
    { wired := ⟨fun f among => shape.covers (ready.wired.covers f among), ready.wired.disjoint⟩
      bare := ready.bare
      free := openTo_after ready.free }

theorem Ready.run (ready : Ready soc base windows s) {accesses : List DataAccess}
    (proper : ∀ a ∈ accesses, a.Proper isa windows) :
    ∃ t, (performAll (soc.platform base windows) accesses).run s =
        (.ok (answers (soc.bytes s.world) accesses), t) ∧
      (performAll (soc.platform base []) accesses).run s =
        (.ok (answers (soc.bytes s.world) accesses), t) ∧
      soc.bytes t.world = recent (soc.bytes s.world) accesses ∧ SameShape s.world t.world := by
  induction accesses generalizing s with
  | nil => exact ⟨s, rfl, rfl, rfl, fun _ => rfl, rfl, rfl⟩
  | cons a rest ih =>
    obtain ⟨u, withWindows, without, bytes, shape, next⟩ := ready.step (proper a List.mem_cons_self)
    obtain ⟨t, ran, ran', bytes', shape'⟩ :=
      ih next fun b among => proper b (List.mem_cons_of_mem a among)
    rw [bytes] at ran ran' bytes'
    refine ⟨t, ?_, ?_, bytes'.trans (recent_cons _ a rest).symm, shape.trans shape'⟩
    · unfold performAll
      rw [Exec.run_bind_ok withWindows, Exec.run_bind_ok ran]
      rfl
    · unfold performAll
      rw [Exec.run_bind_ok without, Exec.run_bind_ok ran']
      rfl

/-- Every load of a sequence returns, extended to the type of its function, the little-endian
value of the bytes most recently stored at its addresses, and the stores change the bytes they
address and no others; the sequence does the same without the windows. -/
theorem data_path (ready : Ready soc base windows s) {accesses : List DataAccess}
    (proper : ∀ a ∈ accesses, a.Proper isa windows) :
    ∃ results t, (performAll (soc.platform base windows) accesses).run s = (.ok results, t) ∧
      (performAll (soc.platform base []) accesses).run s = (.ok results, t) ∧
      (∀ k, results[k]? = accesses[k]?.map (answer (recent (soc.bytes s.world) (accesses.take k)))) ∧
      soc.bytes t.world = recent (soc.bytes s.world) accesses ∧ SameShape s.world t.world := by
  obtain ⟨t, withWindows, without, bytes, shape⟩ := ready.run proper
  exact ⟨_, t, withWindows, without, getElem?_answers (soc.bytes s.world) accesses, bytes, shape⟩

end Soc

/-! ### The memories of `hifive` -/

namespace Hifive

open Iss Soc

/-- The flash at port 0 and the DRAM at port 1. -/
def soc : Soc Unit where
  ports := [⟨0x20000000, 0x3FFFFFFF, by decide⟩, ⟨0x80000000, 0x80003FFF, by decide⟩]
  peripheral _ _ _ _ dev := (none, dev)
  pointer e := if e.start = 0x20000000 then 0 else 1

def flashDmi : MemoryDMI := ⟨0x20000000, 0x40000000⟩

def dramDmi : MemoryDMI := ⟨0x80000000, 0x80004000⟩

def memories : SocState Unit where
  memory
    | 0 => some ⟨fun _ => 0, 0x20000000⟩
    | 1 => some ⟨fun _ => 0, 0x4000⟩
    | _ => none
  dev := ()
  lock := ⟨false, 0⟩
  aborted := false

def devices : Platform (SocState Unit) where
  dmiRanges := []
  hasMmu := false
  instrMem := none
  hasSys := false
  softfloat := default
  lock _ := some
  unlock _ w := w
  isLocked _ _ := false
  waitForAccessRights _ := some
  busRead _ _ w := (none, w)
  busWrite _ _ _ w := (false, w)
  dmiRead _ _ _ w := (0, w)
  dmiWrite _ _ _ _ w := w
  updateAndGetMtime w := (0, w)
  waitForInterrupt w := some w
  executeSyscall _ _ _ _ _ w := ((0, false), w)
  irqEvents w := ([], w)

def core : Iss .rv32 (SocState Unit) := reset 0 false 0x20000000 0x80004000 memories

theorem covers_flash : soc.Covers memories flashDmi where
  ordered := by decide
  memory := ⟨_, rfl, rfl⟩
  port := ⟨_, rfl, rfl⟩
  decodes addr inside := by
    rw [MemoryDMI.contains_iff] at inside
    have own : (⟨0x20000000, 0x3FFFFFFF, by decide⟩ : PortMapping).contains addr = true := by
      simp only [PortMapping.contains, Bool.and_eq_true, decide_eq_true_iff, BitVec.le_def]
      exact ⟨inside.1, Nat.le_of_lt_succ inside.2⟩
    unfold Soc.decode soc
    rw [List.findIdx?_cons, if_pos own]
    rfl

theorem covers_dram : soc.Covers memories dramDmi where
  ordered := by decide
  memory := ⟨_, rfl, rfl⟩
  port := ⟨_, rfl, rfl⟩
  decodes addr inside := by
    rw [MemoryDMI.contains_iff] at inside
    have other : ¬ (⟨0x20000000, 0x3FFFFFFF, by decide⟩ : PortMapping).contains addr = true := by
      simp only [PortMapping.contains, Bool.and_eq_true, decide_eq_true_iff, BitVec.le_def]
      intro here
      have low : 0x80000000 ≤ addr.toNat := inside.1
      have high : addr.toNat ≤ 0x3FFFFFFF := here.2
      omega
    have own : (⟨0x80000000, 0x80003FFF, by decide⟩ : PortMapping).contains addr = true := by
      simp only [PortMapping.contains, Bool.and_eq_true, decide_eq_true_iff, BitVec.le_def]
      exact ⟨inside.1, Nat.le_of_lt_succ inside.2⟩
    unfold Soc.decode soc
    rw [List.findIdx?_cons, if_neg other, List.findIdx?_cons, if_pos own]
    rfl

theorem ready : Ready soc devices [dramDmi, flashDmi] core where
  wired :=
    { covers := by
        intro e among
        rcases List.mem_pair.mp among with rfl | rfl
        · exact covers_dram
        · exact covers_flash
      disjoint := by
        refine List.pairwise_pair.mpr fun addr both => ?_
        have high : 0x80000000 ≤ addr.toNat := (MemoryDMI.contains_iff.mp both.1).1
        have low : addr.toNat < 0x40000000 := (MemoryDMI.contains_iff.mp both.2).2
        omega }
  bare := .inr rfl
  free := nofun

/-- Words, halves and bytes of one another, up to the last byte of each memory. -/
def accesses : List DataAccess :=
  [.store .double 0x80003FF8 0x8877665544332211, .store .byte 0x80003FFD 0xFF,
    .store .half 0x3FFFFFFE 0x8001, .load .word 0x80003FFC, .load .half 0x3FFFFFFE,
    .load .uhalf 0x3FFFFFFE, .load .ubyte 0x80003FFF]

theorem accesses_proper : ∀ a ∈ accesses, a.Proper .rv32 [dramDmi, flashDmi] := by
  have held : ∀ a ∈ accesses, ∃ e ∈ [dramDmi, flashDmi], e.Holds a.addr a.bytes := by
    unfold MemoryDMI.Holds
    decide
  have aligned : ∀ a ∈ accesses, a.addr.toNat % a.bytes = 0 := by decide
  intro a among
  refine ⟨fun _ addr => ?_, aligned a among, held a among⟩
  rintro rfl
  simp [accesses] at among

theorem data_path_hifive : ∃ results t,
    (performAll (soc.platform devices [dramDmi, flashDmi]) accesses).run core = (.ok results, t) ∧
      (performAll (soc.platform devices []) accesses).run core = (.ok results, t) ∧
      results[3]? = some (some (-0x778800AB)) ∧ results[4]? = some (some (-0x7FFF)) ∧
      results[5]? = some (some 0x8001) ∧ results[6]? = some (some 0x88) := by
  obtain ⟨results, t, withWindows, without, answers, -⟩ := data_path ready accesses_proper
  refine ⟨results, t, withWindows, without, (answers 3).trans ?_, (answers 4).trans ?_,
    (answers 5).trans ?_, (answers 6).trans ?_⟩ <;> decide

end Hifive

end RiscvVp
