/-
# RiscvVp.Soc.DebugRoundTrip -- what the debugger writes and reads back

`write_memory` takes its argument apart by two indices, one for digits and one for bytes, and ends
its loop where the one for digits comes to the number of bytes.  So it decodes the first half of the
bytes, and stores zeros for the others: what it writes reads back as it was exactly when those are
zero.
-/
import RiscvVp.Soc.DataPath
import RiscvVp.Soc.DebugMemory

namespace RiscvVp

set_option autoImplicit false

open Lib

/-- The two digits of a byte. -/
def hexPair (byte : BitVec 8) : List (Fin 16) :=
  [⟨byte.toNat / 16, by have small := byte.isLt; omega⟩, ⟨byte.toNat % 16, Nat.mod_lt _ (by decide)⟩]

def hexDigits (bytes : List (BitVec 8)) : List (Fin 16) := bytes.flatMap hexPair

theorem length_hexDigits (bytes : List (BitVec 8)) : (hexDigits bytes).length = 2 * bytes.length := by
  induction bytes with
  | nil => rfl
  | cons byte bytes ih =>
    have step : (hexDigits (byte :: bytes)).length = (hexDigits bytes).length + 2 := rfl
    rw [step, ih, List.length_cons]
    omega

theorem ofNat_pair (byte : BitVec 8) : BitVec.ofNat 8 (16 * (byte.toNat / 16) + byte.toNat % 16) = byte := by
  apply BitVec.eq_of_toNat_eq
  have small := byte.isLt
  rw [BitVec.toNat_ofNat]
  omega

namespace DebugMemoryInterface

/-- A pair of digits that the loop comes to is decoded. -/
theorem decoded_pair {bytes : List (BitVec 8)} {j : Nat} (inside : j < bytes.length) :
    BitVec.ofNat 8 (16 * ((hexDigits bytes).getD (2 * j) 0).val + ((hexDigits bytes).getD (2 * j + 1) 0).val) =
      bytes[j] := by
  induction bytes generalizing j with
  | nil => cases inside
  | cons byte bytes ih =>
    cases j with
    | zero => exact ofNat_pair byte
    | succ j => exact ih (Nat.lt_of_succ_lt_succ inside)

/-- All the bytes that `write_memory` stores. -/
def parsedBytes (nbytes : Nat) (data : List (Fin 16)) : List (BitVec 8) :=
  (List.range nbytes).map (parsedByte nbytes data)

theorem parsedBytes_hexDigits (bytes : List (BitVec 8)) : parsedBytes bytes.length (hexDigits bytes) =
    bytes.take (bytes.length / 2) ++ List.replicate (bytes.length - bytes.length / 2) 0 := by
  have half : min (bytes.length / 2) bytes.length = bytes.length / 2 := by omega
  refine List.ext_getElem ?_ fun j inside _ => ?_
  · simp [parsedBytes, half]
    omega
  · have below : j < bytes.length := by simpa [parsedBytes] using inside
    have here : (parsedBytes bytes.length (hexDigits bytes))[j] =
        parsedByte bytes.length (hexDigits bytes) j := by simp [parsedBytes]
    rw [here, List.getElem_append]
    unfold parsedByte
    by_cases first : 2 * j + 1 < bytes.length
    · have taken : j < (bytes.take (bytes.length / 2)).length := by simp; omega
      rw [if_pos first, decoded_pair below, dif_pos taken, List.getElem_take]
    · have left : ¬ j < (bytes.take (bytes.length / 2)).length := by simp; omega
      rw [if_neg first, dif_neg left, List.getElem_replicate]

theorem parsedBytes_eq_iff (bytes : List (BitVec 8)) : parsedBytes bytes.length (hexDigits bytes) = bytes ↔
    ∀ byte ∈ bytes.drop (bytes.length / 2), byte = 0 := by
  have whole := List.take_append_drop (bytes.length / 2) bytes
  rw [parsedBytes_hexDigits]
  constructor
  · intro same
    have rest := List.append_cancel_left (same.trans whole.symm)
    intro byte among
    rw [← rest] at among
    exact List.eq_of_mem_replicate among
  · intro zero
    have rest : bytes.drop (bytes.length / 2) = List.replicate (bytes.length - bytes.length / 2) 0 :=
      List.eq_replicate_iff.mpr ⟨List.length_drop, zero⟩
    rw [← rest, whole]

end DebugMemoryInterface

/-! ## Bytes in a memory -/

/-- The memory with other bytes from an address on. -/
def SimpleMemory.put (mem : SimpleMemory) (offset : BitVec 32) (bytes : List (BitVec 8)) : SimpleMemory :=
  { mem with data := fun a => bytes.getD (a - offset.setWidth 64).toNat (mem.data a) }

section Put

variable {mem : SimpleMemory} {offset : BitVec 32} {bytes : List (BitVec 8)}

theorem toNat_add_sub (addr : BitVec 64) {k : Nat} (short : k < 2 ^ 64) :
    (addr + BitVec.ofNat 64 k - addr).toNat = k := by
  rw [add_sub_cancel_left, BitVec.toNat_ofNat, Nat.mod_eq_of_lt short]

theorem data_put {k : Nat} (inside : k < bytes.length) (short : bytes.length ≤ 2 ^ 64) :
    (mem.put offset bytes).data (offset.setWidth 64 + BitVec.ofNat 64 k) = bytes[k] := by
  unfold SimpleMemory.put
  dsimp only
  rw [toNat_add_sub _ (by omega)]
  simp [inside]

theorem put_injective {bytes' : List (BitVec 8)} (short : bytes.length ≤ 2 ^ 64)
    (length : bytes'.length = bytes.length) (same : mem.put offset bytes = mem.put offset bytes') :
    bytes = bytes' := by
  refine List.ext_getElem length.symm fun k inside inside' => ?_
  calc bytes[k]
      = (mem.put offset bytes).data (offset.setWidth 64 + BitVec.ofNat 64 k) := (data_put inside short).symm
    _ = (mem.put offset bytes').data (offset.setWidth 64 + BitVec.ofNat 64 k) := by rw [same]
    _ = bytes'[k] := data_put inside' (by omega)

theorem extractLsb'_parsedBuffer {n k : Nat} (data : List (Fin 16)) (inside : k < n) (small : k < 2 ^ 64) :
    (DebugMemoryInterface.parsedBuffer n data).extractLsb' (8 * k) 8 =
      DebugMemoryInterface.parsedByte n data k := by
  have place : ((0 : BitVec 64) + BitVec.ofNat 64 k).toNat = k := by
    rw [zero_add, BitVec.toNat_ofNat, Nat.mod_eq_of_lt small]
  apply BitVec.eq_of_getLsbD_eq
  intro j bit
  unfold DebugMemoryInterface.parsedBuffer
  rw [BitVec.getLsbD_extractLsb', decide_eq_true bit, Bool.true_and, ByteMemory.getLsbD_read _ 0 n k j inside bit,
    place]

/-- What `memcpy` stores of a buffer. -/
theorem write_parsedBuffer (n : Nat) (data : List (Fin 16)) :
    { mem with data := mem.data.write (offset.setWidth 64) n (DebugMemoryInterface.parsedBuffer n data) } =
      mem.put offset (DebugMemoryInterface.parsedBytes n data) := by
  unfold SimpleMemory.put
  congr 1
  funext a
  unfold ByteMemory.write
  have small := (a - offset.setWidth 64).isLt
  generalize (a - offset.setWidth 64).toNat = k at small ⊢
  split
  case isTrue inside =>
    rw [extractLsb'_parsedBuffer data inside small]
    simp [DebugMemoryInterface.parsedBytes, inside]
  case isFalse beyond => simp [DebugMemoryInterface.parsedBytes, Nat.not_lt.mp beyond]

end Put

/-! ## Writing, and reading back -/

namespace DebugMemoryInterface

variable {Dev : Type} {soc : Soc Dev} {w : SocState Dev} {start : BitVec 64} {mem : SimpleMemory}
  {offset : BitVec 32} {bytes : List (BitVec 8)}

variable (soc w start bytes) in
/-- The digits of the bytes are stored as these bytes, in one memory and nowhere else, and read back
as the same text. -/
def RoundTrips : Prop := ∃ id mem offset, soc.decode start = some id ∧
  soc.memoryAt w start = some (mem, offset) ∧
  (writeMemory soc start bytes.length (hexDigits bytes)).run w =
    (.ok (), w.setMemory id (mem.put offset bytes)) ∧
  (readMemory soc start bytes.length).run (w.setMemory id (mem.put offset bytes)) =
    (.ok (hexString bytes), w.setMemory id (mem.put offset bytes))

theorem run_writeMemory_backed (backs : soc.Backs w start bytes.length mem offset) :
    ∃ id, soc.decode start = some id ∧ (writeMemory soc start bytes.length (hexDigits bytes)).run w =
      (.ok (), w.setMemory id (mem.put offset (parsedBytes bytes.length (hexDigits bytes)))) := by
  obtain ⟨id, target, ran⟩ :=
    Soc.run_transaction_write backs (parsedBuffer bytes.length (hexDigits bytes))
  refine ⟨id, target, ?_⟩
  have even : (hexDigits bytes).length % 2 = 0 := by
    rw [length_hexDigits]
    omega
  have half : (hexDigits bytes).length / 2 = bytes.length := by
    rw [length_hexDigits]
    omega
  rw [write_parsedBuffer] at ran
  unfold writeMemory
  rw [Exec.ensure_pos even, Exec.run_pure_bind, Exec.ensure_pos half, Exec.run_pure_bind, Exec.run_bind_ok ran]
  dsimp only
  rw [Exec.ensure_pos rfl]
  rfl

/-- Bytes that were put into a memory read back as they are. -/
theorem run_readMemory_put (backs : soc.Backs w start bytes.length mem offset) {id : Nat}
    (target : soc.decode start = some id) :
    (readMemory soc start bytes.length).run (w.setMemory id (mem.put offset bytes)) =
      (.ok (hexString bytes), w.setMemory id (mem.put offset bytes)) := by
  obtain ⟨id', port, target', own, behind, place⟩ := Soc.memoryAt_eq_some backs.memory
  cases target.symm.trans target'
  have found : soc.memoryAt (w.setMemory id (mem.put offset bytes)) start =
      some (mem.put offset bytes, offset) := by
    unfold Soc.memoryAt
    rw [target]
    dsimp only
    rw [behind]
    simp [SocState.setMemory, place]
  have size := mem.size.isLt
  have last := backs.last
  rw [run_readMemory_backed ⟨found, backs.first, last⟩]
  congr 3
  refine List.ext_getElem (by simp) fun k inside inside' => ?_
  simp only [List.getElem_map, List.getElem_range]
  exact data_put inside' (by omega)

theorem setMemory_injective {id : Nat} {mem' : SimpleMemory} (same : w.setMemory id mem = w.setMemory id mem') :
    mem = mem' := by
  have at_id := congrFun (congrArg SocState.memory same) id
  simpa [SocState.setMemory] using at_id

/-- Bytes come back exactly when the second half of them, rounded up, is zero. -/
theorem roundTrips_iff (backs : soc.Backs w start bytes.length mem offset) :
    RoundTrips soc w start bytes ↔ ∀ byte ∈ bytes.drop (bytes.length / 2), byte = 0 := by
  obtain ⟨id, target, wrote⟩ := run_writeMemory_backed backs
  have size := mem.size.isLt
  have last := backs.last
  rw [← parsedBytes_eq_iff]
  constructor
  · rintro ⟨id', mem', offset', target', found, wrote', -⟩
    cases target.symm.trans target'
    cases backs.memory.symm.trans found
    have stored := setMemory_injective (congrArg Prod.snd (wrote.symm.trans wrote'))
    exact (put_injective (by omega) (by simp [parsedBytes]) stored.symm).symm
  · intro same
    rw [same] at wrote
    exact ⟨id, mem, offset, target, backs.memory, wrote, run_readMemory_put backs target⟩

end DebugMemoryInterface

namespace Hifive

open DebugMemoryInterface

/-- A byte and a zero byte, at the start of the data memory. -/
theorem roundTrips_dram : RoundTrips soc memories 0x80000000 [0x5A, 0] := by
  have backs : soc.Backs memories 0x80000000 2 ⟨fun _ => 0, 0x4000⟩ 0 := ⟨rfl, by decide, by decide⟩
  exact (roundTrips_iff backs).mpr (by decide)

/-- Of two bytes that are not zero the second one is lost. -/
theorem not_roundTrips : ¬ ∀ (w : SocState Unit) (start : BitVec 64) (bytes : List (BitVec 8)) (mem : SimpleMemory)
    (offset : BitVec 32), soc.Backs w start bytes.length mem offset → RoundTrips soc w start bytes := by
  intro all
  obtain ⟨id, mem, offset, target, found, wrote, read⟩ :=
    all memories 0x80000000 [0x5A, 0xA5] ⟨fun _ => 0, 0x4000⟩ 0 ⟨rfl, by decide, by decide⟩
  have told : ((readMemory soc 0x80000000 2).run
      ((writeMemory soc 0x80000000 2 (hexDigits [0x5A, 0xA5])).run memories).2).1 = .ok "5a00" := by decide
  have wrote' : (writeMemory soc 0x80000000 2 (hexDigits [0x5A, 0xA5])).run memories = _ := wrote
  have read' : (readMemory soc 0x80000000 2).run (memories.setMemory id (mem.put offset [0x5A, 0xA5])) = _ := read
  rw [wrote', read'] at told
  have same : hexString [0x5A, 0xA5] = "5a00" := Except.ok.inj told
  exact absurd same (by decide)

end Hifive

end RiscvVp
