/-
# RiscvVp.Gdb.Replies -- replies that can be sent

`gdb_serialize` adds up the characters of a reply in an `int`.  All that the stub replies are plain
characters, and then a reply goes out exactly if the sum of its characters is an `int`.
-/
import RiscvVp.Gdb.Server

namespace RiscvVp

set_option autoImplicit false

open Lib

/-! ## Plain characters -/

namespace LibGdb

/-- ASCII without the control characters. -/
def Printable (data : CString) : Prop := ∀ c ∈ data, 32 ≤ c.toNat ∧ c.toNat < 128

instance (data : CString) : Decidable (Printable data) := inferInstanceAs (Decidable (∀ c ∈ data, _))

variable {data part : CString}

theorem Printable.append (first : Printable part) (second : Printable data) : Printable (part ++ data) := by
  intro c among
  rcases List.mem_append.mp among with here | there
  · exact first c here
  · exact second c there

theorem unsignedSum_append (part data : CString) : unsignedSum (part ++ data) = unsignedSum part + unsignedSum data := by
  unfold unsignedSum
  rw [List.map_append, List.sum_append]

theorem signedSum_of_printable (printable : Printable data) : signedSum data = unsignedSum data := by
  induction data with
  | nil => rfl
  | cons c data ih =>
    obtain ⟨first, rest⟩ := List.forall_mem_cons.mp printable
    rw [signedSum_cons, unsignedSum_cons, ih rest, BitVec.toInt_eq_toNat_of_lt (by omega), Nat.cast_add]

/-- The sum says how long the text can be, and the length how large the sum. -/
theorem unsignedSum_bounds (printable : Printable data) :
    32 * data.length ≤ unsignedSum data ∧ unsignedSum data ≤ 127 * data.length := by
  induction data with
  | nil => exact ⟨Nat.le_refl 0, Nat.le_refl 0⟩
  | cons c data ih =>
    obtain ⟨first, rest⟩ := List.forall_mem_cons.mp printable
    obtain ⟨low, high⟩ := ih rest
    rw [unsignedSum_cons, List.length_cons]
    constructor <;> omega

theorem bounded_of_printable (printable : Printable data) : Bounded data ↔ unsignedSum data < 2 ^ 31 := by
  have sum {part : CString} (front : part <+: data) : signedSum part = unsignedSum part :=
    signedSum_of_printable fun c among => printable c (front.subset among)
  constructor
  · intro bounded
    have whole := (bounded data (List.prefix_refl data)).2
    rw [sum (List.prefix_refl data)] at whole
    omega
  · intro light part front
    obtain ⟨rest, rfl⟩ := front
    rw [unsignedSum_append] at light
    rw [sum (List.prefix_append part rest)]
    exact ⟨by omega, by omega⟩

theorem gdbSerialize_light (printable : Printable data) (light : unsignedSum data < 2 ^ 31) :
    ∃ serialized, gdbSerialize .packet (some data) = .ok serialized := by
  have sign : 0 ≤ signedSum data := by
    rw [signedSum_of_printable printable]
    exact Int.natCast_nonneg _
  have csum := calcCsum_of_sign ((bounded_of_printable printable).mpr light) (.inl sign)
  have short : data.length + 4 ≤ intMax := by
    have long := (unsignedSum_bounds printable).1
    unfold intMax
    omega
  have two : (formatCsum (unsignedSum data % 256 : Nat)).length = 2 := by
    rw [formatCsum_of_small (Nat.mod_lt _ (by decide))]
    rfl
  exact ⟨_, (gdbSerialize_data (by decide)).mpr ⟨_, csum, short, two, rfl⟩⟩

theorem gdbSerialize_heavy (printable : Printable data) (heavy : ¬ unsignedSum data < 2 ^ 31) :
    gdbSerialize .packet (some data) = .error .overflow := by
  unfold gdbSerialize
  rw [if_neg (by decide)]
  dsimp only
  rw [calcCsum_of_not_bounded (mt (bounded_of_printable printable).mp heavy)]

theorem bytes_toString (number : Nat) : bytes (toString number) = (Nat.toDigits 10 number).map ascii := by
  unfold bytes
  rw [Nat.toString_eq_ofList_toDigits, String.toList_ofList]

end LibGdb

/-! ## What texts weigh -/

namespace GdbServer

open LibGdb (Printable unsignedSum bytes)

/-- The characters of a text, added up. -/
def weight (text : String) : Nat := unsignedSum (bytes text)

/-- A reply that goes out. -/
structure Sendable (text : String) : Prop where
  printable : Printable (bytes text)
  light : weight text < 2 ^ 31

instance (text : String) : Decidable (Sendable text) :=
  decidable_of_iff (Printable (bytes text) ∧ weight text < 2 ^ 31)
    ⟨fun both => ⟨both.1, both.2⟩, fun sendable => ⟨sendable.printable, sendable.light⟩⟩

theorem bytes_append (s t : String) : bytes (s ++ t) = bytes s ++ bytes t := by
  unfold LibGdb.bytes
  rw [String.toList_append, List.map_append]

@[simp] theorem weight_append (s t : String) : weight (s ++ t) = weight s + weight t := by
  unfold weight
  rw [bytes_append, LibGdb.unsignedSum_append]

theorem printable_append {s t : String} (first : Printable (bytes s)) (second : Printable (bytes t)) :
    Printable (bytes (s ++ t)) := by
  rw [bytes_append]
  exact first.append second

theorem bytes_join (texts : List String) : bytes (String.join texts) = texts.flatMap bytes := by
  unfold LibGdb.bytes
  rw [String.toList_join, List.map_flatMap]

theorem weight_join (texts : List String) : weight (String.join texts) = (texts.map weight).sum := by
  unfold weight
  rw [bytes_join]
  induction texts with
  | nil => rfl
  | cons text texts ih => rw [List.flatMap_cons, LibGdb.unsignedSum_append, ih, List.map_cons, List.sum_cons]

theorem printable_join {texts : List String} (each : ∀ text ∈ texts, Printable (bytes text)) :
    Printable (bytes (String.join texts)) := by
  rw [bytes_join]
  intro c among
  obtain ⟨text, member, here⟩ := List.mem_flatMap.mp among
  exact each text member c here

/-- The two digits of a byte, added up. -/
def byteWeight (byte : BitVec 8) : Nat := unsignedSum ((hexByte byte).map LibGdb.ascii)

theorem bytes_hexString (buffer : List (BitVec 8)) :
    bytes (hexString buffer) = buffer.flatMap fun byte => (hexByte byte).map LibGdb.ascii := by
  unfold LibGdb.bytes hexString
  rw [String.toList_ofList, List.map_flatMap]

theorem weight_hexString (buffer : List (BitVec 8)) : weight (hexString buffer) = (buffer.map byteWeight).sum := by
  unfold weight
  rw [bytes_hexString]
  induction buffer with
  | nil => rfl
  | cons byte buffer ih =>
    rw [List.flatMap_cons, LibGdb.unsignedSum_append, ih, List.map_cons, List.sum_cons]
    rfl

theorem printable_hexString (buffer : List (BitVec 8)) : Printable (bytes (hexString buffer)) := by
  have digits : ∀ d : Fin 16, 32 ≤ (LibGdb.ascii (Nat.digitChar d)).toNat ∧
      (LibGdb.ascii (Nat.digitChar d)).toNat < 128 := by decide
  rw [bytes_hexString]
  intro c among
  obtain ⟨byte, -, here⟩ := List.mem_flatMap.mp among
  have small := byte.isLt
  unfold hexByte at here
  rcases List.mem_cons.mp here with rfl | here
  · exact digits ⟨byte.toNat / 16, by omega⟩
  · cases List.mem_singleton.mp here
    exact digits ⟨byte.toNat % 16, by omega⟩

theorem printable_toString (number : Nat) : Printable (bytes (toString number)) := by
  rw [LibGdb.bytes_toString]
  intro c among
  obtain ⟨digit, member, rfl⟩ := List.mem_map.mp among
  have decimal := Nat.isDigit_of_mem_toDigits (by decide) (by decide) member
  unfold Char.isDigit at decimal
  rw [Bool.and_eq_true, decide_eq_true_iff, decide_eq_true_iff, ge_iff_le, UInt32.le_iff_toNat_le,
    UInt32.le_iff_toNat_le] at decimal
  have low : 48 ≤ digit.toNat := decimal.1
  have high : digit.toNat ≤ 57 := decimal.2
  unfold LibGdb.ascii
  rw [BitVec.toNat_ofNat]
  omega

/-- Ten digits weigh little. -/
theorem weight_toString_le {number : Nat} (small : number < 10 ^ 10) : weight (toString number) ≤ 1270 := by
  have few : (Nat.toDigits 10 number).length ≤ 10 := (Nat.length_toDigits_le_iff (by decide) (by decide)).mpr small
  have bound := (LibGdb.unsignedSum_bounds (printable_toString number)).2
  rw [LibGdb.bytes_toString, List.length_map, ← LibGdb.bytes_toString] at bound
  unfold weight
  omega

/-! ## Sending -/

variable {isa : Isa} {Dev : Type} {n : Nat} {text : String}

theorem run_sendPacket (sendable : Sendable text) (g : GdbServer isa Dev n) : (sendPacket text).run g =
    (.ok (), { g with sent := g.sent ++ [.packet text], prevpkt := some text }) := by
  obtain ⟨serialized, printed⟩ := LibGdb.gdbSerialize_light sendable.printable sendable.light
  unfold sendPacket
  rw [printed]
  rfl

theorem run_sendPacket_heavy (printable : Printable (bytes text)) (heavy : ¬ weight text < 2 ^ 31)
    (g : GdbServer isa Dev n) : (sendPacket text).run g = (.error .undefined, g) := by
  unfold sendPacket
  rw [LibGdb.gdbSerialize_heavy printable heavy]
  rfl

/-- What was sent, where something was. -/
theorem eq_of_sendPacket {g t : GdbServer isa Dev n} (ran : (sendPacket text).run g = (.ok (), t)) :
    t = { g with sent := g.sent ++ [.packet text], prevpkt := some text } := by
  unfold sendPacket at ran
  split at ran
  · exact (Prod.mk.inj ran).2.symm
  · cases ran
  · cases ran

end GdbServer

end RiscvVp
