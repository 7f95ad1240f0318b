/-
# RiscvVp.Gdb.Checksum -- the checksum of a packet

`calc_csum` adds up plain chars, which are signed, in an `int`, and takes a remainder that has the
sign of the sum; `gdb_is_valid` prints it as an unsigned number.  So a sum below zero gives eight
digits instead of two, unless 256 divides it.
-/
import Mathlib.Data.BitVec
import Mathlib.Algebra.BigOperators.Group.List.Basic
import Mathlib.Data.Int.ModEq

namespace RiscvVp.LibGdb

set_option autoImplicit false

/-- The bytes in front of the NUL. -/
abbrev CString := List (BitVec 8)

/-- How a function ends that does not return: an assertion, `err`, and what the language leaves
undefined. -/
inductive Fault where
  | assertion
  | exit
  | overflow
  | nullPointer
  /-- A write beyond an allocated buffer. -/
  | outside
deriving DecidableEq

/-- Whether a character is in a text is decided by comparing. -/
scoped instance lawfulChars : LawfulBEq (BitVec 8) := inferInstance

/-- A `char` of the text. -/
def ascii (c : Char) : BitVec 8 := BitVec.ofNat 8 c.toNat

/-! ## The code -/

/-- An `int`. -/
def InInt (x : Int) : Prop := -2 ^ 31 ≤ x ∧ x < 2 ^ 31

instance {x : Int} : Decidable (InInt x) := inferInstanceAs (Decidable (_ ∧ _))

def addInt (x y : Int) : Except Fault Int := if InInt (x + y) then .ok (x + y) else .error .overflow

/-- `%` truncates. -/
def calcCsum (data : CString) : Except Fault Int :=
  (data.foldlM (fun csum c => addInt csum c.toInt) 0).map fun csum => csum.tmod 256

/-- `%.2x`: an `unsigned`, at least two digits. -/
def formatCsum (csum : Int) : CString :=
  let digits := (Nat.toDigits 16 (BitVec.ofInt 32 csum).toNat).map ascii
  List.replicate (2 - digits.length) (ascii '0') ++ digits

inductive GdbKind where
  | notify | packet | nack | ack
deriving DecidableEq

/-- `gdb_packet_t`; the data of an acknowledgement is NULL. -/
structure GdbPacket where
  kind : GdbKind
  data : Option CString
  csum : BitVec 8 × BitVec 8
deriving DecidableEq

def gdbIsValid (pkt : GdbPacket) : Except Fault Bool :=
  match pkt.data with
  | none => .ok true
  | some data =>
      match calcCsum data with
      | .error e => .error e
      | .ok expcsum =>
          if (formatCsum expcsum).length = 2 then
            .ok (decide ([pkt.csum.1, pkt.csum.2] = formatCsum expcsum))
          else .error .assertion

/-! ## Sums -/

def signedSum (data : CString) : Int := (data.map BitVec.toInt).sum

def unsignedSum (data : CString) : Nat := (data.map BitVec.toNat).sum

/-- No partial sum leaves `int`. -/
def Bounded (data : CString) : Prop := ∀ part, part <+: data → InInt (signedSum part)

@[simp] theorem signedSum_nil : signedSum [] = 0 := rfl

@[simp] theorem signedSum_cons (c : BitVec 8) (data : CString) :
    signedSum (c :: data) = c.toInt + signedSum data := by
  simp [signedSum]

@[simp] theorem unsignedSum_cons (c : BitVec 8) (data : CString) :
    unsignedSum (c :: data) = c.toNat + unsignedSum data := by
  simp [unsignedSum]

/-- The two sums differ by a multiple of 256. -/
theorem signedSum_emod (data : CString) : signedSum data % 256 = (unsignedSum data % 256 : Nat) := by
  induction data with
  | nil => rfl
  | cons c data ih =>
    have byte : c.toInt = c.toNat ∨ c.toInt = c.toNat - 256 := by
      have small := c.isLt
      rw [BitVec.toInt_eq_toNat_cond]
      split
      · exact .inl rfl
      · exact .inr rfl
    rw [signedSum_cons, unsignedSum_cons]
    omega

theorem foldlM_addInt_ok {data : CString} {csum : Int} (bounded : ∀ part, part <+: data → InInt (csum + signedSum part)) :
    data.foldlM (fun csum c => addInt csum c.toInt) csum = .ok (csum + signedSum data) := by
  induction data generalizing csum with
  | nil => simp [pure, Except.pure]
  | cons c data ih =>
    have first : InInt (csum + c.toInt) := by
      simpa using bounded [c] (by simp)
    have rest : ∀ part, part <+: data → InInt (csum + c.toInt + signedSum part) := by
      intro part front
      have whole := bounded (c :: part) (by simpa using front)
      rwa [signedSum_cons, ← add_assoc] at whole
    have added : addInt csum c.toInt = .ok (csum + c.toInt) := if_pos first
    rw [List.foldlM_cons, added, signedSum_cons, ← add_assoc]
    exact ih rest

theorem foldlM_addInt_error {data part : CString} {csum : Int} (front : part <+: data) (inside : InInt csum)
    (leaves : ¬ InInt (csum + signedSum part)) :
    data.foldlM (fun csum c => addInt csum c.toInt) csum = .error .overflow := by
  induction data generalizing csum part with
  | nil =>
    rw [List.prefix_nil.mp front, signedSum_nil, add_zero] at leaves
    exact absurd inside leaves
  | cons c data ih =>
    rw [List.foldlM_cons]
    by_cases first : InInt (csum + c.toInt)
    · have added : addInt csum c.toInt = .ok (csum + c.toInt) := if_pos first
      rw [added]
      rcases List.prefix_cons_iff.mp front with rfl | ⟨part', rfl, front'⟩
      · rw [signedSum_nil, add_zero] at leaves
        exact absurd inside leaves
      · rw [signedSum_cons, ← add_assoc] at leaves
        exact ih front' first leaves
    · have failed : addInt csum c.toInt = .error .overflow := if_neg first
      rw [failed]
      rfl

theorem calcCsum_of_bounded {data : CString} (bounded : Bounded data) :
    calcCsum data = .ok ((signedSum data).tmod 256) := by
  unfold calcCsum
  rw [foldlM_addInt_ok (by simpa using fun part front => bounded part front), zero_add]
  rfl

theorem calcCsum_of_not_bounded {data : CString} (unbounded : ¬ Bounded data) :
    calcCsum data = .error .overflow := by
  unfold Bounded at unbounded
  push Not at unbounded
  obtain ⟨part, front, leaves⟩ := unbounded
  unfold calcCsum
  rw [foldlM_addInt_error front (by decide) (by simpa using leaves)]
  rfl

/-! ## Digits -/

/-- Two lower-case digits. -/
def twoDigits (n : Nat) : BitVec 8 × BitVec 8 := (ascii (Nat.digitChar (n / 16)), ascii (Nat.digitChar (n % 16)))

theorem formatCsum_of_small {n : Nat} (small : n < 256) :
    formatCsum n = [(twoDigits n).1, (twoDigits n).2] := by
  have value : (BitVec.ofInt 32 n).toNat = n := by
    rw [BitVec.toNat_ofInt]
    omega
  unfold formatCsum twoDigits
  rw [value]
  by_cases one : n < 16
  · have high : n / 16 = 0 := by omega
    have low : n % 16 = n := by omega
    rw [Nat.toDigits_of_lt_base one, high, low]
    rfl
  · rw [Nat.toDigits_of_base_le (by decide) (Nat.not_lt.mp one), Nat.toDigits_of_lt_base (by omega)]
    rfl

/-- A remainder below zero has eight digits. -/
theorem length_formatCsum_of_neg {csum : Int} (below : csum < 0) (small : -256 < csum) :
    (formatCsum csum).length ≠ 2 := by
  have value : 2 ^ 31 ≤ (BitVec.ofInt 32 csum).toNat := by
    rw [BitVec.toNat_ofInt]
    omega
  unfold formatCsum
  have long : ¬ (Nat.toDigits 16 (BitVec.ofInt 32 csum).toNat).length ≤ 2 := by
    rw [Nat.length_toDigits_le_iff (by decide) (by decide)]
    omega
  rw [List.length_append, List.length_replicate, List.length_map]
  omega

/-! ## Validation -/

/-- The checksum is the sum modulo 256, and a packet with the data is accepted with the two digits
of it and with no others. -/
def ChecksumRight (data : CString) : Prop :=
  calcCsum data = .ok (unsignedSum data % 256 : Nat) ∧
    ∀ kind csum, gdbIsValid ⟨kind, some data, csum⟩ = .ok (decide (csum = twoDigits (unsignedSum data % 256)))

/-- The remainder is the sum modulo 256 unless it is below zero. -/
theorem tmod_signedSum (data : CString) : (signedSum data).tmod 256 = (unsignedSum data % 256 : Nat) ↔
    0 ≤ signedSum data ∨ 256 ∣ signedSum data := by
  rw [Int.tmod_eq_emod, signedSum_emod]
  split
  case isTrue fine => simp [fine]
  case isFalse below =>
    refine iff_of_false (fun same => ?_) below
    omega

theorem calcCsum_of_sign {data : CString} (bounded : Bounded data)
    (sign : 0 ≤ signedSum data ∨ 256 ∣ signedSum data) : calcCsum data = .ok (unsignedSum data % 256 : Nat) := by
  rw [calcCsum_of_bounded bounded, (tmod_signedSum data).mpr sign]

theorem gdbIsValid_of_calcCsum {data : CString} {csum : Nat} (small : csum < 256)
    (sum : calcCsum data = .ok csum) (kind : GdbKind) (given : BitVec 8 × BitVec 8) :
    gdbIsValid ⟨kind, some data, given⟩ = .ok (decide (given = twoDigits csum)) := by
  unfold gdbIsValid
  dsimp only
  rw [sum]
  dsimp only
  rw [formatCsum_of_small small]
  simp [Prod.ext_iff]

/-- The checksum is right exactly where the sum of the chars as they are, signed, stays within `int`
on its way and ends at a multiple of 256 or above zero. -/
theorem checksumRight_iff (data : CString) :
    ChecksumRight data ↔ Bounded data ∧ (0 ≤ signedSum data ∨ 256 ∣ signedSum data) := by
  constructor
  · rintro ⟨sum, -⟩
    by_cases bounded : Bounded data
    · rw [calcCsum_of_bounded bounded] at sum
      exact ⟨bounded, (tmod_signedSum data).mp (Except.ok.inj sum)⟩
    · rw [calcCsum_of_not_bounded bounded] at sum
      cases sum
  · rintro ⟨bounded, sign⟩
    have sum := calcCsum_of_sign bounded sign
    exact ⟨sum, gdbIsValid_of_calcCsum (Nat.mod_lt _ (by decide)) sum⟩

/-- One byte above 127, and the assertion fails. -/
theorem not_checksumRight : ¬ ∀ data : CString, 0#8 ∉ data → ChecksumRight data := by
  intro all
  obtain ⟨-, valid⟩ := all [0xFF] (by decide)
  have failed : gdbIsValid ⟨.packet, some [0xFF], twoDigits 0xFF⟩ = .error .assertion := by decide
  rw [valid] at failed
  cases failed

end RiscvVp.LibGdb
