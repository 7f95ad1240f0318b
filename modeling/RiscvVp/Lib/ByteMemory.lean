/-
# RiscvVp.Lib.ByteMemory -- little-endian words in a byte-addressed memory

Reading and writing `n` bytes at an address, described bit by bit (`getLsbD_read`), and
setting bits of one byte (`orByte`), which is what storing back a word with flags added
amounts to (`write_read_or`).
-/
import Mathlib.Data.BitVec

namespace RiscvVp.Lib

set_option autoImplicit false

abbrev ByteMemory := BitVec 64 → BitVec 8

namespace ByteMemory

variable (m : ByteMemory) (addr : BitVec 64)

/-- The `n` bytes from `addr` on, the first one least significant. -/
def read : BitVec 64 → (n : Nat) → BitVec (8 * n)
  | _, 0 => 0#0
  | addr, n + 1 => read (addr + 1) n ++ m addr

def write (n : Nat) (value : BitVec (8 * n)) : ByteMemory := fun a =>
  if (a - addr).toNat < n then value.extractLsb' (8 * (a - addr).toNat) 8 else m a

def orByte (flags : BitVec 8) : ByteMemory := fun a =>
  if a = addr then m a ||| flags else m a

theorem getLsbD_read (n k j : Nat) (inside : k < n) (bit : j < 8) :
    (m.read addr n).getLsbD (8 * k + j) = (m (addr + BitVec.ofNat 64 k)).getLsbD j := by
  induction n generalizing addr k with
  | zero => omega
  | succ n ih =>
    unfold read
    cases k with
    | zero => simp [BitVec.getLsbD_append, bit]
    | succ k =>
      have later : ¬ 8 * (k + 1) + j < 8 := by omega
      have index : 8 * (k + 1) + j - 8 = 8 * k + j := by omega
      have next : addr + 1 + BitVec.ofNat 64 k = addr + BitVec.ofNat 64 (k + 1) := by
        rw [Nat.add_comm k 1, BitVec.ofNat_add, BitVec.add_assoc]
        rfl
      rw [BitVec.getLsbD_append, if_neg later, index, ih (addr + 1) k (by omega), next]

/-- Two memories that hold the same bytes, from different addresses on. -/
theorem read_congr {m m' : ByteMemory} {addr addr' : BitVec 64} {n : Nat}
    (same : ∀ k < n, m (addr + BitVec.ofNat 64 k) = m' (addr' + BitVec.ofNat 64 k)) :
    m.read addr n = m'.read addr' n := by
  apply BitVec.eq_of_getLsbD_eq
  intro j bound
  have byte : j = 8 * (j / 8) + j % 8 := by omega
  have inside : j / 8 < n := by omega
  have bit : j % 8 < 8 := Nat.mod_lt _ (by decide)
  rw [byte, getLsbD_read m addr n _ _ inside bit, getLsbD_read m' addr' n _ _ inside bit, same _ inside]

theorem add_offset (addr a : BitVec 64) : addr + BitVec.ofNat 64 (a - addr).toNat = a := by
  rw [BitVec.ofNat_toNat, BitVec.setWidth_eq, BitVec.add_comm, BitVec.sub_add_cancel]

/-- A byte of the word at `addr`, found from its own address. -/
theorem getLsbD_read_of_near {n j : Nat} {a : BitVec 64} (near : (a - addr).toNat < n)
    (bit : j < 8) : (m.read addr n).getLsbD (8 * (a - addr).toNat + j) = (m a).getLsbD j := by
  rw [getLsbD_read m addr n _ _ near bit, add_offset]

/-- The `n` bytes of a word from the `k`-th on. -/
theorem extractLsb'_read {k n l : Nat} (inside : k + n ≤ l) :
    (m.read addr l).extractLsb' (8 * k) (8 * n) = m.read (addr + BitVec.ofNat 64 k) n := by
  apply BitVec.eq_of_getLsbD_eq
  intro j bound
  have byte : j = 8 * (j / 8) + j % 8 := by omega
  have later : 8 * k + j = 8 * (k + j / 8) + j % 8 := by omega
  have address : addr + BitVec.ofNat 64 (k + j / 8) =
      addr + BitVec.ofNat 64 k + BitVec.ofNat 64 (j / 8) := by
    rw [BitVec.ofNat_add, BitVec.add_assoc]
  have here := m.getLsbD_read addr l (k + j / 8) (j % 8) (by omega) (by omega)
  have there := m.getLsbD_read (addr + BitVec.ofNat 64 k) n (j / 8) (j % 8) (by omega) (by omega)
  rw [← later, address] at here
  rw [← byte] at there
  rw [BitVec.getLsbD_extractLsb', decide_eq_true bound, Bool.true_and, here, there]

/-- Storing the word at `addr` back with flags added to its first byte, in whole or in
part, sets the flags and nothing else. -/
theorem write_read_or {n k : Nat} (some : 0 < n) (part : n ≤ k) (flags : BitVec 8) :
    m.write addr n ((m.read addr k ||| flags.setWidth (8 * k)).setWidth (8 * n)) =
      m.orByte addr flags := by
  funext a
  unfold write orByte
  split
  case isTrue near =>
    have low : (a - addr).toNat < k := by omega
    ext j bit
    have inWord : 8 * (a - addr).toNat + j < 8 * n := by omega
    have flag : (flags.setWidth (8 * k)).getLsbD (8 * (a - addr).toNat + j) =
        (decide (a = addr) && flags.getLsbD j) := by
      rw [BitVec.getLsbD_setWidth]
      by_cases same : a = addr
      · simp [same]
        omega
      · have apart : (a - addr).toNat ≠ 0 := by
          intro zero
          exact same (sub_eq_zero.mp (BitVec.eq_of_toNat_eq zero))
        rw [BitVec.getLsbD_of_ge flags _ (by omega)]
        simp [same]
    rw [BitVec.getElem_extractLsb', BitVec.getLsbD_setWidth, BitVec.getLsbD_or,
      getLsbD_read_of_near m addr low bit, flag, decide_eq_true inWord, Bool.true_and]
    by_cases same : a = addr
    · simp [same, ← BitVec.getLsbD_eq_getElem]
    · simp [same, ← BitVec.getLsbD_eq_getElem]
  case isFalse far =>
    have other : a ≠ addr := by
      rintro rfl
      exact far (by simpa using some)
    rw [if_neg other]

/-- Reading the word whose first byte got flags. -/
theorem read_orByte_self {n : Nat} (some : 0 < n) (flags : BitVec 8) (short : n < 2 ^ 64) :
    (m.orByte addr flags).read addr n = m.read addr n ||| flags.setWidth (8 * n) := by
  apply BitVec.eq_of_getLsbD_eq
  intro j bound
  have byte : j = 8 * (j / 8) + j % 8 := by omega
  have here := (m.orByte addr flags).getLsbD_read addr n (j / 8) (j % 8) (by omega) (by omega)
  have there := m.getLsbD_read addr n (j / 8) (j % 8) (by omega) (by omega)
  rw [← byte] at here there
  rw [here, BitVec.getLsbD_or, there, BitVec.getLsbD_setWidth, decide_eq_true bound, Bool.true_and]
  unfold orByte
  by_cases first : j / 8 = 0
  · have small : j % 8 = j := by omega
    rw [first, small, BitVec.add_zero, if_pos rfl, BitVec.getLsbD_or]
  · have other : addr + BitVec.ofNat 64 (j / 8) ≠ addr := by
      intro same
      have zero := congrArg BitVec.toNat (add_eq_left.mp same)
      rw [BitVec.toNat_ofNat, Nat.mod_eq_of_lt (by omega)] at zero
      exact first zero
    rw [if_neg other, BitVec.getLsbD_of_ge flags j (by omega), Bool.or_false]

/-- Reading a word that the byte is not part of. -/
theorem read_orByte_of_far {n : Nat} {a : BitVec 64} (far : n ≤ (a - addr).toNat)
    (flags : BitVec 8) : (m.orByte a flags).read addr n = m.read addr n := by
  apply BitVec.eq_of_getLsbD_eq
  intro j bound
  have byte : j = 8 * (j / 8) + j % 8 := by omega
  have here := (m.orByte a flags).getLsbD_read addr n (j / 8) (j % 8) (by omega) (by omega)
  have there := m.getLsbD_read addr n (j / 8) (j % 8) (by omega) (by omega)
  rw [← byte] at here there
  have other : addr + BitVec.ofNat 64 (j / 8) ≠ a := by
    rintro rfl
    rw [add_sub_cancel_left, BitVec.toNat_ofNat] at far
    have le := Nat.mod_le (j / 8) (2 ^ 64)
    omega
  rw [here, there]
  unfold orByte
  rw [if_neg other]

/-- Flags that are set already. -/
theorem orByte_of_set {flags : BitVec 8} (already : m addr ||| flags = m addr) :
    m.orByte addr flags = m := by
  funext a
  unfold orByte
  split
  case isTrue same => rw [same, already]
  case isFalse => rfl

/-! ## Copies -/

/-- The `n` bytes of `source` from `src` on, at `dst`. -/
def copy (dst : BitVec 64) (source : ByteMemory) (src : BitVec 64) (n : Nat) : ByteMemory :=
  m.write dst n (source.read src n)

variable {source : ByteMemory} {src dst : BitVec 64}

theorem copy_apply (n : Nat) (a : BitVec 64) : m.copy dst source src n a =
    if (a - dst).toNat < n then source (src + (a - dst)) else m a := by
  unfold copy write
  split
  case isFalse => rfl
  case isTrue inside =>
    apply BitVec.eq_of_getLsbD_eq
    intro j bit
    rw [BitVec.getLsbD_extractLsb', decide_eq_true bit, Bool.true_and, getLsbD_read _ _ _ _ _ inside bit,
      BitVec.ofNat_toNat, BitVec.setWidth_eq]

theorem copy_zero : m.copy dst source src 0 = m := by
  funext a
  rw [copy_apply, if_neg (Nat.not_lt_zero _)]

/-- A copy in two parts. -/
theorem copy_copy {k n : Nat} (short : k + n ≤ 2 ^ 64) :
    (m.copy dst source src k).copy (dst + BitVec.ofNat 64 k) source (src + BitVec.ofNat 64 k) n =
      m.copy dst source src (k + n) := by
  funext a
  have rest : a - (dst + BitVec.ofNat 64 k) = a - dst - BitVec.ofNat 64 k := by
    rw [sub_add_eq_sub_sub]
  have place : src + BitVec.ofNat 64 k + (a - dst - BitVec.ofNat 64 k) = src + (a - dst) := by
    rw [add_assoc, add_sub_cancel]
  rw [copy_apply, copy_apply, copy_apply, rest, place]
  generalize a - dst = i
  have small := i.isLt
  by_cases empty : n = 0
  · subst empty
    rw [if_neg (Nat.not_lt_zero _), Nat.add_zero]
  have part : (BitVec.ofNat 64 k).toNat = k := by
    rw [BitVec.toNat_ofNat, Nat.mod_eq_of_lt (by omega)]
  by_cases first : i.toNat < k
  · have before : ¬ (i - BitVec.ofNat 64 k).toNat < n := by
      rw [BitVec.toNat_sub, part]
      omega
    rw [if_neg before, if_pos first, if_pos (by omega)]
  · have offset : (i - BitVec.ofNat 64 k).toNat = i.toNat - k := by
      rw [BitVec.toNat_sub, part]
      omega
    rw [offset, if_neg first]
    exact if_congr (by omega) rfl rfl

/-! ## Arrays of 32-bit words -/

theorem read_write_self {n : Nat} (short : n < 2 ^ 64) (value : BitVec (8 * n)) :
    (m.write addr n value).read addr n = value := by
  apply BitVec.eq_of_getLsbD_eq
  intro j bound
  have byte : j = 8 * (j / 8) + j % 8 := by omega
  have inside : j / 8 < n := by omega
  have bit : j % 8 < 8 := Nat.mod_lt _ (by decide)
  have offset : (addr + BitVec.ofNat 64 (j / 8) - addr).toNat = j / 8 := by
    rw [add_sub_cancel_left, BitVec.toNat_ofNat, Nat.mod_eq_of_lt (by omega)]
  rw [byte, getLsbD_read _ addr n _ _ inside bit]
  unfold write
  rw [offset, if_pos inside, BitVec.getLsbD_extractLsb', decide_eq_true bit, Bool.true_and]

theorem read_write_of_apart {n l : Nat} {a : BitVec 64} (value : BitVec (8 * n))
    (apart : ∀ k < l, n ≤ (a + BitVec.ofNat 64 k - addr).toNat) :
    (m.write addr n value).read a l = m.read a l := by
  refine read_congr fun k inside => ?_
  unfold write
  rw [if_neg (Nat.not_lt.mpr (apart k inside))]

/-- The `i`-th word from address 0 on. -/
def word (i : Nat) : BitVec 32 := m.read (BitVec.ofNat 64 (4 * i)) 4

def setWord (i : Nat) (value : BitVec 32) : ByteMemory := m.write (BitVec.ofNat 64 (4 * i)) 4 value

theorem word_zero (i : Nat) : word (fun _ => 0) i = 0#32 := by
  unfold word
  simp [read]

theorem word_setWord {i j : Nat} (first : i < 2 ^ 61) (second : j < 2 ^ 61) (value : BitVec 32) :
    (m.setWord j value).word i = if i = j then value else m.word i := by
  unfold word setWord
  split
  case isTrue same =>
    subst same
    exact read_write_self m _ (n := 4) (by decide) value
  case isFalse other =>
    refine read_write_of_apart m _ (n := 4) value fun k inside => ?_
    rw [BitVec.toNat_sub, BitVec.toNat_add, BitVec.toNat_ofNat, BitVec.toNat_ofNat, BitVec.toNat_ofNat]
    omega

/-- A word behind a write of whole words. -/
theorem word_write {n i : Nat} {addr : BitVec 64} (value : BitVec (8 * n))
    (aligned : addr.toNat % 4 = 0 ∧ n % 4 = 0) (first : i < 2 ^ 61) (second : addr.toNat + n ≤ 2 ^ 63) :
    (m.write addr n value).word i =
      if addr.toNat ≤ 4 * i ∧ 4 * i < addr.toNat + n then value.extractLsb' (8 * (4 * i - addr.toNat)) 32
      else m.word i := by
  unfold word
  split
  case isTrue covered =>
    have place : BitVec.ofNat 64 (4 * i) = addr + BitVec.ofNat 64 (4 * i - addr.toNat) := by
      apply BitVec.eq_of_toNat_eq
      rw [BitVec.toNat_add, BitVec.toNat_ofNat, BitVec.toNat_ofNat]
      omega
    have part := extractLsb'_read (m.write addr n value) addr (k := 4 * i - addr.toNat) (n := 4) (l := n) (by omega)
    rw [read_write_self m addr (by omega)] at part
    rw [place, ← part]
  case isFalse other =>
    refine read_write_of_apart m addr (l := 4) value fun k inside => ?_
    have small := addr.isLt
    rw [BitVec.toNat_sub, BitVec.toNat_add, BitVec.toNat_ofNat, BitVec.toNat_ofNat]
    omega

/-! ## Arrays of bits -/

/-- The `i`-th bit of an array of words. -/
def bit (i : Nat) : Bool := (m.word (i / 32)).getLsbD (i % 32)

def setBit (i : Nat) (status : Bool) : ByteMemory :=
  let word := m.word (i / 32)
  m.setWord (i / 32) (if status then word ||| 1#32 <<< (i % 32) else word &&& ~~~(1#32 <<< (i % 32)))

theorem bit_setBit {i j : Nat} {status : Bool} (first : i < 2 ^ 61) (second : j < 2 ^ 61) :
    (m.setBit i status).bit j = if j = i then status else m.bit j := by
  unfold bit setBit
  simp only
  rw [word_setWord _ (by omega) (by omega)]
  by_cases word : j / 32 = i / 32
  case neg =>
    have other : j ≠ i := by
      rintro rfl
      exact word rfl
    rw [if_neg word, if_neg other]
  case pos =>
    rw [if_pos word, ← word]
    have inside : j % 32 < 32 := Nat.mod_lt _ (by decide)
    have same : (1#32 <<< (i % 32)).getLsbD (j % 32) = decide (j = i) := by
      rw [← BitVec.twoPow_eq, BitVec.getLsbD_twoPow, decide_eq_true (Nat.mod_lt i (by decide)),
        Bool.true_and]
      exact decide_eq_decide.mpr (by omega)
    cases status with
    | true =>
      rw [if_pos rfl, BitVec.getLsbD_or, same]
      by_cases here : j = i
      · simp [here]
      · simp [here]
    | false =>
      rw [if_neg Bool.false_ne_true, BitVec.getLsbD_and, BitVec.getLsbD_not, same, decide_eq_true inside]
      by_cases here : j = i
      · simp [here]
      · simp [here]

end ByteMemory

end RiscvVp.Lib
