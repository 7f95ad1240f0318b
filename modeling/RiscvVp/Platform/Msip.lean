/-
# RiscvVp.Platform.Msip -- software interrupts

Both interrupt controllers of the cores have a word for every hart that raises its software interrupt.
The callback behind a write looks after the word that the write starts with: the lines follow the words
exactly where every word behind it is written with what it holds already.
-/
import RiscvVp.Lib.Runs
import RiscvVp.Util.MemoryMap

namespace RiscvVp

set_option autoImplicit false

open Lib

/-- The registers, and what the harts were told last. -/
structure SoftwareInterrupts where
  msip : ByteMemory
  line : Nat → Bool

/-- The assertion on the address, and an index that an array view or a vector refuses. -/
inductive ClintFault where
  | address
  | index
deriving DecidableEq

namespace SoftwareInterrupts

/-- `post_write_msip`; the bits of a word but the lowest are tied to zero. -/
def postWriteMsip (harts : Nat) (addr : BitVec 64) (_size : Nat) (s : SoftwareInterrupts) :
    Except ClintFault SoftwareInterrupts :=
  if addr.toNat % 4 = 0 then
    let idx := addr.toNat / 4
    if idx < harts then
      let msip := s.msip.setWord idx (s.msip.word idx &&& 1)
      .ok { msip := msip, line := fun i => if i = idx then msip.word idx != 0 else s.line i }
    else .error .index
  else .error .address

/-- The range of the registers in a device that holds them. -/
def regsMsip {σ : Type} (get : σ → SoftwareInterrupts) (set : SoftwareInterrupts → σ → σ) (harts : Nat) :
    RegisterRange σ ClintFault where
  start := 0x0
  size := 4 * harts
  mem s := (get s).msip
  setMem m s := set { get s with msip := m } s
  alignment := 4
  postWrite addr n s := ((get s).postWriteMsip harts addr n).map fun software => set software s

/-- Every register is 0 or 1, and the line of its hart is the same. -/
def Right (harts : Nat) (s : SoftwareInterrupts) : Prop :=
  ∀ i < harts, (s.msip.word i = 0 ∨ s.msip.word i = 1) ∧ (s.line i = true ↔ s.msip.word i = 1)

/-- The words of a write behind its first one are what the registers hold. -/
def Settled (harts : Nat) {n : Nat} (addr : BitVec 64) (value : BitVec (8 * n)) (s : SoftwareInterrupts) : Prop :=
  ∀ i < harts, addr.toNat < 4 * i → 4 * i < addr.toNat + n →
    value.extractLsb' (8 * (4 * i - addr.toNat)) 32 = s.msip.word i

instance {harts n : Nat} {addr : BitVec 64} {value : BitVec (8 * n)} {s : SoftwareInterrupts} :
    Decidable (Settled harts addr value s) := inferInstanceAs (Decidable (∀ i < harts, _))

def init : SoftwareInterrupts where
  msip _ := 0
  line _ := false

theorem right_init (harts : Nat) : Right harts init := by
  intro i _
  have zero : init.msip.word i = 0#32 := ByteMemory.word_zero i
  rw [zero]
  exact ⟨.inl rfl, iff_of_false Bool.false_ne_true (by decide)⟩

theorem and_one (word : BitVec 32) : word &&& 1 = 0 ∨ word &&& 1 = 1 := by
  rw [show (1 : BitVec 32) = 1#32 from rfl, BitVec.and_one_eq_setWidth_ofBool_getLsbD]
  cases word.getLsbD 0
  · exact .inl rfl
  · exact .inr rfl

section Write

variable {harts n : Nat} {addr : BitVec 64} {value : BitVec (8 * n)} {s t : SoftwareInterrupts}

/-- The callback looks after one word and its line. -/
theorem postWriteMsip_ok (ran : s.postWriteMsip harts addr n = .ok t) {i : Nat} (small : i < 2 ^ 61)
    (fits : 4 * harts ≤ 2 ^ 63) :
    (t.msip.word i = if 4 * i = addr.toNat then s.msip.word i &&& 1 else s.msip.word i) ∧
      t.line i = if 4 * i = addr.toNat then s.msip.word i &&& 1 != 0 else s.line i := by
  unfold postWriteMsip at ran
  obtain ⟨aligned, ran⟩ := ok_of_guard ran
  obtain ⟨inside, ran⟩ := ok_of_guard ran
  cases ran
  have index : addr.toNat / 4 < 2 ^ 61 := by omega
  have word (j : Nat) (small : j < 2 ^ 61) := ByteMemory.word_setWord s.msip small index
    (s.msip.word (addr.toNat / 4) &&& 1)
  by_cases here : 4 * i = addr.toNat
  · have place : i = addr.toNat / 4 := by omega
    subst place
    rw [if_pos here, if_pos here]
    refine ⟨(word _ index).trans (if_pos rfl), (if_pos rfl).trans ?_⟩
    rw [word _ index, if_pos rfl]
  · have place : i ≠ addr.toNat / 4 := by omega
    rw [if_neg here, if_neg here]
    exact ⟨(word i small).trans (if_neg place), if_neg place⟩

/-- A write to the registers keeps words and lines right exactly where the words behind its first one
bring nothing new. -/
theorem right_write_iff (fits : 4 * harts ≤ 2 ^ 63) (aligned : addr.toNat % 4 = 0 ∧ n % 4 = 0)
    (inside : addr.toNat + n ≤ 4 * harts) (right : Right harts s)
    (ran : { s with msip := s.msip.write addr n value }.postWriteMsip harts addr n = .ok t) :
    Right harts t ↔ Settled harts addr value s := by
  have raw {i : Nat} (below : i < harts) := ByteMemory.word_write s.msip (i := i) value aligned (by omega) (by omega)
  have after {i : Nat} (below : i < harts) :
      (t.msip.word i = if 4 * i = addr.toNat then (s.msip.write addr n value).word i &&& 1
        else (s.msip.write addr n value).word i) ∧
      t.line i = if 4 * i = addr.toNat then (s.msip.write addr n value).word i &&& 1 != 0 else s.line i :=
    postWriteMsip_ok ran (by omega) fits
  constructor
  · intro right' i below past covered
    obtain ⟨word, line⟩ := after below
    rw [if_neg (by omega)] at word line
    rw [raw below, if_pos ⟨by omega, covered⟩] at word
    obtain ⟨old, before⟩ := right i below
    obtain ⟨new, behind⟩ := right' i below
    rw [word] at new behind
    rw [line, before] at behind
    rcases old with old | old <;> rcases new with new | new <;> simp_all
  · intro settled i below
    obtain ⟨word, line⟩ := after below
    by_cases first : 4 * i = addr.toNat
    · rw [if_pos first] at word line
      rw [word, line]
      rcases and_one ((s.msip.write addr n value).word i) with zero | one
      · rw [zero]
        exact ⟨.inl rfl, by decide⟩
      · rw [one]
        exact ⟨.inr rfl, by decide⟩
    · rw [if_neg first] at word line
      have same : t.msip.word i = s.msip.word i := by
        rw [word, raw below]
        split
        case isTrue covered => exact settled i below (by omega) covered.2
        case isFalse => rfl
      rw [same, line]
      exact right i below

/-- The same of a write that may go to other registers. -/
theorem right_iff_of_write {reached : Prop} [Decidable reached] (fits : 4 * harts ≤ 2 ^ 63) (right : Right harts s)
    (did : if reached then (addr.toNat % 4 = 0 ∧ n % 4 = 0) ∧ addr.toNat + n ≤ 4 * harts ∧
        { s with msip := s.msip.write addr n value }.postWriteMsip harts addr n = .ok t else t = s) :
    Right harts t ↔ (reached → Settled harts addr value s) := by
  split at did
  case isTrue here =>
    obtain ⟨aligned, inside, ran⟩ := did
    rw [right_write_iff fits aligned inside right ran]
    exact ⟨fun settled _ => settled, fun settled => settled here⟩
  case isFalse elsewhere =>
    rw [did]
    exact iff_of_true right fun here => absurd here elsewhere

end Write

end SoftwareInterrupts

end RiscvVp
