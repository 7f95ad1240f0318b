/-
# RiscvVp.Iss.SvFlags -- translation does not look at `A` and `D`

Two memories have the same tables when the entries that any search looks at are the
same up to their flags.  Then every translation has the same answer in both
(`translate_of_sameTables`), and a memory has the same tables after a translation has
set the flags of its leaf (`sameTables_mark`).
-/
import RiscvVp.Iss.Sv

namespace RiscvVp.Sv

set_option autoImplicit false

open Lib

/-- The same entry, up to `A` and `D`. -/
def SameEntry (a b : Entry) : Prop := a ||| 0xC0 = b ||| 0xC0

namespace SameEntry

variable {a b c : Entry}

theorem refl (a : Entry) : SameEntry a a := rfl

theorem symm (same : SameEntry a b) : SameEntry b a := Eq.symm same

theorem trans (first : SameEntry a b) (second : SameEntry b c) : SameEntry a c :=
  Eq.trans first second

theorem testBit_eq (same : SameEntry a b) {i : Nat} (other : (0xC0).testBit i = false) :
    a.testBit i = b.testBit i := by
  have bit := congrArg (·.testBit i) same
  simp only [Nat.testBit_or, other, Bool.or_false] at bit
  exact bit

theorem div_eq (same : SameEntry a b) : a / 2 ^ 10 = b / 2 ^ 10 := by
  have drop : ∀ x : Nat, (x ||| 0xC0) / 2 ^ 10 = x / 2 ^ 10 := by
    intro x
    rw [← Nat.shiftRight_eq_div_pow, ← Nat.shiftRight_eq_div_pow, Nat.shiftRight_or_distrib]
    exact Nat.or_zero _
  rw [← drop a, ← drop b]
  exact congrArg (· / 2 ^ 10) same

theorem ppn_eq (same : SameEntry a b) (scheme : Scheme) : a.ppn scheme = b.ppn scheme := by
  unfold Entry.ppn
  rw [same.div_eq]

theorem lt {a b : Nat} (same : SameEntry a b) (reserved : a < 2 ^ 54) : b < 2 ^ 54 := by
  have high : a / 2 ^ 10 = b / 2 ^ 10 := same.div_eq
  omega

theorem flags_eq (same : SameEntry a b) : a.valid = b.valid ∧ a.readable = b.readable ∧
    a.writable = b.writable ∧ a.executable = b.executable ∧ a.user = b.user :=
  ⟨same.testBit_eq (by decide), same.testBit_eq (by decide), same.testBit_eq (by decide),
    same.testBit_eq (by decide), same.testBit_eq (by decide)⟩

end SameEntry

/-- The same leaf, up to the flags of its entry. -/
def SameLeaf : Option Leaf → Option Leaf → Prop
  | none, none => True
  | some a, some b => a.level = b.level ∧ a.addr = b.addr ∧ SameEntry a.pte b.pte
  | _, _ => False

theorem usable_of_sameEntry {scheme : Scheme} {access : Access} {i addr : Nat} {a b : Entry}
    (same : SameEntry a b) :
    usable scheme access ⟨i, addr, a⟩ = usable scheme access ⟨i, addr, b⟩ := by
  obtain ⟨-, r, w, x, u⟩ := same.flags_eq
  unfold usable Access.permitted
  simp only [same.ppn_eq scheme, r, w, x, u]

theorem resolve_of_sameLeaf {scheme : Scheme} {va : Nat} {access : Access} {a b : Option Leaf}
    (same : SameLeaf a b) :
    (resolve scheme va access a).map Prod.fst = (resolve scheme va access b).map Prod.fst := by
  rcases a with _ | ⟨i, addr, a⟩ <;> rcases b with _ | ⟨j, addr', b⟩
  · rfl
  · exact same.elim
  · exact same.elim
  · obtain ⟨level, place, entry⟩ := same
    simp only at level place entry
    subst level place
    have physical_eq : physical scheme va ⟨i, addr, a⟩ = physical scheme va ⟨i, addr, b⟩ := by
      unfold physical
      simp only [entry.ppn_eq scheme]
    unfold resolve
    simp only [usable_of_sameEntry entry, physical_eq]
    split <;> rfl

/-! ## Searches -/

section Search

variable {scheme : Scheme} {m m' : ByteMemory}

theorem find_of_same {va i base : Nat}
    (same : ∀ addr ∈ (find scheme m va i base).1,
      SameEntry (entryAt scheme m addr) (entryAt scheme m' addr)) :
    (find scheme m' va i base).1 = (find scheme m va i base).1 ∧
      SameLeaf (find scheme m va i base).2 (find scheme m' va i base).2 := by
  induction i generalizing base with
  | zero => exact ⟨rfl, trivial⟩
  | succ i ih =>
    obtain ⟨addr, location⟩ : ∃ addr, base + vpn scheme va i * scheme.pteSize = addr := ⟨_, rfl⟩
    obtain ⟨pte, entry⟩ : ∃ pte, entryAt scheme m addr = pte := ⟨_, rfl⟩
    obtain ⟨pte', entry'⟩ : ∃ pte', entryAt scheme m' addr = pte' := ⟨_, rfl⟩
    have here : SameEntry pte pte' := by
      rw [← entry, ← entry']
      exact same addr (addr_mem_find location entry)
    obtain ⟨v, r, w, x, -⟩ := here.flags_eq
    by_cases bad : (!pte.valid || (!pte.readable && pte.writable)) = true
    · rw [find_of_invalid location entry bad,
        find_of_invalid location entry' (by rwa [← v, ← r, ← w])]
      exact ⟨rfl, trivial⟩
    have good' : ¬ (!pte'.valid || (!pte'.readable && pte'.writable)) = true := by
      rwa [← v, ← r, ← w]
    by_cases leaf : (pte.readable || pte.executable) = true
    · rw [find_of_leaf location entry bad leaf,
        find_of_leaf location entry' good' (by rwa [← r, ← x])]
      exact ⟨rfl, rfl, rfl, here⟩
    · rw [find_of_pointer location entry bad leaf] at same ⊢
      rw [find_of_pointer location entry' good' (by rwa [← r, ← x]), ← here.ppn_eq scheme]
      have rest := ih fun a among => same a (List.mem_cons_of_mem _ among)
      exact ⟨congrArg (addr :: ·) rest.1, rest.2⟩

/-- A search looks at its entries only. -/
theorem find_congr {va i base : Nat}
    (same : ∀ addr ∈ (find scheme m va i base).1, entryAt scheme m' addr = entryAt scheme m addr) :
    find scheme m' va i base = find scheme m va i base := by
  induction i generalizing base with
  | zero => rfl
  | succ i ih =>
    obtain ⟨addr, location⟩ : ∃ addr, base + vpn scheme va i * scheme.pteSize = addr := ⟨_, rfl⟩
    obtain ⟨pte, entry⟩ : ∃ pte, entryAt scheme m addr = pte := ⟨_, rfl⟩
    have entry' : entryAt scheme m' addr = pte := (same addr (addr_mem_find location entry)).trans entry
    by_cases bad : (!pte.valid || (!pte.readable && pte.writable)) = true
    · rw [find_of_invalid location entry bad, find_of_invalid location entry' bad]
    by_cases leaf : (pte.readable || pte.executable) = true
    · rw [find_of_leaf location entry bad leaf, find_of_leaf location entry' bad leaf]
    · rw [find_of_pointer location entry bad leaf] at same ⊢
      rw [find_of_pointer location entry' bad leaf,
        ih fun a among => same a (List.mem_cons_of_mem _ among)]

theorem search_congr {root va : Nat}
    (same : ∀ addr ∈ (search scheme m root va).1, entryAt scheme m' addr = entryAt scheme m addr) :
    search scheme m' root va = search scheme m root va := by
  unfold search at same ⊢
  by_cases inRange : canonical scheme va = true
  · rw [if_pos inRange] at same
    rw [if_pos inRange, if_pos inRange]
    exact find_congr same
  · rw [if_neg inRange, if_neg inRange]

/-- The addresses of entries are multiples of their size. -/
theorem find_aligned {va i base : Nat} (page : base % 2 ^ 12 = 0) :
    ∀ addr ∈ (find scheme m va i base).1, addr % scheme.pteSize = 0 := by
  induction i generalizing base with
  | zero =>
    intro addr among
    cases among
  | succ i ih =>
    obtain ⟨first, location⟩ : ∃ a, base + vpn scheme va i * scheme.pteSize = a := ⟨_, rfl⟩
    obtain ⟨pte, entry⟩ : ∃ pte, entryAt scheme m first = pte := ⟨_, rfl⟩
    have aligned : first % scheme.pteSize = 0 := by
      rw [← location]
      cases scheme <;> simp only [Scheme.pteSize] <;> omega
    by_cases bad : (!pte.valid || (!pte.readable && pte.writable)) = true
    · rw [find_of_invalid location entry bad]
      intro addr among
      rwa [List.mem_singleton.mp among]
    by_cases leaf : (pte.readable || pte.executable) = true
    · rw [find_of_leaf location entry bad leaf]
      intro addr among
      rwa [List.mem_singleton.mp among]
    · rw [find_of_pointer location entry bad leaf]
      intro addr among
      obtain rfl | later := List.mem_cons.mp among
      · exact aligned
      · exact ih (Nat.mul_mod_left _ _) addr later

/-- A leaf is one of the entries looked at. -/
theorem leaf_mem_find {va i base : Nat} {leaf : Leaf}
    (found : (find scheme m va i base).2 = some leaf) : leaf.addr ∈ (find scheme m va i base).1 := by
  induction i generalizing base with
  | zero => cases found
  | succ i ih =>
    obtain ⟨first, location⟩ : ∃ a, base + vpn scheme va i * scheme.pteSize = a := ⟨_, rfl⟩
    obtain ⟨pte, entry⟩ : ∃ pte, entryAt scheme m first = pte := ⟨_, rfl⟩
    by_cases bad : (!pte.valid || (!pte.readable && pte.writable)) = true
    · rw [find_of_invalid location entry bad] at found
      cases found
    by_cases last : (pte.readable || pte.executable) = true
    · rw [find_of_leaf location entry bad last] at found ⊢
      cases found
      exact List.mem_singleton_self first
    · rw [find_of_pointer location entry bad last] at found ⊢
      exact List.mem_cons_of_mem _ (ih found)

theorem search_of_same {root va : Nat}
    (same : ∀ addr ∈ (search scheme m root va).1,
      SameEntry (entryAt scheme m addr) (entryAt scheme m' addr)) :
    (search scheme m' root va).1 = (search scheme m root va).1 ∧
      SameLeaf (search scheme m root va).2 (search scheme m' root va).2 := by
  unfold search at same ⊢
  by_cases inRange : canonical scheme va = true
  · rw [if_pos inRange] at same ⊢
    rw [if_pos inRange]
    exact find_of_same same
  · rw [if_neg inRange, if_neg inRange]
    exact ⟨rfl, trivial⟩

theorem search_aligned {root va : Nat} :
    ∀ addr ∈ (search scheme m root va).1, addr % scheme.pteSize = 0 := by
  unfold search
  split
  · exact find_aligned (Nat.mul_mod_left _ _)
  · intro addr among
    cases among

theorem leaf_mem_search {root va : Nat} {leaf : Leaf}
    (found : (search scheme m root va).2 = some leaf) :
    leaf.addr ∈ (search scheme m root va).1 := by
  unfold search at found ⊢
  by_cases inRange : canonical scheme va = true
  · rw [if_pos inRange] at found ⊢
    exact leaf_mem_find found
  · rw [if_neg inRange] at found
    cases found

end Search

/-- The flags of the access are set already: there is nothing to write. -/
def Flagged (type : MemoryAccessType) (leaf : Leaf) : Prop :=
  leaf.pte &&& (flags type).toNat = (flags type).toNat

/-! ## Tables -/

/-- The entries that translations under `root` look at are the same, up to their flags. -/
def SameTables (scheme : Scheme) (root : Nat) (m m' : ByteMemory) : Prop :=
  ∀ va, ∀ addr ∈ (search scheme m root va).1,
    SameEntry (entryAt scheme m addr) (entryAt scheme m' addr)

section Tables

variable {scheme : Scheme} {root : Nat} {m m' : ByteMemory}

theorem SameTables.refl (m : ByteMemory) : SameTables scheme root m m := fun _ _ _ => .refl _

theorem translate_of_sameTables (same : SameTables scheme root m m') (va : Nat) (access : Access) :
    (translate scheme m' root va access).map Prod.fst =
      (translate scheme m root va access).map Prod.fst :=
  (resolve_of_sameLeaf (search_of_same (same va)).2).symm

theorem translate_eq_some {va physicalAddr : Nat} {access : Access} {leaf : Leaf}
    (found : translate scheme m root va access = some (physicalAddr, leaf)) :
    (search scheme m root va).2 = some leaf ∧ usable scheme access leaf = true ∧
      physicalAddr = physical scheme va leaf := by
  unfold translate at found
  cases ended : (search scheme m root va).2 with
  | none =>
    rw [ended] at found
    cases found
  | some other =>
    rw [ended] at found
    by_cases fits : usable scheme access other = true
    · rw [resolve_usable fits] at found
      cases found
      exact ⟨rfl, fits, rfl⟩
    · rw [resolve_unusable fits] at found
      cases found

theorem flags_toNat_or (type : MemoryAccessType) :
    ((flags type).setWidth (8 * scheme.pteSize)).toNat ||| 0xC0 = 0xC0 := by
  cases scheme <;> cases type <;> rfl

/-- Two multiples of the entry size are equal or as far apart as that. -/
theorem pteSize_le_sub {a b : BitVec 64} (apart : a ≠ b) (first : a.toNat % scheme.pteSize = 0)
    (second : b.toNat % scheme.pteSize = 0) : scheme.pteSize ≤ (b - a).toNat := by
  have different : a.toNat ≠ b.toNat := fun same => apart (BitVec.eq_of_toNat_eq same)
  have boundA := a.isLt
  have boundB := b.isLt
  rw [BitVec.toNat_sub]
  cases scheme <;> simp only [Scheme.pteSize] at first second ⊢ <;> omega

theorem ofNat_aligned {addr : Nat} (aligned : addr % scheme.pteSize = 0) :
    (BitVec.ofNat 64 addr).toNat % scheme.pteSize = 0 := by
  rw [BitVec.toNat_ofNat]
  cases scheme <;> simp only [Scheme.pteSize] at aligned ⊢ <;> omega

/-- Flags set in one entry are no more than flags of it, in any other entry nothing. -/
theorem sameEntry_mark (type : MemoryAccessType) (leaf : Leaf) {addr : Nat}
    (here : addr % scheme.pteSize = 0) (there : leaf.addr % scheme.pteSize = 0) :
    SameEntry (entryAt scheme m addr) (entryAt scheme (mark type leaf m) addr) := by
  unfold entryAt mark
  by_cases same : BitVec.ofNat 64 addr = BitVec.ofNat 64 leaf.addr
  · have some : 0 < scheme.pteSize := by cases scheme <;> decide
    have short : scheme.pteSize < 2 ^ 64 := by cases scheme <;> decide
    rw [← same, ByteMemory.read_orByte_self _ _ some _ short, BitVec.toNat_or]
    unfold SameEntry
    rw [Nat.or_assoc, flags_toNat_or]
  · have far := pteSize_le_sub same (ofNat_aligned here) (ofNat_aligned there)
    rw [ByteMemory.read_orByte_of_far _ _ far]
    exact .refl _

theorem sameTables_mark {va : Nat} {leaf : Leaf} (type : MemoryAccessType)
    (found : (search scheme m root va).2 = some leaf) :
    SameTables scheme root m (mark type leaf m) := by
  intro va' addr among
  exact sameEntry_mark type leaf (search_aligned addr among)
    (search_aligned leaf.addr (leaf_mem_search found))

end Tables

end RiscvVp.Sv
