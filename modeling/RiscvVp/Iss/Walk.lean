/-
# RiscvVp.Iss.Walk -- the page-table walk is the specification's

`GenericMMU::walk` over a memory that answers computes `Sv.translate`: the same
physical address or the page fault of the access, with the flags of the leaf set and
no other bit of memory changed, after at most one read for each level.
-/
import RiscvVp.Iss.Backing
import RiscvVp.Iss.Sv
import RiscvVp.Iss.Translate

namespace RiscvVp.Iss

set_option autoImplicit false

open Lib Sv

variable {isa : Isa} {World : Type}

/-- `vm_info` of a scheme. -/
def vmInfo (scheme : Scheme) (ptbase : BitVec 64) : VmInfo :=
  ⟨scheme.levels, scheme.vpnBits, scheme.pteSize, ptbase⟩

theorem run_decodeVmInfo {scheme : Scheme} {s : Iss isa World}
    (on : Scheme.active isa (Satp.mode (s.csrs.reg .satp)) = some scheme) {mode : PrivilegeLevel}
    (low : mode = userMode ∨ mode = supervisorMode) :
    (decodeVmInfo mode).run s =
      (.ok (vmInfo scheme (Satp.ppn (s.csrs.reg .satp) <<< 12)), s) := by
  have allowed : mode ≤ supervisorMode := by obtain rfl | rfl := low <;> decide
  unfold decodeVmInfo
  rw [run_assert_bind s allowed, run_readCsr_bind]
  unfold Scheme.active at on
  split at on
  case h_4 => cases on
  all_goals
    rename_i selected
    cases on
    simp only [selected, Satp.sv32, Satp.sv39, Satp.sv48, Nat.reduceEqDiff, if_true, if_false]
    rfl

/-! ## Addresses -/

theorem vpnBits_lt (scheme : Scheme) : scheme.vpnBits < 64 := by cases scheme <;> decide

theorem pteSize_toNat (scheme : Scheme) :
    (BitVec.ofNat 64 scheme.pteSize).toNat = scheme.pteSize := by cases scheme <;> rfl

/-- A table is one page. -/
theorem vpn_lt (scheme : Scheme) (va i : Nat) : vpn scheme va i * scheme.pteSize < 2 ^ 12 := by
  have index : vpn scheme va i < 2 ^ scheme.vpnBits := Nat.mod_lt _ (Nat.two_pow_pos _)
  cases scheme <;> simp only [Scheme.vpnBits, Scheme.pteSize] at index ⊢ <;> omega

theorem ptePaddr_toNat (scheme : Scheme) (root vaddr base : BitVec 64) (i : Nat)
    (inside : base.toNat < 2 ^ 56) :
    (ptePaddr (vmInfo scheme root) vaddr base i).toNat =
      base.toNat + vpn scheme vaddr.toNat i * scheme.pteSize := by
  have field : ((vaddr >>> (12 + i * scheme.vpnBits)) &&&
      ((1#64 <<< scheme.vpnBits) - 1#64)).toNat = vpn scheme vaddr.toNat i := by
    rw [and_mask_toNat _ (vpnBits_lt scheme), BitVec.toNat_ushiftRight, Nat.shiftRight_eq_div_pow]
    rfl
  have page := vpn_lt scheme vaddr.toNat i
  unfold ptePaddr
  simp only [vmInfo]
  rw [BitVec.toNat_add, BitVec.toNat_mul]
  have literal : ∀ x : BitVec 64, x &&& ((1#64 <<< scheme.vpnBits) - 1) =
      x &&& ((1#64 <<< scheme.vpnBits) - 1#64) := fun _ => rfl
  rw [literal, field, pteSize_toNat, Nat.mod_eq_of_lt (by omega), Nat.mod_eq_of_lt (by omega)]

/-! ## Entries -/

theorem ppn_toNat {scheme : Scheme} {pte : Pte} (width : pte.toNat < 2 ^ (8 * scheme.pteSize))
    (reserved : pte.toNat < 2 ^ 54) : pte.ppn.toNat = Entry.ppn scheme pte.toNat := by
  unfold Pte.ppn Entry.ppn
  rw [BitVec.toNat_ushiftRight, Nat.shiftRight_eq_div_pow]
  cases scheme <;> simp only [Scheme.pteSize, Scheme.ppnBits] at width ⊢ <;> omega

theorem ppn_lt (scheme : Scheme) (pte : Entry) : Entry.ppn scheme pte < 2 ^ 44 := by
  have bound : Entry.ppn scheme pte < 2 ^ scheme.ppnBits := Nat.mod_lt _ (Nat.two_pow_pos _)
  cases scheme <;> simp only [Scheme.ppnBits] at bound <;> omega

theorem table_toNat {scheme : Scheme} {pte : Pte} (width : pte.toNat < 2 ^ (8 * scheme.pteSize))
    (reserved : pte.toNat < 2 ^ 54) :
    (pte.ppn <<< 12).toNat = Entry.ppn scheme pte.toNat * 2 ^ 12 := by
  have bound := ppn_lt scheme pte.toNat
  rw [BitVec.toNat_shiftLeft, Nat.shiftLeft_eq, ppn_toNat width reserved,
    Nat.mod_eq_of_lt (by omega)]

/-- An access, in the specification's words. -/
def accessOf (type : MemoryAccessType) (sMode sum mxr : Bool) : Access := ⟨type, sMode, sum, mxr⟩

theorem superpage_lt {scheme : Scheme} {i : Nat} (level : i < scheme.levels) :
    i * scheme.vpnBits < 52 := by
  cases scheme <;> simp only [Scheme.levels, Scheme.vpnBits] at level ⊢ <;> omega

/-- The tests of `walk` on a leaf are the two of the specification. -/
theorem leafAllowed_eq_usable {scheme : Scheme} {pte : Pte} {i : Nat} (level : i < scheme.levels)
    (width : pte.toNat < 2 ^ (8 * scheme.pteSize)) (reserved : pte.toNat < 2 ^ 54)
    (sound : ¬ (!pte.R && pte.W) = true) (type : MemoryAccessType) (sMode sum mxr : Bool)
    (addr : Nat) :
    leafAllowed pte type sMode sum mxr (i * scheme.vpnBits) =
      usable scheme (accessOf type sMode sum mxr) ⟨i, addr, pte.toNat⟩ := by
  have small : i * scheme.vpnBits < 64 := Nat.lt_trans (superpage_lt level) (by decide)
  have aligned : (pte.ppn &&& ((1#64 <<< (i * scheme.vpnBits)) - 1) == 0) =
      (Entry.ppn scheme pte.toNat % 2 ^ (i * scheme.vpnBits) == 0) := by
    rw [← ppn_toNat width reserved, ← and_mask_toNat _ small, Bool.eq_iff_iff, beq_iff_eq,
      beq_iff_eq, BitVec.toNat_eq]
    rfl
  unfold leafAllowed usable
  rw [aligned]
  simp only [Access.permitted, accessOf]
  have r : Entry.readable pte.toNat = pte.R := rfl
  have w : Entry.writable pte.toNat = pte.W := rfl
  have x : Entry.executable pte.toNat = pte.X := rfl
  have u : Entry.user pte.toNat = pte.U := rfl
  rw [r, w, x, u]
  revert sound
  generalize (Entry.ppn scheme pte.toNat % 2 ^ (i * scheme.vpnBits) == 0) = whole
  cases type <;> cases pte.R <;> cases pte.W <;> cases pte.X <;> cases pte.U <;> cases sMode <;>
    cases sum <;> cases mxr <;> cases whole <;> decide

theorem superpage_pow_le {scheme : Scheme} {i : Nat} (level : i < scheme.levels) :
    2 ^ (i * scheme.vpnBits) ≤ 2 ^ 27 := by
  apply Nat.pow_le_pow_right (by decide)
  cases scheme <;> simp only [Scheme.levels, Scheme.vpnBits] at level ⊢ <;> omega

theorem leafAddress_toNat {scheme : Scheme} {pte : Pte} {i : Nat} (level : i < scheme.levels)
    (width : pte.toNat < 2 ^ (8 * scheme.pteSize)) (reserved : pte.toNat < 2 ^ 54)
    (vaddr : BitVec 64) (addr : Nat)
    (aligned : Entry.ppn scheme pte.toNat % 2 ^ (i * scheme.vpnBits) = 0) :
    (leafAddress pte vaddr (i * scheme.vpnBits)).toNat =
      physical scheme vaddr.toNat ⟨i, addr, pte.toNat⟩ := by
  have level' := superpage_pow_le level
  have small : i * scheme.vpnBits < 64 := Nat.lt_trans (superpage_lt level) (by decide)
  have bound := ppn_lt scheme pte.toNat
  have number := ppn_toNat width reserved
  unfold physical Scheme.pageBits
  simp only
  generalize i * scheme.vpnBits = k at level' small aligned ⊢
  have upper : (pte.ppn &&& ~~~((1#64 <<< k) - 1#64)).toNat = Entry.ppn scheme pte.toNat := by
    rw [and_not_mask_toNat _ small, number, Nat.div_mul_cancel (Nat.dvd_of_mod_eq_zero aligned)]
  have lower : ((vaddr >>> 12) &&& ((1#64 <<< k) - 1#64)).toNat = vaddr.toNat / 2 ^ 12 % 2 ^ k := by
    rw [and_mask_toNat _ small, BitVec.toNat_ushiftRight, Nat.shiftRight_eq_div_pow]
  have lowerBound : vaddr.toNat / 2 ^ 12 % 2 ^ k < 2 ^ k := Nat.mod_lt _ (Nat.two_pow_pos k)
  have page : ((pte.ppn &&& ~~~((1#64 <<< k) - 1#64)) |||
      ((vaddr >>> 12) &&& ((1#64 <<< k) - 1#64))).toNat =
      Entry.ppn scheme pte.toNat + vaddr.toNat / 2 ^ 12 % 2 ^ k := by
    have multiple : (pte.ppn &&& ~~~((1#64 <<< k) - 1#64)).toNat =
        2 ^ k * (Entry.ppn scheme pte.toNat / 2 ^ k) := by
      rw [upper, Nat.mul_div_cancel' (Nat.dvd_of_mod_eq_zero aligned)]
    rw [or_toNat multiple (lower ▸ lowerBound), upper, lower]
  have offset : (vaddr &&& 0xFFF).toNat = vaddr.toNat % 2 ^ 12 := and_mask_toNat vaddr (k := 12) (by decide)
  have shifted : (((pte.ppn &&& ~~~((1#64 <<< k) - 1#64)) |||
      ((vaddr >>> 12) &&& ((1#64 <<< k) - 1#64))) <<< 12).toNat =
      2 ^ 12 * (Entry.ppn scheme pte.toNat + vaddr.toNat / 2 ^ 12 % 2 ^ k) := by
    rw [BitVec.toNat_shiftLeft, Nat.shiftLeft_eq, page, Nat.mod_eq_of_lt (by omega), Nat.mul_comm]
  have split : vaddr.toNat % 2 ^ (12 + k) =
      vaddr.toNat % 2 ^ 12 + 2 ^ 12 * (vaddr.toNat / 2 ^ 12 % 2 ^ k) := by
    rw [Nat.pow_add, Nat.mod_mul]
  have whole : Entry.ppn scheme pte.toNat / 2 ^ k * 2 ^ (12 + k) =
      2 ^ 12 * Entry.ppn scheme pte.toNat := by
    rw [Nat.pow_add, Nat.mul_comm (2 ^ 12), ← Nat.mul_assoc,
      Nat.div_mul_cancel (Nat.dvd_of_mod_eq_zero aligned), Nat.mul_comm]
  unfold leafAddress
  refine (or_toNat shifted ?_).trans ?_
  · rw [offset]
    exact Nat.mod_lt _ (by decide)
  · rw [shifted, offset, whole, split]
    omega

/-! ## Accesses to the tables -/

section Memory

variable {plat : Platform World} {mem : World → ByteMemory} {reads : World → Nat} {scheme : Scheme}
  {mapped : BitVec 64 → Prop}

/-- The entry at an address, as `walk` holds it. -/
def pteOf (scheme : Scheme) (m : ByteMemory) (addr : BitVec 64) : Pte :=
  (m.read addr scheme.pteSize).setWidth 64

theorem pteOf_toNat (scheme : Scheme) (m : ByteMemory) (addr : BitVec 64) :
    (pteOf scheme m addr).toNat = entryAt scheme m addr.toNat := by
  have bound : (m.read addr scheme.pteSize).toNat < 2 ^ 64 :=
    Nat.lt_of_lt_of_le (BitVec.isLt _)
      (Nat.pow_le_pow_right (by decide) (by cases scheme <;> decide))
  unfold pteOf entryAt
  rw [BitVec.toNat_setWidth, Nat.mod_eq_of_lt bound, BitVec.ofNat_toNat, BitVec.setWidth_eq]

theorem entryAt_lt (scheme : Scheme) (m : ByteMemory) (addr : Nat) :
    entryAt scheme m addr < 2 ^ (8 * scheme.pteSize) := BitVec.isLt _

theorem run_loadPte (serves : plat.Serves mem reads scheme.pteSize mapped) {addr : BitVec 64}
    (at_ : mapped addr) (root : BitVec 64) (s : Iss isa World) : ∃ w,
    (loadPte plat (vmInfo scheme root) addr).run s =
      (.ok (pteOf scheme (mem s.world) addr), s.withWorld w) ∧
      mem w = mem s.world ∧ reads w = reads s.world + 1 := by
  obtain ⟨w, ran, kept⟩ := run_rawLoadData serves at_ (Nat.le_refl _) s
  refine ⟨w, ?_, kept⟩
  unfold loadPte
  cases scheme with
  | sv32 => exact Exec.run_bind_ok ran
  | sv39 =>
    rw [show pteOf .sv39 (mem s.world) addr = (mem s.world).read addr 8 from BitVec.setWidth_eq _]
    exact ran
  | sv48 =>
    rw [show pteOf .sv48 (mem s.world) addr = (mem s.world).read addr 8 from BitVec.setWidth_eq _]
    exact ran

theorem adBits_eq_flags (type : MemoryAccessType) : adBits type = (flags type).setWidth 64 := by
  cases type <;> rfl

/-- Storing the entry back with its flags set. -/
theorem write_pteOf (scheme : Scheme) (m : ByteMemory) (addr : BitVec 64)
    (type : MemoryAccessType) :
    m.write addr 4 ((pteOf scheme m addr ||| adBits type).setWidth 32) =
      m.orByte addr (flags type) := by
  have size : 4 ≤ scheme.pteSize := by cases scheme <;> decide
  rw [← m.write_read_or addr (by decide) size, adBits_eq_flags]
  congr 1
  unfold pteOf
  ext j bound
  have narrow : j < 32 := bound
  have inWord : j < 8 * scheme.pteSize := by omega
  have inPte : j < 64 := by omega
  simp only [← BitVec.getLsbD_eq_getElem, BitVec.getLsbD_setWidth, BitVec.getLsbD_or]
  simp [inWord, inPte, narrow]

/-- Flags that the entry has already. -/
theorem orByte_pteOf {scheme : Scheme} {m : ByteMemory} {addr : BitVec 64}
    {type : MemoryAccessType} (set : pteOf scheme m addr &&& adBits type = adBits type) :
    m.orByte addr (flags type) = m := by
  have bytes : 0 < scheme.pteSize := by cases scheme <;> decide
  apply m.orByte_of_set
  apply BitVec.eq_of_getLsbD_eq
  intro j bit
  have inWord : j < 8 * scheme.pteSize := by omega
  have flag := congrArg (·.getLsbD j) set
  have byte := m.getLsbD_read addr scheme.pteSize 0 j bytes bit
  simp only [adBits_eq_flags, pteOf, BitVec.getLsbD_and, BitVec.getLsbD_setWidth] at flag
  simp only [Nat.mul_zero, Nat.zero_add, BitVec.add_zero] at byte
  rw [byte] at flag
  have wide : j < 64 := by omega
  simp only [wide, decide_true, Bool.true_and] at flag
  rw [BitVec.getLsbD_or]
  revert flag
  cases (m addr).getLsbD j <;> cases (flags type).getLsbD j <;> decide

theorem run_mmuStorePte32 (serves : plat.Serves mem reads scheme.pteSize mapped)
    {addr : BitVec 64} (at_ : mapped addr) (type : MemoryAccessType) (s : Iss isa World) : ∃ w,
    (mmuStorePte32 plat addr
        ((pteOf scheme (mem s.world) addr ||| adBits type).setWidth 32)).run s =
      (.ok (), s.withWorld w) ∧
      mem w = (mem s.world).orByte addr (flags type) ∧ reads w = reads s.world := by
  have size : 4 ≤ scheme.pteSize := by cases scheme <;> decide
  obtain ⟨w, ran, memory, count⟩ := run_rawStoreData serves at_ size _ s
  exact ⟨w, ran, memory.trans (write_pteOf scheme _ addr type), count⟩

/-! ## The walk -/

/-- A run that ends as the specification's answer says, with at most `budget` reads. -/
def Delivers (mem : World → ByteMemory) (reads : World → Nat) (type : MemoryAccessType)
    (vaddr : BitVec 64) (s : Iss isa World) (budget : Nat) (answer : Option (Nat × Leaf))
    (ran : Except Exc (BitVec 64) × Iss isa World) : Prop :=
  ∃ w, ran.2 = s.withWorld w ∧ reads w ≤ reads s.world + budget ∧
    match answer with
    | some (physical, leaf) =>
        (∃ paddr, ran.1 = .ok paddr ∧ paddr.toNat = physical) ∧
          mem w = mark type leaf (mem s.world)
    | none => ran.1 = .error (.trap ⟨pageFaultCode type, vaddr⟩) ∧ mem w = mem s.world

variable {type : MemoryAccessType} {vaddr : BitVec 64} {s : Iss isa World} {budget : Nat}

theorem delivers_fault {w : World} (memory : mem w = mem s.world)
    (count : reads w ≤ reads s.world + budget) :
    Delivers mem reads type vaddr s budget none
      ((pageFault type vaddr : IssM isa World (BitVec 64)).run (s.withWorld w)) := by
  rw [run_pageFault]
  exact ⟨w, rfl, count, rfl, memory⟩

/-- What is left of the walk after a read that changed nothing. -/
theorem delivers_after {w : World} {answer : Option (Nat × Leaf)}
    {ran : Except Exc (BitVec 64) × Iss isa World}
    (rest : Delivers mem reads type vaddr (s.withWorld w) budget answer ran)
    (memory : mem w = mem s.world) (count : reads w = reads s.world + 1) :
    Delivers mem reads type vaddr s (budget + 1) answer ran := by
  obtain ⟨w', state, within, outcome⟩ := rest
  rw [withWorld_world] at within outcome
  refine ⟨w', by rw [state, withWorld_withWorld], by omega, ?_⟩
  rw [memory] at outcome
  exact outcome

theorem walkLevels_delivers (serves : plat.Serves mem reads scheme.pteSize mapped)
    (root vaddr : BitVec 64) (type : MemoryAccessType) (sMode sum mxr : Bool) {i : Nat}
    (levels : i ≤ scheme.levels) (base : BitVec 64) (inside : base.toNat < 2 ^ 56)
    (s : Iss isa World)
    (tables : ∀ addr ∈ (find scheme (mem s.world) vaddr.toNat i base.toNat).1,
      mapped (BitVec.ofNat 64 addr) ∧ entryAt scheme (mem s.world) addr < 2 ^ 54) :
    Delivers mem reads type vaddr s i
      (resolve scheme vaddr.toNat (accessOf type sMode sum mxr)
        (find scheme (mem s.world) vaddr.toNat i base.toNat).2)
      ((walkLevels plat (vmInfo scheme root) vaddr type sMode sum mxr i base).run s) := by
  induction i generalizing base s with
  | zero => exact delivers_fault (w := s.world) rfl (Nat.le_refl _)
  | succ i ih =>
    unfold walkLevels
    have location := (ptePaddr_toNat scheme root vaddr base i inside).symm
    generalize ptePaddr (vmInfo scheme root) vaddr base i = addr at *
    have entry := (pteOf_toNat scheme (mem s.world) addr).symm
    have width := entryAt_lt scheme (mem s.world) addr.toNat
    obtain ⟨at_, reserved⟩ := tables _ (addr_mem_find location entry)
    rw [BitVec.ofNat_toNat, BitVec.setWidth_eq] at at_
    obtain ⟨w, loaded, memory, count⟩ := run_loadPte serves at_ root s
    rw [Exec.run_bind_ok loaded]
    rw [entry] at width reserved
    generalize stored : pteOf scheme (mem s.world) addr = pte at *
    by_cases bad : (!pte.V || (!pte.R && pte.W)) = true
    · rw [if_pos bad, find_of_invalid location entry bad]
      exact delivers_fault memory (by omega)
    rw [if_neg bad]
    by_cases pointer : (!pte.R && !pte.X) = true
    · have descend : ¬ (pte.R || pte.X) = true := by
        revert pointer
        cases pte.R <;> cases pte.X <;> decide
      rw [find_of_pointer location entry bad descend] at tables ⊢
      rw [if_pos pointer]
      have table := table_toNat width reserved
      have next := ih (Nat.le_of_succ_le levels) (pte.ppn <<< 12)
        (by have := ppn_lt scheme pte.toNat; omega) (s.withWorld w)
      rw [withWorld_world, memory, table] at next
      exact delivers_after (next fun a among => tables a (List.mem_cons_of_mem _ among))
        memory count
    have leaf : (pte.R || pte.X) = true := by
      revert pointer
      cases pte.R <;> cases pte.X <;> decide
    have sound : ¬ (!pte.R && pte.W) = true := fun h => bad (by rw [h, Bool.or_true])
    rw [if_neg pointer, find_of_leaf location entry bad leaf]
    have level : i < scheme.levels := levels
    rw [show (vmInfo scheme root).idxbits = scheme.vpnBits from rfl,
      leafAllowed_eq_usable level width reserved sound type sMode sum mxr addr.toNat]
    by_cases fits : usable scheme (accessOf type sMode sum mxr) ⟨i, addr.toNat, pte.toNat⟩ = true
    case neg =>
      rw [resolve_unusable fits, eq_false_of_ne_true fits]
      exact delivers_fault memory (by omega)
    rw [resolve_usable fits, fits, Bool.not_true, if_neg Bool.false_ne_true]
    have aligned : Entry.ppn scheme pte.toNat % 2 ^ (i * scheme.vpnBits) = 0 := by
      unfold usable at fits
      simpa using (Bool.and_eq_true_iff.mp fits).2
    have address := leafAddress_toNat level width reserved vaddr addr.toNat aligned
    have marked : mark type ⟨i, addr.toNat, pte.toNat⟩ (mem s.world) =
        (mem s.world).orByte addr (flags type) := by
      unfold mark
      rw [BitVec.ofNat_toNat, BitVec.setWidth_eq]
    by_cases set : pte &&& adBits type = adBits type
    · rw [Exec.when_neg (not_not.mpr set)]
      refine ⟨w, rfl, by omega, ⟨_, rfl, address⟩, ?_⟩
      rw [marked, @orByte_pteOf scheme _ _ type (by rw [stored]; exact set), memory]
    · obtain ⟨w', updated, memory', count'⟩ :=
        run_mmuStorePte32 serves at_ type (s.withWorld w)
      rw [withWorld_world, memory] at updated memory'
      rw [withWorld_world] at count'
      rw [stored, withWorld_withWorld] at updated
      rw [Exec.when_pos set, Exec.run_bind_ok updated]
      exact ⟨w', rfl, by omega, ⟨_, rfl, address⟩, by rw [marked, memory']⟩

/-! ## The whole translation -/

/-- The bits from `low` on, `n` of them, compared with their two extreme values. -/
theorem extension_iff (x : BitVec 64) (low : Nat) {n : Nat} (small : n < 64) :
    ((x >>> low) &&& ((1#64 <<< n) - 1#64) == 0 ||
        (x >>> low) &&& ((1#64 <<< n) - 1#64) == (1#64 <<< n) - 1#64) = true ↔
      x.toNat / 2 ^ low % 2 ^ n = 0 ∨ x.toNat / 2 ^ low % 2 ^ n = 2 ^ n - 1 := by
  rw [Bool.or_eq_true, beq_iff_eq, beq_iff_eq, BitVec.toNat_eq, BitVec.toNat_eq,
    and_mask_toNat _ small, mask_toNat small, BitVec.toNat_ushiftRight, Nat.shiftRight_eq_div_pow]
  rfl

theorem checkVaddrExtension_eq_canonical {satp : Word isa}
    (on : Scheme.active isa (Satp.mode satp) = some scheme) (root vaddr : BitVec 64) :
    checkVaddrExtension isa vaddr (vmInfo scheme root) = canonical scheme vaddr.toNat := by
  have bound := vaddr.isLt
  rw [Bool.eq_iff_iff]
  unfold Scheme.active at on
  split at on
  case h_4 => cases on
  all_goals cases on
  case h_1 =>
    refine (extension_iff vaddr 31 (n := 1) (by decide)).trans ?_
    simp only [canonical, iff_true]
    omega
  case h_2 =>
    refine (extension_iff vaddr 38 (n := 26) (by decide)).trans ?_
    rw [canonical, Bool.or_eq_true, decide_eq_true_iff, decide_eq_true_iff]
    simp only [Scheme.vaBits]
    omega
  case h_3 =>
    refine (extension_iff vaddr 47 (n := 17) (by decide)).trans ?_
    rw [canonical, Bool.or_eq_true, decide_eq_true_iff, decide_eq_true_iff]
    simp only [Scheme.vaBits]
    omega

theorem satpPpn_lt (satp : Word isa) : (Satp.ppn satp).toNat < 2 ^ 44 := by
  cases isa with
  | rv32 =>
    have bound := (satp.extractLsb' 0 22).isLt
    have wide : (Satp.ppn satp).toNat = (satp.extractLsb' 0 22).toNat :=
      BitVec.toNat_setWidth_of_le (by decide)
    omega
  | rv64 =>
    have bound := (satp.extractLsb' 0 44).isLt
    have wide : (Satp.ppn satp).toNat = (satp.extractLsb' 0 44).toNat :=
      BitVec.toNat_setWidth_of_le (by decide)
    omega

theorem root_toNat (satp : Word isa) :
    (Satp.ppn satp <<< 12).toNat = (Satp.ppn satp).toNat * 2 ^ 12 := by
  have bound := satpPpn_lt satp
  rw [BitVec.toNat_shiftLeft, Nat.shiftLeft_eq, Nat.mod_eq_of_lt (by omega)]

/-- The access a walk in this state is for. -/
def walkAccess (s : Iss isa World) (type : MemoryAccessType) (mode : PrivilegeLevel) : Access :=
  accessOf type (mode == supervisorMode) (Mstatus.sum.get (s.csrs.reg .mstatus) == 1#1)
    (Mstatus.mxr.get (s.csrs.reg .mstatus) == 1#1)

/-- `walk` is the translation of the specification. -/
theorem walk_delivers (serves : plat.Serves mem reads scheme.pteSize mapped) (s : Iss isa World)
    (on : Scheme.active isa (Satp.mode (s.csrs.reg .satp)) = some scheme) {mode : PrivilegeLevel}
    (low : mode = userMode ∨ mode = supervisorMode) (vaddr : BitVec 64) (type : MemoryAccessType)
    (tables : ∀ addr ∈ (search scheme (mem s.world) (Satp.ppn (s.csrs.reg .satp)).toNat
        vaddr.toNat).1,
      mapped (BitVec.ofNat 64 addr) ∧ entryAt scheme (mem s.world) addr < 2 ^ 54) :
    Delivers mem reads type vaddr s scheme.levels
      (translate scheme (mem s.world) (Satp.ppn (s.csrs.reg .satp)).toNat vaddr.toNat
        (walkAccess s type mode))
      ((walk plat vaddr type mode).run s) := by
  have root := root_toNat (s.csrs.reg .satp)
  unfold walk Sv.translate
  rw [run_readField_bind, run_readField_bind, Exec.run_bind_ok (run_decodeVmInfo on low),
    checkVaddrExtension_eq_canonical on]
  unfold search at tables ⊢
  by_cases inRange : canonical scheme vaddr.toNat = true
  · rw [if_pos inRange] at tables ⊢
    rw [if_pos inRange, ← root]
    rw [← root] at tables
    have inside := satpPpn_lt (s.csrs.reg .satp)
    exact walkLevels_delivers serves _ vaddr type _ _ _ (Nat.le_refl _) _ (by omega) s tables
  · rw [if_neg inRange, if_neg inRange]
    exact delivers_fault (w := s.world) rfl (Nat.le_add_right _ _)

end Memory

/-- One table, in the second page, whose first entry is a readable leaf. -/
def gigapageWorld : Flat := ⟨fun a => if a = 0x1000 then 0x0F else 0, 0, none⟩

def gigapageCore : Iss .rv64 Flat := pagedCore 0x8000000000000001 supervisorMode gigapageWorld

/-- A load through a gigapage of Sv39 sets `A` and goes to the same address. -/
theorem walk_gigapage :
    Delivers Flat.bytes Flat.reads .load 0x12345678 gigapageCore 3
      (some (0x12345678, ⟨2, 0x1000, 0x0F⟩))
      ((walk Flat.platform 0x12345678 .load supervisorMode).run gigapageCore) := by
  have on : Scheme.active .rv64 (Satp.mode (gigapageCore.csrs.reg .satp)) = some .sv39 := rfl
  have tables : ∀ addr ∈ (search .sv39 gigapageCore.world.bytes
        (Satp.ppn (gigapageCore.csrs.reg .satp)).toNat (0x12345678 : BitVec 64).toNat).1,
      True ∧ entryAt .sv39 gigapageCore.world.bytes addr < 2 ^ 54 := by decide
  exact walk_delivers (Flat.serves 8) gigapageCore on (.inr rfl) 0x12345678 .load tables

end RiscvVp.Iss
