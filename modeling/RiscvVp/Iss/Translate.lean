/-
# RiscvVp.Iss.Translate -- a translation, by cases and over a page

What `translate_virtual_to_physical_addr` comes to in each mode, on a hit and on a miss
of the TLB.  A translation looks at the page number of its address and puts the offset
back at the end; so where one address of a page is translated, every other one is,
through the same accesses and to the same page (`samePage_v2p`).
-/
import RiscvVp.Iss.Memory
import RiscvVp.Lib.Mask

namespace RiscvVp.Iss

set_option autoImplicit false

open Lib

variable {isa : Isa} {World : Type}

/-- A mode that is translated for. -/
abbrev LowMode (mode : PrivilegeLevel) : Prop := mode = userMode ∨ mode = supervisorMode

/-! ## The translation, by cases -/

def pageFaultCode : MemoryAccessType → ExceptionCode
  | .fetch => .instrPageFault
  | .load => .loadPageFault
  | .store => .storeAmoPageFault

theorem run_pageFault {α : Type} (type : MemoryAccessType) (vaddr : BitVec 64)
    (s : Iss isa World) :
    (pageFault type vaddr : IssM isa World α).run s =
      (.error (.trap ⟨pageFaultCode type, vaddr⟩), s) := by
  cases type <;> rfl

section Translate

variable {plat : Platform World} {s : Iss isa World} {va : BitVec 64} {type : MemoryAccessType}
  (paged : Satp.mode (s.csrs.reg .satp) ≠ Satp.bare)

include paged

theorem run_translate_machine (machine : effectiveMode type s = machineMode) :
    (translateVirtualToPhysicalAddr plat va type).run s = (.ok va, s) := by
  unfold translateVirtualToPhysicalAddr
  rw [run_readCsr_bind, Exec.run_read_bind, if_neg paged, if_pos machine]
  rfl

theorem run_translate_unknown (below : effectiveMode type s ≠ machineMode)
    (unknown : ¬ LowMode (effectiveMode type s)) :
    (translateVirtualToPhysicalAddr plat va type).run s = (.error (.abort .mmuMode), s) := by
  unfold translateVirtualToPhysicalAddr
  rw [run_readCsr_bind, Exec.run_read_bind, if_neg paged, if_neg below]
  unfold assert
  rw [if_neg unknown]
  rfl

theorem run_translate_hit {mode : PrivilegeLevel} (at_ : effectiveMode type s = mode)
    (low : LowMode mode) (hit : (tlbLookup mode type (va >>> 12) s).vpn = va >>> 12) :
    (translateVirtualToPhysicalAddr plat va type).run s =
      (.ok ((tlbLookup mode type (va >>> 12) s).ppn ||| (va &&& 0xFFF)), s) := by
  subst at_
  have below : effectiveMode type s ≠ machineMode := by
    rcases low with low | low <;> rw [low] <;> decide
  unfold translateVirtualToPhysicalAddr
  rw [run_readCsr_bind, Exec.run_read_bind, if_neg paged, if_neg below, run_assert_bind s low,
    Exec.run_read_bind, if_pos hit]
  rfl

theorem run_translate_miss {mode : PrivilegeLevel} (at_ : effectiveMode type s = mode)
    (low : LowMode mode) (miss : (tlbLookup mode type (va >>> 12) s).vpn ≠ va >>> 12) :
    (translateVirtualToPhysicalAddr plat va type).run s =
      (do
        let paddr ← walk plat va type mode
        tlbFill mode type (va >>> 12) (.fill paddr (va >>> 12))
        return paddr : IssM isa World (BitVec 64)).run s := by
  subst at_
  have below : effectiveMode type s ≠ machineMode := by
    rcases low with low | low <;> rw [low] <;> decide
  unfold translateVirtualToPhysicalAddr
  rw [run_readCsr_bind, Exec.run_read_bind, if_neg paged, if_neg below, run_assert_bind s low,
    Exec.run_read_bind, if_neg miss]

end Translate

/-! ## Pages -/

/-- The offset of an address in its page. -/
theorem offset_toNat (va : BitVec 64) : (va &&& 0xFFF).toNat = va.toNat % 4096 :=
  and_mask_toNat va (k := 12) (by decide)

/-- An address in a whole page. -/
theorem page_or_toNat {page : BitVec 64} (whole : page &&& 0xFFF = 0) (va : BitVec 64) :
    (page ||| (va &&& 0xFFF)).toNat = page.toNat + va.toNat % 4096 := by
  have zero : page.toNat % 4096 = 0 := (offset_toNat page).symm.trans (congrArg BitVec.toNat whole)
  have high : page.toNat = 2 ^ 12 * (page.toNat / 2 ^ 12) := by omega
  rw [or_toNat high (by rw [offset_toNat]; omega), offset_toNat]

theorem page_whole (x : BitVec 64) : (x <<< 12) &&& 0xFFF = 0 := by
  apply BitVec.eq_of_toNat_eq
  rw [offset_toNat, BitVec.toNat_shiftLeft, Nat.shiftLeft_eq]
  show _ = 0
  omega

/-- Wherever `m` returns the address of `va` in some page, `m'` returns the address of
`va'` in it and leaves the same state. -/
def SamePage (va va' : BitVec 64) (m m' : IssM isa World (BitVec 64)) : Prop :=
  ∀ ⦃s p t⦄, m.run s = (.ok p, t) → ∃ page : BitVec 64, page &&& 0xFFF = 0 ∧
    p = page ||| (va &&& 0xFFF) ∧ m'.run s = (.ok (page ||| (va' &&& 0xFFF)), t)

namespace SamePage

variable {va va' : BitVec 64}

theorem pure {page : BitVec 64} (whole : page &&& 0xFFF = 0) :
    SamePage va va' (pure (page ||| (va &&& 0xFFF)) : IssM isa World (BitVec 64))
      (pure (page ||| (va' &&& 0xFFF))) := by
  intro s p t ran
  cases ran
  exact ⟨page, whole, rfl, rfl⟩

theorem fault (type : MemoryAccessType) :
    SamePage va va' (pageFault type va : IssM isa World (BitVec 64)) (pageFault type va') := by
  intro s p t ran
  cases type <;> cases ran

theorem abort (cause : Abort) :
    SamePage va va' (abort cause : IssM isa World (BitVec 64)) (Iss.abort cause) := by
  intro s p t ran
  cases ran

theorem bind {α : Type} {m : IssM isa World α} {f f' : α → IssM isa World (BitVec 64)}
    (rest : ∀ ⦃s a t⦄, m.run s = (.ok a, t) → SamePage va va' (f a) (f' a)) :
    SamePage va va' (m >>= f) (m >>= f') := by
  intro s p t ran
  obtain ⟨a, u, first, second⟩ := Exec.run_bind_eq_ok.mp ran
  obtain ⟨page, whole, here, there⟩ := rest first second
  exact ⟨page, whole, here, (Exec.run_bind_ok first).trans there⟩

theorem ite {c : Prop} [Decidable c] {m m' n n' : IssM isa World (BitVec 64)}
    (yes : SamePage va va' m m') (no : SamePage va va' n n') :
    SamePage va va' (if c then m else n) (if c then m' else n') := by
  split
  · exact yes
  · exact no

end SamePage

/-! ## The walk -/

section Walk

variable {va va' : BitVec 64} (page : va >>> 12 = va' >>> 12)

include page

theorem ushiftRight_of_page (n : Nat) : va >>> (12 + n) = va' >>> (12 + n) := by
  rw [BitVec.shiftRight_add, BitVec.shiftRight_add, page]

theorem ptePaddr_of_page (vm : VmInfo) (base : BitVec 64) (i : Nat) :
    ptePaddr vm va base i = ptePaddr vm va' base i := by
  unfold ptePaddr
  rw [ushiftRight_of_page page]

theorem checkVaddrExtension_of_page {vm : VmInfo} (bits : 0 < vm.idxbits * vm.levels) :
    checkVaddrExtension isa va vm = checkVaddrExtension isa va' vm := by
  have highbit : vm.idxbits * vm.levels + 12 - 1 = 12 + (vm.idxbits * vm.levels - 1) := by omega
  have shifted := ushiftRight_of_page page (vm.idxbits * vm.levels - 1)
  rw [← highbit] at shifted
  unfold checkVaddrExtension
  simp only [shifted]

variable (plat : Platform World)

theorem samePage_leafAddress (pte : Pte) (ptshift : Nat) :
    SamePage va va' (pure (leafAddress pte va ptshift) : IssM isa World (BitVec 64))
      (pure (leafAddress pte va' ptshift)) := by
  unfold leafAddress
  rw [page]
  exact .pure (page_whole _)

theorem samePage_walkLevels (vm : VmInfo) (type : MemoryAccessType) (sMode sum mxr : Bool) (i : Nat)
    (base : BitVec 64) :
    SamePage va va'
      (walkLevels plat vm va type sMode sum mxr i base : IssM isa World (BitVec 64))
      (walkLevels plat vm va' type sMode sum mxr i base) := by
  induction i generalizing base with
  | zero => exact .fault type
  | succ i ih =>
    unfold walkLevels
    rw [ptePaddr_of_page page]
    apply SamePage.bind
    intro _ pte _ _
    refine .ite (.fault type) (.ite (ih _) (.ite (.fault type) (.bind fun _ _ _ _ => ?_)))
    exact samePage_leafAddress page pte _

omit page in
theorem decodeVmInfo_bits {mode : PrivilegeLevel} {s t : Iss isa World} {vm : VmInfo}
    (ran : (decodeVmInfo mode).run s = (.ok vm, t)) : 0 < vm.idxbits * vm.levels := by
  unfold decodeVmInfo at ran
  obtain ⟨_, _, _, ran⟩ := Exec.run_bind_eq_ok.mp ran
  rw [run_readCsr_bind] at ran
  simp only [Exec.run_ite] at ran
  repeat
    split at ran
    · cases ran
      exact Nat.zero_lt_succ _
  cases ran

theorem samePage_walk (type : MemoryAccessType) (mode : PrivilegeLevel) :
    SamePage va va' (walk plat va type mode : IssM isa World (BitVec 64))
      (walk plat va' type mode) := by
  unfold walk
  apply SamePage.bind
  intro _ sum _ _
  apply SamePage.bind
  intro _ mxr _ _
  apply SamePage.bind
  intro _ vm _ decoded
  rw [checkVaddrExtension_of_page page (decodeVmInfo_bits decoded)]
  exact samePage_walkLevels page plat vm type _ _ _ _ _

/-! ## The TLB in front of it -/

omit page in
/-- The upper part of an address in a whole page. -/
theorem pageOf_or {page : BitVec 64} (offset : BitVec 64) :
    TlbEntry.pageOf (page ||| (offset &&& 0xFFF)) = TlbEntry.pageOf page := by
  unfold TlbEntry.pageOf
  have apart : offset &&& 0xFFF &&& (~~~0xFFF#32).setWidth 64 = 0 := by
    rw [BitVec.and_assoc]
    exact BitVec.and_zero
  rw [BitVec.and_or_distrib_right, apart]
  exact BitVec.or_zero

omit page in
theorem vpn_ne_allOnes (va : BitVec 64) : va >>> 12 ≠ BitVec.allOnes 64 := by
  intro same
  have bound := va.isLt
  have number := congrArg BitVec.toNat same
  rw [BitVec.toNat_ushiftRight, Nat.shiftRight_eq_div_pow, BitVec.toNat_allOnes] at number
  omega

omit page in
theorem page_or_offset (va : BitVec 64) : ((va >>> 12) <<< 12) ||| (va &&& 0xFFF) = va := by
  have bound := va.isLt
  apply BitVec.eq_of_toNat_eq
  rw [page_or_toNat (page_whole _), BitVec.toNat_shiftLeft, BitVec.toNat_ushiftRight,
    Nat.shiftLeft_eq, Nat.shiftRight_eq_div_pow]
  omega

theorem samePage_identity :
    SamePage va va' (pure va : IssM isa World (BitVec 64)) (pure va') := by
  intro s p t ran
  cases ran
  refine ⟨(va >>> 12) <<< 12, page_whole _, (page_or_offset va).symm, ?_⟩
  rw [page, page_or_offset]
  rfl

theorem samePage_translate (type : MemoryAccessType) :
    SamePage va va' (translateVirtualToPhysicalAddr plat va type : IssM isa World (BitVec 64))
      (translateVirtualToPhysicalAddr plat va' type) := by
  unfold translateVirtualToPhysicalAddr
  apply SamePage.bind
  intro _ satp _ _
  apply SamePage.bind
  intro _ mode _ _
  refine .ite (samePage_identity page) (.ite (samePage_identity page) (.bind fun _ _ _ _ => ?_))
  dsimp only
  rw [page]
  apply SamePage.bind
  intro _ x _ _
  by_cases hit : x.vpn = va' >>> 12
  · rw [if_pos hit, if_pos hit]
    apply SamePage.pure
    apply x.whole.resolve_left
    rw [hit]
    exact vpn_ne_allOnes va'
  · rw [if_neg hit, if_neg hit]
    intro s p t ran
    obtain ⟨paddr, u, walked, filled⟩ := Exec.run_bind_eq_ok.mp ran
    obtain ⟨b, whole, here, there⟩ := samePage_walk page plat type mode walked
    cases filled
    refine ⟨b, whole, here, ?_⟩
    rw [Exec.run_bind_ok there]
    unfold TlbEntry.fill
    rw [here]
    simp only [pageOf_or]
    rfl

theorem samePage_v2p (type : MemoryAccessType) :
    SamePage va va' (v2p plat va type : IssM isa World (BitVec 64)) (v2p plat va' type) :=
  .ite (samePage_identity page) (samePage_translate page plat type)

end Walk

end RiscvVp.Iss
