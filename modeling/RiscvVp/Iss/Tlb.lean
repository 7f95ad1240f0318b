/-
# RiscvVp.Iss.Tlb -- what the TLB hides

A TLB is `Good` when each of its entries is what the specification's translation gives
now.  A good TLB cannot be seen (`transparent_of_good`).  An `MmuAction` is a
translation, a write of `mstatus`, a change of privilege or a write of others to
memory; `Harmless` says which of them keep the TLB good.  Two kinds do not: the page
base is cut to 32 bits when it is put in, and a hit asks for no permission.
-/
import RiscvVp.Iss.SvFlags
import RiscvVp.Iss.Translate
import RiscvVp.Iss.Walk

namespace RiscvVp.Iss

set_option autoImplicit false

open Lib Sv

variable {isa : Isa} {World : Type} {plat : Platform World} {mem : World → ByteMemory}
  {reads : World → Nat} {scheme : Scheme} {mapped : BitVec 64 → Prop}

/-- The page number of the root table. -/
def root (s : Iss isa World) : Nat := (Satp.ppn (s.csrs.reg .satp)).toNat

/-- The specification's translation in this state: the address, or a fault. -/
def answer (scheme : Scheme) (mem : World → ByteMemory) (s : Iss isa World)
    (type : MemoryAccessType) (mode : PrivilegeLevel) (va : BitVec 64) : Option Nat :=
  (translate scheme (mem s.world) s.root va.toNat (walkAccess s type mode)).map Prod.fst

/-- Paging is on, the tables are in memory and their entries have no reserved bit set. -/
structure Paging (scheme : Scheme) (mem : World → ByteMemory) (mapped : BitVec 64 → Prop)
    (s : Iss isa World) : Prop where
  on : Scheme.active isa (Satp.mode (s.csrs.reg .satp)) = some scheme
  tables : ∀ va, ∀ addr ∈ (search scheme (mem s.world) s.root va).1,
    mapped (BitVec.ofNat 64 addr) ∧ entryAt scheme (mem s.world) addr < 2 ^ 54

/-! ## The walk -/

/-- The result that an answer stands for. -/
def Outcome (type : MemoryAccessType) (va : BitVec 64) (answer : Option Nat)
    (result : Except Exc (BitVec 64)) : Prop :=
  match answer with
  | some p => ∃ paddr, result = .ok paddr ∧ paddr.toNat = p
  | none => result = .error (.trap ⟨pageFaultCode type, va⟩)

namespace Outcome

variable {type : MemoryAccessType} {va : BitVec 64} {ans : Option Nat}

theorem unique {r r' : Except Exc (BitVec 64)} (first : Outcome type va ans r)
    (second : Outcome type va ans r') : r = r' := by
  cases ans with
  | none => exact Eq.trans first (Eq.symm second)
  | some p =>
    obtain ⟨paddr, rfl, here⟩ := first
    obtain ⟨paddr', rfl, there⟩ := second
    rw [BitVec.eq_of_toNat_eq (here.trans there.symm)]

theorem of_ok {paddr : BitVec 64} (outcome : Outcome type va ans (.ok paddr)) :
    ans = some paddr.toNat := by
  cases ans with
  | none => cases outcome
  | some p =>
    obtain ⟨_, same, number⟩ := outcome
    cases same
    rw [number]

end Outcome

theorem walk_outcome (serves : plat.Serves mem reads scheme.pteSize mapped) {s : Iss isa World}
    (paging : Paging scheme mem mapped s) {mode : PrivilegeLevel} (low : LowMode mode)
    (va : BitVec 64) (type : MemoryAccessType) : ∃ result w,
    (walk plat va type mode).run s = (result, s.withWorld w) ∧
      Outcome type va (answer scheme mem s type mode va) result ∧
      SameTables scheme s.root (mem s.world) (mem w) := by
  obtain ⟨w, state, -, ended⟩ := walk_delivers serves s paging.on low va type
    (paging.tables va.toNat)
  refine ⟨((walk plat va type mode).run s).1, w, Prod.ext rfl state, ?_⟩
  unfold answer
  cases found : translate scheme (mem s.world) s.root va.toNat (walkAccess s type mode) with
  | none =>
    rw [show (Satp.ppn (s.csrs.reg .satp)).toNat = s.root from rfl, found] at ended
    rw [ended.2]
    exact ⟨ended.1, .refl _⟩
  | some reached =>
    rw [show (Satp.ppn (s.csrs.reg .satp)).toNat = s.root from rfl, found] at ended
    rw [ended.2]
    exact ⟨ended.1, sameTables_mark type (translate_eq_some found).1⟩

theorem Paging.paged {s : Iss isa World} (paging : Paging scheme mem mapped s) :
    Satp.mode (s.csrs.reg .satp) ≠ Satp.bare := by
  intro bare
  have on := paging.on
  rw [bare] at on
  cases isa <;> cases on

/-! ## A TLB that cannot be seen -/

/-- Every entry gives the answer of the specification to every address it is hit by. -/
def Good (scheme : Scheme) (mem : World → ByteMemory) (s : Iss isa World) : Prop :=
  ∀ mode type (va : BitVec 64), LowMode mode →
    (tlbLookup mode type (va >>> 12) s).vpn = va >>> 12 →
    answer scheme mem s type mode va =
      some ((tlbLookup mode type (va >>> 12) s).ppn ||| (va &&& 0xFFF)).toNat

/-- `s` after `flush_tlb`. -/
def flushed (s : Iss isa World) : Iss isa World :=
  { s with tlb := fun _ _ _ => TlbEntry.invalid }

/-- Every translation has the result that it would have with an empty TLB. -/
def Transparent (plat : Platform World) (s : Iss isa World) : Prop :=
  ∀ (va : BitVec 64) type, ((translateVirtualToPhysicalAddr plat va type).run s).1 =
    ((translateVirtualToPhysicalAddr plat va type).run s.flushed).1

theorem flushed_miss (s : Iss isa World) (mode : PrivilegeLevel) (type : MemoryAccessType)
    (va : BitVec 64) : (tlbLookup mode type (va >>> 12) s.flushed).vpn ≠ va >>> 12 :=
  (vpn_ne_allOnes va).symm

theorem run_miss_fst {s : Iss isa World} {va : BitVec 64} {type : MemoryAccessType}
    (paged : Satp.mode (s.csrs.reg .satp) ≠ Satp.bare) {mode : PrivilegeLevel}
    (at_ : effectiveMode type s = mode) (low : LowMode mode)
    (miss : (tlbLookup mode type (va >>> 12) s).vpn ≠ va >>> 12) :
    ((translateVirtualToPhysicalAddr plat va type).run s).1 =
      ((walk plat va type mode).run s).1 := by
  rw [run_translate_miss paged at_ low miss, Exec.run_bind]
  rcases (walk plat va type mode).run s with ⟨_ | paddr, t⟩ <;> rfl

theorem transparent_of_good (serves : plat.Serves mem reads scheme.pteSize mapped)
    {s : Iss isa World} (paging : Paging scheme mem mapped s) (good : Good scheme mem s) :
    Transparent plat s := by
  intro va type
  have paged := paging.paged
  have paging' : Paging scheme mem mapped s.flushed := ⟨paging.on, paging.tables⟩
  by_cases machine : effectiveMode type s = machineMode
  · rw [run_translate_machine paged machine, run_translate_machine paging'.paged machine]
  by_cases low : LowMode (effectiveMode type s)
  case neg =>
    rw [run_translate_unknown paged machine low, run_translate_unknown paging'.paged machine low]
  obtain ⟨fresh, _, ran, outcome, -⟩ := walk_outcome serves paging' low va type
  rw [run_miss_fst paging'.paged rfl low (flushed_miss s _ _ _)]
  rw [show (walk plat va type (effectiveMode type s.flushed)).run s.flushed =
    (walk plat va type (effectiveMode type s)).run s.flushed from rfl, ran]
  by_cases hit : (tlbLookup (effectiveMode type s) type (va >>> 12) s).vpn = va >>> 12
  · rw [run_translate_hit paged rfl low hit]
    have cached : Outcome type va (answer scheme mem s type (effectiveMode type s) va)
        (.ok ((tlbLookup (effectiveMode type s) type (va >>> 12) s).ppn ||| (va &&& 0xFFF))) := by
      rw [good _ type va low hit]
      exact ⟨_, rfl, rfl⟩
    exact cached.unique outcome
  · obtain ⟨result, _, ran', outcome', -⟩ := walk_outcome serves paging low va type
    rw [run_miss_fst paged rfl low hit, ran']
    exact outcome'.unique outcome

/-! ## What happens between two flushes -/

inductive MmuAction (isa : Isa) (World : Type) where
  | translate (va : BitVec 64) (type : MemoryAccessType)
  | status (mstatus : Word isa)
  | privilege (level : PrivilegeLevel)
  | others (w : World)

namespace MmuAction

def apply (plat : Platform World) : MmuAction isa World → Iss isa World → Iss isa World
  | translate va type, s => ((translateVirtualToPhysicalAddr plat va type).run s).2
  | status mstatus, s => s.setCsr .mstatus mstatus
  | privilege level, s => { s with prv := level }
  | others w, s => s.withWorld w

/-- Nobody else writes a page-table entry, other than its flags. -/
def KeepsTables (scheme : Scheme) (mem : World → ByteMemory) (s : Iss isa World) :
    MmuAction isa World → Prop
  | others w => SameTables scheme s.root (mem s.world) (mem w)
  | _ => True

/-- With `mstatus` in place of the present value, an entry of the TLB would be one the
access is not permitted for: `SUM` is cleared under a supervisor's data entry for a
user page, or `MXR` under a load entry for a page that is not readable. -/
def Withdraws (scheme : Scheme) (mem : World → ByteMemory) (s : Iss isa World)
    (mstatus : Word isa) : Prop :=
  ∃ mode type, ∃ (va : BitVec 64), ∃ leaf, LowMode mode ∧
    (tlbLookup mode type (va >>> 12) s).vpn = va >>> 12 ∧
    (search scheme (mem s.world) s.root va.toNat).2 = some leaf ∧
    ((Mstatus.sum.get (s.csrs.reg .mstatus) = 1#1 ∧ Mstatus.sum.get mstatus ≠ 1#1 ∧
        mode = supervisorMode ∧ type ≠ .fetch ∧ leaf.pte.user = true) ∨
      (Mstatus.mxr.get (s.csrs.reg .mstatus) = 1#1 ∧ Mstatus.mxr.get mstatus ≠ 1#1 ∧
        type = .load ∧ leaf.pte.readable = false))

/-- No address at or above 4 GiB is translated, and no permission withdrawn that an
entry of the TLB was made under. -/
def Harmless (scheme : Scheme) (mem : World → ByteMemory) (s : Iss isa World) :
    MmuAction isa World → Prop
  | translate va type => LowMode (effectiveMode type s) →
      ∀ p, answer scheme mem s type (effectiveMode type s) va = some p → p < 2 ^ 32
  | status mstatus => ¬ Withdraws scheme mem s mstatus
  | _ => True

end MmuAction

/-- One action that leaves the tables alone. -/
def MmuStep (plat : Platform World) (scheme : Scheme) (mem : World → ByteMemory)
    (s t : Iss isa World) : Prop :=
  ∃ a : MmuAction isa World, a.KeepsTables scheme mem s ∧ t = a.apply plat s

def HarmlessStep (plat : Platform World) (scheme : Scheme) (mem : World → ByteMemory)
    (s t : Iss isa World) : Prop :=
  ∃ a : MmuAction isa World, a.KeepsTables scheme mem s ∧ a.Harmless scheme mem s ∧
    t = a.apply plat s

/-! ## Each keeps the TLB good -/

theorem pageOf_toNat (x : BitVec 64) :
    (TlbEntry.pageOf x).toNat = x.toNat % 2 ^ 32 / 2 ^ 12 * 2 ^ 12 := by
  have masks : TlbEntry.pageOf x =
      (x &&& ((1#64 <<< 32) - 1#64)) &&& ~~~((1#64 <<< 12) - 1#64) := by
    rw [BitVec.and_assoc]
    rfl
  rw [masks, and_not_mask_toNat _ (by decide), and_mask_toNat _ (by decide)]

theorem pageOf_eq {page : BitVec 64} (whole : page &&& 0xFFF = 0) (small : page.toNat < 2 ^ 32) :
    TlbEntry.pageOf page = page := by
  have zero : page.toNat % 4096 = 0 := (offset_toNat page).symm.trans (congrArg BitVec.toNat whole)
  apply BitVec.eq_of_toNat_eq
  rw [pageOf_toNat]
  omega

section Keep

variable {s : Iss isa World}

theorem answer_withWorld {w : World} (same : SameTables scheme s.root (mem s.world) (mem w))
    (type : MemoryAccessType) (mode : PrivilegeLevel) (va : BitVec 64) :
    answer scheme mem (s.withWorld w) type mode va = answer scheme mem s type mode va :=
  translate_of_sameTables same va.toNat _

theorem paging_withWorld (paging : Paging scheme mem mapped s) {w : World}
    (same : SameTables scheme s.root (mem s.world) (mem w)) :
    Paging scheme mem mapped (s.withWorld w) where
  on := paging.on
  tables va addr among := by
    have among' : addr ∈ (search scheme (mem s.world) s.root va).1 :=
      (search_of_same (same va)).1 ▸ among
    obtain ⟨at_, reserved⟩ := paging.tables va addr among'
    exact ⟨at_, (same va addr among').lt reserved⟩

theorem good_withWorld (good : Good scheme mem s) {w : World}
    (same : SameTables scheme s.root (mem s.world) (mem w)) :
    Good scheme mem (s.withWorld w) := by
  intro mode type va low hit
  rw [answer_withWorld same]
  exact good mode type va low hit

/-- An entry made from a walk that ended below 4 GiB. -/
theorem good_fill (serves : plat.Serves mem reads scheme.pteSize mapped)
    (paging : Paging scheme mem mapped s) (good : Good scheme mem s) {mode : PrivilegeLevel}
    (low : LowMode mode) {type : MemoryAccessType} {va paddr : BitVec 64} {t : Iss isa World}
    (walked : (walk plat va type mode).run s = (.ok paddr, t)) (small : paddr.toNat < 2 ^ 32)
    {w : World} (same : SameTables scheme s.root (mem s.world) (mem w)) :
    Good scheme mem
      ((tlbFill mode type (va >>> 12) (.fill paddr (va >>> 12))).run (s.withWorld w)).2 := by
  intro mode' type' va' low' hit
  have unfolded : tlbLookup mode' type' (va' >>> 12)
      ((tlbFill mode type (va >>> 12) (.fill paddr (va >>> 12))).run (s.withWorld w)).2 =
      if mode' = mode ∧ type' = type ∧ (va' >>> 12).setWidth 8 = (va >>> 12).setWidth 8 then
        .fill paddr (va >>> 12)
      else tlbLookup mode' type' (va' >>> 12) s := rfl
  rw [unfolded] at hit ⊢
  rw [show answer scheme mem
      ((tlbFill mode type (va >>> 12) (.fill paddr (va >>> 12))).run (s.withWorld w)).2 type' mode'
      va' = answer scheme mem (s.withWorld w) type' mode' va' from rfl, answer_withWorld same]
  split at hit
  case isFalse other => 
    rw [if_neg other]
    exact good mode' type' va' low' hit
  case isTrue filled =>
    rw [if_pos filled]
    obtain ⟨rfl, rfl, -⟩ := filled
    have samePage : va >>> 12 = va' >>> 12 := hit
    obtain ⟨page, whole, here, there⟩ := samePage_walk samePage plat type' mode' walked
    obtain ⟨_, _, ran, outcome, -⟩ := walk_outcome serves paging low va' type'
    rw [there] at ran
    cases ran
    have cached : (TlbEntry.fill paddr (va >>> 12)).ppn = page := by
      show TlbEntry.pageOf paddr = page
      rw [here, pageOf_or]
      apply pageOf_eq whole
      have sum := page_or_toNat whole va
      rw [← here] at sum
      omega
    rw [outcome.of_ok, cached]

theorem permitted_of_kept {type : MemoryAccessType} {sMode sum mxr sum' mxr' : Bool} {pte : Entry}
    (permitted : (accessOf type sMode sum mxr).permitted pte = true)
    (keptSum : sMode = true → type ≠ .fetch → pte.user = true → sum = true → sum' = true)
    (keptMxr : type = .load → pte.readable = false → mxr = true → mxr' = true) :
    (accessOf type sMode sum' mxr').permitted pte = true := by
  unfold Access.permitted accessOf at *
  dsimp only at *
  rw [Bool.and_eq_true] at permitted ⊢
  obtain ⟨use, user⟩ := permitted
  constructor
  · cases type with
    | fetch => exact use
    | store => exact use
    | load =>
      dsimp only at use ⊢
      cases r : pte.readable with
      | true => rfl
      | false =>
        rw [r, Bool.false_or, Bool.and_eq_true] at use
        rw [Bool.false_or, Bool.and_eq_true]
        exact ⟨keptMxr rfl r use.1, use.2⟩
  · cases u : pte.user with
    | false => rwa [u] at user
    | true =>
      rw [u, if_pos rfl, Bool.or_eq_true, Bool.and_eq_true] at user
      rw [if_pos rfl, Bool.or_eq_true, Bool.and_eq_true]
      rcases user with isUser | ⟨wasSet, data⟩
      · exact .inl isUser
      cases sup : sMode with
      | false => exact .inl rfl
      | true => exact .inr ⟨keptSum sup (by simpa using data) u wasSet, data⟩

theorem good_status (good : Good scheme mem s) {mstatus : Word isa}
    (kept : ¬ MmuAction.Withdraws scheme mem s mstatus) :
    Good scheme mem (s.setCsr .mstatus mstatus) := by
  intro mode type va low hit
  have cached := good mode type va low hit
  show _ = some ((tlbLookup mode type (va >>> 12) s).ppn ||| (va &&& 0xFFF)).toNat
  rw [← cached]
  unfold answer at cached ⊢
  obtain ⟨⟨p, leaf⟩, found, -⟩ := Option.map_eq_some_iff.mp cached
  obtain ⟨searched, fits, physical⟩ := translate_eq_some found
  have root : (s.setCsr .mstatus mstatus).root = s.root := rfl
  have world : (s.setCsr .mstatus mstatus).world = s.world := rfl
  have access : walkAccess (s.setCsr .mstatus mstatus) type mode =
      accessOf type (mode == supervisorMode) (Mstatus.sum.get mstatus == 1#1)
        (Mstatus.mxr.get mstatus == 1#1) := rfl
  have fits' : usable scheme (walkAccess (s.setCsr .mstatus mstatus) type mode) leaf = true := by
    unfold usable at fits ⊢
    rw [Bool.and_eq_true] at fits ⊢
    refine ⟨?_, fits.2⟩
    rw [access]
    apply permitted_of_kept fits.1
    · intro supervisor data user wasSet
      by_contra cleared
      exact kept ⟨mode, type, va, leaf, low, hit, searched,
        .inl ⟨by simpa using wasSet, by simpa using cleared, by simpa using supervisor, data, user⟩⟩
    · intro load unreadable wasSet
      by_contra cleared
      exact kept ⟨mode, type, va, leaf, low, hit, searched,
        .inr ⟨by simpa using wasSet, by simpa using cleared, load, unreadable⟩⟩
  rw [root, world, found]
  unfold Sv.translate
  rw [searched, resolve_usable fits', physical]

/-! ## Runs -/

/-- What holds between two flushes. -/
structure Cached (scheme : Scheme) (mem : World → ByteMemory) (mapped : BitVec 64 → Prop)
    (s : Iss isa World) : Prop where
  paging : Paging scheme mem mapped s
  good : Good scheme mem s

theorem cached_translate (serves : plat.Serves mem reads scheme.pteSize mapped)
    (cached : Cached scheme mem mapped s) (va : BitVec 64) (type : MemoryAccessType)
    (small : LowMode (effectiveMode type s) →
      ∀ p, answer scheme mem s type (effectiveMode type s) va = some p → p < 2 ^ 32) :
    Cached scheme mem mapped ((translateVirtualToPhysicalAddr plat va type).run s).2 := by
  have paged := cached.paging.paged
  by_cases machine : effectiveMode type s = machineMode
  · rw [run_translate_machine paged machine]
    exact cached
  by_cases low : LowMode (effectiveMode type s)
  case neg =>
    rw [run_translate_unknown paged machine low]
    exact cached
  by_cases hit : (tlbLookup (effectiveMode type s) type (va >>> 12) s).vpn = va >>> 12
  · rw [run_translate_hit paged rfl low hit]
    exact cached
  rw [run_translate_miss paged rfl low hit]
  obtain ⟨result, w, ran, outcome, same⟩ := walk_outcome serves cached.paging low va type
  have paging := paging_withWorld cached.paging same
  cases result with
  | error e =>
    rw [Exec.run_bind_error ran]
    exact ⟨paging, good_withWorld cached.good same⟩
  | ok paddr =>
    rw [Exec.run_bind_ok ran]
    exact ⟨⟨paging.on, paging.tables⟩, good_fill serves cached.paging cached.good low ran
      (small low _ outcome.of_ok) same⟩

theorem cached_step (serves : plat.Serves mem reads scheme.pteSize mapped) {t : Iss isa World}
    (cached : Cached scheme mem mapped s) (step : HarmlessStep plat scheme mem s t) :
    Cached scheme mem mapped t := by
  obtain ⟨a, tables, harmless, rfl⟩ := step
  cases a with
  | translate va type => exact cached_translate serves cached va type harmless
  | status mstatus =>
    exact ⟨⟨cached.paging.on, cached.paging.tables⟩, good_status cached.good harmless⟩
  | privilege level => exact ⟨⟨cached.paging.on, cached.paging.tables⟩, cached.good⟩
  | others w => exact ⟨paging_withWorld cached.paging tables, good_withWorld cached.good tables⟩

theorem cached_flushed (paging : Paging scheme mem mapped s) :
    Cached scheme mem mapped s.flushed where
  paging := ⟨paging.on, paging.tables⟩
  good mode type va _ hit := absurd hit (flushed_miss s mode type va)

/-- After any harmless run since the last flush, the TLB cannot be seen. -/
theorem transparent_of_run (serves : plat.Serves mem reads scheme.pteSize mapped)
    (paging : Paging scheme mem mapped s) {t : Iss isa World}
    (run : Relation.ReflTransGen (HarmlessStep plat scheme mem) s.flushed t) :
    Transparent plat t := by
  have cached : Cached scheme mem mapped t := by
    induction run with
    | refl => exact cached_flushed paging
    | tail _ step ih => exact cached_step serves ih step
  exact transparent_of_good serves cached.paging cached.good

end Keep

/-! ## Both kinds of harm -/

theorem entryAt_repeating (entry : BitVec 64) {addr : Nat} (aligned : addr % 8 = 0) :
    entryAt .sv39 (repeating entry) addr = entry.toNat := by
  unfold entryAt
  refine congrArg BitVec.toNat (BitVec.eq_of_getLsbD_eq fun j bound => ?_)
  have inWord : j < 64 := bound
  have byte : j = 8 * (j / 8) + j % 8 := by omega
  have bit := (repeating entry).getLsbD_read (BitVec.ofNat 64 addr) 8 (j / 8) (j % 8)
    (by omega) (by omega)
  rw [← byte] at bit
  refine bit.trans ?_
  have place : (BitVec.ofNat 64 addr + BitVec.ofNat 64 (j / 8)).toNat % 8 = j / 8 := by
    rw [BitVec.toNat_add, BitVec.toNat_ofNat, BitVec.toNat_ofNat]
    omega
  unfold repeating
  rw [place, BitVec.getLsbD_extractLsb', ← byte, decide_eq_true (by omega), Bool.true_and]
  rfl

/-- A supervisor under Sv39, with `mstatus` as given and every entry the same. -/
def sameEntryCore (mstatus : Word .rv64) (entry : BitVec 64) : Iss .rv64 Flat :=
  (pagedCore 0x8000000000000001 supervisorMode ⟨repeating entry, 0, none⟩).setCsr .mstatus mstatus

theorem sameEntryCore_paging (mstatus : Word .rv64) {entry : BitVec 64}
    (reserved : entry.toNat < 2 ^ 54) :
    Paging .sv39 Flat.bytes (fun _ => True) (sameEntryCore mstatus entry) where
  on := by
    rw [show (sameEntryCore mstatus entry).csrs.reg .satp = 0x8000000000000001#64 from rfl]
    rfl
  tables va addr among := by
    refine ⟨trivial, ?_⟩
    have read := entryAt_repeating entry (search_aligned addr among)
    exact read ▸ reserved

/-- A gigapage below 4 GiB, loaded from. -/
theorem transparent_gigapage :
    Transparent Flat.platform
      (MmuAction.apply Flat.platform (.translate 0x12345678 .load) (sameEntryCore 0 0x0F).flushed) := by
  have paging := sameEntryCore_paging 0 (show (0x0F : BitVec 64).toNat < 2 ^ 54 by decide)
  refine transparent_of_run (Flat.serves 8) paging (.single ?_)
  refine ⟨.translate 0x12345678 .load, trivial, fun _ p found => ?_, rfl⟩
  have only : answer .sv39 Flat.bytes (sameEntryCore 0 0x0F).flushed .load supervisorMode
      0x12345678 = some 0x12345678 := by decide
  cases only.symm.trans found
  decide

/-- `SUM`, in `mstatus`. -/
def sumBit : Word .rv64 := 0x40000

/-- A user page, loaded from under `SUM`, before `SUM` is cleared. -/
def withdrawnRun : Iss .rv64 Flat :=
  MmuAction.apply Flat.platform (.status 0)
    (MmuAction.apply Flat.platform (.translate 0x1000 .load) (sameEntryCore sumBit 0x1F).flushed)

/-- A gigapage at 4 GiB, loaded from. -/
def highRun : Iss .rv64 Flat :=
  MmuAction.apply Flat.platform (.translate 0x1000 .load) (sameEntryCore 0 0x4000000F).flushed

/-- The TLB can be seen: it lets a load through that a walk would refuse, and it
forgets the upper half of a page address. -/
theorem tlb_visible :
    (Paging .sv39 Flat.bytes (fun _ => True) (sameEntryCore sumBit 0x1F) ∧
      Relation.ReflTransGen (MmuStep Flat.platform .sv39 Flat.bytes)
        (sameEntryCore sumBit 0x1F).flushed withdrawnRun ∧
      ¬ Transparent Flat.platform withdrawnRun) ∧
    (Paging .sv39 Flat.bytes (fun _ => True) (sameEntryCore 0 0x4000000F) ∧
      Relation.ReflTransGen (MmuStep Flat.platform .sv39 Flat.bytes)
        (sameEntryCore 0 0x4000000F).flushed highRun ∧
      ¬ Transparent Flat.platform highRun) := by
  refine ⟨⟨sameEntryCore_paging _ (by decide), ?_, fun same => ?_⟩,
    ⟨sameEntryCore_paging _ (by decide), ?_, fun same => ?_⟩⟩
  · exact .tail (.single ⟨.translate 0x1000 .load, trivial, rfl⟩) ⟨.status 0, trivial, rfl⟩
  · have cached : ((translateVirtualToPhysicalAddr Flat.platform 0x1000 .load).run
        withdrawnRun).1 = .ok 0x1000 := by decide
    have fresh : ((translateVirtualToPhysicalAddr Flat.platform 0x1000 .load).run
        withdrawnRun.flushed).1 = .error (.trap ⟨.loadPageFault, 0x1000⟩) := by decide
    cases cached.symm.trans ((same 0x1000 .load).trans fresh)
  · exact .single ⟨.translate 0x1000 .load, trivial, rfl⟩
  · have cached : ((translateVirtualToPhysicalAddr Flat.platform 0x1000 .load).run
        highRun).1 = .ok 0x1000 := by decide
    have fresh : ((translateVirtualToPhysicalAddr Flat.platform 0x1000 .load).run
        highRun.flushed).1 = .ok 0x100001000 := by decide
    cases cached.symm.trans ((same 0x1000 .load).trans fresh)

end RiscvVp.Iss
