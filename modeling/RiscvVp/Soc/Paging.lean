/-
# RiscvVp.Soc.Paging -- programs in virtual memory

Under Sv32, Sv39 or Sv48 the addresses of a program go through the page tables of its core to the
memories.  Where the tables are set up for the program, `A` and `D` included, and out of its own
reach, it runs as on the machine of the ISA: neither the walks nor the TLB show.
-/
import RiscvVp.Iss.Tlb
import RiscvVp.Soc.Simulation

namespace RiscvVp

set_option autoImplicit false

open Lib Iss Sv

variable {isa : Isa}

namespace Soc

variable {Dev : Type} {soc : Soc Dev} {base : Platform (SocState Dev)} {windows memories : List MemoryDMI}
  {s t : Iss isa (SocState Dev)} {scheme : Scheme} {type : MemoryAccessType} {va pa : BitVec 64}

/-! ## A walk that reads -/

/-- An entry in one of the memories, with no reserved bit set. -/
def Backed (memories : List MemoryDMI) (scheme : Scheme) (m : ByteMemory) (addr : Nat) : Prop :=
  entryAt scheme m addr < 2 ^ 54 ∧ ∃ e ∈ memories, e.Holds (BitVec.ofNat 64 addr) scheme.pteSize

section Walk

variable (wired : soc.Wired s.world windows) (covers : ∀ e ∈ memories, soc.Covers s.world e)
  (free : OpenTo s.hartId s.world)

include wired free

theorem run_loadPte {e : MemoryDMI} (covers : soc.Covers s.world e) {addr root : BitVec 64}
    (holds : e.Holds addr scheme.pteSize) :
    (loadPte (soc.platform base windows) (vmInfo scheme root) addr).run s =
      (.ok (pteOf scheme (soc.bytes s.world) addr), s) := by
  have positive : 0 < scheme.pteSize := by cases scheme <;> decide
  have loaded : (rawLoadData (soc.platform base windows) addr scheme.pteSize).run s =
      (.ok ((soc.bytes s.world).read addr scheme.pteSize), s) := by
    unfold rawLoadData
    rw [Exec.run_read_bind]
    exact run_onWorld (run_rawLoadData wired covers positive holds free)
  unfold loadPte
  cases scheme with
  | sv32 => exact Exec.run_bind_ok loaded
  | sv39 =>
    rw [show pteOf .sv39 (soc.bytes s.world) addr = (soc.bytes s.world).read addr 8 from
      BitVec.setWidth_eq _]
    exact loaded
  | sv48 =>
    rw [show pteOf .sv48 (soc.bytes s.world) addr = (soc.bytes s.world).read addr 8 from
      BitVec.setWidth_eq _]
    exact loaded

include covers

/-- The induction is on the levels; each reads its entry and leaves the core as it is. -/
theorem run_walkLevels {root : BitVec 64} {sMode sum mxr : Bool} {i : Nat} {base' : BitVec 64}
    {leaf : Leaf} (levels : i ≤ scheme.levels) (inside : base'.toNat < 2 ^ 56)
    (backed : ∀ addr ∈ (find scheme (soc.bytes s.world) va.toNat i base'.toNat).1,
      Backed memories scheme (soc.bytes s.world) addr)
    (found : (find scheme (soc.bytes s.world) va.toNat i base'.toNat).2 = some leaf)
    (fits : usable scheme (accessOf type sMode sum mxr) leaf = true) (flagged : Flagged type leaf) :
    ∃ pa, (walkLevels (soc.platform base windows) (vmInfo scheme root) va type sMode sum mxr i
      base').run s = (.ok pa, s) ∧ pa.toNat = physical scheme va.toNat leaf := by
  induction i generalizing base' with
  | zero => cases found
  | succ i ih =>
    unfold walkLevels
    have location := (ptePaddr_toNat scheme root va base' i inside).symm
    generalize ptePaddr (vmInfo scheme root) va base' i = addr at *
    have entry := (pteOf_toNat scheme (soc.bytes s.world) addr).symm
    have width := entryAt_lt scheme (soc.bytes s.world) addr.toNat
    obtain ⟨reserved, e, known, holds⟩ := backed _ (addr_mem_find location entry)
    rw [BitVec.ofNat_toNat, BitVec.setWidth_eq] at holds
    rw [Exec.run_bind_ok (run_loadPte wired free (covers e known) holds)]
    rw [entry] at width reserved
    generalize pteOf scheme (soc.bytes s.world) addr = pte at *
    by_cases bad : (!pte.V || (!pte.R && pte.W)) = true
    · rw [find_of_invalid location entry bad] at found
      cases found
    rw [if_neg bad]
    by_cases pointer : (!pte.R && !pte.X) = true
    · have descend : ¬ (pte.R || pte.X) = true := by
        revert pointer
        cases pte.R <;> cases pte.X <;> decide
      rw [find_of_pointer location entry bad descend] at backed found
      rw [if_pos pointer]
      have table := table_toNat width reserved
      have bound := ppn_lt scheme pte.toNat
      rw [← table] at backed found
      exact ih (Nat.le_of_succ_le levels) (by omega)
        (fun a among => backed a (List.mem_cons_of_mem _ among)) found
    have last : (pte.R || pte.X) = true := by
      revert pointer
      cases pte.R <;> cases pte.X <;> decide
    have sound : ¬ (!pte.R && pte.W) = true := fun h => bad (by rw [h, Bool.or_true])
    rw [find_of_leaf location entry bad last] at found
    cases found
    have aligned : Entry.ppn scheme pte.toNat % 2 ^ (i * scheme.vpnBits) = 0 := by
      unfold usable at fits
      simpa using (Bool.and_eq_true_iff.mp fits).2
    have set : pte &&& adBits type = adBits type := by
      apply BitVec.eq_of_toNat_eq
      have short : (flags type).toNat < 2 ^ 64 := by have := (flags type).isLt; omega
      rw [adBits_eq_flags, BitVec.toNat_and, BitVec.toNat_setWidth, Nat.mod_eq_of_lt short]
      exact flagged
    rw [if_neg pointer, show (vmInfo scheme root).idxbits = scheme.vpnBits from rfl,
      leafAllowed_eq_usable levels width reserved sound type sMode sum mxr addr.toNat, fits, Bool.not_true,
      if_neg Bool.false_ne_true, Exec.when_neg (not_not.mpr set)]
    exact ⟨_, rfl, leafAddress_toNat levels width reserved va addr.toNat aligned⟩

theorem run_walk {mode : PrivilegeLevel} {leaf : Leaf} {p : Nat}
    (on : Scheme.active isa (Satp.mode (s.csrs.reg .satp)) = some scheme) (low : LowMode mode)
    (goes : Sv.translate scheme (soc.bytes s.world) s.root va.toNat (walkAccess s type mode) = some (p, leaf))
    (backed : ∀ addr ∈ (search scheme (soc.bytes s.world) s.root va.toNat).1,
      Backed memories scheme (soc.bytes s.world) addr)
    (flagged : Flagged type leaf) :
    ∃ pa, (walk (soc.platform base windows) va type mode).run s = (.ok pa, s) ∧ pa.toNat = p := by
  obtain ⟨found, fits, rfl⟩ := translate_eq_some goes
  have root : s.root * 2 ^ 12 = (Satp.ppn (s.csrs.reg .satp) <<< 12).toNat :=
    (root_toNat (s.csrs.reg .satp)).symm
  have bound : s.root < 2 ^ 44 := satpPpn_lt (s.csrs.reg .satp)
  unfold walk
  rw [run_readField_bind, run_readField_bind, Exec.run_bind_ok (run_decodeVmInfo on low),
    checkVaddrExtension_eq_canonical on]
  unfold search at found backed
  by_cases inRange : canonical scheme va.toNat = true
  · rw [if_pos inRange, root] at found backed
    have inside : (Satp.ppn (s.csrs.reg .satp) <<< 12).toNat < 2 ^ 56 := by omega
    rw [if_pos inRange]
    exact run_walkLevels wired covers free (Nat.le_refl _) inside backed found fits flagged
  · rw [if_neg inRange] at found
    cases found

end Walk

/-! ## The program's part of the tables -/

/-- Where the addresses of a program go, and which of them it takes its instructions and its data
from. -/
structure Pages where
  table : Table
  code : BitVec 64 → Bool
  data : BitVec 64 → Bool

namespace Pages

variable (pages : Pages)

def allows : MemoryAccessType → BitVec 64 → Bool
  | .fetch => pages.code
  | .load | .store => pages.data

/-- The `n` bytes from `va` on go to `n` bytes of one memory. -/
def reaches (memories : List MemoryDMI) (va : BitVec 64) (n : Nat) : Bool :=
  (pages.table.place va).any fun pa =>
    decide (pages.table.Straight va pa n) &&
      memories.any fun e => decide (e.start ≤ pa ∧ pa.toNat + n ≤ e.stop.toNat)

def space (memories : List MemoryDMI) : Spec.Space where
  code pc := pages.code pc && pages.reaches memories pc 4
  data va n := pages.data va && pages.reaches memories va n

variable {pages} {n : Nat}

theorem of_reaches (reached : pages.reaches memories va n = true) : ∃ pa, pages.table.place va = some pa ∧
    pages.table.Straight va pa n ∧ ∃ e ∈ memories, e.Holds pa n := by
  unfold reaches at reached
  cases goes : pages.table.place va with
  | none =>
    rw [goes] at reached
    cases reached
  | some pa =>
    rw [goes, Option.any_some, Bool.and_eq_true, decide_eq_true_eq, List.any_eq_true] at reached
    obtain ⟨straight, e, known, inside⟩ := reached
    have holds : e.start ≤ pa ∧ pa.toNat + n ≤ e.stop.toNat := of_decide_eq_true inside
    exact ⟨pa, rfl, straight, e, known, holds⟩

end Pages

variable {pages : Pages}

/-- The tables of the core translate `va` to `pa`, below 4 GiB.  The flags are set: a walk that has
to set them stores, and every store gives the bus lock back, also the one of a read-modify-write. -/
structure Maps (soc : Soc Dev) (memories : List MemoryDMI) (scheme : Scheme) (s : Iss isa (SocState Dev))
    (type : MemoryAccessType) (va pa : BitVec 64) : Prop where
  goes : ∃ leaf, Sv.translate scheme (soc.bytes s.world) s.root va.toNat (walkAccess s type s.prv) =
    some (pa.toNat, leaf) ∧ Flagged type leaf
  small : pa.toNat < 2 ^ 32
  backed : ∀ addr ∈ (search scheme (soc.bytes s.world) s.root va.toNat).1,
    Backed memories scheme (soc.bytes s.world) addr

/-- A core in user or supervisor mode whose tables do for the program what `pages` says, from where
the program does not get at them, and whose TLB says nothing else. -/
structure Paged (soc : Soc Dev) (base : Platform (SocState Dev)) (windows memories : List MemoryDMI)
    (scheme : Scheme) (pages : Pages) (s : Iss isa (SocState Dev)) : Prop where
  wired : soc.Wired s.world windows
  covers : ∀ e ∈ memories, soc.Covers s.world e
  free : OpenTo s.hartId s.world
  mmu : ¬ (isa = .rv32 ∧ base.hasMmu = false)
  interface : base.instrMem = none
  on : Scheme.active isa (Satp.mode (s.csrs.reg .satp)) = some scheme
  low : LowMode s.prv
  mprv : Mstatus.mprv.get (s.csrs.reg .mstatus) = 0#1
  maps : ∀ {type va pa}, pages.allows type va = true → pages.table.place va = some pa →
    Maps soc memories scheme s type va pa
  apart : ∀ {type va}, pages.allows type va = true → (pages.table.place va).isSome →
    ∀ addr ∈ (search scheme (soc.bytes s.world) s.root va.toNat).1, ∀ k < scheme.pteSize, ∀ b,
      pages.table.place b ≠ some (BitVec.ofNat 64 addr + BitVec.ofNat 64 k)
  cached : ∀ {type va pa}, pages.allows type va = true → pages.table.place va = some pa →
    (tlbLookup s.prv type (va >>> 12) s).vpn = va >>> 12 →
      (tlbLookup s.prv type (va >>> 12) s).ppn ||| (va &&& 0xFFF) = pa

namespace Paged

/-! ## The way to the memories -/

section Translation

variable (paged : Paged soc base windows memories scheme pages s) (allowed : pages.allows type va = true)
  (goes : pages.table.place va = some pa)

include paged

theorem mode_eq : effectiveMode type s = s.prv := by
  unfold effectiveMode
  refine if_neg fun both => ?_
  have unset := paged.mprv
  rw [both.2] at unset
  cases unset

/-- Another TLB that is right. -/
theorem of_tlb (tlb : Tlb) (cached : ∀ {type va pa}, pages.allows type va = true →
    pages.table.place va = some pa → (tlb s.prv type ((va >>> 12).setWidth 8)).vpn = va >>> 12 →
      (tlb s.prv type ((va >>> 12).setWidth 8)).ppn ||| (va &&& 0xFFF) = pa) :
    Paged soc base windows memories scheme pages { s with tlb := tlb } where
  wired := paged.wired
  covers := paged.covers
  free := paged.free
  mmu := paged.mmu
  interface := paged.interface
  on := paged.on
  low := paged.low
  mprv := paged.mprv
  maps allowed goes :=
    have there := paged.maps allowed goes
    ⟨there.goes, there.small, there.backed⟩
  apart := paged.apart
  cached := cached

include allowed goes

theorem run_walk : (walk (soc.platform base windows) va type s.prv).run s = (.ok pa, s) := by
  obtain ⟨⟨leaf, found, flagged⟩, -, backed⟩ := paged.maps allowed goes
  obtain ⟨p, walked, number⟩ : ∃ p, (walk (soc.platform base windows) va type s.prv).run s = (.ok p, s) ∧
      p.toNat = pa.toNat :=
    Soc.run_walk paged.wired paged.covers paged.free paged.on paged.low found backed flagged
  rw [walked, BitVec.eq_of_toNat_eq number]

/-- What the walk for an address of a page has found is right for the others. -/
theorem ppn_eq {va' pa' : BitVec 64} (page : va >>> 12 = va' >>> 12) (allowed' : pages.allows type va' = true)
    (goes' : pages.table.place va' = some pa') : TlbEntry.pageOf pa ||| (va' &&& 0xFFF) = pa' := by
  obtain ⟨frame, whole, here, there⟩ :=
    samePage_walk page (soc.platform base windows) type s.prv (paged.run_walk allowed goes)
  rw [paged.run_walk allowed' goes'] at there
  cases there
  have small := (paged.maps allowed goes).small
  have sum := page_or_toNat whole va
  rw [← here] at sum
  rw [here, pageOf_or, pageOf_eq whole (by omega)]

/-- An address is translated as `pages` says, by the TLB or by a walk, and the TLB stays right. -/
theorem run_v2p :
    ∃ tlb, (v2p (soc.platform base windows) va type).run s = (.ok pa, { s with tlb := tlb }) ∧
      Paged soc base windows memories scheme pages { s with tlb := tlb } := by
  have mmu : ¬ (isa = .rv32 ∧ (soc.platform base windows).hasMmu = false) := paged.mmu
  have active : Satp.mode (s.csrs.reg .satp) ≠ Satp.bare := by
    intro bare
    have on := paged.on
    rw [bare] at on
    cases isa <;> cases on
  unfold v2p
  rw [if_neg mmu]
  by_cases hit : (tlbLookup s.prv type (va >>> 12) s).vpn = va >>> 12
  · rw [run_translate_hit active paged.mode_eq paged.low hit, paged.cached allowed goes hit]
    exact ⟨s.tlb, rfl, paged⟩
  rw [run_translate_miss active paged.mode_eq paged.low hit, Exec.run_bind_ok (paged.run_walk allowed goes)]
  refine ⟨_, rfl, paged.of_tlb _ fun {type' va' pa'} allowed' goes' => ?_⟩
  -- the entry that is filled in, or one that was there
  split
  case isTrue filled =>
    obtain ⟨-, rfl, -⟩ := filled
    exact fun page => paged.ppn_eq allowed goes page allowed' goes'
  case isFalse => exact paged.cached allowed' goes'

end Translation

/-! ## What leaves the tables alone -/

/-- Nothing that a translation looks at has changed. -/
theorem of_same (paged : Paged soc base windows memories scheme pages s)
    (reg : ∀ c, c ≠ .mip → t.csrs.reg c = s.csrs.reg c) (prv : t.prv = s.prv)
    (covers : ∀ e, soc.Covers s.world e → soc.Covers t.world e) (free : OpenTo t.hartId t.world)
    (tlb : t.tlb = s.tlb)
    (entries : ∀ {type va}, pages.allows type va = true → (pages.table.place va).isSome →
      ∀ addr ∈ (search scheme (soc.bytes s.world) s.root va.toNat).1,
        entryAt scheme (soc.bytes t.world) addr = entryAt scheme (soc.bytes s.world) addr) :
    Paged soc base windows memories scheme pages t := by
  have root : t.root = s.root := by
    unfold root
    rw [reg .satp nofun]
  have access : ∀ type, walkAccess t type t.prv = walkAccess s type s.prv := by
    intro type
    unfold walkAccess
    rw [reg .mstatus nofun, prv]
  have lookup : ∀ type vpn, tlbLookup t.prv type vpn t = tlbLookup s.prv type vpn s := by
    intro type vpn
    unfold tlbLookup
    rw [tlb, prv]
  have searches : ∀ {type va}, pages.allows type va = true → (pages.table.place va).isSome →
      search scheme (soc.bytes t.world) t.root va.toNat =
        search scheme (soc.bytes s.world) s.root va.toNat := by
    intro type va allowed goes
    rw [root]
    exact search_congr (entries allowed goes)
  refine
    { wired := ⟨fun e known => covers e (paged.wired.covers e known), paged.wired.disjoint⟩
      covers := fun e known => covers e (paged.covers e known)
      free := free
      mmu := paged.mmu
      interface := paged.interface
      on := by rw [reg .satp nofun]; exact paged.on
      low := prv ▸ paged.low
      mprv := by rw [reg .mstatus nofun]; exact paged.mprv
      maps := fun {type va pa} allowed goes => ?_
      apart := fun {type va} allowed goes => ?_
      cached := fun {type va pa} allowed goes => ?_ }
  · have some : (pages.table.place va).isSome := by rw [goes]; rfl
    have same := searches allowed some
    obtain ⟨found, small, backed⟩ := paged.maps allowed goes
    refine ⟨?_, small, fun addr among => ?_⟩
    · unfold Sv.translate at found ⊢
      rw [same, access]
      exact found
    · rw [same] at among
      unfold Backed
      rw [entries allowed some addr among]
      exact backed addr among
  · rw [searches allowed goes]
    exact paged.apart allowed goes
  · rw [lookup]
    exact paged.cached allowed goes

theorem of_kept (paged : Paged soc base windows memories scheme pages s) (kept : Kept soc s t)
    (tlb : t.tlb = s.tlb) (bytes : soc.bytes t.world = soc.bytes s.world) :
    Paged soc base windows memories scheme pages t :=
  paged.of_same kept.reg kept.prv kept.covers (kept.hartId ▸ kept.free paged.free) tlb
    fun _ _ _ _ => by rw [bytes]

/-- The program's own stores do not get at the tables. -/
theorem of_stored (paged : Paged soc base windows memories scheme pages s) (kept : Kept soc s t)
    (tlb : t.tlb = s.tlb) {n : Nat} (straight : pages.table.Straight va pa n) (value : BitVec (8 * n))
    (bytes : soc.bytes t.world = (soc.bytes s.world).write pa n value) :
    Paged soc base windows memories scheme pages t := by
  refine paged.of_same kept.reg kept.prv kept.covers (kept.hartId ▸ kept.free paged.free) tlb ?_
  intro type va' allowed goes addr among
  refine congrArg BitVec.toNat (ByteMemory.read_congr fun k inside => ?_)
  rw [bytes]
  refine if_neg fun near => ?_
  have there := straight _ near
  rw [ByteMemory.add_offset] at there
  exact paged.apart allowed goes addr among k inside _ there

end Paged

/-! ## The route -/

section Route

variable (paged : Paged soc base windows memories scheme pages s)

include paged

/-- The word at an address of the code. -/
theorem run_loadInstr_paged (held : (pages.space memories).code va = true) :
    ∃ tlb, (loadInstr (soc.platform base windows) va).run s =
      (.ok ((pages.table.view (soc.bytes s.world)).read va 4), { s with tlb := tlb }) ∧
        Paged soc base windows memories scheme pages { s with tlb := tlb } := by
  obtain ⟨fetched, reached⟩ := (Bool.and_eq_true _ _).mp held
  obtain ⟨pa, goes, straight, e, known, holds⟩ := Pages.of_reaches reached
  have allowed : pages.allows .fetch va = true := fetched
  obtain ⟨tlb, ran, paged'⟩ := paged.run_v2p allowed goes
  have interface : (soc.platform base windows).instrMem = none := paged.interface
  have positive : 0 < 4 := by decide
  refine ⟨tlb, ?_, paged'⟩
  unfold loadInstr
  rw [interface, Table.view_read straight]
  dsimp only
  unfold combinedLoadInstr
  rw [Exec.run_bind_ok ran]
  unfold rawLoadData
  rw [Exec.run_read_bind]
  exact run_onWorld (run_rawLoadData paged'.wired (paged'.covers e known) positive holds paged'.free)

theorem Paged.of_lock (lock : BusLock) (free : OpenTo s.hartId { s.world with lock := lock }) :
    Paged soc base windows memories scheme pages (s.withWorld { s.world with lock := lock }) :=
  paged.of_same (fun _ _ => rfl) rfl (fun _ => covers_of_memory rfl) free rfl fun _ _ _ _ => rfl

end Route

/-- An address of the data is translated for loads and for stores. -/
theorem leads_paged (stored : pages.data va = true) (goes : pages.table.place va = some pa)
    (other : type ≠ .fetch) : Leads (soc.platform base windows)
      (Paged soc base windows memories scheme pages : Iss isa (SocState Dev) → Prop) type va pa where
  run paged := by
    have allowed : pages.allows type va = true := by
      cases type with
      | fetch => exact absurd rfl other
      | load => exact stored
      | store => exact stored
    exact paged.run_v2p allowed goes

theorem data_paged {n : Nat} (held : (pages.space memories).data va n = true) :
    ∃ pa, pages.table.Straight va pa n ∧ (∃ e ∈ memories, e.Holds pa n) ∧
      (∀ {type}, type ≠ .fetch → Leads (soc.platform base windows)
        (Paged soc base windows memories scheme pages : Iss isa (SocState Dev) → Prop) type va pa) ∧
      ∀ {s t : Iss isa (SocState Dev)} (value : BitVec (8 * n)),
        Paged soc base windows memories scheme pages s → Kept soc s t → t.tlb = s.tlb →
          soc.bytes t.world = (soc.bytes s.world).write pa n value →
            Paged soc base windows memories scheme pages t := by
  obtain ⟨stored, reached⟩ := (Bool.and_eq_true _ _).mp held
  obtain ⟨pa, goes, straight, there⟩ := Pages.of_reaches reached
  exact ⟨pa, straight, there, leads_paged stored goes, fun value paged kept tlb bytes =>
    paged.of_stored kept tlb straight value bytes⟩

/-- The addresses of the program go where the page tables say. -/
def translated (soc : Soc Dev) (base : Platform (SocState Dev)) (windows memories : List MemoryDMI)
    (scheme : Scheme) (pages : Pages) : Route isa soc base windows memories where
  table := pages.table
  space := pages.space memories
  Inv := Paged soc base windows memories scheme pages
  kept := Paged.of_kept
  lock lock paged := paged.of_lock lock
  code _ := run_loadInstr_paged
  data := data_paged

/-- A program in virtual memory that stays on its pages and needs no trap: as many steps of the
simulator as of the machine lead to the program counter, the registers and the bytes of the machine,
whatever of it the TLB holds. -/
theorem program_translated (alone : Alone base) {m m' : Spec.Machine isa}
    (follows : (translated soc base windows memories scheme pages).Follows s m) {n : Nat}
    (ran : steps (Spec.Machine.step (pages.space memories)) n m = some m') :
    ∃ t, steps (runStep (soc.platform base windows)).next n s = some t ∧
      (translated soc base windows memories scheme pages).Follows t m' :=
  ((translated soc base windows memories scheme pages).simulates alone).run follows ran

end Soc

/-! ### A store of a supervisor on `hifive` -/

namespace Hifive

open Iss Soc Sv

/-- `sw x2, 0(x2)` at the start of the flash, and behind it a table of Sv32, whose second entry is
the megapage of the flash. -/
def storing : ByteMemory :=
  ByteMemory.write (ByteMemory.write (fun _ => 0) 0 4 0x00212023) 0x1004 4 0x080000CF

/-- In the second megapage, with `x2` to a word of it. -/
def supervisor : Iss .rv32 (SocState Unit) :=
  { (reset 0 false 0x400000 0x400800 (flashed storing)).setCsr .satp 0x80020001 with prv := supervisorMode }

/-- Where the program and its data are. -/
def megapage : Pages where
  table :=
    { place := fun va =>
        if 0x400000 ≤ va ∧ va < 0x400004 ∨ 0x400800 ≤ va ∧ va < 0x400804 then some (va + 0x1FC00000)
        else none
      injective := by
        intro a b p first second
        split at first
        case isFalse => cases first
        split at second
        case isFalse => cases second
        exact (BitVec.add_left_inj _).mp (Option.some.inj (first.trans second.symm)) }
  code va := va == 0x400000
  data va := va == 0x400800

/-- The devices, with the MMU of the core. -/
def withMmu : Platform (SocState Unit) := { devices with hasMmu := true }

section Megapage

variable {type : MemoryAccessType} {va pa : BitVec 64} (allowed : megapage.allows type va = true)

include allowed

theorem mapped_megapage :
    va = 0x400000 ∧ type = .fetch ∨ va = 0x400800 ∧ type ≠ .fetch := by
  cases type with
  | fetch => exact .inl ⟨eq_of_beq allowed, rfl⟩
  | load => exact .inr ⟨eq_of_beq allowed, nofun⟩
  | store => exact .inr ⟨eq_of_beq allowed, nofun⟩

theorem search_megapage :
    search .sv32 (soc.bytes supervisor.world) supervisor.root va.toNat =
      ([0x20001004], some ⟨1, 0x20001004, 0x080000CF⟩) := by
  rcases mapped_megapage allowed with ⟨rfl, -⟩ | ⟨rfl, -⟩ <;> decide

theorem maps_megapage (goes : megapage.table.place va = some pa) :
    Maps soc [dramDmi, flashDmi] .sv32 supervisor type va pa := by
  have flagged : ∀ type, Flagged type ⟨1, 0x20001004, 0x080000CF⟩ := by
    intro type
    unfold Flagged
    cases type <;> decide
  have backed : ∀ addr ∈ (search .sv32 (soc.bytes supervisor.world) supervisor.root va.toNat).1,
      Backed [dramDmi, flashDmi] .sv32 (soc.bytes supervisor.world) addr := by
    intro addr among
    rw [search_megapage allowed, List.mem_singleton] at among
    subst among
    refine ⟨by decide, flashDmi, by simp, ?_⟩
    unfold MemoryDMI.Holds
    decide
  rcases mapped_megapage allowed with ⟨rfl, rfl⟩ | ⟨rfl, other⟩
  · have place : megapage.table.place 0x400000 = some 0x20000000 := by decide
    cases place.symm.trans goes
    exact ⟨⟨_, by decide, flagged _⟩, by decide, backed⟩
  · have place : megapage.table.place 0x400800 = some 0x20000800 := by decide
    cases place.symm.trans goes
    cases type with
    | fetch => exact absurd rfl other
    | load | store => exact ⟨⟨_, by decide, flagged _⟩, by decide, backed⟩

end Megapage

theorem paged_supervisor :
    Paged soc withMmu [dramDmi, flashDmi] [dramDmi, flashDmi] .sv32 megapage supervisor where
  wired := (calm_booted storing).ready.wired
  covers := (calm_booted storing).covers
  free := nofun
  mmu both := Bool.noConfusion both.2
  interface := rfl
  on := by decide
  low := .inr rfl
  mprv := by decide
  maps := maps_megapage
  apart := by
    intro type va allowed _ addr among k inside b there
    rw [search_megapage allowed, List.mem_singleton] at among
    subst among
    have short : k < 4 := inside
    unfold megapage at there
    dsimp only at there
    split at there
    case isTrue near =>
      have sum := Option.some.inj there
      bv_omega
    case isFalse => cases there
  cached _ _ hit := absurd hit (vpn_ne_allOnes _).symm

theorem steady_supervisor : Steady soc [dramDmi, flashDmi] [dramDmi, flashDmi] supervisor where
  wired := paged_supervisor.wired
  free := paged_supervisor.free
  covers := paged_supervisor.covers
  running := rfl
  masked := .inl rfl
  debug := rfl
  compressed := (calm_booted storing).compressed
  extends_ := (calm_booted storing).extends_
  zero := rfl
  even := by decide

/-- The machine that the core shows, in the addresses of the program. -/
def storingMachine : Spec.Machine .rv32 where
  pc := 0x400000
  regs := fun r => if r = 2 then 0x400800 else 0
  memory := megapage.table.view (soc.bytes (flashed storing))

/-- The word goes to the flash, by way of the megapage. -/
theorem program_translated_storing : ∃ t,
    steps (runStep (soc.platform withMmu [dramDmi, flashDmi])).next 1 supervisor = some t ∧
      t.pc = 0x400004 ∧ (soc.bytes t.world).read 0x20000800 4 = (0x400800 : BitVec 32) := by
  let acc : Spec.Access .rv32 := ⟨0x400800, 4, fun _ => none, fun _ => some 0x400800⟩
  have held : (megapage.space [dramDmi, flashDmi]).code 0x400000 = true := by decide
  have lies : storingMachine.memory.read 0x400000 4 = (0x00212023 : BitVec 32) := by decide
  have decodes : Spec.decode .rv32 0x00212023 = some (.sw, 0x00212023) := by decide
  have defined : Spec.access .rv32 0x00212023 (storingMachine.regs (Spec.rs1 0x00212023))
      (storingMachine.regs (Spec.rs2 0x00212023)) .sw = some acc := rfl
  have fits : acc.addr.toNat % acc.bytes = 0 ∧
      (megapage.space [dramDmi, flashDmi]).data acc.addr acc.bytes = true := by decide
  have stepped : storingMachine.step (megapage.space [dramDmi, flashDmi]) =
      some (storingMachine.touch 0x00212023 acc 0x400004) := by
    rw [Spec.Machine.step_of_word _ storingMachine held lies decodes]
    unfold Spec.Machine.perform
    rw [defined]
    exact if_pos fits
  have alone : Alone withMmu := ⟨fun _ => rfl, fun _ => rfl, fun _ => rfl⟩
  have start : (translated soc withMmu [dramDmi, flashDmi] [dramDmi, flashDmi] .sv32 megapage).Follows
      supervisor storingMachine := ⟨steady_supervisor, paged_supervisor, rfl, rfl, rfl⟩
  obtain ⟨t, ran, -, -, shows⟩ := program_translated alone start (steps_one stepped)
  have straight : megapage.table.Straight 0x400800 0x20000800 4 := by decide
  refine ⟨t, ran, shows.pc, ?_⟩
  rw [← Table.view_read straight]
  refine (congrArg (fun m : ByteMemory => m.read 0x400800 4) shows.bytes).trans ?_
  decide

end Hifive

end RiscvVp
