/-
# RiscvVp.Soc.ElfImage -- the image in the memory

The loader compares the ends of a section and of the memory in the type of the addresses, and refuses a
section that ends with the memory.  What it loads is the image as long as no section does, and none is so long
that its end wraps around to an address in front of the end of the memory.
-/
import RiscvVp.Lib.Patches
import RiscvVp.Soc.ElfLoader

namespace RiscvVp

set_option autoImplicit false

open Lib SimpleMemory

/-- The memory that an image is loaded to, with the addresses from `offset` on, and the choice of addresses. -/
structure LoadTarget (isa : Isa) where
  size : BitVec 32
  offset : Word isa
  useVaddr : Bool
  fits : offset.toNat + size.toNat ≤ 2 ^ isa.xlen

namespace LoadTarget

variable {isa : Isa} (target : LoadTarget isa) (p : Phdr isa)

/-- The first address behind the memory. -/
def stop : Nat := target.offset.toNat + target.size.toNat

/-- The first address of a section ... -/
def first : Nat := (p.addr target.useVaddr).toNat

/-- ... and the first one behind it. -/
def last : Nat := target.first p + p.memsz.toNat

def StartsIn : Prop := target.offset.toNat ≤ target.first p ∧ target.first p < target.stop

instance : DecidablePred target.StartsIn := fun _ => inferInstanceAs (Decidable (_ ∧ _))

/-- The section starts in the memory and goes on to its end at least. -/
def Reaches : Prop := target.StartsIn p ∧ target.stop ≤ target.last p

instance : DecidablePred target.Reaches := fun _ => inferInstanceAs (Decidable (_ ∧ _))

end LoadTarget

namespace ElfLoader

variable {isa : Isa} (l : ElfLoader isa) (target : LoadTarget isa)

/-- The bytes of a section at its addresses: those of the file, and zeros behind them. -/
def sections : Patches (Phdr isa) (BitVec 64) (BitVec 8) where
  covers p a := target.first p ≤ target.offset.toNat + a.toNat ∧ target.offset.toNat + a.toNat < target.last p
  decidable _ _ := inferInstanceAs (Decidable (_ ∧ _))
  value p a :=
    if target.offset.toNat + a.toNat < target.first p + p.filesz.toNat then
      l.elf (p.offset.setWidth 64 + BitVec.ofNat 64 (target.offset.toNat + a.toNat - target.first p))
    else 0

def placed (mem : SimpleMemory) (p : Phdr isa) : SimpleMemory :=
  { mem with data := (l.sections target).apply mem.data p }

/-- The loop takes the sections one by one: those that start elsewhere are left out, those that lie in the
memory are placed there, and for any other it throws. -/
def Decides : List (Phdr isa) → SimpleMemory → Prop
  | [], _ => True
  | p :: rest, mem =>
      let went := l.loadSection (target.size.setWidth _) target.offset target.useVaddr mem p
      if target.StartsIn p then
        if target.last p ≤ target.stop then went = .ok (l.placed target mem p) ∧ Decides rest (l.placed target mem p)
        else went = .error .loadExecutable
      else went = .ok mem ∧ Decides rest mem

/-- The whole image, from a memory with these bytes. -/
structure Loads (data : ByteMemory) : Prop where
  decides : l.Decides target l.getLoadSections ⟨data, target.size⟩
  bytes : ∀ mem, l.loadExecutableImage (target.size.setWidth _) target.offset target.useVaddr ⟨data, target.size⟩ =
    .ok mem → ∀ p ∈ l.getLoadSections, target.StartsIn p → ∀ a, (l.sections target).covers p a →
      mem.data a = (l.sections target).value p a
  others : ∀ mem, l.loadExecutableImage (target.size.setWidth _) target.offset target.useVaddr ⟨data, target.size⟩ =
    .ok mem → ∀ a, (∀ p ∈ l.getLoadSections, target.StartsIn p → ¬ (l.sections target).covers p a) →
      mem.data a = data a

/-- The end of the memory is an address, unless nothing is to be loaded there; and the first section that
reaches it ends behind it, also as an address. -/
structure EndsBehind : Prop where
  address : target.stop < 2 ^ isa.xlen ∨ ∀ p ∈ l.getLoadSections, ¬ target.StartsIn p
  behind : ∀ p, l.getLoadSections.find? (target.Reaches ·) = some p →
    target.stop < target.last p ∧ target.stop ≤ target.last p % 2 ^ isa.xlen

/-- The sections have room for their bytes of the file, and do not overlap. -/
structure WellFormed : Prop where
  sizes : ∀ p ∈ l.getLoadSections, p.filesz ≤ p.memsz
  apart : l.getLoadSections.Pairwise fun p q => target.last p ≤ target.first q ∨ target.last q ≤ target.first p

/-! ## One section -/

section Section

variable {mem : SimpleMemory}

theorem load_ok {dstAddr n : BitVec 64} (src : BitVec 64 → BitVec 8)
    (inside : dstAddr.toNat + n.toNat ≤ mem.size.toNat) : mem.load dstAddr n src = .ok ⟨fun a =>
      if dstAddr.toNat ≤ a.toNat ∧ a.toNat < dstAddr.toNat + n.toNat then src (a - dstAddr) else mem.data a,
      mem.size⟩ := by
  have bound := mem.size.isLt
  have asserted : dstAddr + n ≤ mem.size.setWidth 64 := by
    rw [BitVec.le_def, BitVec.toNat_add, BitVec.toNat_setWidth]
    omega
  unfold load
  rw [if_pos asserted, if_pos inside]

/-- Neither of the functions of the memory throws the exception of the loader. -/
theorem load_ne_loadExecutable (dstAddr n : BitVec 64) (src : BitVec 64 → BitVec 8) :
    mem.load dstAddr n src ≠ .error .loadExecutable := by
  unfold load
  split
  · split <;> nofun
  · nofun

theorem toNat_setWidth_xlen (size : BitVec 32) : (size.setWidth isa.xlen).toNat = size.toNat := by
  have bound := size.isLt
  rw [BitVec.toNat_setWidth]
  cases isa with
  | rv32 => exact Nat.mod_eq_of_lt bound
  | rv64 => exact Nat.mod_eq_of_lt (bound.trans (by decide))

theorem toNat_setWidth_address (x : Word isa) : (x.setWidth 64).toNat = x.toNat := by
  have bound := x.isLt
  rw [BitVec.toNat_setWidth]
  cases isa with
  | rv32 => exact Nat.mod_eq_of_lt (bound.trans (by decide))
  | rv64 => exact Nat.mod_eq_of_lt bound

variable {l target} {p : Phdr isa}

theorem toNat_stop : (target.offset + target.size.setWidth isa.xlen).toNat = target.stop % 2 ^ isa.xlen := by
  rw [BitVec.toNat_add, toNat_setWidth_xlen]
  rfl

/-- The check that skips a section. -/
theorem covered_iff (address : target.stop < 2 ^ isa.xlen) :
    target.offset ≤ p.addr target.useVaddr ∧
      p.addr target.useVaddr < target.offset + target.size.setWidth isa.xlen ↔ target.StartsIn p := by
  rw [BitVec.le_def, BitVec.lt_def, toNat_stop, Nat.mod_eq_of_lt address]
  rfl

/-- The check that refuses one. -/
theorem refused_iff (address : target.stop < 2 ^ isa.xlen) :
    target.offset + target.size.setWidth isa.xlen ≤ p.addr target.useVaddr + p.memsz ↔
      target.stop ≤ target.last p % 2 ^ isa.xlen := by
  rw [BitVec.le_def, toNat_stop, Nat.mod_eq_of_lt address, BitVec.toNat_add]
  rfl

theorem loadSection_elsewhere (address : target.stop < 2 ^ isa.xlen) (elsewhere : ¬ target.StartsIn p) :
    l.loadSection (target.size.setWidth _) target.offset target.useVaddr mem p = .ok mem := by
  unfold loadSection
  dsimp only
  rw [if_pos fun covered => elsewhere ((covered_iff address).mp covered)]

/-- Where the end of the memory is no address, it is 0, and everything is skipped. -/
theorem loadSection_of_wrapped (wrapped : ¬ target.stop < 2 ^ isa.xlen) :
    l.loadSection (target.size.setWidth _) target.offset target.useVaddr mem p = .ok mem := by
  have zero : (target.offset + target.size.setWidth isa.xlen).toNat = 0 := by
    have fits : target.stop ≤ 2 ^ isa.xlen := target.fits
    rw [toNat_stop, show target.stop = 2 ^ isa.xlen by omega, Nat.mod_self]
  unfold loadSection
  dsimp only
  rw [if_pos]
  rintro ⟨-, below⟩
  rw [BitVec.lt_def, zero] at below
  cases below

theorem loadSection_refused (address : target.stop < 2 ^ isa.xlen) (starts : target.StartsIn p)
    (beyond : target.stop ≤ target.last p % 2 ^ isa.xlen) :
    l.loadSection (target.size.setWidth _) target.offset target.useVaddr mem p = .error .loadExecutable := by
  have covered := (covered_iff address).mpr starts
  unfold loadSection
  dsimp only
  rw [if_neg (not_not_intro covered), if_neg (BitVec.not_lt.mpr covered.1), if_pos ((refused_iff address).mpr beyond)]

/-- A section that gets past the check is not refused later on. -/
theorem loadSection_ne_refused (address : target.stop < 2 ^ isa.xlen) (starts : target.StartsIn p)
    (short : ¬ target.stop ≤ target.last p % 2 ^ isa.xlen) :
    l.loadSection (target.size.setWidth _) target.offset target.useVaddr mem p ≠ .error .loadExecutable := by
  have covered := (covered_iff address).mpr starts
  unfold loadSection
  dsimp only
  rw [if_neg (not_not_intro covered), if_neg (BitVec.not_lt.mpr covered.1),
    if_neg fun beyond => short ((refused_iff address).mp beyond)]
  intro refused
  cases copied : mem.loadData ((p.addr target.useVaddr - target.offset).setWidth 64) (p.filesz.setWidth 64)
      fun i => l.elf (p.offset.setWidth 64 + i) with
  | error e =>
    rw [copied] at refused
    cases refused
    exact load_ne_loadExecutable _ _ _ copied
  | ok t =>
    rw [copied] at refused
    change (if p.filesz ≤ p.memsz then _ else _) = _ at refused
    split at refused
    · exact load_ne_loadExecutable _ _ _ refused
    · cases refused

/-- Where in the memory the section starts. -/
theorem toNat_into (starts : target.StartsIn p) :
    (p.addr target.useVaddr - target.offset).toNat = target.first p - target.offset.toNat :=
  BitVec.toNat_sub_of_le (BitVec.le_def.mpr starts.1)

/-- ... and where the bytes of the file end. -/
theorem toNat_fileEnd (address : target.stop < 2 ^ isa.xlen) (starts : target.StartsIn p)
    (short : target.last p < target.stop) (sizes : p.filesz ≤ p.memsz) :
    (p.addr target.useVaddr - target.offset + p.filesz).toNat =
      target.first p - target.offset.toNat + p.filesz.toNat := by
  have low : target.offset.toNat ≤ target.first p := starts.1
  have ends : target.first p + p.memsz.toNat < target.offset.toNat + target.size.toNat := short
  have bound : target.offset.toNat + target.size.toNat < 2 ^ isa.xlen := address
  have part : p.filesz.toNat ≤ p.memsz.toNat := BitVec.le_def.mp sizes
  rw [BitVec.toNat_add, toNat_into starts]
  exact Nat.mod_eq_of_lt (by omega)

/-- A byte behind both writes: zero, or one of the file, or what it was. -/
theorem byte_placed (starts : target.StartsIn p) (sizes : p.filesz ≤ p.memsz) (data : ByteMemory) (a : BitVec 64) :
    (if target.first p - target.offset.toNat + p.filesz.toNat ≤ a.toNat ∧ a.toNat <
        target.first p - target.offset.toNat + p.filesz.toNat + (p.memsz.toNat - p.filesz.toNat) then 0
      else if target.first p - target.offset.toNat ≤ a.toNat ∧
        a.toNat < target.first p - target.offset.toNat + p.filesz.toNat then
          l.elf (p.offset.setWidth 64 + (a - (p.addr target.useVaddr - target.offset).setWidth 64))
      else data a) = (l.sections target).apply data p a := by
  have low : target.offset.toNat ≤ target.first p := starts.1
  have part : p.filesz.toNat ≤ p.memsz.toNat := BitVec.le_def.mp sizes
  by_cases inside : (l.sections target).covers p a
  case pos =>
    have since : target.first p ≤ target.offset.toNat + a.toNat := inside.1
    have before : target.offset.toNat + a.toNat < target.first p + p.memsz.toNat := inside.2
    rw [Patches.apply_of_covers inside]
    unfold sections
    dsimp only
    by_cases file : target.offset.toNat + a.toNat < target.first p + p.filesz.toNat
    · have index : a - (p.addr target.useVaddr - target.offset).setWidth 64 =
          BitVec.ofNat 64 (target.offset.toNat + a.toNat - target.first p) := by
        apply BitVec.eq_of_toNat_eq
        have bound := a.isLt
        rw [BitVec.toNat_sub_of_le, BitVec.toNat_ofNat, toNat_setWidth_address, toNat_into starts]
        · omega
        · rw [BitVec.le_def, toNat_setWidth_address, toNat_into starts]
          omega
      rw [if_neg (by omega), if_pos (by omega), if_pos file, index]
    · rw [if_pos (by omega), if_neg file]
  case neg =>
    have apart : ¬ (target.first p ≤ target.offset.toNat + a.toNat ∧
        target.offset.toNat + a.toNat < target.first p + p.memsz.toNat) := inside
    rw [Patches.apply_of_not_covers inside, if_neg (by omega), if_neg (by omega)]

/-- A section that ends in front of the end of the memory is placed there. -/
theorem loadSection_placed (address : target.stop < 2 ^ isa.xlen) (same : mem.size = target.size)
    (starts : target.StartsIn p) (short : target.last p < target.stop) (sizes : p.filesz ≤ p.memsz) :
    l.loadSection (target.size.setWidth _) target.offset target.useVaddr mem p = .ok (l.placed target mem p) := by
  have covered := (covered_iff address).mpr starts
  have below : ¬ target.stop ≤ target.last p % 2 ^ isa.xlen := by
    rw [Nat.mod_eq_of_lt (short.trans address)]
    exact Nat.not_le.mpr short
  -- the bounds as numbers
  have low : target.offset.toNat ≤ target.first p := starts.1
  have ends : target.first p + p.memsz.toNat < target.offset.toNat + target.size.toNat := short
  have part : p.filesz.toNat ≤ p.memsz.toNat := BitVec.le_def.mp sizes
  have rest : (p.memsz - p.filesz).toNat = p.memsz.toNat - p.filesz.toNat := BitVec.toNat_sub_of_le sizes
  have behind := toNat_fileEnd address starts short sizes
  unfold loadSection
  dsimp only
  rw [if_neg (not_not_intro covered), if_neg (BitVec.not_lt.mpr covered.1),
    if_neg fun beyond => below ((refused_iff address).mp beyond)]
  unfold loadData
  rw [load_ok]
  case inside =>
    rw [toNat_setWidth_address, toNat_setWidth_address, toNat_into starts, same]
    omega
  show (if p.filesz ≤ p.memsz then _ else _) = _
  rw [if_pos sizes]
  unfold loadZero
  rw [load_ok]
  case inside =>
    rw [toNat_setWidth_address, toNat_setWidth_address, behind, rest]
    show _ ≤ mem.size.toNat
    rw [same]
    omega
  refine congrArg Except.ok ?_
  unfold placed
  refine congrArg (SimpleMemory.mk · mem.size) (funext fun a => ?_)
  simp only [toNat_setWidth_address, toNat_into starts, behind, rest]
  exact byte_placed starts sizes mem.data a

end Section

/-! ## The loop -/

section Loop

variable {l target} {order : List (Phdr isa)} {mem : SimpleMemory}

/-- Where the end of the memory is an address, the first section that reaches it decides. -/
theorem decides_iff (address : target.stop < 2 ^ isa.xlen) (same : mem.size = target.size)
    (sizes : ∀ p ∈ order, p.filesz ≤ p.memsz) : l.Decides target order mem ↔
      ∀ p, order.find? (target.Reaches ·) = some p →
        target.stop < target.last p ∧ target.stop ≤ target.last p % 2 ^ isa.xlen := by
  induction order generalizing mem with
  | nil => exact iff_of_true trivial nofun
  | cons p order ih =>
    obtain ⟨own, others⟩ := List.forall_mem_cons.mp sizes
    unfold Decides
    dsimp only
    by_cases starts : target.StartsIn p
    case neg =>
      have passed : (p :: order).find? (target.Reaches ·) = order.find? (target.Reaches ·) :=
        List.find?_cons_of_neg fun reaches => starts (of_decide_eq_true reaches).1
      rw [if_neg starts, loadSection_elsewhere address starts, passed, ih same others]
      exact and_iff_right rfl
    rw [if_pos starts]
    by_cases short : target.last p < target.stop
    case pos =>
      have passed : (p :: order).find? (target.Reaches ·) = order.find? (target.Reaches ·) :=
        List.find?_cons_of_neg fun reaches => Nat.not_le.mpr short (of_decide_eq_true reaches).2
      rw [if_pos short.le, loadSection_placed address same starts short own, passed,
        ih (show (l.placed target mem p).size = _ from same) others]
      exact and_iff_right rfl
    have reaches : target.Reaches p := ⟨starts, Nat.not_lt.mp short⟩
    have found : (p :: order).find? (target.Reaches ·) = some p := List.find?_cons_of_pos (decide_eq_true reaches)
    have only (P : Phdr isa → Prop) : (∀ q, some p = some q → P q) ↔ P p :=
      ⟨fun all => all p rfl, fun holds q eq => Option.some.inj eq ▸ holds⟩
    rw [found, only]
    by_cases refused : target.stop ≤ target.last p % 2 ^ isa.xlen
    case pos =>
      rw [loadSection_refused address starts refused]
      split
      case isTrue ends => exact iff_of_false nofun fun behind => Nat.not_lt.mpr ends behind.1
      case isFalse beyond => exact iff_of_true rfl ⟨Nat.not_le.mp beyond, refused⟩
    case neg =>
      -- the sum has wrapped around
      have wrapped : 2 ^ isa.xlen ≤ target.last p := by
        by_contra fits
        rw [Nat.mod_eq_of_lt (Nat.not_le.mp fits)] at refused
        exact refused reaches.2
      rw [if_neg (Nat.not_le.mpr (address.trans_le wrapped))]
      exact iff_of_false (loadSection_ne_refused address starts refused) fun behind => refused behind.2

/-- Where it is no address, nothing may be to be loaded: what is skipped is not in the memory. -/
theorem decides_wrapped_iff (wrapped : ¬ target.stop < 2 ^ isa.xlen) (some : ∀ p ∈ order, 0 < p.memsz.toNat) :
    (∀ data, l.Decides target order ⟨data, target.size⟩) ↔ ∀ p ∈ order, ¬ target.StartsIn p := by
  induction order with
  | nil => exact iff_of_true (fun _ => trivial) nofun
  | cons p order ih =>
    obtain ⟨own, others⟩ := List.forall_mem_cons.mp some
    rw [List.forall_mem_cons, ← ih others]
    by_cases starts : target.StartsIn p
    case neg =>
      have turn (data : ByteMemory) :
          l.Decides target (p :: order) ⟨data, target.size⟩ ↔ l.Decides target order ⟨data, target.size⟩ := by
        rw [Decides]
        rw [if_neg starts, loadSection_of_wrapped wrapped]
        exact and_iff_right rfl
      rw [forall_congr' turn, and_iff_right starts]
    refine iff_of_false (fun all => ?_) fun none => none.1 starts
    -- a memory that holds another byte at the first address
    have place : (BitVec.ofNat 64 (target.first p - target.offset.toNat)).toNat =
        target.first p - target.offset.toNat := by
      have size := target.size.isLt
      have below : target.first p < target.offset.toNat + target.size.toNat := starts.2
      rw [BitVec.toNat_ofNat]
      omega
    generalize BitVec.ofNat 64 (target.first p - target.offset.toNat) = a at place
    have low : target.offset.toNat ≤ target.first p := starts.1
    have covered : (l.sections target).covers p a := by
      show target.first p ≤ _ ∧ _ < target.first p + p.memsz.toNat
      rw [place]
      omega
    have went := all fun _ => (l.sections target).value p a + 1
    rw [Decides, if_pos starts, loadSection_of_wrapped wrapped] at went
    split at went
    case isTrue =>
      have same := congrArg (fun mem : SimpleMemory => mem.data a) (Except.ok.inj went.1)
      exact absurd (same.trans (Patches.apply_of_covers covered)) (by simp)
    case isFalse => cases went

/-- What is in the memory behind a loop that decides as it should. -/
theorem image_of_decides {t : SimpleMemory} (decides : l.Decides target order mem)
    (ran : order.foldlM (l.loadSection (target.size.setWidth _) target.offset target.useVaddr) mem = .ok t) :
    t.data = (order.filter (target.StartsIn ·)).foldl (l.sections target).apply mem.data := by
  induction order generalizing mem with
  | nil =>
    cases ran
    rfl
  | cons p order ih =>
    rw [List.foldlM_cons] at ran
    unfold Decides at decides
    dsimp only at decides
    by_cases starts : target.StartsIn p
    case neg =>
      rw [if_neg starts] at decides
      rw [decides.1] at ran
      rw [List.filter_cons_of_neg (by simpa using starts)]
      exact ih decides.2 ran
    rw [if_pos starts] at decides
    rw [List.filter_cons_of_pos (by simpa using starts), List.foldl_cons]
    split at decides
    case isTrue =>
      rw [decides.1] at ran
      exact ih decides.2 ran
    case isFalse =>
      rw [decides] at ran
      cases ran

/-- A section that is not empty. -/
theorem memsz_pos (sizes : ∀ p ∈ l.getLoadSections, p.filesz ≤ p.memsz) :
    ∀ p ∈ l.getLoadSections, 0 < p.memsz.toNat := by
  intro p among
  have part := BitVec.le_def.mp (sizes p among)
  have some := (of_decide_eq_true (List.mem_filter.mp among).2).2
  by_contra empty
  have memsz : p.memsz = 0 := BitVec.eq_of_toNat_eq (Nat.eq_zero_of_not_pos empty)
  have filesz : p.filesz = 0 := BitVec.eq_of_toNat_eq (by
    rw [memsz] at part
    exact Nat.le_zero.mp part)
  exact some ⟨filesz, memsz⟩

theorem loads_of_decides {data : ByteMemory} (wellFormed : l.WellFormed target)
    (decides : l.Decides target l.getLoadSections ⟨data, target.size⟩) : l.Loads target data := by
  have apart : (l.getLoadSections.filter (target.StartsIn ·)).Pairwise (l.sections target).Apart := by
    refine (wellFormed.apart.imp fun {p q} apart a inP inQ => ?_).filter _
    rcases apart with before | behind
    · exact absurd (inP.2.trans_le before) (Nat.not_lt.mpr inQ.1)
    · exact absurd (inQ.2.trans_le behind) (Nat.not_lt.mpr inP.1)
  refine ⟨decides, fun mem ran p among starts a covered => ?_, fun mem ran a outside => ?_⟩
  · rw [image_of_decides decides ran]
    exact Patches.foldl_apply_of_covers apart (List.mem_filter.mpr ⟨among, decide_eq_true starts⟩) covered
  · rw [image_of_decides decides ran]
    refine Patches.foldl_apply_of_outside fun p among => ?_
    obtain ⟨among, starts⟩ := List.mem_filter.mp among
    exact outside p among (of_decide_eq_true starts)

/-- The image is loaded as it should be, whatever the memory holds, exactly where no section ends with the
memory or wraps around. -/
theorem loads_iff (l : ElfLoader isa) (target : LoadTarget isa) (wellFormed : l.WellFormed target) :
    (∀ data, l.Loads target data) ↔ l.EndsBehind target := by
  by_cases address : target.stop < 2 ^ isa.xlen
  case pos =>
    have turn (data : ByteMemory) : l.Decides target _ ⟨data, target.size⟩ ↔ _ :=
      decides_iff address rfl wellFormed.sizes
    constructor
    · intro all
      exact ⟨.inl address, (turn fun _ => 0).mp (all _).decides⟩
    · intro ends data
      exact loads_of_decides wellFormed ((turn data).mpr ends.behind)
  case neg =>
    have turn := decides_wrapped_iff (l := l) address (memsz_pos wellFormed.sizes)
    constructor
    · intro all
      have none := turn.mp fun data => (all data).decides
      refine ⟨.inr none, fun p found => ?_⟩
      have reaches : target.Reaches p := by simpa using List.find?_some found
      exact absurd reaches.1 (none p (List.mem_of_find?_eq_some found))
    · intro ends data
      exact loads_of_decides wellFormed (turn.mpr (ends.address.resolve_left address) data)

end Loop

/-! ## A flash of 4096 bytes -/

def flash : LoadTarget .rv32 where
  size := 0x1000
  offset := 0x20000000
  useVaddr := false
  fits := by decide

/-- One section at the start of the flash, with as many bytes of the file as of the memory. -/
def flashed (size : BitVec 32) : ElfLoader .rv32 where
  elf a := a.setWidth 8
  phdrs := [⟨ptLoad, 0x1000, 0x80000000, 0x20000000, size, size⟩]

theorem flashed_wellFormed (size : BitVec 32) : (flashed size).WellFormed flash where
  sizes p among := by
    rw [List.mem_singleton.mp (List.mem_of_mem_filter among)]
    exact BitVec.le_refl size
  apart := (List.pairwise_singleton _ _).filter _

theorem loads_flash : (flashed 0xFFC).Loads flash fun _ => 0 := by
  refine (loads_iff (flashed 0xFFC) flash (flashed_wellFormed 0xFFC)).mpr ⟨.inl (by decide), ?_⟩ _
  have none : (flashed 0xFFC).getLoadSections.find? (flash.Reaches ·) = none := by decide
  rw [none]
  nofun

/-- An image of the size of the flash is refused. -/
theorem not_loads : ¬ ∀ (isa : Isa) (l : ElfLoader isa) (target : LoadTarget isa), l.WellFormed target →
    ∀ data, l.Loads target data := by
  intro all
  have decides := (all .rv32 (flashed 0x1000) flash (flashed_wellFormed 0x1000) fun _ => 0).decides
  have refused : (flashed 0x1000).loadSection (flash.size.setWidth _) flash.offset flash.useVaddr
      ⟨fun _ => 0, flash.size⟩ ⟨ptLoad, 0x1000, 0x80000000, 0x20000000, 0x1000, 0x1000⟩ =
        .error .loadExecutable := rfl
  cases refused.symm.trans decides.1

end ElfLoader

end RiscvVp
