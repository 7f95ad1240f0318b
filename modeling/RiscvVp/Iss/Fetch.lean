/-
# RiscvVp.Iss.Fetch -- an instruction fetch and the pages it spans

`CombinedMemoryInterface::load_instr` translates the program counter and loads four
bytes from there, whatever page the last two belong to, and whether the instruction has
them.  `FetchAgrees` is a fetch by halfwords, each at its own translation;
`combinedLoadInstr_agrees_iff` says which fetches the one load gets right.
-/
import RiscvVp.Iss.Backing
import RiscvVp.Iss.Translate

namespace RiscvVp.Iss

set_option autoImplicit false

open Lib

variable {isa : Isa} {World : Type} (plat : Platform World) (mem : World → ByteMemory)

/-- The translation of a program counter for a fetch. -/
def fetchTranslation (pc : Word isa) (s : Iss isa World) : Except Exc (BitVec 64) :=
  ((v2p plat (pc.setWidth 64) .fetch).run s).1

/-- The memory after that translation, which may have set `A` in a page-table entry. -/
def fetchMemory (pc : Word isa) (s : Iss isa World) : ByteMemory :=
  mem ((v2p plat (pc.setWidth 64) .fetch).run s).2.world

/-- The first half of a 32-bit instruction. -/
def startsWord (half : BitVec 16) : Prop := half.extractLsb' 0 2 = 3#2

instance (half : BitVec 16) : Decidable (startsWord half) :=
  inferInstanceAs (Decidable (half.extractLsb' 0 2 = 3#2))

/-- The fetch raises the page fault that the translation of a halfword raises. -/
def RaisesFault (translated : Except Exc (BitVec 64)) (fetched : Except Exc (BitVec 32)) : Prop :=
  ∃ va, translated = .error (.trap ⟨.instrPageFault, va⟩) ∧
    fetched = .error (.trap ⟨.instrPageFault, va⟩)

/-- The word fetched at `pc` has the halfword at the translation of `pc` and, if that
starts a 32-bit instruction, the one at the translation of `pc + 2`; where a halfword
that is needed does not translate, its fault is raised.  `halves` are the addresses of the
halfwords that are in memory. -/
def FetchAgrees (halves : BitVec 64 → Prop) (s : Iss isa World) (pc : Word isa) : Prop :=
  let fetched := ((combinedLoadInstr plat (pc.setWidth 64)).run s).1
  let m := fetchMemory plat mem pc s
  RaisesFault (fetchTranslation plat pc s) fetched ∨
    ∃ p, fetchTranslation plat pc s = .ok p ∧ halves p ∧
      (¬ startsWord (m.read p 2) → ∃ w, fetched = .ok w ∧ w.extractLsb' 0 16 = m.read p 2) ∧
      (startsWord (m.read p 2) →
        RaisesFault (fetchTranslation plat (pc + 2) s) fetched ∨
          ∃ q w, fetchTranslation plat (pc + 2) s = .ok q ∧ halves q ∧ fetched = .ok w ∧
            w.extractLsb' 0 16 = m.read p 2 ∧ w.extractLsb' 16 16 = m.read q 2)

variable {plat mem} {mapped halves : BitVec 64 → Prop}

/-- A fetch is one raw load behind the translation. -/
theorem run_fetch (mem : World → ByteMemory) {s : Iss isa World} {pc : Word isa}
    {p : BitVec 64} (translated : fetchTranslation plat pc s = .ok p) : ∃ hart w,
    ((combinedLoadInstr plat (pc.setWidth 64)).run s).1 = ((plat.rawLoadData hart p 4).run w).1 ∧
      mem w = fetchMemory plat mem pc s := by
  have ran : (v2p plat (pc.setWidth 64) .fetch).run s =
      (.ok p, ((v2p plat (pc.setWidth 64) .fetch).run s).2) := Prod.ext translated rfl
  refine ⟨((v2p plat (pc.setWidth 64) .fetch).run s).2.hartId,
    ((v2p plat (pc.setWidth 64) .fetch).run s).2.world, ?_, rfl⟩
  unfold combinedLoadInstr
  rw [Exec.run_bind_ok ran]
  rfl

/-- What one load of four bytes gives: the halfword behind the first one in memory. -/
theorem run_combinedLoadInstr (backed : plat.Reads mem 4 mapped) {s : Iss isa World}
    {pc : Word isa} {p : BitVec 64} (translated : fetchTranslation plat pc s = .ok p)
    (at_ : mapped p) : ∃ w : BitVec 32,
    ((combinedLoadInstr plat (pc.setWidth 64)).run s).1 = .ok w ∧
      w.extractLsb' 0 16 = (fetchMemory plat mem pc s).read p 2 ∧
      w.extractLsb' 16 16 = (fetchMemory plat mem pc s).read (p + 2) 2 := by
  obtain ⟨hart, t, fetched, memory⟩ := run_fetch mem translated
  refine ⟨(fetchMemory plat mem pc s).read p 4, ?_, ?_, ?_⟩
  · rw [fetched, backed.rawLoadData at_, memory]
  · have first := (fetchMemory plat mem pc s).extractLsb'_read p (show 0 + 2 ≤ 4 by decide)
    rwa [show p + BitVec.ofNat 64 0 = p from BitVec.add_zero p] at first
  · exact ByteMemory.extractLsb'_read _ p (show 2 + 2 ≤ 4 by decide)

theorem fetch_error {s : Iss isa World} {pc : Word isa} {e : Exc}
    (faults : fetchTranslation plat pc s = .error e) :
    ((combinedLoadInstr plat (pc.setWidth 64)).run s).1 = .error e := by
  have ran : (v2p plat (pc.setWidth 64) .fetch).run s =
      (.error e, ((v2p plat (pc.setWidth 64) .fetch).run s).2) := Prod.ext faults rfl
  unfold combinedLoadInstr
  rw [Exec.run_bind_error ran]

/-- Where the four bytes are not in memory there is no word and no fetch fault. -/
theorem fetch_unmapped (backed : plat.Reads mem 4 mapped) {s : Iss isa World} {pc : Word isa}
    {p : BitVec 64} (translated : fetchTranslation plat pc s = .ok p) (unmapped : ¬ mapped p) :
    ∃ e, ((combinedLoadInstr plat (pc.setWidth 64)).run s).1 = .error e ∧
      ∀ va, e ≠ .trap ⟨.instrPageFault, va⟩ := by
  obtain ⟨hart, t, fetched, -⟩ := run_fetch mem translated
  rw [fetched]
  exact backed.rawLoadData_unmapped unmapped hart t

/-! ## The second halfword -/

theorem setWidth_toNat (pc : Word isa) : (pc.setWidth 64).toNat = pc.toNat :=
  BitVec.toNat_setWidth_of_le (by cases isa <;> decide)

/-- Away from the end of a page the second halfword is in the page of the first. -/
theorem add_two_toNat {pc : Word isa} (aligned : pc.toNat % 2 = 0)
    (inside : pc.toNat % 4096 ≠ 0xFFE) : (pc + 2).toNat = pc.toNat + 2 := by
  have bound := pc.isLt
  rw [BitVec.toNat_add]
  cases isa with
  | rv32 =>
    show (pc.toNat + 2) % 2 ^ 32 = pc.toNat + 2
    have bound : pc.toNat < 2 ^ 32 := bound
    omega
  | rv64 =>
    show (pc.toNat + 2) % 2 ^ 64 = pc.toNat + 2
    have bound : pc.toNat < 2 ^ 64 := bound
    omega

theorem or_add_two {page va va' : BitVec 64} (whole : page &&& 0xFFF = 0)
    (next : va'.toNat % 4096 = va.toNat % 4096 + 2) :
    page ||| (va' &&& 0xFFF) = (page ||| (va &&& 0xFFF)) + 2 := by
  have bound := (page ||| (va' &&& 0xFFF)).isLt
  have first := page_or_toNat whole va
  have second := page_or_toNat whole va'
  apply BitVec.eq_of_toNat_eq
  rw [BitVec.toNat_add]
  show _ = (_ + 2) % 2 ^ 64
  omega

theorem fetchTranslation_add_two {s : Iss isa World} {pc : Word isa} (aligned : pc.toNat % 2 = 0)
    (inside : pc.toNat % 4096 ≠ 0xFFE) {p : BitVec 64}
    (translated : fetchTranslation plat pc s = .ok p) :
    fetchTranslation plat (pc + 2) s = .ok (p + 2) := by
  have sum := add_two_toNat aligned inside
  have samePage : pc.setWidth 64 >>> 12 = (pc + 2).setWidth 64 >>> 12 := by
    apply BitVec.eq_of_toNat_eq
    rw [BitVec.toNat_ushiftRight, BitVec.toNat_ushiftRight, Nat.shiftRight_eq_div_pow,
      Nat.shiftRight_eq_div_pow, setWidth_toNat, setWidth_toNat, sum]
    omega
  have ran : (v2p plat (pc.setWidth 64) .fetch).run s =
      (.ok p, ((v2p plat (pc.setWidth 64) .fetch).run s).2) := Prod.ext translated rfl
  obtain ⟨page, whole, here, there⟩ := samePage_v2p samePage plat .fetch ran
  unfold fetchTranslation
  rw [there, here]
  refine congrArg Except.ok (or_add_two whole ?_)
  rw [setWidth_toNat, setWidth_toNat, sum]
  omega

/-! ## Which fetches agree -/

/-- A fetch agrees with translation unless it is of a 32-bit instruction across two
pages whose second half is not, in memory, where the end of the first page is, or the
memory ends before the four bytes do. -/
theorem combinedLoadInstr_agrees_iff (backed : plat.Reads mem 4 mapped)
    (within : ∀ p, mapped p → halves p ∧ halves (p + 2)) (s : Iss isa World) (pc : Word isa)
    (aligned : pc.toNat % 2 = 0) :
    FetchAgrees plat mem halves s pc ↔
      (∃ va, fetchTranslation plat pc s = .error (.trap ⟨.instrPageFault, va⟩)) ∨
      ∃ p, fetchTranslation plat pc s = .ok p ∧ mapped p ∧
        (pc.toNat % 4096 = 0xFFE → startsWord ((fetchMemory plat mem pc s).read p 2) →
          ∃ q, fetchTranslation plat (pc + 2) s = .ok q ∧ halves q ∧
            (fetchMemory plat mem pc s).read q 2 = (fetchMemory plat mem pc s).read (p + 2) 2) := by
  unfold FetchAgrees
  cases translated : fetchTranslation plat pc s with
  | error e =>
    constructor
    · rintro (⟨va, faults, -⟩ | ⟨p, impossible, -⟩)
      · exact .inl ⟨va, faults⟩
      · cases impossible
    · rintro (⟨va, faults⟩ | ⟨p, impossible, -⟩)
      · cases faults
        exact .inl ⟨va, rfl, fetch_error translated⟩
      · cases impossible
  | ok p =>
    by_cases at_ : mapped p
    case neg =>
      obtain ⟨e, failed, other⟩ := fetch_unmapped backed translated at_
      constructor
      · rintro (⟨va, impossible, -⟩ | ⟨p', same, -, short, long⟩)
        · cases impossible
        cases same
        -- neither a word nor a fetch fault
        exfalso
        by_cases starts : startsWord ((fetchMemory plat mem pc s).read p 2)
        · rcases long starts with ⟨va, -, raised⟩ | ⟨q, w, -, -, loaded, -⟩
          · exact other va (Except.error.inj (failed.symm.trans raised))
          · cases failed.symm.trans loaded
        · obtain ⟨w, loaded, -⟩ := short starts
          cases failed.symm.trans loaded
      · rintro (⟨va, impossible⟩ | ⟨p', same, mapped', -⟩)
        · cases impossible
        · cases same
          exact absurd mapped' at_
    case pos =>
      obtain ⟨w, fetched, low, high⟩ := run_combinedLoadInstr backed translated at_
      constructor
      · rintro (⟨va, impossible, -⟩ | ⟨p', same, -, -, long⟩)
        · cases impossible
        cases same
        refine .inr ⟨p, rfl, at_, fun _ starts => ?_⟩
        rcases long starts with ⟨va, -, raised⟩ | ⟨q, w', next, present, loaded, -, high'⟩
        · cases fetched.symm.trans raised
        · cases fetched.symm.trans loaded
          exact ⟨q, next, present, high'.symm.trans high⟩
      · rintro (⟨va, impossible⟩ | ⟨p', same, -, condition⟩)
        · cases impossible
        cases same
        refine .inr ⟨p, rfl, (within p at_).1, fun _ => ⟨w, fetched, low⟩, fun starts => .inr ?_⟩
        by_cases atEnd : pc.toNat % 4096 = 0xFFE
        · obtain ⟨q, next, present, same⟩ := condition atEnd starts
          exact ⟨q, w, next, present, fetched, low, high.trans same.symm⟩
        · exact ⟨p + 2, w, fetchTranslation_add_two aligned atEnd translated, (within p at_).2,
            fetched, low, high⟩

/-- Sv39 with one page of code, at 0x10000, and no page after it; its last halfword
starts a 32-bit instruction. -/
def lastPageWorld : Flat where
  bytes := fun a =>
    if a = 0x1000 then 0x01 else if a = 0x1001 then 0x08
    else if a = 0x2000 then 0x01 else if a = 0x2001 then 0x0C
    else if a = 0x3000 then 0x4B else if a = 0x3001 then 0x40
    else if a = 0x10FFE then 0x13
    else 0
  reads := 0
  owner := none

def lastPageCore : Iss .rv64 Flat := pagedCore 0x8000000000000001 supervisorMode lastPageWorld

theorem fetch_inside_page :
    FetchAgrees Flat.platform Flat.bytes (fun _ => True) lastPageCore 0x10 :=
  (combinedLoadInstr_agrees_iff (Flat.isRead 4) (fun _ _ => ⟨trivial, trivial⟩) lastPageCore 0x10
    (by decide)).mpr (.inr ⟨0x10010, by decide, trivial, fun atEnd => absurd atEnd (by decide)⟩)

/-- The second half of an instruction is fetched from where no page is mapped. -/
theorem fetch_across_pages :
    ¬ FetchAgrees Flat.platform Flat.bytes (fun _ => True) lastPageCore 0xFFE := by
  have first : fetchTranslation Flat.platform (0xFFE : Word .rv64) lastPageCore = .ok 0x10FFE := by
    decide
  have second : fetchTranslation Flat.platform (0xFFE + 2 : Word .rv64) lastPageCore =
      .error (.trap ⟨.instrPageFault, 0x1000⟩) := by decide
  have starts : startsWord
      ((fetchMemory Flat.platform Flat.bytes (0xFFE : Word .rv64) lastPageCore).read 0x10FFE 2) := by
    decide
  have fetched : ((combinedLoadInstr Flat.platform ((0xFFE : Word .rv64).setWidth 64)).run
      lastPageCore).1 = .ok 0x13 := by decide
  unfold FetchAgrees RaisesFault
  rw [first, second, fetched]
  rintro (⟨va, impossible, -⟩ | ⟨p, same, -, -, long⟩)
  · cases impossible
  cases same
  rcases long starts with ⟨va, -, raised⟩ | ⟨q, w, impossible, -⟩
  · cases raised
  · cases impossible

end RiscvVp.Iss
