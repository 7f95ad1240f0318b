/-
# RiscvVp.Soc.Simulation -- programs without translation

With translation off the addresses of a program are those of the memories.  Every run of the machine
of the ISA is one of the simulator, `run_step` by `run_step`.
-/
import RiscvVp.Soc.Route

namespace RiscvVp

set_option autoImplicit false

open Lib Iss

variable {isa : Isa}

namespace Soc

variable {Dev : Type}

/-- The addresses that a core can fetch from, by its instruction memory, with the four bytes of a fetch
in one memory, and those with data. -/
def space (base : Platform (SocState Dev)) (memories : List MemoryDMI) : Spec.Space where
  code pc :=
    match base.instrMem with
    | some e => decide (e ∈ memories ∧ e.start ≤ pc ∧ pc.toNat + 4 ≤ e.stop.toNat)
    | none => memories.any fun e => decide (e.start ≤ pc ∧ pc.toNat + 4 ≤ e.stop.toNat)
  data addr n := memories.any fun e => decide (e.start ≤ addr ∧ addr.toNat + n ≤ e.stop.toNat)

/-- A core on memories, between two instructions of a program that needs nothing else. -/
structure Calm (soc : Soc Dev) (base : Platform (SocState Dev)) (windows memories : List MemoryDMI)
    (s : Iss isa (SocState Dev)) : Prop where
  ready : Ready soc base windows s
  covers : ∀ e ∈ memories, soc.Covers s.world e
  running : s.world.aborted = false
  masked : s.Undisturbed
  debug : s.debugMode = false
  compressed : s.hasExtension Misa.extC = true
  extends_ : ∀ ext ∈ [Misa.C isa, Misa.M isa, Misa.A isa], Extends ext s
  zero : s.regs 0 = 0
  even : s.pc &&& 1 = 0

/-- What the core and its memories hold is what the machine holds. -/
structure Shows (soc : Soc Dev) (s : Iss isa (SocState Dev)) (m : Spec.Machine isa) : Prop where
  pc : s.pc = m.pc
  regs : s.regs = m.regs
  bytes : soc.bytes s.world = m.memory

section Bare

variable {soc : Soc Dev} {s t : Iss isa (SocState Dev)} {base : Platform (SocState Dev)}
  {windows memories : List MemoryDMI}

theorem Calm.steady (calm : Calm soc base windows memories s) : Steady soc windows memories s where
  wired := calm.ready.wired
  free := calm.ready.free
  covers := calm.covers
  running := calm.running
  masked := calm.masked
  debug := calm.debug
  compressed := calm.compressed
  extends_ := calm.extends_
  zero := calm.zero
  even := calm.even

theorem Steady.calm (steady : Steady soc windows memories s) (bare : Bare base s) :
    Calm soc base windows memories s where
  ready := ⟨steady.wired, bare, steady.free⟩
  covers := steady.covers
  running := steady.running
  masked := steady.masked
  debug := steady.debug
  compressed := steady.compressed
  extends_ := steady.extends_
  zero := steady.zero
  even := steady.even

theorem bare_of_kept (bare : Bare base s) (kept : Kept soc s t) : Bare base t :=
  bare.imp id fun bare => by rwa [kept.reg .satp nofun]

/-- The core stays calm. -/
theorem Calm.of_kept (calm : Calm soc base windows memories s) (kept : Kept soc s t)
    (zero : t.regs 0 = 0) (even : t.pc &&& 1 = 0) : Calm soc base windows memories t :=
  (calm.steady.of_kept kept zero even).calm (bare_of_kept calm.ready.bare kept)

/-! ## The route -/

/-- The word at an address of the code. -/
theorem run_loadInstr (steady : Steady soc windows memories s) (bare : Bare base s) {pc : BitVec 64}
    (held : (space base memories).code pc = true) :
    (loadInstr (soc.platform base windows) pc).run s = (.ok ((soc.bytes s.world).read pc 4), s) := by
  have instrMem : (soc.platform base windows).instrMem = base.instrMem := rfl
  unfold space at held
  unfold loadInstr
  rw [instrMem]
  cases proxy : base.instrMem with
  | some e =>
    simp only [proxy, decide_eq_true_eq] at held
    refine run_proxy (steady.covers e held.1) held.2 fun wide => ?_
    rcases bare with ⟨narrow, -⟩ | bare
    · rw [narrow] at wide
      cases wide
    · exact bare
  | none =>
    simp only [proxy, List.any_eq_true, decide_eq_true_eq] at held
    obtain ⟨e, known, holds⟩ := held
    have direct : Bare (soc.platform base windows) s := bare
    exact run_fetch steady.wired (steady.covers e known) holds steady.free (run_v2p_bare _ direct pc .fetch)

/-- An address leads to itself. -/
theorem leads_bare (type : MemoryAccessType) (addr : BitVec 64) :
    Leads (soc.platform base windows) (Bare base : Iss isa (SocState Dev) → Prop) type addr addr where
  run {u} bare := by
    have direct : Bare (soc.platform base windows) u := bare
    exact ⟨u.tlb, run_v2p_bare _ direct addr type, bare⟩

theorem holds_of_data {addr : BitVec 64} {n : Nat} (data : (space base memories).data addr n = true) :
    ∃ e ∈ memories, e.Holds addr n := by
  obtain ⟨e, known, holds⟩ := List.any_eq_true.mp data
  have inside : e.start ≤ addr ∧ addr.toNat + n ≤ e.stop.toNat := by simpa using holds
  exact ⟨e, known, inside⟩

/-- Each address is its own. -/
def untranslated (soc : Soc Dev) (base : Platform (SocState Dev)) (windows memories : List MemoryDMI) :
    Route isa soc base windows memories where
  table := .all
  space := space base memories
  Inv := Bare base
  kept bare kept _ _ := bare_of_kept bare kept
  lock _ bare _ := bare
  code {s _} steady bare held := ⟨s.tlb, run_loadInstr steady bare held, bare⟩
  data {addr _} holds := ⟨addr, fun _ _ => rfl, holds_of_data holds, fun _ => leads_bare _ addr,
    fun _ bare kept _ _ => bare_of_kept bare kept⟩

/-! ## Runs -/

/-- A calm core that shows the machine. -/
def Follows (soc : Soc Dev) (base : Platform (SocState Dev)) (windows memories : List MemoryDMI)
    (s : Iss isa (SocState Dev)) (m : Spec.Machine isa) : Prop :=
  Calm soc base windows memories s ∧ Shows soc s m

theorem follows_iff {m : Spec.Machine isa} :
    Follows soc base windows memories s m ↔ (untranslated soc base windows memories).Follows s m := by
  constructor
  · rintro ⟨calm, shows⟩
    exact ⟨calm.steady, calm.ready.bare, shows.pc, shows.regs, shows.bytes⟩
  · rintro ⟨steady, bare, pc, regs, bytes⟩
    exact ⟨steady.calm bare, pc, regs, bytes⟩

/-- One `run_step` is one step of the machine. -/
theorem runStep_simulates (alone : Alone base) (calm : Calm soc base windows memories s)
    {m m' : Spec.Machine isa} (shows : Shows soc s m) (stepped : m.step (space base memories) = some m') :
    ∃ t, (runStep (soc.platform base windows)).run s = (.ok (), t) ∧ Kept soc s t ∧
      Calm soc base windows memories t ∧ Shows soc t m' := by
  obtain ⟨t, ran, kept, follows⟩ :=
    (untranslated soc base windows memories).runStep_simulates alone (follows_iff.mp ⟨calm, shows⟩) stepped
  exact ⟨t, ran, kept, follows_iff.mpr follows⟩

theorem simulates (alone : Alone base) : Simulates (Follows soc base windows memories)
    (runStep (soc.platform base windows) : IssM isa (SocState Dev) Unit).next
    (Spec.Machine.step (space base memories)) := by
  intro s m m' follows stepped
  obtain ⟨t, ran, -, calm, shows⟩ := runStep_simulates alone follows.1 follows.2 stepped
  exact ⟨t, Exec.next_eq_some.mpr ran, calm, shows⟩

/-- A program that stays in the memories and needs no trap: as many steps of the simulator as of the
machine lead to the program counter, the registers and the bytes of the machine, with the DMI
windows or through the bus, by the proxy or by the interface. -/
theorem program_simulated (alone : Alone base) (calm : Calm soc base windows memories s)
    {m m' : Spec.Machine isa} (shows : Shows soc s m) {n : Nat}
    (ran : steps (Spec.Machine.step (space base memories)) n m = some m') :
    ∃ t, steps (runStep (soc.platform base windows)).next n s = some t ∧
      Calm soc base windows memories t ∧ Shows soc t m' := by
  obtain ⟨t, ran', calm', shows'⟩ := (simulates alone).run ⟨calm, shows⟩ ran
  exact ⟨t, ran', calm', shows'⟩

end Bare

end Soc

/-! ### A program in the flash of `hifive` -/

namespace Hifive

open Iss Soc

/-- The memories with a program in the flash. -/
def flashed (program : ByteMemory) : SocState Unit :=
  { memories with
    memory := fun
      | 0 => some ⟨program, 0x20000000⟩
      | 1 => some ⟨fun _ => 0, 0x4000⟩
      | _ => none }

/-- A core out of reset, at the start of the flash. -/
def booted (program : ByteMemory) : Iss .rv32 (SocState Unit) :=
  reset 0 false 0x20000000 0x80004000 (flashed program)

theorem sameShape_flashed (program : ByteMemory) : SameShape memories (flashed program) := by
  refine ⟨fun id => ?_, rfl, rfl⟩
  match id with
  | 0 => rfl
  | 1 => rfl
  | _ + 2 => rfl

theorem alone : Alone devices := ⟨fun _ => rfl, fun _ => rfl, fun _ => rfl⟩

theorem calm_booted (program : ByteMemory) :
    Calm soc devices [dramDmi, flashDmi] [dramDmi, flashDmi] (booted program) where
  ready :=
    { wired := ⟨fun e known => (sameShape_flashed program).covers (ready.wired.covers e known),
        ready.wired.disjoint⟩
      bare := ready.bare
      free := nofun }
  covers e known := (sameShape_flashed program).covers (ready.wired.covers e known)
  running := rfl
  masked := .inl rfl
  debug := rfl
  compressed := by
    show (Misa.extC.get (misaInit .rv32 false) == 1#1) = true
    decide
  extends_ ext among := by
    simp only [List.mem_cons, List.not_mem_nil, or_false] at among
    show _ → misaInit .rv32 false &&& ext ≠ 0
    rcases among with rfl | rfl | rfl <;> decide
  zero := rfl
  even := by
    show (0x20000000 : Word .rv32) &&& 1 = 0
    decide

/-- The machine that the core shows. -/
def bootedMachine (program : ByteMemory) : Spec.Machine .rv32 where
  pc := 0x20000000
  regs := fun r => if r = 2 then 0x80004000 else 0
  memory := soc.bytes (flashed program)

theorem shows_booted (program : ByteMemory) : Shows soc (booted program) (bootedMachine program) :=
  ⟨rfl, rfl, rfl⟩

/-- ADDI x1, x1, 1 at the start of the flash. -/
def counting : ByteMemory := ByteMemory.write (fun _ => 0) 0 4 0x00108093

theorem program_simulated_counting : ∃ t,
    steps (runStep (soc.platform devices [dramDmi, flashDmi])).next 1 (booted counting) = some t ∧
      t.pc = 0x20000004 ∧ t.regs 1 = 1 := by
  have held : (space devices [dramDmi, flashDmi]).code 0x20000000 = true := by decide
  have lies : (soc.bytes (flashed counting)).read 0x20000000 4 = (0x00108093 : BitVec 32) := by decide
  have decodes : Spec.decode .rv32 0x00108093 = some (.addi, 0x00108093) := by decide
  have stepped := steps_one (Spec.Machine.step_computes (space devices [dramDmi, flashDmi])
    (bootedMachine counting) held lies decodes rfl)
  obtain ⟨t, ran, -, shows⟩ :=
    program_simulated alone (calm_booted counting) (shows_booted counting) stepped
  refine ⟨t, ran, shows.pc.trans ?_, (congrFun shows.regs 1).trans ?_⟩ <;> decide

end Hifive

end RiscvVp
