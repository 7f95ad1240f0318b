/-
# RiscvVp.Soc.Harts -- several harts on one bus

Harts that take turns on the same memories, with translation off and their interrupts masked, do what
the machines of the ISA do that take turns on one memory: in every schedule of their steps each sees the
bytes that were written last, whether they go over the bus or through DMI windows, and a
read-modify-write is one step.
-/
import RiscvVp.Soc.Simulation

namespace RiscvVp

set_option autoImplicit false

open Lib Iss

variable {isa : Isa} {ι : Type} [DecidableEq ι]

/-! ## The machines on one memory -/

namespace Spec

/-- A program counter and registers for each hart, and the memory. -/
structure Harts (isa : Isa) (ι : Type) where
  pc : ι → Word isa
  regs : ι → BitVec 5 → Word isa
  memory : ByteMemory

namespace Harts

variable (m : Harts isa ι) (i : ι)

/-- One hart with the memory. -/
def hart : Machine isa := ⟨m.pc i, m.regs i, m.memory⟩

def put (h : Machine isa) : Harts isa ι where
  pc := Function.update m.pc i h.pc
  regs := Function.update m.regs i h.regs
  memory := h.memory

/-- A turn of one hart. -/
def step (space : ι → Space) (i : ι) (m : Harts isa ι) : Option (Harts isa ι) :=
  ((m.hart i).step (space i)).map (m.put i)

@[simp] theorem hart_put_self (h : Machine isa) : (m.put i h).hart i = h := by
  simp [hart, put]

theorem hart_put_of_ne {i j : ι} (other : j ≠ i) (h : Machine isa) :
    (m.put i h).hart j = { m.hart j with memory := h.memory } := by
  simp [hart, put, other]

end Harts

end Spec

/-! ## The harts on the bus -/

namespace Soc

variable {Dev : Type}

/-- The cores, and what they share. -/
structure Cluster (isa : Isa) (Dev ι : Type) where
  harts : ι → Iss isa (SocState Dev)
  world : SocState Dev

namespace Cluster

variable (c : Cluster isa Dev ι) (i : ι)

/-- A core with the world as it is now. -/
def hart : Iss isa (SocState Dev) := (c.harts i).withWorld c.world

def put (s : Iss isa (SocState Dev)) : Cluster isa Dev ι where
  harts := Function.update c.harts i s
  world := s.world

/-- One `run_step` of a core. -/
def step (plat : ι → Platform (SocState Dev)) (i : ι) (c : Cluster isa Dev ι) :
    Option (Cluster isa Dev ι) := ((runStep (plat i)).next (c.hart i)).map (c.put i)

@[simp] theorem hart_put_self (s : Iss isa (SocState Dev)) : (c.put i s).hart i = s := by
  have own : (c.put i s).harts i = s := Function.update_self ..
  unfold hart
  rw [own]
  rfl

theorem hart_put_of_ne {i j : ι} (other : j ≠ i) (s : Iss isa (SocState Dev)) :
    (c.put i s).hart j = (c.hart j).withWorld s.world := by
  have kept : (c.put i s).harts j = c.harts j := Function.update_of_ne other ..
  unfold hart
  rw [kept]
  rfl

end Cluster

variable {soc : Soc Dev} {base : ι → Platform (SocState Dev)} {windows memories : ι → List MemoryDMI}

/-- Every core is calm, shows its machine, and nobody has the bus lock. -/
structure Together (soc : Soc Dev) (base : ι → Platform (SocState Dev))
    (windows memories : ι → List MemoryDMI) (c : Cluster isa Dev ι) (m : Spec.Harts isa ι) : Prop where
  calm : ∀ i, Calm soc (base i) (windows i) (memories i) (c.hart i)
  shows : ∀ i, Shows soc (c.hart i) (m.hart i)
  unlocked : c.world.lock.locked = false

omit [DecidableEq ι] in
/-- A core that had no turn, in the world that another one left. -/
theorem kept_withWorld {s t u : Iss isa (SocState Dev)} (kept : Kept soc s t)
    (here : u.world = s.world) (unlocked : s.world.lock.locked = false) :
    Kept soc u (u.withWorld t.world) where
  reg _ _ := rfl
  prv := rfl
  debug := rfl
  covers e covers := kept.covers e (here ▸ covers)
  aborted := kept.aborted.trans (here ▸ rfl)
  free _ locked := by
    have open_ : t.world.lock.locked = false := kept.unlocked unlocked
    exact absurd (locked.symm.trans open_) (by decide)
  unlocked _ := kept.unlocked unlocked

theorem together_step (alone : ∀ i, Alone (base i)) (i : ι) :
    Simulates (Together soc base windows memories)
      (Cluster.step (fun i => soc.platform (base i) (windows i)) i : Cluster isa Dev ι → _)
      (Spec.Harts.step (fun i => space (base i) (memories i)) i) := by
  intro c m m' together stepped
  obtain ⟨h, moves, rfl⟩ := Option.map_eq_some_iff.mp stepped
  obtain ⟨t, ran, kept, calm, shows⟩ :=
    runStep_simulates (alone i) (together.calm i) (together.shows i) moves
  have moved : Cluster.step (fun i => soc.platform (base i) (windows i)) i c = some (c.put i t) :=
    congrArg (Option.map (c.put i)) (Exec.next_eq_some.mpr ran)
  refine ⟨c.put i t, moved, ⟨fun j => ?_, fun j => ?_, kept.unlocked together.unlocked⟩⟩
  · by_cases same : j = i
    · rw [same, Cluster.hart_put_self]
      exact calm
    · rw [Cluster.hart_put_of_ne c same]
      have before := together.calm j
      exact before.of_kept (kept_withWorld kept rfl together.unlocked) before.zero before.even
  · by_cases same : j = i
    · rw [same, Cluster.hart_put_self, Spec.Harts.hart_put_self]
      exact shows
    · rw [Cluster.hart_put_of_ne c same, Spec.Harts.hart_put_of_ne m same]
      exact ⟨(together.shows j).pc, (together.shows j).regs, shows.bytes⟩

/-- In every schedule of the harts' steps each hart comes to the program counter and the registers that
it has where the machines take the same turns on one memory, and the memories hold the same bytes. -/
theorem schedule_simulated (alone : ∀ i, Alone (base i)) {c : Cluster isa Dev ι} {m m' : Spec.Harts isa ι}
    (together : Together soc base windows memories c m) {schedule : List ι}
    (ran : turns (Spec.Harts.step fun i => space (base i) (memories i)) schedule m = some m') :
    ∃ c', turns (Cluster.step fun i => soc.platform (base i) (windows i)) schedule c = some c' ∧
      Together soc base windows memories c' m' :=
  Simulates.turns (together_step alone) together ran

end Soc

/-! ### The two cores of `tiny32-mc` -/

namespace Tiny32Mc

open Soc

theorem ordered : (0x00000000 : BitVec 64) ≤ 0x01FFFFFF := by decide

/-- The memory at port 0, and nothing else that a program needs. -/
def soc : Soc Unit where
  ports := [⟨0x00000000, 0x01FFFFFF, ordered⟩]
  peripheral _ _ _ _ dev := (none, dev)
  pointer _ := 0

def ram : MemoryDMI := ⟨0x00000000, 0x02000000⟩

/-- The memory with a program in it. -/
def loaded (program : ByteMemory) : SocState Unit where
  memory
    | 0 => some ⟨program, 0x02000000⟩
    | _ => none
  dev := ()
  lock := ⟨false, 0⟩
  aborted := false

/-- Both cores out of reset, each with its own stack. -/
def booted (program : ByteMemory) (entry : Word .rv32) : Cluster .rv32 Unit (Fin 2) where
  harts i := reset (.ofNat 32 i) false entry (if i.val = 0 then 0x01FFFFFC else 0x01FF8000) (loaded program)
  world := loaded program

theorem covers_ram (program : ByteMemory) : soc.Covers (loaded program) ram where
  ordered := by decide
  memory := by
    have stop : (0x02000000 : BitVec 64) = 0 + (0x02000000 : BitVec 32).setWidth 64 := by decide
    exact ⟨_, rfl, stop⟩
  port := ⟨_, rfl, rfl⟩
  decodes addr inside := by
    rw [MemoryDMI.contains_iff] at inside
    have own : (⟨0x00000000, 0x01FFFFFF, ordered⟩ : PortMapping).contains addr = true := by
      simp only [PortMapping.contains, Bool.and_eq_true, decide_eq_true_iff, BitVec.le_def]
      exact ⟨inside.1, Nat.le_of_lt_succ inside.2⟩
    unfold Soc.decode soc
    rw [List.findIdx?_cons, if_pos own]

theorem alone (_ : Fin 2) : Alone Hifive.devices := ⟨fun _ => rfl, fun _ => rfl, fun _ => rfl⟩

theorem calm_booted (program : ByteMemory) {entry : Word .rv32} (even : entry &&& 1 = 0) (i : Fin 2) :
    Calm soc Hifive.devices [] [ram] ((booted program entry).hart i) where
  ready :=
    { wired := ⟨nofun, List.Pairwise.nil⟩
      bare := .inr (show Satp.mode (0 : Word .rv32) = Satp.bare by decide)
      free := nofun }
  covers e known := by
    cases List.mem_singleton.mp known
    exact covers_ram program
  running := rfl
  masked := .inl rfl
  debug := rfl
  compressed := by
    show (Misa.extC.get (misaInit .rv32 false) == 1#1) = true
    decide
  extends_ ext among := by
    simp only [List.mem_cons, List.not_mem_nil, or_false] at among
    show _ → misaInit .rv32 false &&& ext ≠ 0
    rcases among with rfl | rfl | rfl <;> decide
  zero := rfl
  even := even

/-- LI x1, 1 at the start of the memory. -/
def loading : ByteMemory := ByteMemory.write (fun _ => 0) 0 4 0x00100093

theorem placed_loading : Spec.Machine.Placed (space Hifive.devices [ram]) (soc.bytes (loaded loading))
    (0 : Word .rv32) [0x00100093] := by
  intro k word lies
  match k, lies with
  | 0, rfl => decide

theorem schedule_simulated_loading : ∃ c',
    turns (Cluster.step fun _ => soc.platform Hifive.devices []) [1, 0] (booted loading 0) = some c' ∧
      ∀ i, (c'.harts i).pc = 4 ∧ (c'.harts i).regs 1 = 1 := by
  let memory := soc.bytes (loaded loading)
  let regs (i : Fin 2) := ((booted loading 0).harts i).regs
  let m : Spec.Harts .rv32 (Fin 2) := ⟨fun _ => 0, regs, memory⟩
  have together : Together soc (fun _ => Hifive.devices) (fun _ => []) (fun _ => [ram])
      (booted loading 0) m := ⟨calm_booted loading (by decide), fun _ => ⟨rfl, rfl, rfl⟩, rfl⟩
  have moves (i : Fin 2) : (Spec.Machine.at_ memory 0 0 (regs i)).step (space Hifive.devices [ram]) =
      some (Spec.Machine.at_ memory 0 1 (Function.update (regs i) 1 1)) :=
    placed_loading.li (k := 0) rfl (show _ = some 0x00100093 from rfl) (by decide) (by decide) (by decide) (by decide)
  let after (i : Fin 2) : Spec.Machine .rv32 := .at_ memory 0 1 (Function.update (regs i) 1 1)
  let step : Fin 2 → Spec.Harts .rv32 (Fin 2) → Option (Spec.Harts .rv32 (Fin 2)) :=
    Spec.Harts.step fun _ => space Hifive.devices [ram]
  have first : step 1 m = some (m.put 1 (after 1)) := congrArg (Option.map (m.put 1)) (moves 1)
  have second : step 0 (m.put 1 (after 1)) = some ((m.put 1 (after 1)).put 0 (after 0)) :=
    congrArg (Option.map ((m.put 1 (after 1)).put 0)) (moves 0)
  have both : turns step [1, 0] m = some ((m.put 1 (after 1)).put 0 (after 0)) :=
    (turns_cons first).trans (turns_cons second)
  obtain ⟨c', ran, together'⟩ := schedule_simulated alone together both
  refine ⟨c', ran, fun i => ⟨(together'.shows i).pc.trans ?_, ?_⟩⟩
  · match i with
    | 0 => rfl
    | 1 => rfl
  · refine (congrFun (together'.shows i).regs 1).trans ?_
    match i with
    | 0 => rfl
    | 1 => rfl

end Tiny32Mc

end RiscvVp
