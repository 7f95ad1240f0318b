/-
# RiscvVp.Soc.Route -- `run_step` is a step of the ISA's machine

A core that runs a program from memories on its bus, with its interrupts masked, does what the machine
of the ISA does, whatever way the addresses of the program take to the memories: one `run_step` is one
step of the machine, which sees the memories through the table of the route.  The bus, the DMI windows,
the bus lock, the instruction proxy, the TLB, the counters and the interrupt lines do not show.
-/
import RiscvVp.Iss.IntStep
import RiscvVp.Lib.View
import RiscvVp.Soc.Accesses
import RiscvVp.Soc.FetchPath

namespace RiscvVp

set_option autoImplicit false

open Lib Iss

variable {isa : Isa}

/-! ## A core that nothing interrupts -/

/-- No interrupt is taken, whatever is pending. -/
def Iss.Undisturbed {World : Type} (s : Iss isa World) : Prop :=
  s.csrs.reg .mie = 0 ∨ s.prv = machineMode ∧ Mstatus.mie.get (s.csrs.reg .mstatus) = 0#1

theorem Iss.Undisturbed.none_pending {World : Type} {s : Iss isa World} (masked : s.Undisturbed) :
    computePendingInterrupts s = none := by
  unfold computePendingInterrupts
  rcases masked with none | ⟨machine, disabled⟩
  · simp [none]
  · simp [machine, disabled, machineMode, supervisorMode, userMode]

namespace Soc

variable {Dev : Type}

/-- The processes that write the interrupt lines leave the memories and the lock alone. -/
structure Alone (base : Platform (SocState Dev)) : Prop where
  memory : ∀ w, (base.irqEvents w).2.memory = w.memory
  lock : ∀ w, (base.irqEvents w).2.lock = w.lock
  aborted : ∀ w, (base.irqEvents w).2.aborted = w.aborted

/-- A core on memories, between two instructions of a program that needs nothing else. -/
structure Steady (soc : Soc Dev) (windows memories : List MemoryDMI) (s : Iss isa (SocState Dev)) :
    Prop where
  wired : soc.Wired s.world windows
  free : OpenTo s.hartId s.world
  covers : ∀ e ∈ memories, soc.Covers s.world e
  running : s.world.aborted = false
  masked : s.Undisturbed
  debug : s.debugMode = false
  compressed : s.hasExtension Misa.extC = true
  extends_ : ∀ ext ∈ [Misa.C isa, Misa.M isa, Misa.A isa], Extends ext s
  zero : s.regs 0 = 0
  even : s.pc &&& 1 = 0

/-! ## What a step does not change -/

/-- The memories, the lock as far as the hart is concerned, the privilege level, the debug mode
and every register of the table but the interrupt lines. -/
structure Kept (soc : Soc Dev) (s t : Iss isa (SocState Dev)) : Prop where
  reg : ∀ c, c ≠ .mip → t.csrs.reg c = s.csrs.reg c
  prv : t.prv = s.prv
  debug : t.debugMode = s.debugMode
  covers : ∀ e, soc.Covers s.world e → soc.Covers t.world e
  aborted : t.world.aborted = s.world.aborted
  free : OpenTo s.hartId s.world → OpenTo s.hartId t.world
  unlocked : s.world.lock.locked = false → t.world.lock.locked = false

section Kept

variable {soc : Soc Dev} {s t u : Iss isa (SocState Dev)} {base : Platform (SocState Dev)}
  {windows memories : List MemoryDMI}

theorem Kept.hartId (kept : Kept soc s t) : t.hartId = s.hartId := by
  unfold Iss.hartId
  rw [kept.reg .mhartid nofun]

theorem Kept.refl (s : Iss isa (SocState Dev)) : Kept soc s s :=
  ⟨fun _ _ => rfl, rfl, rfl, fun _ => id, rfl, id, id⟩

theorem Kept.trans (first : Kept soc s t) (second : Kept soc t u) : Kept soc s u where
  reg c other := (second.reg c other).trans (first.reg c other)
  prv := second.prv.trans first.prv
  debug := second.debug.trans first.debug
  covers e covers := second.covers e (first.covers e covers)
  aborted := second.aborted.trans first.aborted
  free free := first.hartId ▸ second.free (first.hartId.symm ▸ first.free free)
  unlocked := second.unlocked ∘ first.unlocked

theorem covers_of_memory {w w' : SocState Dev} {e : MemoryDMI} (same : w'.memory = w.memory)
    (covers : soc.Covers w e) : soc.Covers w' e :=
  ⟨covers.ordered, same ▸ covers.memory, covers.port, covers.decodes⟩

theorem bytes_of_memory {w w' : SocState Dev} (same : w'.memory = w.memory) :
    soc.bytes w' = soc.bytes w := by
  unfold bytes
  rw [same]

/-- Other memories than before: those of an access. -/
theorem kept_of_touched {i : Instruction} {acc : Spec.Access isa} (touched : Touched soc s i acc t) :
    Kept soc s t := by
  have shape := touched.shape
  have open_ := touched.free
  have unlocked := touched.unlocked
  rw [touched.frame] at *
  exact ⟨fun _ _ => rfl, rfl, rfl, fun _ => shape.covers, shape.aborted, fun _ => open_, unlocked⟩

/-- The core stays steady. -/
theorem Steady.of_kept (steady : Steady soc windows memories s) (kept : Kept soc s t)
    (zero : t.regs 0 = 0) (even : t.pc &&& 1 = 0) : Steady soc windows memories t where
  wired := ⟨fun e known => kept.covers e (steady.wired.covers e known), steady.wired.disjoint⟩
  free := kept.hartId.symm ▸ kept.free steady.free
  covers e known := kept.covers e (steady.covers e known)
  running := kept.aborted.trans steady.running
  masked := by
    unfold Undisturbed
    rw [kept.reg .mie nofun, kept.reg .mstatus nofun, kept.prv]
    exact steady.masked
  debug := kept.debug.trans steady.debug
  compressed := by
    unfold hasExtension
    rw [kept.reg .misa nofun]
    exact steady.compressed
  extends_ ext among := by
    unfold Extends
    rw [kept.reg .misa nofun]
    exact steady.extends_ ext among
  zero := zero
  even := even

end Kept

/-! ## Around the instruction -/

section Unseen

variable {soc : Soc Dev} {s t : Iss isa (SocState Dev)} {base : Platform (SocState Dev)}
  {windows : List MemoryDMI}

/-- Nothing that the machine has moved, and nothing was thrown. -/
structure Unseen (soc : Soc Dev) (s : Iss isa (SocState Dev)) (o : Option Exc)
    (t : Iss isa (SocState Dev)) : Prop where
  returned : o = none
  kept : Kept soc s t
  pc : t.pc = s.pc
  regs : t.regs = s.regs
  bytes : soc.bytes t.world = soc.bytes s.world
  tlb : t.tlb = s.tlb

instance : Transition.Closed (@Unseen isa Dev soc) where
  refl s := ⟨rfl, .refl s, rfl, rfl, rfl, rfl⟩
  trans first second :=
    ⟨second.returned, first.kept.trans second.kept, second.pc.trans first.pc,
      second.regs.trans first.regs, second.bytes.trans first.bytes, second.tlb.trans first.tlb⟩

/-- The core alone: its world and its table are as they were. -/
theorem Unseen.own (world : t.world = s.world) (reg : t.csrs.reg = s.csrs.reg) (prv : t.prv = s.prv)
    (debug : t.debugMode = s.debugMode) (pc : t.pc = s.pc) (regs : t.regs = s.regs)
    (tlb : t.tlb = s.tlb) : Unseen soc s none t where
  returned := rfl
  kept :=
    { reg := fun c _ => congrFun reg c
      prv := prv
      debug := debug
      covers := fun _ => by rw [world]; exact id
      aborted := by rw [world]
      free := by rw [world]; exact id
      unlocked := by rw [world]; exact id }
  pc := pc
  regs := regs
  bytes := by rw [world]
  tlb := tlb

theorem Unseen.run {m : IssM isa (SocState Dev) Unit} (sat : Sat (Unseen soc) m)
    (s : Iss isa (SocState Dev)) : ∃ t, m.run s = (.ok (), t) ∧ Unseen soc s none t := by
  cases ran : m.run s with
  | mk result t =>
    cases result with
    | ok _ => exact ⟨t, rfl, sat.ok ran⟩
    | error e => cases (sat.error ran).returned

/-- A look at the interrupt lines. -/
theorem unseen_pollInterrupts (alone : Alone base) :
    Sat (@Unseen isa Dev soc) (pollInterrupts (soc.platform base windows)) := by
  refine ⟨fun s => ?_⟩
  let w := (base.irqEvents s.world).2
  have memory : w.memory = s.world.memory := alone.memory s.world
  have lock : w.lock = s.world.lock := alone.lock s.world
  refine ⟨rfl, ⟨fun c other => if_neg other, rfl, rfl, fun e => covers_of_memory memory,
    alone.aborted s.world, fun free => ?_, fun unlocked => ?_⟩, rfl, rfl, bytes_of_memory memory, rfl⟩
  · show w.lock.locked = true → w.lock.owner = s.hartId
    rw [lock]
    exact free
  · show w.lock.locked = false
    rw [lock]
    exact unlocked

theorem openTo_unlock {w : SocState Dev} {hart : BitVec 64} (free : OpenTo hart w) :
    OpenTo hart { w with lock := w.lock.unlock hart } := by
  unfold OpenTo BusLock.unlock
  split
  · exact nofun
  · exact free

theorem unlocked_unlock {w : SocState Dev} {hart : BitVec 64} (unlocked : w.lock.locked = false) :
    (w.lock.unlock hart).locked = false := by
  unfold BusLock.unlock
  split
  · rfl
  · exact unlocked

/-- A reservation that is given up. -/
theorem unseen_releaseLrScReservation :
    Sat (@Unseen isa Dev soc) (releaseLrScReservation (soc.platform base windows)) :=
  ⟨fun _ => ⟨rfl, ⟨fun _ _ => rfl, rfl, rfl, fun _ => covers_of_memory rfl, rfl, openTo_unlock, unlocked_unlock⟩,
    rfl, rfl, bytes_of_memory rfl, rfl⟩⟩

/-- The counters, and a reservation whose steps are used up. -/
theorem unseen_performanceAndSyncUpdate :
    Sat (@Unseen isa Dev soc) (performanceAndSyncUpdate (soc.platform base windows)) := by
  have instret : ∀ value, Sat (@Unseen isa Dev soc) (setCounter .instret value) :=
    fun value => .update fun _ => .own rfl rfl rfl rfl rfl rfl rfl
  have counter : ∀ n, Sat (@Unseen isa Dev soc) (setLrScCounter n) :=
    fun n => .update fun _ => .own rfl rfl rfl rfl rfl rfl rfl
  have cycles : Sat (@Unseen isa Dev soc) (Exec.update fun s =>
      { s with cycleCounter := s.cycleCounter + instrCycles s.op }) :=
    .update fun _ => .own rfl rfl rfl rfl rfl rfl rfl
  have release := @unseen_releaseLrScReservation isa Dev soc base windows
  have field : ∀ (c : Csr) (f : Field 1), Sat (@Unseen isa Dev soc) (readField c f) :=
    fun _ _ => Sat.instRead _
  unfold performanceAndSyncUpdate
  infer_instance

end Unseen

/-- The targets of the specification are even. -/
theorem target_even {i : Instruction} {op : Mapping} {a b pc next target : Word isa} {e : Spec.Effect isa}
    (defined : Spec.effect isa i a b pc next op = some e) (even : pc &&& 1 = 0)
    (transfers : e.target = some target) : target &&& 1 = 0 := by
  have narrow : ∀ {value : BitVec 32}, Spec.Effect.writesW value = some e → target &&& 1 = 0 := by
    intro value written
    cases isa with
    | rv32 => cases written
    | rv64 =>
      cases written
      cases transfers
  have branch : ∀ {taken : Bool}, Spec.Effect.branches taken
      (Spec.add pc ((Spec.immB i).signExtend isa.xlen)) = some e → target &&& 1 = 0 := by
    intro taken branched
    cases branched
    cases taken with
    | false => cases transfers
    | true =>
      cases transfers
      exact even_add even (bImm_even i)
  cases op
  case jal =>
    cases defined
    cases transfers
    exact even_add even (jImm_even i)
  case jalr =>
    cases defined
    cases transfers
    have clear : ~~~(1 : Word isa) &&& 1 = 0 := by cases isa <;> decide
    rw [BitVec.and_assoc, clear]
    exact BitVec.and_zero
  case beq | bne | blt | bge | bltu | bgeu => exact branch defined
  case addiw | slliw | srliw | sraiw | addw | subw | sllw | srlw | sraw | mulw | divw | divuw | remw
      | remuw => exact narrow defined
  all_goals
    cases defined
    try cases transfers

theorem length_even (word : Instruction) : Spec.length isa word &&& 1 = 0 := by
  unfold Spec.length
  cases isa <;> split <;> decide

/-- The program counter of the machine stays even. -/
theorem even_of_step {space : Spec.Space} {m m' : Spec.Machine isa} (even : m.pc &&& 1 = 0)
    (stepped : m.step space = some m') : m'.pc &&& 1 = 0 := by
  obtain ⟨op, i, -, -, performed⟩ := Spec.Machine.step_eq_some _ _ stepped
  have next : (m.pc + Spec.length isa m.word) &&& 1 = 0 := by
    have sum := even_add even (length_even m.word)
    rwa [Spec.add, ← TwosComplement.add_eq] at sum
  rcases Spec.Machine.kind_of_perform _ _ performed with ⟨e, defined, rfl⟩ | ⟨acc, -, -, -, rfl⟩ | ⟨-, rfl⟩
  · show e.target.getD _ &&& 1 = 0
    cases transfers : e.target with
    | none => exact next
    | some target => exact target_even defined even transfers
  · exact next
  · exact next

/-! ## Routes -/

variable {soc : Soc Dev} {base : Platform (SocState Dev)} {windows memories : List MemoryDMI}

/-- How the addresses of a program lead to the memories while `Inv` holds: `table` says where to,
`space` which of them hold instructions and data.  `Inv` is lost neither on the way nor by what the
program stores. -/
structure Route (isa : Isa) (soc : Soc Dev) (base : Platform (SocState Dev))
    (windows memories : List MemoryDMI) where
  table : Table
  space : Spec.Space
  Inv : Iss isa (SocState Dev) → Prop
  kept : ∀ {s t}, Inv s → Kept soc s t → t.tlb = s.tlb → soc.bytes t.world = soc.bytes s.world → Inv t
  lock : ∀ {s} lock, Inv s → OpenTo s.hartId { s.world with lock := lock } →
    Inv (s.withWorld { s.world with lock := lock })
  code : ∀ {s pc}, Steady soc windows memories s → Inv s → space.code pc = true →
    ∃ tlb, (loadInstr (soc.platform base windows) pc).run s =
      (.ok ((table.view (soc.bytes s.world)).read pc 4), { s with tlb := tlb }) ∧ Inv { s with tlb := tlb }
  data : ∀ {addr n}, space.data addr n = true → ∃ pa, table.Straight addr pa n ∧
    (∃ e ∈ memories, e.Holds pa n) ∧
    (∀ {type}, type ≠ .fetch → Leads (soc.platform base windows) Inv type addr pa) ∧
    ∀ {s t} (value : BitVec (8 * n)), Inv s → Kept soc s t → t.tlb = s.tlb →
      soc.bytes t.world = (soc.bytes s.world).write pa n value → Inv t

/-- What the core holds, and what the program sees of the memories, is what the machine holds. -/
structure Route.Shows (route : Route isa soc base windows memories) (s : Iss isa (SocState Dev))
    (m : Spec.Machine isa) : Prop where
  pc : s.pc = m.pc
  regs : s.regs = m.regs
  bytes : route.table.view (soc.bytes s.world) = m.memory

/-- A core on the route that shows the machine. -/
structure Route.Follows (route : Route isa soc base windows memories) (s : Iss isa (SocState Dev))
    (m : Spec.Machine isa) : Prop where
  steady : Steady soc windows memories s
  inv : route.Inv s
  shows : route.Shows s m

namespace Route

variable (route : Route isa soc base windows memories) {s t : Iss isa (SocState Dev)}

/-! ## The instruction -/

/-- The word is fetched and decoded. -/
theorem run_prepare (steady : Steady soc windows memories s) (inv : route.Inv s) {word i : Instruction}
    {op : Mapping} (held : route.space.code (Spec.location s.pc) = true)
    (lies : (route.table.view (soc.bytes s.world)).read (Spec.location s.pc) 4 = word)
    (decodes : word.decoded isa = some (op, i)) :
    ∃ tlb, (do fetch (soc.platform base windows); Iss.decode : IssM isa (SocState Dev) Unit).run s =
      (.ok (), { s with instr := i, op := op, pc := s.pc + word.size isa, tlb := tlb }) ∧
        route.Inv { s with tlb := tlb } := by
  obtain ⟨tlb, loaded, inv'⟩ := route.code steady inv held
  have located : s.pc.setWidth 64 = Spec.location s.pc := (BitVec.ofNat_toNat 64 _).symm
  rw [lies, ← located] at loaded
  have fetched : (fetch (soc.platform base windows)).run s = (.ok (), { s with instr := word, tlb := tlb }) :=
    fetch_eq_ok.mpr ⟨word, { s with tlb := tlb }, loaded, rfl⟩
  refine ⟨tlb, ?_, inv'⟩
  rw [Exec.run_bind_ok fetched]
  exact decode_eq_ok.mpr ⟨op, i, decodes, fun _ _ => steady.extends_ _ (by simp), rfl⟩

/-- The bytes of an access are the machine's behind it, and `Inv` holds again. -/
theorem follows_touched {u : Iss isa (SocState Dev)} {m : Spec.Machine isa} {i : Instruction}
    {acc : Spec.Access isa} {pa : BitVec 64} (next : Word isa)
    (straight : route.table.Straight acc.addr pa acc.bytes)
    (stored : ∀ value, Kept soc { u with tlb := t.tlb } t →
      soc.bytes t.world = (soc.bytes u.world).write pa acc.bytes value → route.Inv t)
    (touched : Touched soc u i { acc with addr := pa } t) (inv : route.Inv { u with tlb := t.tlb })
    (shows : route.table.view (soc.bytes u.world) = m.memory) :
    route.Inv t ∧ route.table.view (soc.bytes t.world) = (m.touch i acc next).memory := by
  have same := kept_of_touched touched
  have kept : Kept soc { u with tlb := t.tlb } t :=
    ⟨same.reg, same.prv, same.debug, same.covers, same.aborted, same.free, same.unlocked⟩
  have seen : m.memory.read acc.addr acc.bytes = (soc.bytes u.world).read pa acc.bytes := by
    rw [← shows]
    exact Table.view_read straight
  have bytes := touched.bytes
  cases updates : acc.update ((soc.bytes u.world).read pa acc.bytes) with
  | some value =>
    rw [updates] at bytes
    refine ⟨stored value kept bytes, ?_⟩
    rw [Spec.Machine.touch_memory_some m (seen ▸ updates), ← shows, bytes]
    exact Table.view_write straight value
  | none =>
    rw [updates] at bytes
    refine ⟨route.kept inv kept rfl bytes, ?_⟩
    rw [Spec.Machine.touch_memory_none m (seen ▸ updates), ← shows, bytes]

/-- The instruction of the step is carried out as the machine does it. -/
theorem execStep_simulates {m m' : Spec.Machine isa} (follows : route.Follows s m)
    (linked : s.lastPc = s.pc) (stepped : m.step route.space = some m') :
    ∃ t, (execStep (soc.platform base windows)).run s = (.ok (), t) ∧ Kept soc s t ∧ route.Inv t ∧
      t.pc = m'.pc ∧ (fun r => if r = 0 then 0 else t.regs r) = m'.regs ∧
      route.table.view (soc.bytes t.world) = m'.memory := by
  obtain ⟨pc, regs, memory⟩ := m
  obtain ⟨steady, inv, rfl, rfl, rfl⟩ := follows
  obtain ⟨op, i, held, decodes, performed⟩ := Spec.Machine.step_decoded _ _ stepped
  let view := route.table.view (soc.bytes s.world)
  let word : Instruction := view.read (Spec.location s.pc) 4
  have aligned : s.pc &&& ~~~s.pcAlignmentMask = 0 := by
    unfold pcAlignmentMask
    rw [if_pos steady.compressed, BitVec.not_not]
    exact steady.even
  obtain ⟨tlb, prepared, inv'⟩ := route.run_prepare steady inv held rfl decodes
  let u : Iss isa (SocState Dev) := { s with instr := i, op := op, pc := s.pc + word.size isa, tlb := tlb }
  have ran : (execStep (soc.platform base windows)).run s =
      (exec i (soc.platform base windows) op).run u := run_execStep aligned prepared
  have kept : Kept soc s u := ⟨fun _ _ => rfl, rfl, rfl, fun _ => id, rfl, id, id⟩
  have inv : route.Inv u :=
    route.kept inv' ⟨fun _ _ => rfl, rfl, rfl, fun _ => id, rfl, id, id⟩ rfl rfl
  rw [ran]
  rcases Spec.Machine.kind_of_perform _ _ performed with ⟨e, defined, rfl⟩ |
    ⟨acc, defined, fits, space, rfl⟩ | ⟨fence, rfl⟩
  · have effects : Spec.effect isa i (u.regs (Spec.rs1 i)) (u.regs (Spec.rs2 i)) u.lastPc u.pc op =
        some e := by rw [show u.lastPc = s.pc from linked]; exact defined
    have even : u.lastPc &&& 1 = 0 := by rw [show u.lastPc = s.pc from linked]; exact steady.even
    have multiplies : Extends (Misa.M isa) u := steady.extends_ _ (by simp)
    obtain ⟨t, done, frame, written⟩ := outcome_ok (i := i) (e := e) (u := u) fun target misaligned => by
      have absent : s.hasExtension Misa.extC = false := misaligned.2.2
      rw [steady.compressed] at absent
      cases absent
    have same : Kept soc u t := by
      rw [frame]
      exact ⟨fun _ _ => rfl, rfl, rfl, fun _ => id, rfl, id, id⟩
    refine ⟨t, ?_, kept.trans same, route.kept inv same ?_ ?_, ?_, ?_, ?_⟩
    · rw [exec_outcome effects (fun _ => multiplies) (fun shift => shamt_of_decoded shift decodes) even]
      exact done
    · rw [frame]
    · rw [frame]
    · rw [frame]
      rfl
    · rw [written]
      exact zeroed_eq_writeRd
    · rw [frame]
      rfl
  · obtain ⟨pa, straight, ⟨f, known, holds⟩, leads, stored⟩ := route.data space
    obtain ⟨t, done, touched, inv'⟩ := exec_access (u := u) steady.wired (steady.covers f known) inv
      steady.free (steady.extends_ _ (by simp)) route.lock defined fits leads holds
    have seen : view.read acc.addr acc.bytes = (soc.bytes s.world).read pa acc.bytes :=
      Table.view_read straight
    obtain ⟨inv, memory⟩ := route.follows_touched (u := u) (m := ⟨s.pc, s.regs, view⟩) u.pc straight
      (fun value kept bytes => stored value inv' kept rfl bytes) touched inv' rfl
    refine ⟨t, done, kept.trans (kept_of_touched touched), inv, ?_, ?_, memory⟩
    · rw [touched.frame]
      rfl
    · rw [touched.regs]
      refine (zeroed_eq_writeRd (e := ⟨acc.result _, none⟩)).trans ?_
      exact congrArg (fun data => Spec.writeRd i ⟨acc.result data, none⟩ s.regs) seen.symm
  · have done : (exec i (soc.platform base windows) op).run u = (.ok (), u) := by
      rcases fence with rfl | rfl <;> rfl
    refine ⟨u, done, kept, inv, rfl, ?_, rfl⟩
    funext r
    by_cases zero : r = 0
    · rw [if_pos zero, zero]
      exact steady.zero.symm
    · rw [if_neg zero]

/-! ## The step -/

/-- One `run_step` is one step of the machine. -/
theorem runStep_simulates (alone : Alone base) {m m' : Spec.Machine isa} (follows : route.Follows s m)
    (stepped : m.step route.space = some m') :
    ∃ t, (runStep (soc.platform base windows)).run s = (.ok (), t) ∧ Kept soc s t ∧ route.Follows t m' := by
  have going : ¬ (s.debugMode && decide (s.pc ∈ s.breakpoints)) = true := by simp [follows.steady.debug]
  have polls : Sat (@Unseen isa Dev soc) (pollInterrupts (soc.platform base windows)) :=
    unseen_pollInterrupts alone
  obtain ⟨u, polled, first⟩ := Unseen.run polls s
  let v : Iss isa (SocState Dev) := { u with lastPc := u.pc }
  have linked : Unseen soc s none v :=
    Transition.Closed.trans first (.own rfl rfl rfl rfl rfl rfl rfl)
  have steady : Steady soc windows memories v :=
    follows.steady.of_kept linked.kept (linked.regs ▸ follows.steady.zero)
      (linked.pc ▸ follows.steady.even)
  have shows : route.Shows v m :=
    ⟨linked.pc.trans follows.shows.pc, linked.regs.trans follows.shows.regs,
      (congrArg route.table.view linked.bytes).trans follows.shows.bytes⟩
  have inv : route.Inv v := route.kept follows.inv linked.kept linked.tlb linked.bytes
  obtain ⟨w, executed, kept, inv', pc, regs, bytes⟩ :=
    route.execStep_simulates ⟨steady, inv, shows⟩ rfl stepped
  obtain ⟨x, polled', second⟩ := Unseen.run polls w
  have even : m'.pc &&& 1 = 0 := even_of_step (shows.pc ▸ steady.even) stepped
  have masked : computePendingInterrupts x = none := by
    refine Undisturbed.none_pending ?_
    have kept' := kept.trans second.kept
    unfold Undisturbed
    rw [kept'.reg .mie nofun, kept'.reg .mstatus nofun, kept'.prv]
    exact steady.masked
  have tried : ((execAndInterrupt (soc.platform base windows)).tryCatch
      (takeTrap (soc.platform base windows))).run v = (.ok (), x) := by
    refine Exec.run_tryCatch_ok ?_
    unfold execAndInterrupt
    rw [Exec.run_bind_ok executed, Exec.run_bind_ok polled', Exec.run_read_bind, masked]
    rfl
  let y := x.setReg 0 0
  have zeroed : (writeReg 0 0).run x = (.ok (), y) := rfl
  have leave : Sat (@Unseen isa Dev soc) (do
      Exec.when (← Exec.read shallExit) (setStatus .terminated)
      performanceAndSyncUpdate (soc.platform base windows)) := by
    have status : Sat (@Unseen isa Dev soc) (setStatus .terminated) :=
      .update fun _ => .own rfl rfl rfl rfl rfl rfl rfl
    have counts := @unseen_performanceAndSyncUpdate isa Dev soc base windows
    infer_instance
  obtain ⟨t, left, last⟩ := Unseen.run leave y
  -- behind the instruction only `x0` is written
  have after : Kept soc w t := second.kept.trans ⟨last.kept.reg, last.kept.prv, last.kept.debug,
    last.kept.covers, last.kept.aborted, last.kept.free, last.kept.unlocked⟩
  have kept' : Kept soc v t := kept.trans after
  have shown : route.Shows t m' := by
    refine ⟨last.pc.trans (second.pc.trans pc), last.regs.trans ?_,
      (congrArg route.table.view (last.bytes.trans second.bytes)).trans bytes⟩
    rw [← regs, ← second.regs]
    rfl
  refine ⟨t, ?_, linked.kept.trans kept', steady.of_kept kept' ?_ (shown.pc ▸ even),
    route.kept inv' after (last.tlb.trans second.tlb) (last.bytes.trans second.bytes), shown⟩
  · unfold runStep
    rw [Exec.run_read_bind, run_assert_bind s follows.steady.zero, if_neg going, Exec.run_bind_ok polled,
      Exec.run_update_bind, Exec.run_bind_ok tried, Exec.run_bind_ok zeroed]
    exact left
  · rw [last.regs]
    rfl

theorem simulates (alone : Alone base) : Simulates route.Follows
    (runStep (soc.platform base windows) : IssM isa (SocState Dev) Unit).next
    (Spec.Machine.step route.space) := by
  intro s m m' follows stepped
  obtain ⟨t, ran, -, follows'⟩ := route.runStep_simulates alone follows stepped
  exact ⟨t, Exec.next_eq_some.mpr ran, follows'⟩

end Route

end Soc

end RiscvVp
