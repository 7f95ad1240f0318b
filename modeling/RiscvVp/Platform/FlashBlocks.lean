/-
# RiscvVp.Platform.FlashBlocks -- whose bytes are in the block buffer

When the guest selects another block, the buffer takes its number whether the host has delivered its
bytes or not.  Where it has (`Meets`), the buffer holds bytes of its own block (`Sound`), so what the
guest gets and what is put back belongs there; where it has not, the next access gets or puts bytes of
the block before.
-/
import RiscvVp.Lib.Runs
import RiscvVp.Platform.Flash

namespace RiscvVp.Flash

set_option autoImplicit false

open Lib

/-- The bytes are those of the block. -/
def Event.Belongs : Event → Prop
  | .returned block bytes => ∀ byte ∈ bytes, byte.block = some block
  | .committed block bytes => ∀ byte ∈ bytes, byte.block = some block
  | .register _ => True

/-- The byte offset of the block has wrapped, to one that the host will seek: it is another block's. -/
def Wraps (block : BitVec 64) : Prop := (byteOffset block).msb = false ∧ (byteOffset block).toNat / 512 ≠ block.toNat

/-- The buffer holds bytes of its block, which is where it is going to be put. -/
def Sound (f : Flashcontroller) : Prop :=
  f.blockBuf.active = true → ¬ Wraps f.blockBuf.offs ∧
    ∀ i < 512, (f.blockBuf.buf i).block = some f.blockBuf.offs.toNat

/-- Before the first access the buffer holds nothing. -/
def Fresh (f : Flashcontroller) : Prop := f.blockBuf.active = false → ∀ i, (f.blockBuf.buf i).block = none

/-- A transaction of the guest, and what the host makes of the calls that it leads to. -/
structure Input where
  length : Nat
  cmd : TlmCommand length
  address : BitVec 64
  commit : HostCall
  load : HostCall

namespace Input

variable (a : Input)

/-- The address is an `unsigned`. -/
def addr : Nat := (a.address.setWidth 32).toNat

/-- The place in the block, and how much of it. -/
def pos : Nat := a.addr - 16

def size : Nat := a.length % 2 ^ 16

/-- The guest overwrites the byte. -/
def Covers (i : Nat) : Prop :=
  match a.cmd with
  | .write _ => a.pos ≤ i ∧ i < a.pos + a.size
  | .read => False

end Input

def step (f : Flashcontroller) (a : Input) : Except Fault (List Event × Flashcontroller) :=
  f.transport a.cmd a.address a.commit a.load

/-- The access goes to the data of a block that may be selected. -/
def ToData (f : Flashcontroller) (a : Input) : Prop :=
  16 ≤ a.addr ∧ a.addr < 528 ∧ f.opened = true ∧ f.targetBlock < f.deviceNumBlocks

/-- The buffer is to change to the block. -/
def Selects (f : Flashcontroller) : Prop := f.targetBlock ≠ f.blockBuf.offs ∨ f.blockBuf.active = false

/-- The access stays inside of the register or the block; and where it selects a block, the byte offset
of the block does not wrap and the host delivers what the access does not overwrite. -/
structure Meets (f : Flashcontroller) (a : Input) : Prop where
  register : f.opened = true → a.addr < 8 → a.addr + a.length ≤ 8
  sizeRegister : f.opened = true → 8 ≤ a.addr → a.addr < 16 →
    match a.cmd with
    | .read => a.addr - 8 + a.length ≤ 8
    | .write _ => True
  inside : ToData f a → a.pos + a.size ≤ 512
  place : ToData f a → Selects f → ¬ Wraps f.targetBlock
  delivered : ToData f a → Selects f →
    ∀ i < 512, i < a.load.moved (byteOffset f.targetBlock) ∨ a.Covers i

/-- A failed assertion ends the simulation; otherwise every byte is where it belongs, and so it is in
the buffer. -/
def Clean : Except Fault (List Event × Flashcontroller) → Prop
  | .error .assertion => True
  | .error .undefined => False
  | .ok (events, g) => (∀ e ∈ events, e.Belongs) ∧ Sound g

variable {f g : Flashcontroller} {a : Input} {commit load : HostCall} {block : BitVec 64} {i : Nat}

/-! ## Changing the block -/

namespace Flashcontroller

/-- The controller in which the new block is read. -/
def committed (f : Flashcontroller) (commit : HostCall) : List Event × Flashcontroller :=
  if f.blockBuf.dirty = true ∧ f.blockBuf.active = true then f.writeBlock commit f.blockBuf.offs else ([], f)

theorem setPos_of_selected (same : ¬ (block ≠ f.blockBuf.offs ∨ f.blockBuf.active = false)) :
    f.setPos commit load block = ([], f) := if_neg same

theorem committed_frame : (f.committed commit).2.blockBuf.buf = f.blockBuf.buf ∧
    (f.committed commit).2.targetBlock = f.targetBlock ∧
    (f.committed commit).2.deviceNumBlocks = f.deviceNumBlocks ∧ (f.committed commit).2.opened = f.opened := by
  unfold committed
  split
  · exact ⟨rfl, rfl, rfl, rfl⟩
  · exact ⟨rfl, rfl, rfl, rfl⟩

/-- Behind the change to another block. -/
def selected (f : Flashcontroller) (commit load : HostCall) (block : BitVec 64) : Flashcontroller :=
  let c := (f.committed commit).2
  let h := readBlock { c with blockBuf := { c.blockBuf with offs := block } } load block
  { h with blockBuf := { h.blockBuf with active := true } }

theorem setPos_of_change (change : block ≠ f.blockBuf.offs ∨ f.blockBuf.active = false) :
    f.setPos commit load block = ((f.committed commit).1, f.selected commit load block) := if_pos change

@[simp] theorem selected_offs : (f.selected commit load block).blockBuf.offs = block := rfl

@[simp] theorem selected_active : (f.selected commit load block).blockBuf.active = true := rfl

@[simp] theorem selected_targetBlock : (f.selected commit load block).targetBlock = f.targetBlock :=
  committed_frame.2.1

/-- What was not delivered is still there from the block before. -/
theorem selected_block : ((f.selected commit load block).blockBuf.buf i).block =
    if i < load.moved (byteOffset block) then some ((byteOffset block).toNat / 512)
    else (f.blockBuf.buf i).block := by
  change Tagged.block (if i < load.moved (byteOffset block) then _ else (f.committed commit).2.blockBuf.buf i) = _
  rw [committed_frame.1]
  split
  · rfl
  · rfl

end Flashcontroller

/-- Bytes only move where the seek has gone through. -/
theorem place_of_moved {call : HostCall} (fits : ¬ Wraps block) (some : i < call.moved (byteOffset block)) :
    (byteOffset block).toNat / 512 = block.toNat := by
  by_contra other
  have still : (byteOffset block).msb = true := by
    by_contra positive
    exact fits ⟨by simpa using positive, other⟩
  simp [HostCall.moved, HostCall.seeks, still] at some

theorem committed_belongs (sound : Sound f) : ∀ e ∈ (f.committed commit).1, e.Belongs := by
  intro e among
  unfold Flashcontroller.committed at among
  split at among
  case isFalse => cases among
  case isTrue changed =>
    obtain ⟨place, bytes⟩ := sound changed.2
    obtain rfl := List.mem_singleton.mp among
    intro byte listed
    obtain ⟨i, inside, rfl⟩ := List.mem_map.mp listed
    have moved := List.mem_range.mp inside
    have short : commit.moved (byteOffset f.blockBuf.offs) ≤ 512 := by
      unfold HostCall.moved
      split <;> omega
    rw [bytes i (by omega), place_of_moved place moved]

/-- Whose bytes the buffer holds before is not the block that is selected. -/
theorem foreign (sound : Sound f) (fresh : Fresh f) (selects : Selects f) (inside : i < 512) :
    (f.blockBuf.buf i).block ≠ some f.targetBlock.toNat := by
  cases active : f.blockBuf.active with
  | false =>
    rw [fresh active i]
    nofun
  | true =>
    have other : f.targetBlock ≠ f.blockBuf.offs := selects.resolve_right (by simp [active])
    rw [(sound active).2 i inside]
    intro same
    exact other (BitVec.eq_of_toNat_eq (Option.some.inj same)).symm

/-- A buffer of the bytes `old` into which the host has moved a part of the block, and the guest then
some bytes. -/
theorem sound_iff {call : HostCall} {old : Nat → Option Nat} {written : Nat → Prop} [DecidablePred written]
    (active : g.blockBuf.active = true) (offs : g.blockBuf.offs = block)
    (foreign : ∀ i < 512, old i ≠ some block.toNat)
    (blocks : ∀ i, (g.blockBuf.buf i).block = if written i then some block.toNat
      else if i < call.moved (byteOffset block) then some ((byteOffset block).toNat / 512) else old i) :
    Sound g ↔ ¬ Wraps block ∧ ∀ i < 512, i < call.moved (byteOffset block) ∨ written i := by
  unfold Sound
  rw [offs]
  constructor
  · intro sound
    obtain ⟨place, bytes⟩ := sound active
    refine ⟨place, fun i inside => ?_⟩
    by_contra neither
    obtain ⟨missing, kept⟩ := not_or.mp neither
    have byte := bytes i inside
    rw [blocks, if_neg kept, if_neg missing] at byte
    exact foreign i inside byte
  · rintro ⟨place, delivered⟩ -
    refine ⟨place, fun i inside => ?_⟩
    rw [blocks]
    by_cases kept : written i
    · rw [if_pos kept]
    · have moved := (delivered i inside).resolve_right kept
      rw [if_neg kept, if_pos moved, place_of_moved place moved]

/-! ## One access -/

namespace Flashcontroller

/-- Behind `setData` with the bytes of the guest. -/
def overwritten {n : Nat} (f : Flashcontroller) (source : BitVec (8 * n)) (pos : Nat) : Flashcontroller :=
  { f with blockBuf := { f.blockBuf with
    buf := fun i => if pos ≤ i ∧ i < pos + n % 2 ^ 16 then
      ⟨source.extractLsb' (8 * (i - pos)) 8, some f.targetBlock.toNat⟩ else f.blockBuf.buf i
    dirty := true } }

theorem overwritten_block {n pos : Nat} {source : BitVec (8 * n)} :
    ((f.overwritten source pos).blockBuf.buf i).block =
      if pos ≤ i ∧ i < pos + n % 2 ^ 16 then some f.targetBlock.toNat else (f.blockBuf.buf i).block := by
  unfold overwritten
  dsimp only
  split
  · rfl
  · rfl

theorem setData_eq {n : Nat} (active : f.blockBuf.active = true) (source : BitVec (8 * n)) (pos : Nat) :
    f.setData source pos = if pos + n % 2 ^ 16 ≤ 512 then .ok (f.overwritten source pos) else .error .undefined := by
  unfold setData
  rw [if_neg (by simp [active])]
  rfl

theorem getData_eq (active : f.blockBuf.active = true) (pos n : Nat) :
    f.getData pos n = if pos + n % 2 ^ 16 ≤ 512 then
      .ok ((List.range (n % 2 ^ 16)).map fun i => f.blockBuf.buf (pos + i)) else .error .undefined := by
  unfold getData
  rw [if_neg (by simp [active])]

end Flashcontroller

theorem clean_setData {n pos : Nat} {events : List Event} (belong : ∀ e ∈ events, e.Belongs)
    (active : f.blockBuf.active = true) (source : BitVec (8 * n)) :
    Clean ((f.setData source pos).map (events, ·)) ↔
      pos + n % 2 ^ 16 ≤ 512 ∧ Sound (f.overwritten source pos) := by
  rw [f.setData_eq active]
  split
  case isTrue inside => exact ⟨fun clean => ⟨inside, clean.2⟩, fun sound => ⟨belong, sound.2⟩⟩
  case isFalse outside => exact ⟨False.elim, fun sound => outside sound.1⟩

/-- A sound buffer gives the guest bytes of its block. -/
theorem clean_getData {n pos : Nat} {events : List Event} (belong : ∀ e ∈ events, e.Belongs)
    (active : f.blockBuf.active = true) (offs : f.blockBuf.offs = block) :
    Clean ((f.getData pos n).map fun bytes => (events ++ [.returned block.toNat bytes], f)) ↔
      pos + n % 2 ^ 16 ≤ 512 ∧ Sound f := by
  rw [f.getData_eq active]
  split
  case isFalse outside => exact ⟨False.elim, fun sound => outside sound.1⟩
  case isTrue inside =>
    refine ⟨fun clean => ⟨inside, clean.2⟩, fun sound => ⟨fun e among => ?_, sound.2⟩⟩
    rcases List.mem_append.mp among with before | last
    · exact belong e before
    · obtain rfl := List.mem_singleton.mp last
      intro byte listed
      obtain ⟨i, within, rfl⟩ := List.mem_map.mp listed
      have below := List.mem_range.mp within
      rw [(sound.2 active).2 (pos + i) (by omega), offs]

theorem step_toData (data : ToData f a) : step f a =
    match a.cmd with
    | .write buffer =>
        ((f.setPos a.commit a.load f.targetBlock).2.setData buffer a.pos).map
          ((f.setPos a.commit a.load f.targetBlock).1, ·)
    | .read =>
        ((f.setPos a.commit a.load f.targetBlock).2.getData a.pos a.length).map fun bytes =>
          ((f.setPos a.commit a.load f.targetBlock).1 ++ [.returned f.targetBlock.toNat bytes],
            (f.setPos a.commit a.load f.targetBlock).2) := by
  obtain ⟨low, high, opened, allowed⟩ := data
  have beyond : ¬ (a.address.setWidth 32).toNat < 8 ∧ ¬ (a.address.setWidth 32).toNat < 16 := by
    unfold Input.addr at low
    omega
  unfold step Flashcontroller.transport
  rw [if_pos ⟨high, opened⟩, if_neg beyond.1, if_neg beyond.2, if_pos allowed]
  obtain ⟨n, cmd, address, commit, load⟩ := a
  cases cmd with
  | read => rfl
  | write buffer => rfl

/-- Where no other block is selected the guest reads and writes the bytes of the one that is there. -/
theorem clean_same (sound : Sound f) (data : ToData f a) (same : ¬ Selects f) :
    Clean (step f a) ↔ a.pos + a.size ≤ 512 := by
  have kept := not_or.mp same
  have offs : f.blockBuf.offs = f.targetBlock := (not_not.mp kept.1).symm
  have active : f.blockBuf.active = true := by simpa using kept.2
  have belong : ∀ e ∈ ([] : List Event), e.Belongs := by simp
  rw [step_toData data, Flashcontroller.setPos_of_selected same]
  obtain ⟨n, cmd, address, commit, load⟩ := a
  cases cmd with
  | read =>
    refine (clean_getData belong active offs).trans ?_
    exact and_iff_left sound
  | write buffer =>
    refine (clean_setData belong active buffer).trans (and_iff_left fun _ => ⟨(sound active).1, fun i inside => ?_⟩)
    rw [Flashcontroller.overwritten_block]
    split
    · exact congrArg (some ·.toNat) offs.symm
    · exact (sound active).2 i inside

/-- Where another block is selected. -/
theorem clean_change (sound : Sound f) (fresh : Fresh f) (data : ToData f a) (selects : Selects f) :
    Clean (step f a) ↔ a.pos + a.size ≤ 512 ∧ ¬ Wraps f.targetBlock ∧
      ∀ i < 512, i < a.load.moved (byteOffset f.targetBlock) ∨ a.Covers i := by
  have belong : ∀ e ∈ (f.committed a.commit).1, e.Belongs := committed_belongs sound
  have other : ∀ i < 512, (f.blockBuf.buf i).block ≠ some f.targetBlock.toNat :=
    fun i inside => foreign sound fresh selects inside
  rw [step_toData data, Flashcontroller.setPos_of_change selects]
  obtain ⟨n, cmd, address, commit, load⟩ := a
  cases cmd with
  | read =>
    refine (clean_getData belong rfl rfl).trans (and_congr_right fun _ => ?_)
    refine @sound_iff _ _ load _ (fun _ => False) _ rfl rfl other fun i => ?_
    rw [Flashcontroller.selected_block, if_neg not_false]
  | write buffer =>
    refine (clean_setData belong rfl buffer).trans (and_congr_right fun _ => ?_)
    refine @sound_iff _ _ load _ (fun i => (address.setWidth 32).toNat - 16 ≤ i ∧ i < (address.setWidth 32).toNat - 16 + n % 2 ^ 16) _ rfl rfl other fun i => ?_
    rw [Flashcontroller.overwritten_block, Flashcontroller.selected_block, Flashcontroller.selected_targetBlock]
    rfl

theorem clean_toData (sound : Sound f) (fresh : Fresh f) (data : ToData f a) : Clean (step f a) ↔ Meets f a := by
  obtain ⟨low, -, -, -⟩ := id data
  have far : ¬ a.addr < 8 ∧ ¬ a.addr < 16 := by omega
  by_cases selects : Selects f
  · rw [clean_change sound fresh data selects]
    constructor
    · rintro ⟨inside, place, delivered⟩
      exact ⟨fun _ near => absurd near far.1, fun _ _ near => absurd near far.2, fun _ => inside,
        fun _ _ => place, fun _ _ => delivered⟩
    · intro meets
      exact ⟨meets.inside data, meets.place data selects, meets.delivered data selects⟩
  · rw [clean_same sound data selects]
    constructor
    · intro inside
      exact ⟨fun _ near => absurd near far.1, fun _ _ near => absurd near far.2, fun _ => inside,
        fun _ change => absurd change selects, fun _ change => absurd change selects⟩
    · intro meets
      exact meets.inside data

/-- An access that does not go to the data, with the checks of the registers. -/
theorem meets_iff (other : ¬ ToData f a) : Meets f a ↔
    (f.opened = true → a.addr < 8 → a.addr + a.length ≤ 8) ∧
    (f.opened = true → 8 ≤ a.addr → a.addr < 16 →
      match a.cmd with
      | .read => a.addr - 8 + a.length ≤ 8
      | .write _ => True) :=
  ⟨fun meets => ⟨meets.register, meets.sizeRegister⟩, fun checks => ⟨checks.1, checks.2, fun data => absurd data other,
    fun data => absurd data other, fun data => absurd data other⟩⟩

/-- The accesses to the registers, and those that an assertion stops. -/
theorem clean_register (sound : Sound f) (other : ¬ ToData f a) : Clean (step f a) ↔ Meets f a := by
  have kept : (∀ e ∈ ([] : List Event), e.Belongs) ∧ Sound f := ⟨by simp, sound⟩
  have told : ∀ bytes, (∀ e ∈ [Event.register bytes], e.Belongs) ∧ Sound f := fun _ => ⟨by simp [Event.Belongs], sound⟩
  rw [meets_iff other]
  obtain ⟨n, cmd, address, commit, load⟩ := a
  unfold step Flashcontroller.transport Input.addr
  dsimp only
  by_cases checked : (address.setWidth 32).toNat < 528 ∧ f.opened = true
  case neg =>
    have closed : (address.setWidth 32).toNat < 16 → f.opened ≠ true := fun near opened => checked ⟨by omega, opened⟩
    rw [if_neg checked]
    exact iff_of_true trivial ⟨fun opened near => absurd opened (closed (by omega)),
      fun opened _ near => absurd opened (closed near)⟩
  case pos =>
    rw [if_pos checked]
    by_cases first : (address.setWidth 32).toNat < 8
    case pos =>
      rw [if_pos first]
      by_cases inside : (address.setWidth 32).toNat + n ≤ 8
      · rw [if_pos inside]
        refine iff_of_true ?_ ⟨fun _ _ => inside, fun _ low => absurd first (by omega)⟩
        cases cmd with
        | read => exact told _
        | write buffer => exact kept
      · rw [if_neg inside]
        exact iff_of_false id fun checks => inside (checks.1 checked.2 first)
    case neg =>
      rw [if_neg first]
      by_cases second : (address.setWidth 32).toNat < 16
      case pos =>
        rw [if_pos second]
        cases cmd with
        | write buffer =>
          exact iff_of_true trivial ⟨fun _ near => absurd near first, fun _ _ _ => trivial⟩
        | read =>
          dsimp only
          by_cases inside : (address.setWidth 32).toNat - 8 + n ≤ 8
          · rw [if_pos inside]
            exact iff_of_true (told _) ⟨fun _ near => absurd near first, fun _ _ _ => inside⟩
          · rw [if_neg inside]
            exact iff_of_false id fun checks => inside (checks.2 checked.2 (by omega) second)
      case neg =>
        have refused : ¬ f.targetBlock < f.deviceNumBlocks := by
          intro allowed
          exact other ⟨Nat.le_of_not_lt second, checked.1, checked.2, allowed⟩
        rw [if_neg second, if_neg refused]
        exact iff_of_true trivial ⟨fun _ near => absurd near first, fun _ _ near => absurd near second⟩

/-- A step is clean exactly when it meets the condition. -/
theorem clean_iff (sound : Sound f) (fresh : Fresh f) : Clean (step f a) ↔ Meets f a := by
  by_cases data : ToData f a
  · exact clean_toData sound fresh data
  · exact clean_register sound data

/-! ## Runs -/

/-- An access to the registers that returns: the number of the block is written or read, or that of all
blocks is read. -/
inductive RegisterStep (f : Flashcontroller) (a : Input) : List Event → Flashcontroller → Prop where
  | written (buffer : BitVec (8 * a.length)) (here : a.addr < 8) (inside : a.addr + a.length ≤ 8)
      (cmd : a.cmd = .write buffer) : RegisterStep f a []
        { f with targetBlock := (⟨8 * a.addr⟩ : Lib.Field (8 * a.length)).set buffer f.targetBlock }
  | read (here : a.addr < 8) (inside : a.addr + a.length ≤ 8) (cmd : a.cmd = .read) :
      RegisterStep f a [.register (Flashcontroller.registerBytes f.targetBlock a.addr a.length)] f
  | size (low : ¬ a.addr < 8) (here : a.addr < 16) (inside : a.addr - 8 + a.length ≤ 8) (cmd : a.cmd = .read) :
      RegisterStep f a [.register (Flashcontroller.registerBytes f.deviceNumBlocks (a.addr - 8) a.length)] f

theorem registerStep_of_ok {events : List Event} (other : ¬ ToData f a) (ran : step f a = .ok (events, g)) :
    f.opened = true ∧ RegisterStep f a events g := by
  have addr : (a.address.setWidth 32).toNat = a.addr := rfl
  unfold step Flashcontroller.transport at ran
  dsimp only at ran
  rw [addr] at ran
  obtain ⟨checked, ran⟩ := ok_of_guard ran
  refine ⟨checked.2, ?_⟩
  by_cases first : a.addr < 8
  case pos =>
    rw [if_pos first] at ran
    obtain ⟨inside, ran⟩ := ok_of_guard ran
    cases cmd : a.cmd with
    | read =>
      rw [cmd] at ran
      cases ran
      exact .read first inside cmd
    | write buffer =>
      rw [cmd] at ran
      cases ran
      exact .written buffer first inside cmd
  case neg =>
    rw [if_neg first] at ran
    by_cases second : a.addr < 16
    case pos =>
      rw [if_pos second] at ran
      cases cmd : a.cmd with
      | write buffer =>
        rw [cmd] at ran
        cases ran
      | read =>
        rw [cmd] at ran
        obtain ⟨inside, ran⟩ := ok_of_guard ran
        cases ran
        exact .size first second inside cmd
    case neg =>
      rw [if_neg second] at ran
      obtain ⟨allowed, -⟩ := ok_of_guard ran
      exact absurd ⟨Nat.le_of_not_lt second, checked.1, checked.2, allowed⟩ other

/-- An access that does not go to the data leaves the buffer alone. -/
theorem register_keeps {events : List Event} (other : ¬ ToData f a) (ran : step f a = .ok (events, g)) :
    g.blockBuf = f.blockBuf := by
  cases (registerStep_of_ok other ran).2 with
  | written => rfl
  | read => rfl
  | size => rfl

/-- Behind an access to the data there is a block in the buffer. -/
theorem active_of_toData {events : List Event} (data : ToData f a) (ran : step f a = .ok (events, g)) :
    g.blockBuf.active = true := by
  have active : (f.setPos a.commit a.load f.targetBlock).2.blockBuf.active = true := by
    by_cases selects : Selects f
    · rw [Flashcontroller.setPos_of_change selects]
      rfl
    · rw [Flashcontroller.setPos_of_selected selects]
      simpa using (not_or.mp selects).2
  rw [step_toData data] at ran
  obtain ⟨n, cmd, address, commit, load⟩ := a
  cases cmd with
  | read =>
    obtain ⟨bytes, -, same⟩ := ok_of_map ran
    cases same
    exact active
  | write buffer =>
    obtain ⟨h, wrote, same⟩ := ok_of_map ran
    cases same
    rw [Flashcontroller.setData_eq active] at wrote
    obtain ⟨-, same⟩ := ok_of_guard wrote
    cases same
    exact active

theorem fresh_step {events : List Event} (fresh : Fresh f) (ran : step f a = .ok (events, g)) : Fresh g := by
  by_cases data : ToData f a
  · intro none
    rw [active_of_toData data ran] at none
    cases none
  · unfold Fresh
    rw [register_keeps data ran]
    exact fresh

variable {n : BitVec 64} {buf file : Nat → BitVec 8} {log : List (Input × List Event)} {t : Flashcontroller}

theorem sound_init : Sound (init n buf file) := by
  intro active
  cases active

theorem sound_of_runs (run : Runs step Meets (init n buf file) log t) :
    (∀ entry ∈ log, ∀ e ∈ entry.2, e.Belongs) ∧ Sound t ∧ Fresh t := by
  refine run.invariant_log (I := fun log t => (∀ entry ∈ log, ∀ e ∈ entry.2, e.Belongs) ∧ Sound t ∧ Fresh t)
    ⟨by simp, sound_init, fun _ _ => rfl⟩ ?_
  intro log t a events u kept meets ran
  obtain ⟨before, sound, fresh⟩ := kept
  have clean := (clean_iff sound fresh).mpr meets
  rw [ran] at clean
  refine ⟨fun entry among => ?_, clean.2, fresh_step fresh ran⟩
  rcases List.mem_append.mp among with earlier | last
  · exact before entry earlier
  · obtain rfl := List.mem_singleton.mp last
    exact clean.1

theorem clear_belongs (sound : Sound f) : ∀ e ∈ (f.clear commit).1, e.Belongs := by
  have same : (f.clear commit).1 = (f.committed commit).1 := by
    unfold Flashcontroller.clear Flashcontroller.committed
    by_cases changed : f.blockBuf.dirty = true ∧ f.blockBuf.active = true
    · rw [if_pos changed, if_pos changed.symm]
    · rw [if_neg changed, if_neg fun both => changed both.symm]
  rw [same]
  exact committed_belongs sound

end RiscvVp.Flash
