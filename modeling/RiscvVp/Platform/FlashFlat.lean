/-
# RiscvVp.Platform.FlashFlat -- the flash controller without its buffer

A device of bytes that the guest is let at directly.  While the host does what it is asked to, the
buffer is the device's content for its block and the file is the content elsewhere (`Shows`), so that
the guest sees no difference, and the file is the content behind `clear`.
-/
import RiscvVp.Platform.FlashBlocks

namespace RiscvVp.Flash

set_option autoImplicit false

open Lib

/-- The device with its content by byte addresses, and the registers of the controller. -/
structure FlatDevice where
  content : Nat → BitVec 8
  targetBlock : BitVec 64
  deviceNumBlocks : BitVec 64
  opened : Bool

/-- The content behind a write of `n` bytes from `p` on. -/
def overwrite {len : Nat} (content : Nat → BitVec 8) (p n : Nat) (source : BitVec (8 * len)) : Nat → BitVec 8 :=
  fun q => if p ≤ q ∧ q < p + n then source.extractLsb' (8 * (q - p)) 8 else content q

def flatStep (d : FlatDevice) (a : Input) : Except Fault (List (BitVec 8) × FlatDevice) :=
  if a.addr < 528 ∧ d.opened = true then
    if a.addr < 8 then
      if a.addr + a.length ≤ 8 then
        match a.cmd with
        | .write buffer =>
            .ok ([], { d with targetBlock := (⟨8 * a.addr⟩ : Lib.Field (8 * a.length)).set buffer d.targetBlock })
        | .read => .ok (Flashcontroller.registerBytes d.targetBlock a.addr a.length, d)
      else .error .undefined
    else if a.addr < 16 then
      match a.cmd with
      | .write _ => .error .assertion
      | .read =>
          if a.addr - 8 + a.length ≤ 8 then
            .ok (Flashcontroller.registerBytes d.deviceNumBlocks (a.addr - 8) a.length, d)
          else .error .undefined
    else if d.targetBlock < d.deviceNumBlocks then
      if a.pos + a.size ≤ 512 then
        let p := 512 * d.targetBlock.toNat + a.pos
        match a.cmd with
        | .write buffer => .ok ([], { d with content := overwrite d.content p a.size buffer })
        | .read => .ok ((List.range a.size).map fun i => d.content (p + i), d)
      else .error .undefined
    else .error .assertion
  else .error .assertion

/-- What the guest gets. -/
def Event.answer : Event → List (BitVec 8)
  | .returned _ bytes => bytes.map (·.value)
  | .committed _ _ => []
  | .register bytes => bytes

/-- No call of the host fails. -/
def Unfailing (f : Flashcontroller) (a : Input) : Prop :=
  ToData f a → Selects f → a.load.moved (byteOffset f.targetBlock) = 512 ∧
    (f.blockBuf.dirty = true ∧ f.blockBuf.active = true → a.commit.moved (byteOffset f.blockBuf.offs) = 512)

/-- The device as the buffer and the file together show it. -/
structure Shows (f : Flashcontroller) (d : FlatDevice) : Prop where
  targetBlock : d.targetBlock = f.targetBlock
  deviceNumBlocks : d.deviceNumBlocks = f.deviceNumBlocks
  opened : d.opened = f.opened
  place : f.blockBuf.active = true → (byteOffset f.blockBuf.offs).toNat = 512 * f.blockBuf.offs.toNat
  cached : f.blockBuf.active = true → ∀ i < 512,
    (f.blockBuf.buf i).value = d.content (512 * f.blockBuf.offs.toNat + i)
  elsewhere : ∀ p, ¬ ((f.blockBuf.dirty = true ∧ f.blockBuf.active = true) ∧ p / 512 = f.blockBuf.offs.toNat) →
    f.file p = d.content p

variable {f g : Flashcontroller} {d : FlatDevice} {a : Input} {commit load : HostCall} {block : BitVec 64} {p i : Nat}

theorem byteOffset_of_moved {call : HostCall} (fits : ¬ Wraps block) (some : i < call.moved (byteOffset block)) :
    (byteOffset block).toNat = 512 * block.toNat := by
  have place := place_of_moved fits some
  have whole : (byteOffset block).toNat % 512 = 0 := by
    unfold byteOffset
    rw [BitVec.toNat_mul]
    change block.toNat * 512 % 2 ^ 64 % 512 = 0
    omega
  omega

/-! ## Putting the block back -/

/-- The file behind a commit that the host does not fail. -/
theorem file_committed (shows : Shows f d)
    (fine : f.blockBuf.dirty = true ∧ f.blockBuf.active = true → commit.moved (byteOffset f.blockBuf.offs) = 512) :
    (f.committed commit).2.file = d.content := by
  funext p
  unfold Flashcontroller.committed
  by_cases changed : f.blockBuf.dirty = true ∧ f.blockBuf.active = true
  case neg =>
    rw [if_neg changed]
    exact shows.elsewhere p fun both => changed both.1
  case pos =>
    have place := shows.place changed.2
    rw [if_pos changed]
    unfold Flashcontroller.writeBlock
    dsimp only
    rw [fine changed, place]
    by_cases within : 512 * f.blockBuf.offs.toNat ≤ p ∧ p < 512 * f.blockBuf.offs.toNat + 512
    · rw [if_pos within, shows.cached changed.2 _ (by omega), Nat.add_sub_cancel' within.1]
    · rw [if_neg within]
      exact shows.elsewhere p fun both => within (by omega)

theorem committed_answer : (f.committed commit).1.flatMap Event.answer = [] := by
  unfold Flashcontroller.committed
  split
  · rfl
  · rfl

/-! ## Taking another block -/

theorem shows_selected (shows : Shows f d) (fits : ¬ Wraps block) (loaded : load.moved (byteOffset block) = 512)
    (fine : f.blockBuf.dirty = true ∧ f.blockBuf.active = true →
      commit.moved (byteOffset f.blockBuf.offs) = 512) : Shows (f.selected commit load block) d := by
  have file := file_committed shows fine
  have place : (byteOffset block).toNat = 512 * block.toNat :=
    byteOffset_of_moved (i := 0) fits (by rw [loaded]; decide)
  have frame : _ ∧ _ ∧ _ ∧ (f.committed commit).2.opened = f.opened := Flashcontroller.committed_frame
  have clean : (f.selected commit load block).blockBuf.dirty = false := by
    change (_ && decide (load.moved (byteOffset block) ≠ 512)) = false
    simp [loaded]
  refine ⟨shows.targetBlock.trans frame.2.1.symm, shows.deviceNumBlocks.trans frame.2.2.1.symm,
    shows.opened.trans frame.2.2.2.symm, fun _ => place, fun _ i inside => ?_, fun p _ => congrFun file p⟩
  change Tagged.value (if i < load.moved (byteOffset block) then
    ⟨(f.committed commit).2.file ((byteOffset block).toNat + i), _⟩ else _) = _
  rw [loaded, if_pos inside, file, place]
  rfl

/-- The guest is about to be let at the block. -/
structure Ready (d : FlatDevice) (block : BitVec 64) (u : List Event × Flashcontroller) : Prop where
  shows : Shows u.2 d
  active : u.2.blockBuf.active = true
  offs : u.2.blockBuf.offs = block
  target : u.2.targetBlock = block
  silent : u.1.flatMap Event.answer = []

theorem ready_setPos (shows : Shows f d) (data : ToData f a) (fits : Selects f → ¬ Wraps f.targetBlock)
    (fine : Unfailing f a) : Ready d f.targetBlock (f.setPos a.commit a.load f.targetBlock) := by
  by_cases selects : Selects f
  · obtain ⟨loaded, stored⟩ := fine data selects
    rw [Flashcontroller.setPos_of_change selects]
    exact ⟨shows_selected shows (fits selects) loaded stored, rfl, rfl, Flashcontroller.selected_targetBlock,
      committed_answer⟩
  · have kept := not_or.mp selects
    rw [Flashcontroller.setPos_of_selected selects]
    exact ⟨shows, by simpa using kept.2, (not_not.mp kept.1).symm, rfl, rfl⟩

/-! ## The guest's bytes -/

theorem values_read {pos n : Nat} (shows : Shows f d) (active : f.blockBuf.active = true)
    (offs : f.blockBuf.offs = block) (inside : pos + n ≤ 512) :
    ((List.range n).map fun i => f.blockBuf.buf (pos + i)).map (·.value) =
      (List.range n).map fun i => d.content (512 * block.toNat + pos + i) := by
  rw [List.map_map]
  refine List.map_congr_left fun i among => ?_
  have below := List.mem_range.mp among
  have cached := shows.cached active (pos + i) (by omega)
  rw [offs] at cached
  rw [Nat.add_assoc]
  exact cached

theorem shows_overwritten {n pos : Nat} {source : BitVec (8 * n)} (shows : Shows f d)
    (active : f.blockBuf.active = true) (offs : f.blockBuf.offs = block) (inside : pos + n % 2 ^ 16 ≤ 512) :
    Shows (f.overwritten source pos)
      { d with content := overwrite d.content (512 * block.toNat + pos) (n % 2 ^ 16) source } := by
  refine ⟨shows.targetBlock, shows.deviceNumBlocks, shows.opened, shows.place, fun _ i within => ?_, fun p other => ?_⟩
  · have cached := shows.cached active i within
    unfold Flashcontroller.overwritten overwrite
    dsimp only
    rw [offs] at cached ⊢
    by_cases covered : pos ≤ i ∧ i < pos + n % 2 ^ 16
    · have there : 512 * block.toNat + pos ≤ 512 * block.toNat + i ∧
          512 * block.toNat + i < 512 * block.toNat + pos + n % 2 ^ 16 := by omega
      have index : 512 * block.toNat + i - (512 * block.toNat + pos) = i - pos := by omega
      rw [if_pos covered, if_pos there, index]
    · have outside : ¬ (512 * block.toNat + pos ≤ 512 * block.toNat + i ∧
          512 * block.toNat + i < 512 * block.toNat + pos + n % 2 ^ 16) := by omega
      rw [if_neg covered, if_neg outside]
      exact cached
  · have apart : p / 512 ≠ block.toNat := fun same => other ⟨⟨rfl, active⟩, same.trans (congrArg _ offs.symm)⟩
    have outside : ¬ (512 * block.toNat + pos ≤ p ∧ p < 512 * block.toNat + pos + n % 2 ^ 16) := by omega
    change f.file p = overwrite d.content _ _ source p
    unfold overwrite
    rw [if_neg outside]
    exact shows.elsewhere p fun both => apart (both.2.trans (congrArg _ offs))

/-! ## Steps and runs -/

theorem flatStep_toData (shows : Shows f d) (data : ToData f a) (inside : a.pos + a.size ≤ 512) : flatStep d a =
    match a.cmd with
    | .write buffer =>
        .ok ([], { d with content := overwrite d.content (512 * f.targetBlock.toNat + a.pos) a.size buffer })
    | .read => .ok ((List.range a.size).map fun i => d.content (512 * f.targetBlock.toNat + a.pos + i), d) := by
  obtain ⟨low, high, opened, allowed⟩ := data
  have far : ¬ a.addr < 8 ∧ ¬ a.addr < 16 := by omega
  unfold flatStep
  rw [shows.targetBlock, shows.deviceNumBlocks, shows.opened, if_pos ⟨high, opened⟩, if_neg far.1, if_neg far.2,
    if_pos allowed, if_pos inside]

theorem shows_data {events : List Event} (shows : Shows f d) (data : ToData f a) (meets : Meets f a)
    (fine : Unfailing f a) (ran : step f a = .ok (events, g)) :
    ∃ d', flatStep d a = .ok (events.flatMap Event.answer, d') ∧ Shows g d' := by
  have inside := meets.inside data
  obtain ⟨shown, active, offs, target, silent⟩ := ready_setPos shows data (meets.place data) fine
  rw [flatStep_toData shows data inside]
  rw [step_toData data] at ran
  generalize f.setPos a.commit a.load f.targetBlock = u at *
  obtain ⟨n, cmd, address, commit, load⟩ := a
  cases cmd with
  | read =>
    obtain ⟨bytes, got, same⟩ := ok_of_map ran
    rw [Flashcontroller.getData_eq active] at got
    obtain ⟨within, same'⟩ := ok_of_guard got
    cases same
    cases same'
    refine ⟨d, ?_, shown⟩
    rw [List.flatMap_append, silent, List.nil_append, List.flatMap_singleton, Event.answer,
      values_read shown active offs within]
    rfl
  | write buffer =>
    obtain ⟨h, wrote, same⟩ := ok_of_map ran
    rw [Flashcontroller.setData_eq active] at wrote
    obtain ⟨within, same'⟩ := ok_of_guard wrote
    cases same
    cases same'
    refine ⟨_, ?_, shows_overwritten shown active offs within⟩
    rw [silent]
    rfl

theorem shows_register {events : List Event} (shows : Shows f d) (other : ¬ ToData f a)
    (ran : step f a = .ok (events, g)) :
    ∃ d', flatStep d a = .ok (events.flatMap Event.answer, d') ∧ Shows g d' := by
  obtain ⟨content, target, num, opened⟩ := d
  obtain ⟨rfl, rfl, rfl, place, cached, elsewhere⟩ := shows
  obtain ⟨opened, took⟩ := registerStep_of_ok other ran
  unfold flatStep
  cases took with
  | written buffer here inside cmd =>
    have checked : a.addr < 528 ∧ f.opened = true := ⟨by omega, opened⟩
    rw [if_pos checked, if_pos here, if_pos inside, cmd]
    exact ⟨_, rfl, rfl, rfl, rfl, place, cached, elsewhere⟩
  | read here inside cmd =>
    have checked : a.addr < 528 ∧ f.opened = true := ⟨by omega, opened⟩
    rw [if_pos checked, if_pos here, if_pos inside, cmd, List.flatMap_singleton]
    exact ⟨_, rfl, rfl, rfl, rfl, place, cached, elsewhere⟩
  | size low here inside cmd =>
    have checked : a.addr < 528 ∧ f.opened = true := ⟨by omega, opened⟩
    rw [if_pos checked, if_neg low, if_pos here, cmd, List.flatMap_singleton]
    dsimp only
    rw [if_pos inside]
    exact ⟨_, rfl, rfl, rfl, rfl, place, cached, elsewhere⟩

theorem shows_step {events : List Event} (shows : Shows f d) (meets : Meets f a) (fine : Unfailing f a)
    (ran : step f a = .ok (events, g)) :
    ∃ d', flatStep d a = .ok (events.flatMap Event.answer, d') ∧ Shows g d' := by
  by_cases data : ToData f a
  · exact shows_data shows data meets fine ran
  · exact shows_register shows data ran

/-- The device that the file is. -/
def flat (n : BitVec 64) (file : Nat → BitVec 8) : FlatDevice := ⟨file, 0, n, true⟩

variable {n : BitVec 64} {buf file : Nat → BitVec 8} {log : List (Input × List Event)} {t : Flashcontroller}

theorem shows_init : Shows (init n buf file) (flat n file) :=
  ⟨rfl, rfl, rfl, nofun, nofun, fun _ _ => rfl⟩

/-- What the guest gets along a run. -/
def answers (log : List (Input × List Event)) : List (Input × List (BitVec 8)) :=
  log.map fun entry => (entry.1, entry.2.flatMap Event.answer)

theorem flat_of_runs (run : Runs step (fun f a => Meets f a ∧ Unfailing f a) (init n buf file) log t) :
    ∃ d, Runs flatStep (fun _ _ => True) (flat n file) (answers log) d ∧ Shows t d := by
  refine run.invariant_log
    (I := fun log t => ∃ d, Runs flatStep (fun _ _ => True) (flat n file) (answers log) d ∧ Shows t d)
    ⟨_, .start, shows_init⟩ ?_
  rintro log t a events u ⟨d, flatRun, shows⟩ ⟨meets, fine⟩ ran
  obtain ⟨d', took, shown⟩ := shows_step shows meets fine ran
  refine ⟨d', ?_, shown⟩
  rw [answers, List.map_append]
  exact flatRun.next trivial took

theorem file_clear (shows : Shows f d)
    (fine : f.blockBuf.dirty = true ∧ f.blockBuf.active = true → commit.moved (byteOffset f.blockBuf.offs) = 512) :
    (f.clear commit).2.file = d.content := by
  rw [← file_committed shows fine]
  unfold Flashcontroller.clear Flashcontroller.committed
  by_cases changed : f.blockBuf.dirty = true ∧ f.blockBuf.active = true
  · rw [if_pos changed, if_pos changed.symm]
  · rw [if_neg changed, if_neg fun both => changed both.symm]

/-- In runs where the host delivers every block that is selected, all bytes stay with their blocks, `clear`
included, and the next access keeps them there exactly when it meets the condition; and where the host
never fails, the guest sees a flat device, whose content is in the file behind `clear`. -/
theorem blocks_of_runs (run : Runs step Meets (init n buf file) log t) :
    ((∀ entry ∈ log, ∀ e ∈ entry.2, e.Belongs) ∧ ∀ commit, ∀ e ∈ (t.clear commit).1, e.Belongs) ∧
      (∀ a, Clean (step t a) ↔ Meets t a) ∧
      (Runs step (fun f a => Meets f a ∧ Unfailing f a) (init n buf file) log t →
        ∃ d, Runs flatStep (fun _ _ => True) (flat n file) (answers log) d ∧
          ∀ commit, (t.blockBuf.dirty = true ∧ t.blockBuf.active = true →
            HostCall.moved commit (byteOffset t.blockBuf.offs) = 512) → (t.clear commit).2.file = d.content) := by
  obtain ⟨belong, sound, fresh⟩ := sound_of_runs run
  refine ⟨⟨belong, fun commit => clear_belongs sound⟩, fun a => clean_iff sound fresh, fun unfailing => ?_⟩
  obtain ⟨d, flatRun, shows⟩ := flat_of_runs unfailing
  exact ⟨d, flatRun, fun commit => file_clear shows⟩

/-! ## Two blocks -/

/-- The first block is zeros, the second one ones. -/
def twoBlocks (p : Nat) : BitVec 8 := if p < 512 then 0 else 1

/-- The first byte of the block that is selected. -/
def readByte (load : HostCall) : Input := ⟨1, .read, 16, ⟨true, 512⟩, load⟩

def selectSecond : Input := ⟨8, .write (1#64), 0, ⟨true, 512⟩, ⟨true, 512⟩⟩

/-- The host delivers the block. -/
theorem readByte_belongs : Event.Belongs (.returned 0 [⟨0, some 0⟩]) := by
  have meets : Meets (init 2 (fun _ => 0) twoBlocks) (readByte ⟨true, 512⟩) := by
    refine ⟨fun _ near => absurd near (by decide), fun _ _ near => absurd near (by decide), fun _ => by decide,
      fun _ _ => ?_, fun _ _ i inside => .inl inside⟩
    rintro ⟨-, other⟩
    exact other (by decide)
  have run : Runs step Meets (init 2 (fun _ => 0) twoBlocks) [(readByte ⟨true, 512⟩, [.returned 0 [⟨0, some 0⟩]])] _ :=
    Runs.start.next meets rfl
  exact (blocks_of_runs run).1.1 _ (List.mem_singleton.mpr rfl) _ (List.mem_singleton.mpr rfl)

/-- The seek to the second block fails: for its first byte the guest gets that of the first block. -/
theorem not_blocks_of_runs : ∃ t, Runs step (fun _ _ => True) (init 2 (fun _ => 0) twoBlocks)
    [(readByte ⟨true, 512⟩, [.returned 0 [⟨0, some 0⟩]]), (selectSecond, []),
      (readByte ⟨false, 0⟩, [.returned 1 [⟨0, some 0⟩]])] t ∧
    ¬ Event.Belongs (.returned 1 [⟨0, some 0⟩]) := by
  refine ⟨_, ((Runs.start.next trivial rfl).next trivial rfl).next trivial rfl, fun belongs => ?_⟩
  have same := belongs _ (List.mem_singleton.mpr rfl)
  cases same

end RiscvVp.Flash
