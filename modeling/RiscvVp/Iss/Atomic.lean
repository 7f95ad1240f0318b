/-
# RiscvVp.Iss.Atomic -- an AMO on a shared bus

The lock that an AMO takes is given back by the next raw store of the core.  If that is
the AMO's own, nobody gets between its load and its store (`amo_atomic`); if the page
table walk of the AMO sets flags in an entry, it is the store of the walk.
-/
import RiscvVp.Iss.BusLock
import RiscvVp.Iss.Exec
import RiscvVp.Iss.Translate

namespace RiscvVp

set_option autoImplicit false

def Mapping.isAmo : Mapping → Bool
  | .amoswapW | .amoaddW | .amoxorW | .amoandW | .amoorW
  | .amominW | .amominuW | .amomaxW | .amomaxuW
  | .amoswapD | .amoaddD | .amoxorD | .amoandD | .amoorD
  | .amominD | .amominuD | .amomaxD | .amomaxuD => true
  | _ => false

namespace Iss

open Lib SharedBus

variable {isa : Isa}

/-! ## When a walk writes -/

/-- An entry, as the walk reads it from memory. -/
def readPte (m : ByteMemory) (vm : VmInfo) (addr : BitVec 64) : Pte :=
  if vm.ptesize = 4 then (m.read addr 4).setWidth 64 else m.read addr 8

/-- The walk through the memory `m` ends at a leaf that it sets flags in. -/
def updatesLeaf (m : ByteMemory) (vm : VmInfo) (vaddr : BitVec 64) (type : MemoryAccessType)
    (sMode sum mxr : Bool) : Nat → BitVec 64 → Bool
  | 0, _ => false
  | i + 1, base =>
      let pte := readPte m vm (ptePaddr vm vaddr base i)
      if !pte.V || (!pte.R && pte.W) then false
      else if !pte.R && !pte.X then
        updatesLeaf m vm vaddr type sMode sum mxr i (pte.ppn <<< 12)
      else leafAllowed pte type sMode sum mxr (i * vm.idxbits) && pte &&& adBits type != adBits type

/-- The translation of `va` writes a page-table entry: the TLB has no entry for it, and
the leaf has not all its flags. -/
def NeedsUpdate (s : Iss isa SharedBus) (va : BitVec 64) (type : MemoryAccessType) : Prop :=
  Satp.mode (s.csrs.reg .satp) ≠ Satp.bare ∧ LowMode (effectiveMode type s) ∧
  (tlbLookup (effectiveMode type s) type (va >>> 12) s).vpn ≠ va >>> 12 ∧
  ∃ vm, ((decodeVmInfo (effectiveMode type s)).run s).1 = .ok vm ∧
    updatesLeaf s.world.bytes vm va type (effectiveMode type s == supervisorMode)
      (Mstatus.sum.get (s.csrs.reg .mstatus) == 1#1) (Mstatus.mxr.get (s.csrs.reg .mstatus) == 1#1)
      (if checkVaddrExtension isa va vm then vm.levels else 0) vm.ptbase = true

/-! ## Under the lock -/

/-- The assertion of `_atomic_store_data` did not fire. -/
def Sound {α : Type} (result : Except Exc α) : Prop := result ≠ .error (.abort .busNotLocked)

theorem Sound.ok {α : Type} (a : α) : Sound (.ok a) := by
  intro same
  cases same

theorem Sound.error {α β : Type} {e : Exc} (sound : Sound (.error e : Except Exc α)) :
    Sound (.error e : Except Exc β) := by
  intro same
  cases same
  exact sound rfl

section Held

variable {base : Platform SharedBus} {me : BitVec 64} {mapped : BitVec 64 → Bool}

theorem run_await_of_held {w : SharedBus} (held : w.Held me) :
    (Platform.await ((SharedBus.platform base me mapped).waitForAccessRights me)).run w =
      (.ok (), w.turn me) :=
  Platform.run_await_some (waitForAccessRights_of_held held)

theorem bus_rawLoadData {w : SharedBus} (held : w.Held me) (addr : BitVec 64) (n : Nat) :
    ∃ r w', ((SharedBus.platform base me mapped).rawLoadData me addr n).run w = (r, w') ∧
      Loads me w w' ∧ Sound r ∧ ∀ data, r = .ok data → data = w.bytes.read addr n := by
  have first := turn_of_held held
  unfold Platform.rawLoadData
  rw [Exec.run_bind_ok (run_await_of_held held)]
  split
  case h_1 e found =>
    unfold Platform.dmiLoad Platform.dmiCheck
    by_cases inside : e.contains addr ∧ addr + BitVec.ofNat 64 n ≤ e.stop
    · rw [if_pos inside]
      refine ⟨.ok _, _, rfl, first.trans (read_of_held first.held addr n), nofun, ?_⟩
      rintro data same
      cases same
      exact congrArg (·.read addr n) first.bytes
    · rw [if_neg inside]
      exact ⟨_, _, rfl, first, nofun, nofun⟩
  case h_2 missing =>
    have again := turn_of_held first.held
    by_cases target : mapped addr = true
    · have answer : (SharedBus.platform base me mapped).busRead addr n (w.turn me) =
          (some (((w.turn me).turn me).read addr n).1, (((w.turn me).turn me).read addr n).2) :=
        if_pos target
      refine ⟨_, _, Platform.run_busLoad_some answer,
        first.trans (again.trans (read_of_held again.held addr n)), nofun, ?_⟩
      rintro data same
      cases same
      exact congrArg (·.read addr n) (again.bytes.trans first.bytes)
    · have answer : (SharedBus.platform base me mapped).busRead addr n (w.turn me) =
          (none, (w.turn me).turn me) := if_neg target
      exact ⟨_, _, Platform.run_busLoad_none answer, first.trans again, nofun, nofun⟩

theorem held_rawLoadData {s : Iss isa SharedBus} (id : s.hartId = me) (held : s.world.Held me)
    (addr : BitVec 64) (n : Nat) :
    ∃ r w, (rawLoadData (SharedBus.platform base me mapped) addr n).run s = (r, s.withWorld w) ∧
      Loads me s.world w ∧ Sound r ∧ ∀ data, r = .ok data → data = s.world.bytes.read addr n := by
  obtain ⟨r, w, ran, rest⟩ := @bus_rawLoadData base me mapped _ held addr n
  refine ⟨r, w, ?_, rest⟩
  unfold rawLoadData
  rw [Exec.run_read_bind, id]
  exact run_onWorld ran

theorem held_loadPte {s : Iss isa SharedBus} (id : s.hartId = me) (held : s.world.Held me)
    (vm : VmInfo) (addr : BitVec 64) :
    ∃ r w, (loadPte (SharedBus.platform base me mapped) vm addr).run s = (r, s.withWorld w) ∧
      Loads me s.world w ∧ Sound r ∧ ∀ pte, r = .ok pte → pte = readPte s.world.bytes vm addr := by
  unfold loadPte readPte
  by_cases narrow : vm.ptesize = 4
  · rw [if_pos narrow, if_pos narrow]
    obtain ⟨r, w, ran, loads, sound, value⟩ := @held_rawLoadData _ base me mapped s id held addr 4
    unfold mmuLoadPte32
    cases r with
    | error e => exact ⟨_, w, Exec.run_bind_error ran, loads, sound.error, nofun⟩
    | ok data =>
      refine ⟨_, w, Exec.run_bind_ok ran, loads, nofun, ?_⟩
      rintro pte same
      cases same
      rw [value data rfl]
  · rw [if_neg narrow, if_neg narrow]
    exact held_rawLoadData id held addr 8

/-- From `s` on, all that `m` does on the bus is loading. -/
def OnlyLoads {α : Type} (me : BitVec 64) (s : Iss isa SharedBus) (m : IssM isa SharedBus α) :
    Prop :=
  ∃ r w, m.run s = (r, s.withWorld w) ∧ Loads me s.world w ∧ Sound r

theorem onlyLoads_fault {s : Iss isa SharedBus} (held : s.world.Held me) (va : BitVec 64)
    (type : MemoryAccessType) :
    OnlyLoads me s (pageFault type va : IssM isa SharedBus (BitVec 64)) :=
  ⟨_, s.world, run_pageFault type va s, .refl held, nofun⟩

/-- What is left to do after some loads. -/
theorem onlyLoads_after {α : Type} {s : Iss isa SharedBus} {m : IssM isa SharedBus α}
    {w : SharedBus} (loads : Loads me s.world w) (rest : OnlyLoads me (s.withWorld w) m) :
    ∃ r w', m.run (s.withWorld w) = (r, s.withWorld w') ∧ Loads me s.world w' ∧ Sound r := by
  obtain ⟨r, w', ran, more, sound⟩ := rest
  exact ⟨r, w', ran, loads.trans more, sound⟩

/-- A walk that sets no flags only loads. -/
theorem onlyLoads_walkLevels (vm : VmInfo) (va : BitVec 64) (type : MemoryAccessType)
    (sMode sum mxr : Bool) {i : Nat} {table : BitVec 64} {s : Iss isa SharedBus}
    (id : s.hartId = me) (held : s.world.Held me)
    (still : ¬ updatesLeaf s.world.bytes vm va type sMode sum mxr i table = true) :
    OnlyLoads me s
      (walkLevels (SharedBus.platform base me mapped) vm va type sMode sum mxr i table) := by
  induction i generalizing table s with
  | zero => exact onlyLoads_fault held va type
  | succ i ih =>
    unfold OnlyLoads walkLevels
    unfold updatesLeaf at still
    obtain ⟨r, w, loaded, loads, sound, value⟩ :=
      @held_loadPte _ base me mapped s id held vm (ptePaddr vm va table i)
    cases r with
    | error e =>
      exact ⟨_, w, Exec.run_bind_error loaded, loads, sound.error⟩
    | ok pte =>
      dsimp only at still
      rw [← value pte rfl] at still
      rw [Exec.run_bind_ok loaded]
      by_cases bad : (!pte.V || (!pte.R && pte.W)) = true
      · rw [if_pos bad]
        exact onlyLoads_after loads (onlyLoads_fault loads.held va type)
      rw [if_neg bad] at still ⊢
      by_cases pointer : (!pte.R && !pte.X) = true
      · rw [if_pos pointer] at still ⊢
        rw [← loads.bytes] at still
        exact onlyLoads_after loads (ih id loads.held still)
      rw [if_neg pointer] at still ⊢
      cases allowed : leafAllowed pte type sMode sum mxr (i * vm.idxbits) with
      | false => exact onlyLoads_after loads (onlyLoads_fault loads.held va type)
      | true =>
        have settled : ¬ pte &&& adBits type ≠ adBits type := by
          rw [allowed, Bool.true_and, bne_iff_ne] at still
          exact still
        rw [Exec.when_neg settled]
        exact ⟨_, w, rfl, loads, Sound.ok _⟩

theorem run_decodeVmInfo_same (mode : PrivilegeLevel) (s : Iss isa SharedBus) :
    ∃ r, (decodeVmInfo mode).run s = (r, s) ∧ Sound r := by
  unfold decodeVmInfo
  by_cases low : mode ≤ supervisorMode
  · rw [run_assert_bind s low, run_readCsr_bind]
    simp only [Exec.run_ite]
    split
    · exact ⟨_, rfl, nofun⟩
    split
    · exact ⟨_, rfl, nofun⟩
    split
    · exact ⟨_, rfl, nofun⟩
    split
    · exact ⟨_, rfl, nofun⟩
    split
    · exact ⟨_, rfl, nofun⟩
    · exact ⟨_, rfl, nofun⟩
  · unfold assert
    rw [if_neg low]
    exact ⟨_, rfl, nofun⟩

/-- The core after a translation for `type` that only loaded. -/
structure Kept (me : BitVec 64) (type : MemoryAccessType) (s t : Iss isa SharedBus) : Prop where
  state : t = { s with tlb := t.tlb, world := t.world }
  tlb : ∀ mode other, other ≠ type → t.tlb mode other = s.tlb mode other
  loads : Loads me s.world t.world

theorem kept_withWorld {s : Iss isa SharedBus} {w : SharedBus} (loads : Loads me s.world w)
    (type : MemoryAccessType) : Kept me type s (s.withWorld w) :=
  ⟨rfl, fun _ _ _ => rfl, loads⟩

theorem held_translate {s : Iss isa SharedBus} (id : s.hartId = me) (held : s.world.Held me)
    {va : BitVec 64} {type : MemoryAccessType} (still : ¬ NeedsUpdate s va type) :
    ∃ r t, (translateVirtualToPhysicalAddr (SharedBus.platform base me mapped) va type).run s =
      (r, t) ∧ Kept me type s t ∧ Sound r := by
  have unchanged := kept_withWorld (.refl held) type
  by_cases bare : Satp.mode (s.csrs.reg .satp) = Satp.bare
  · refine ⟨.ok va, s, ?_, unchanged, nofun⟩
    unfold translateVirtualToPhysicalAddr
    rw [run_readCsr_bind, Exec.run_read_bind, if_pos bare]
    rfl
  by_cases machine : effectiveMode type s = machineMode
  · exact ⟨_, s, run_translate_machine bare machine, unchanged, nofun⟩
  by_cases low : LowMode (effectiveMode type s)
  case neg => exact ⟨_, s, run_translate_unknown bare machine low, unchanged, nofun⟩
  by_cases hit : (tlbLookup (effectiveMode type s) type (va >>> 12) s).vpn = va >>> 12
  · exact ⟨_, s, run_translate_hit bare rfl low hit, unchanged, nofun⟩
  rw [run_translate_miss bare rfl low hit]
  have walked : OnlyLoads me s
      (walk (SharedBus.platform base me mapped) va type (effectiveMode type s)) := by
    unfold OnlyLoads walk
    rw [run_readField_bind, run_readField_bind]
    obtain ⟨r, decoded, sound⟩ := run_decodeVmInfo_same (effectiveMode type s) s
    cases r with
    | error e =>
      exact ⟨_, s.world, Exec.run_bind_error decoded, .refl held,
        sound.error⟩
    | ok vm =>
      rw [Exec.run_bind_ok decoded]
      apply onlyLoads_walkLevels vm va type _ _ _ id held
      exact fun updates => still ⟨bare, low, hit, vm, congrArg Prod.fst decoded, updates⟩
  obtain ⟨r, w, ran, loads, sound⟩ := walked
  cases r with
  | error e =>
    exact ⟨_, _, Exec.run_bind_error ran, kept_withWorld loads type,
      sound.error⟩
  | ok paddr =>
    refine ⟨_, _, Exec.run_bind_ok ran, ⟨rfl, ?_, loads⟩, nofun⟩
    intro mode other different
    funext i
    exact if_neg fun filled => different filled.2.1

theorem held_v2p {s : Iss isa SharedBus} (id : s.hartId = me) (held : s.world.Held me)
    {va : BitVec 64} {type : MemoryAccessType} (still : ¬ NeedsUpdate s va type) :
    ∃ r t, (v2p (SharedBus.platform base me mapped) va type).run s = (r, t) ∧
      Kept me type s t ∧ Sound r := by
  unfold v2p
  split
  · exact ⟨_, s, rfl, kept_withWorld (.refl held) type, nofun⟩
  · exact held_translate id held still

theorem held_loadData {s : Iss isa SharedBus} (id : s.hartId = me) (held : s.world.Held me)
    {va : BitVec 64} (still : ¬ NeedsUpdate s va .load) (n : Nat) :
    ∃ r t, (loadData (SharedBus.platform base me mapped) va n).run s = (r, t) ∧
      Kept me .load s t ∧ Sound r := by
  obtain ⟨r, t, translated, kept, sound⟩ := @held_v2p _ base me mapped s id held va .load still
  unfold loadData
  cases r with
  | error e =>
    exact ⟨_, t, Exec.run_bind_error translated, kept, sound.error⟩
  | ok p =>
    have id' : t.hartId = me := by
      rw [kept.state]
      exact id
    obtain ⟨r', w, loaded, loads, sound', -⟩ :=
      @held_rawLoadData _ base me mapped t id' kept.loads.held p n
    rw [Exec.run_bind_ok translated]
    refine ⟨r', t.withWorld w, loaded, ⟨?_, kept.tlb, kept.loads.trans loads⟩, sound'⟩
    rw [kept.state]
    rfl

/-! ## The store -/

theorem bus_dmiStores {addr : BitVec 64} {n : Nat} (value : BitVec (8 * n))
    (ranges : List MemoryDMI) {w : SharedBus} (held : w.Held me) :
    ∃ r w', ((SharedBus.platform base me mapped).dmiStores addr n value ranges).run w = (r, w') ∧
      Accesses me w w' ∧ Sound r := by
  induction ranges generalizing w with
  | nil => exact ⟨_, w, rfl, .of_loads (.refl held), Sound.ok _⟩
  | cons e ranges ih =>
    unfold Platform.dmiStores
    by_cases contained : e.contains addr = true
    · rw [Exec.when_pos contained]
      have written := write_of_held held addr n value
      by_cases inside : e.contains addr ∧ addr + BitVec.ofNat 64 n ≤ e.stop
      · have stored : ((SharedBus.platform base me mapped).dmiStore e addr n value).run w =
            (.ok (), w.write addr n value) := by
          unfold Platform.dmiStore Platform.dmiCheck
          rw [if_pos inside]
          rfl
        obtain ⟨r, w', ran, accesses, sound⟩ := ih written.held
        exact ⟨r, w', (Exec.run_bind_ok stored).trans ran, written.trans accesses, sound⟩
      · have refused : ((SharedBus.platform base me mapped).dmiStore e addr n value).run w =
            (.error (.abort .dmiRange), w) := by
          unfold Platform.dmiStore Platform.dmiCheck
          rw [if_neg inside]
          rfl
        have range : Sound (.error (.abort .dmiRange) : Except Exc Unit) := by
          intro same
          cases same
        exact ⟨_, w, Exec.run_bind_error refused, .of_loads (.refl held), range⟩
    · rw [Exec.when_neg contained]
      exact ih held

/-- The core's work up to the end of its store, which gives the lock back. -/
def Finishes (me : BitVec 64) (w w' : SharedBus) : Prop :=
  ∃ l last, w'.log = w.log ++ (l ++ last) ∧ (∀ e ∈ l, (isLoad e || isStore e) = true) ∧
    (last = [] ∨ last = [.released me])

theorem finishes_of_accesses {w w' : SharedBus} (accesses : Accesses me w w') :
    Finishes me w w' := by
  obtain ⟨l, log, own⟩ := accesses.log
  exact ⟨l, [], by rw [log, List.append_nil], own, .inl rfl⟩

theorem finishes_unlock {w w' : SharedBus} (accesses : Accesses me w w') :
    Finishes me w (w'.unlock me) := by
  obtain ⟨l, log, own⟩ := accesses.log
  refine ⟨l, [.released me], ?_, own, .inr rfl⟩
  unfold SharedBus.unlock
  rw [if_pos (show w'.locked = true ∧ w'.owner = me from accesses.held)]
  show w'.log ++ [.released me] = _
  rw [log, List.append_assoc]

theorem bus_rawStoreData {w : SharedBus} (held : w.Held me) (addr : BitVec 64) (n : Nat)
    (value : BitVec (8 * n)) :
    ∃ r w', ((SharedBus.platform base me mapped).rawStoreData me addr n value).run w = (r, w') ∧
      Finishes me w w' ∧ Sound r := by
  have first := turn_of_held held
  unfold Platform.rawStoreData
  rw [Exec.run_bind_ok (run_await_of_held held)]
  obtain ⟨r, w₁, stored, accesses, sound⟩ := @bus_dmiStores base me mapped addr n value
    (SharedBus.platform base me mapped).dmiRanges _ first.held
  have soFar : Accesses me w w₁ := .trans (.of_loads first) accesses
  cases r with
  | error e =>
    exact ⟨_, w₁, Exec.run_bind_error stored, finishes_of_accesses soFar, sound⟩
  | ok _ =>
    rw [Exec.run_bind_ok stored]
    by_cases outside : (!((SharedBus.platform base me mapped).dmiRanges.any (·.contains addr))) = true
    case neg =>
      rw [Exec.when_neg outside]
      exact ⟨_, _, rfl, finishes_unlock soFar, nofun⟩
    rw [Exec.when_pos outside]
    have again := turn_of_held soFar.held
    have reached : Accesses me w (w₁.turn me) := soFar.trans (.of_loads again)
    by_cases target : mapped addr = true
    · have answer : (SharedBus.platform base me mapped).busWrite addr n value w₁ =
          (true, (w₁.turn me).write addr n value) := if_pos target
      rw [Exec.run_bind_ok (Platform.run_busStore_true answer)]
      exact ⟨_, _, rfl, finishes_unlock (reached.trans (write_of_held again.held addr n value)),
        nofun⟩
    · have answer : (SharedBus.platform base me mapped).busWrite addr n value w₁ =
          (false, w₁.turn me) := if_neg target
      rw [Exec.run_bind_error (Platform.run_busStore_false answer)]
      exact ⟨_, _, rfl, finishes_of_accesses reached, nofun⟩

theorem finishes_after {w w₁ w' : SharedBus} (accesses : Accesses me w w₁)
    (rest : Finishes me w₁ w') : Finishes me w w' := by
  obtain ⟨l, log, own⟩ := accesses.log
  obtain ⟨l', last, log', own', final⟩ := rest
  refine ⟨l ++ l', last, ?_, ?_, final⟩
  · rw [log', log, List.append_assoc, List.append_assoc]
  · intro e among
    rcases List.mem_append.mp among with among | among
    · exact own e among
    · exact own' e among

theorem held_storeData {s : Iss isa SharedBus} (id : s.hartId = me) (held : s.world.Held me)
    {va : BitVec 64} (still : ¬ NeedsUpdate s va .store) (n : Nat) (value : BitVec (8 * n)) :
    ∃ r t, (storeData (SharedBus.platform base me mapped) va n value).run s = (r, t) ∧
      Finishes me s.world t.world ∧ Sound r := by
  obtain ⟨r, t, translated, kept, sound⟩ := @held_v2p _ base me mapped s id held va .store still
  unfold storeData
  cases r with
  | error e =>
    exact ⟨_, t, Exec.run_bind_error translated, finishes_of_accesses (.of_loads kept.loads),
      sound.error⟩
  | ok p =>
    have id' : t.hartId = me := by
      rw [kept.state]
      exact id
    obtain ⟨r', w, stored, finishes, sound'⟩ :=
      @bus_rawStoreData base me mapped t.world kept.loads.held p n value
    rw [Exec.run_bind_ok translated]
    refine ⟨r', t.withWorld w, ?_, finishes_after (.of_loads kept.loads) finishes, sound'⟩
    unfold rawStoreData
    rw [Exec.run_read_bind, id']
    exact run_onWorld stored

theorem decodeVmInfo_fst {s t : Iss isa SharedBus} (csrs : t.csrs = s.csrs)
    (mode : PrivilegeLevel) : ((decodeVmInfo mode).run t).1 = ((decodeVmInfo mode).run s).1 := by
  unfold decodeVmInfo assert
  by_cases low : mode ≤ supervisorMode
  · rw [if_pos low, Exec.run_pure_bind, Exec.run_pure_bind, run_readCsr_bind, run_readCsr_bind, csrs]
    simp only [Exec.run_ite]
    repeat (split; rfl)
    rfl
  · rw [if_neg low]
    rfl

/-- What the load leaves as it is decides whether the store's translation writes. -/
theorem needsUpdate_of_kept {s t : Iss isa SharedBus} (kept : Kept me .load s t) {va : BitVec 64}
    (needs : NeedsUpdate t va .store) : NeedsUpdate s va .store := by
  obtain ⟨bare, low, miss, vm, decoded, updates⟩ := needs
  have csrs : t.csrs = s.csrs := by rw [kept.state]
  have mode : effectiveMode .store t = effectiveMode .store s := by rw [kept.state]; rfl
  have lookup : tlbLookup (effectiveMode .store s) .store (va >>> 12) t =
      tlbLookup (effectiveMode .store s) .store (va >>> 12) s :=
    congrFun (kept.tlb _ .store nofun) _
  rw [decodeVmInfo_fst csrs] at decoded
  rw [mode] at low miss decoded updates
  rw [lookup] at miss
  rw [csrs] at bare updates
  rw [kept.loads.bytes] at updates
  exact ⟨bare, low, miss, vm, decoded, updates⟩

/-! ## The AMO -/

/-- The bus lock is taken first; the core's accesses come after that. -/
theorem run_busLock {s : Iss isa SharedBus} (id : s.hartId = me) :
    (∃ w, (busLock (SharedBus.platform base me mapped)).run s = (.ok (), s.withWorld w) ∧
      OthersOnly s.world w ∧ w.Held me) ∨
    (busLock (SharedBus.platform base me mapped)).run s = (.error .blocked, s.withWorld s.world) := by
  unfold busLock
  rw [Exec.run_read_bind, id]
  cases answer : s.world.lock me with
  | none => exact .inr (run_onWorld (Platform.run_await_none answer))
  | some w => exact .inl ⟨w, run_onWorld (Platform.run_await_some answer), lock_othersOnly answer⟩

/-- The history that a run adds is atomic, and the assertion does not fire. -/
def RunsAtomically (me : BitVec 64) (s : Iss isa SharedBus)
    (ran : Except Exc Unit × Iss isa SharedBus) : Prop :=
  Sound ran.1 ∧ ∃ l, ran.2.world.log = s.world.log ++ l ∧ Atomic me l

theorem runsAtomically_same {s t : Iss isa SharedBus} {r : Except Exc Unit} (sound : Sound r)
    (log : t.world.log = s.world.log) : RunsAtomically me s (r, t) := by
  refine ⟨sound, [], by rw [List.append_nil]; exact log, ?_⟩
  intro x e y sub
  cases sub

theorem runsAtomically_of_phases {s t : Iss isa SharedBus} {r : Except Exc Unit} {w : SharedBus}
    (sound : Sound r) (others : OthersOnly s.world w) (finishes : Finishes me w t.world) :
    RunsAtomically me s (r, t) := by
  obtain ⟨before, log, other⟩ := others
  obtain ⟨during, last, log', own, final⟩ := finishes
  refine ⟨sound, before ++ (during ++ last), ?_, atomic_of_phases other own final⟩
  show t.world.log = _
  rw [log', log, List.append_assoc]

theorem run_amoFault {α : Type} (e : Exc) (s : Iss isa SharedBus) :
    ∃ e', (amoFault e : IssM isa SharedBus α).run s = (.error e', s) ∧
      (Sound (.error e : Except Exc α) → Sound (.error e' : Except Exc α)) := by
  cases e with
  | trap e =>
    unfold amoFault
    dsimp only
    split
    · exact ⟨_, rfl, fun _ => nofun⟩
    · exact ⟨_, rfl, fun _ => nofun⟩
  | abort cause => exact ⟨_, rfl, id⟩
  | blocked => exact ⟨_, rfl, id⟩

/-- `mem->atomic_load`: the lock is taken and kept. -/
theorem run_atomicLoadData {s : Iss isa SharedBus} (id : s.hartId = me) {va : BitVec 64} (n : Nat)
    (settled : ∀ t, (busLock (SharedBus.platform base me mapped)).run s = (.ok (), t) →
      ¬ NeedsUpdate t va .load) :
    (atomicLoadData (SharedBus.platform base me mapped) va n).run s =
        (.error .blocked, s.withWorld s.world) ∨
      ∃ w r t, (busLock (SharedBus.platform base me mapped)).run s = (.ok (), s.withWorld w) ∧
        OthersOnly s.world w ∧
        (atomicLoadData (SharedBus.platform base me mapped) va n).run s = (r, t) ∧
        Kept me .load (s.withWorld w) t ∧ Sound r := by
  unfold atomicLoadData
  rcases @run_busLock _ base me mapped s id with ⟨w, locked, others, held⟩ | blocked
  · right
    obtain ⟨r, t, loaded, kept, sound⟩ := @held_loadData _ base me mapped (s.withWorld w) id held va
      (settled _ locked) n
    exact ⟨w, r, t, locked, others, (Exec.run_bind_ok locked).trans loaded, kept, sound⟩
  · exact .inl (Exec.run_bind_error blocked)

theorem run_atomicStoreData {s : Iss isa SharedBus} (id : s.hartId = me) (held : s.world.Held me)
    {va : BitVec 64} (still : ¬ NeedsUpdate s va .store) (n : Nat) (value : BitVec (8 * n)) :
    ∃ r t, (atomicStoreData (SharedBus.platform base me mapped) va n value).run s = (r, t) ∧
      Finishes me s.world t.world ∧ Sound r := by
  have locked : (SharedBus.platform base me mapped).isLocked s.hartId s.world = true := by
    show (s.world.locked && s.world.owner == s.hartId) = true
    rw [held.1, held.2, id, Bool.true_and, beq_self_eq_true]
  unfold atomicStoreData busIsLocked
  rw [Exec.run_read_bind, run_assert_bind s locked]
  exact held_storeData id held still n value

theorem executeAmo_atomic (instr : Instruction) {s : Iss isa SharedBus} (id : s.hartId = me)
    (settled : ∀ t, (busLock (SharedBus.platform base me mapped)).run s = (.ok (), t) →
      ¬ NeedsUpdate t (dataAddr (s.regs (regIndex instr.rs1))) .load ∧
      ¬ NeedsUpdate t (dataAddr (s.regs (regIndex instr.rs1))) .store)
    (n : Nat) (operation : BitVec (8 * n) → BitVec (8 * n) → BitVec (8 * n)) :
    RunsAtomically me s
      ((executeAmo instr (SharedBus.platform base me mapped) n operation).run s) := by
  unfold executeAmo
  rw [run_readReg_bind]
  dsimp only
  generalize dataAddr (s.regs (regIndex instr.rs1)) = va at *
  unfold trapCheckAddrAlignment
  by_cases misaligned : va.toNat % n ≠ 0
  · rw [if_pos misaligned]
    exact runsAtomically_same nofun rfl
  rw [if_neg misaligned, Exec.run_pure_bind]
  rcases @run_atomicLoadData _ base me mapped s id va n fun t locked => (settled t locked).1 with
    blocked | ⟨w, r, t, locked, others, loaded, kept, sound⟩
  · rw [Exec.run_bind_error (Exec.run_tryCatch_error blocked)]
    exact runsAtomically_same nofun rfl
  have loads : Accesses me w t.world := .of_loads kept.loads
  cases r with
  | error e =>
    obtain ⟨e', raised, passes⟩ := @run_amoFault isa (BitVec (8 * n)) e t
    rw [Exec.run_bind_error ((Exec.run_tryCatch_error loaded).trans raised)]
    exact runsAtomically_of_phases (passes sound).error others (finishes_of_accesses loads)
  | ok data =>
    rw [Exec.run_bind_ok (Exec.run_tryCatch_ok loaded)]
    have id' : t.hartId = me := by
      rw [kept.state]
      exact id
    have still : ¬ NeedsUpdate t va .store :=
      fun needs => (settled _ locked).2 (needsUpdate_of_kept kept needs)
    rw [run_readReg_bind]
    obtain ⟨r, u, stored, finishes, sound'⟩ := @run_atomicStoreData _ base me mapped t id'
      kept.loads.held va still n (operation data ((t.regs (regIndex instr.rs2)).setWidth (8 * n)))
    cases r with
    | error e =>
      rw [Exec.run_bind_error stored]
      exact runsAtomically_of_phases sound' others (finishes_after loads finishes)
    | ok _ =>
      rw [Exec.run_bind_ok stored]
      exact runsAtomically_of_phases nofun others (finishes_after loads finishes)

end Held

/-- An AMO whose translations write no page-table entry is atomic, whatever the others
on the bus do. -/
theorem amo_atomic (base : Platform SharedBus) (me : BitVec 64) (mapped : BitVec 64 → Bool)
    (instr : Instruction) (op : Mapping) (amo : op.isAmo = true)
    (s : Iss .rv64 SharedBus) (id : s.hartId = me)
    (settled : ∀ t, (busLock (SharedBus.platform base me mapped)).run s = (.ok (), t) →
      ¬ NeedsUpdate t (dataAddr (s.regs (regIndex instr.rs1))) .load ∧
      ¬ NeedsUpdate t (dataAddr (s.regs (regIndex instr.rs1))) .store) :
    RunsAtomically me s ((exec instr (SharedBus.platform base me mapped) op).run s) := by
  have word := executeAmo_atomic instr id settled 4
  have double := executeAmo_atomic instr id settled 8
  cases op
  case amoswapW | amoaddW | amoxorW | amoandW | amoorW | amominW | amominuW | amomaxW | amomaxuW =>
    exact word _
  case amoswapD | amoaddD | amoxorD | amoandD | amoorD | amominD | amominuD | amomaxD | amomaxuD =>
    exact double _
  all_goals cases amo

/-! ## An AMO that is not -/

/-- A platform with nothing on it. -/
def noPlatform : Platform SharedBus where
  dmiRanges := []
  hasMmu := true
  instrMem := none
  hasSys := false
  softfloat := default
  lock _ w := some w
  unlock _ w := w
  isLocked _ _ := false
  waitForAccessRights _ w := some w
  busRead _ _ w := (none, w)
  busWrite _ _ _ w := (false, w)
  dmiRead _ _ _ w := (0, w)
  dmiWrite _ _ _ _ w := w
  updateAndGetMtime w := (0, w)
  waitForInterrupt w := some w
  executeSyscall _ _ _ _ _ w := ((0, false), w)
  irqEvents w := ([], w)

def amoPlatform : Platform SharedBus := SharedBus.platform noPlatform 0 fun _ => true

/-- A supervisor under Sv39 with every page-table entry the same and 0x5000 in `x1`. -/
def amoCore (entry : BitVec 64) (agenda : List (List OtherAction)) : Iss .rv64 SharedBus :=
  { pagedCore 0x8000000000000001 supervisorMode ⟨false, 0, repeating entry, [], agenda⟩ with
    regs := fun i => if i = 1 then 0x5000 else 0 }

/-- `AMOADD.D x5, x2, (x1)`. -/
def amoaddInstr : Instruction := 0x0020B2AF

/-- The tenth turn of the others is the one before the AMO's store. -/
def dmaAgenda : List (List OtherAction) :=
  List.replicate 9 [] ++ [[.dma 0x5000 8 0xAA]]

theorem amo_settled :
    RunsAtomically 0 (amoCore 0xCF dmaAgenda)
      ((exec amoaddInstr amoPlatform .amoaddD).run (amoCore 0xCF dmaAgenda)) := by
  refine amo_atomic noPlatform 0 (fun _ => true) amoaddInstr .amoaddD rfl (amoCore 0xCF dmaAgenda)
    rfl fun t locked => ?_
  cases locked
  constructor
  · rintro ⟨-, -, -, vm, decoded, updates⟩
    cases decoded
    revert updates
    decide
  · rintro ⟨-, -, -, vm, decoded, updates⟩
    cases decoded
    revert updates
    decide

/-- With `D` clear in the leaf, the store of the flag lets the lock go between the load
and the store; with `A` clear, it does so before the load. -/
theorem amo_interrupted :
    ¬ RunsAtomically 0 (amoCore 0x4F dmaAgenda)
      ((exec amoaddInstr amoPlatform .amoaddD).run (amoCore 0x4F dmaAgenda)) ∧
    ¬ RunsAtomically 0 (amoCore 0x0F [])
      ((exec amoaddInstr amoPlatform .amoaddD).run (amoCore 0x0F [])) := by
  constructor
  · rintro ⟨-, l, log, atomic⟩
    have history : ((exec amoaddInstr amoPlatform .amoaddD).run (amoCore 0x4F dmaAgenda)).2.world.log =
        [.acquired 0, .load 0x1000 8, .load 0x5000 8, .load 0x1000 8, .store 0x1000 4,
          .released 0, .foreign 0x5000, .store 0x5000 8] := by decide
    rw [history] at log
    rw [← show _ = l from log] at atomic
    exact atomic (.load 0x5000 8) (.foreign 0x5000) (.store 0x5000 8) (by decide) rfl trivial rfl
  · rintro ⟨sound, -⟩
    exact sound (by decide)

end Iss

end RiscvVp
