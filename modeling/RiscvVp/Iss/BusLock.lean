/-
# RiscvVp.Iss.BusLock -- one bus, its lock and the others on it

`BusLock` of `bus.h` in front of a memory that other harts and DMA peripherals write
too.  The others get a turn wherever the SystemC process of the core can be switched
out: before a wait, before a transaction on the bus.  What they do then is an agenda of
the world, so a property of every world is one of every interleaving.  They keep to the
lock: a hart stores while no other hart holds it and gives it back with the store, a
peripheral writes behind a `PeripheralWriteConnector` while nobody holds it.

The log is a history and nothing reads it.
-/
import RiscvVp.Iss.Backing

namespace RiscvVp

set_option autoImplicit false

open Lib

inductive BusEvent where
  | acquired (hart : BitVec 64)
  | released (hart : BitVec 64)
  /-- An access of the core. -/
  | load (addr : BitVec 64) (bytes : Nat)
  | store (addr : BitVec 64) (bytes : Nat)
  /-- A write of another hart or of a peripheral. -/
  | foreign (addr : BitVec 64)
deriving DecidableEq

/-- What another hart or a peripheral tries to do. -/
inductive OtherAction where
  | lock (hart : BitVec 64)
  | unlock (hart : BitVec 64)
  | store (hart addr : BitVec 64) (bytes : Nat) (value : BitVec 64)
  | dma (addr : BitVec 64) (bytes : Nat) (value : BitVec 64)
deriving DecidableEq

structure SharedBus where
  locked : Bool
  owner : BitVec 64
  bytes : ByteMemory
  log : List BusEvent
  /-- What the others try at each of the next turns they get. -/
  agenda : List (List OtherAction)

namespace SharedBus

variable (w : SharedBus)

def record (e : BusEvent) : SharedBus := { w with log := w.log ++ [e] }

/-- `BusLock::unlock`. -/
def unlock (hart : BitVec 64) : SharedBus :=
  if w.locked ∧ w.owner = hart then { w with locked := false }.record (.released hart) else w

/-- The end of `BusLock::lock`. -/
def acquire (hart : BitVec 64) : SharedBus :=
  { w with locked := true, owner := hart }.record (.acquired hart)

def poke (addr : BitVec 64) (n : Nat) (value : BitVec 64) : SharedBus :=
  { w with bytes := w.bytes.write addr n (value.setWidth (8 * n)) }.record (.foreign addr)

/-- An action of an agent other than `me`; one that the lock holds up does nothing
now, and may be on the agenda again. -/
def act (me : BitVec 64) : OtherAction → SharedBus
  | .lock hart => if hart ≠ me ∧ (w.locked → w.owner = hart) then w.acquire hart else w
  | .unlock hart => if hart ≠ me then w.unlock hart else w
  | .store hart addr n value =>
      if hart ≠ me ∧ (w.locked → w.owner = hart) then (w.poke addr n value).unlock hart else w
  | .dma addr n value => if w.locked then w else w.poke addr n value

/-- The others have a turn. -/
def turn (me : BitVec 64) : SharedBus :=
  match w.agenda with
  | [] => w
  | batch :: rest => batch.foldl (fun w a => w.act me a) { w with agenda := rest }

/-- `BusLock::wait_until_unlocked`; `none` if it waits for good. -/
def waitUntilUnlocked (me : BitVec 64) : List (List OtherAction) → SharedBus → Option SharedBus
  | [], w => if w.locked then none else some { w with agenda := [] }
  | batch :: rest, w =>
      if w.locked then
        waitUntilUnlocked me rest (batch.foldl (fun w a => w.act me a) w)
      else some { w with agenda := batch :: rest }

/-- `wait_for_access_rights`. -/
def waitForAccessRights (hart : BitVec 64) : Option SharedBus :=
  let w := w.turn hart
  if w.locked ∧ w.owner ≠ hart then waitUntilUnlocked hart w.agenda w else some w

/-- `BusLock::lock`. -/
def lock (hart : BitVec 64) : Option SharedBus :=
  (w.waitForAccessRights hart).map (·.acquire hart)

def read (addr : BitVec 64) (n : Nat) : BitVec (8 * n) × SharedBus :=
  (w.bytes.read addr n, w.record (.load addr n))

def write (addr : BitVec 64) (n : Nat) (value : BitVec (8 * n)) : SharedBus :=
  { w with bytes := w.bytes.write addr n value }.record (.store addr n)

/-- The core `me` on this bus; a transaction fails where `mapped` has no target.  The
rest of the platform is as in `base`. -/
def platform (base : Platform SharedBus) (me : BitVec 64) (mapped : BitVec 64 → Bool) :
    Platform SharedBus :=
  { base with
    lock := fun hart w => w.lock hart
    unlock := fun hart w => w.unlock hart
    isLocked := fun hart w => w.locked && w.owner == hart
    waitForAccessRights := fun hart w => w.waitForAccessRights hart
    busRead := fun addr n w =>
      let w := w.turn me
      if mapped addr then (some (w.read addr n).1, (w.read addr n).2) else (none, w)
    busWrite := fun addr n value w =>
      let w := w.turn me
      if mapped addr then (true, w.write addr n value) else (false, w)
    dmiRead := fun _ addr n w => w.read addr n
    dmiWrite := fun _ addr n value w => w.write addr n value }

/-! ## While the core holds the lock -/

/-- `is_locked(hart)`. -/
def Held (me : BitVec 64) : Prop := w.locked = true ∧ w.owner = me

def isLoad : BusEvent → Bool
  | .load _ _ => true
  | _ => false

def isStore : BusEvent → Bool
  | .store _ _ => true
  | _ => false

variable {w} {me : BitVec 64}

/-- Nobody else gets anything done. -/
theorem act_of_held (held : w.Held me) (a : OtherAction) : w.act me a = w := by
  obtain ⟨locked, owner⟩ := held
  have shut : ∀ hart, ¬ (hart ≠ me ∧ (w.locked → w.owner = hart)) := by
    rintro hart ⟨other, free⟩
    exact other ((free locked).symm.trans owner)
  cases a with
  | lock hart => exact if_neg (shut hart)
  | unlock hart =>
    show (if hart ≠ me then w.unlock hart else w) = w
    by_cases other : hart ≠ me
    · rw [if_pos other]
      apply if_neg
      rintro ⟨-, mine⟩
      exact other (mine.symm.trans owner)
    · rw [if_neg other]
  | store hart addr n value => exact if_neg (shut hart)
  | dma addr n value => exact if_pos locked

theorem foldl_act_of_held (held : w.Held me) (batch : List OtherAction) :
    batch.foldl (fun w a => w.act me a) w = w := by
  induction batch with
  | nil => rfl
  | cons a batch ih =>
    rw [List.foldl_cons, act_of_held held]
    exact ih

/-- A stretch of the core's own work under the lock: it keeps the lock, only loads, and
memory stays as it is. -/
structure Loads (me : BitVec 64) (w w' : SharedBus) : Prop where
  held : w'.Held me
  bytes : w'.bytes = w.bytes
  log : ∃ l, w'.log = w.log ++ l ∧ ∀ e ∈ l, isLoad e = true

namespace Loads

theorem refl (held : w.Held me) : Loads me w w :=
  ⟨held, rfl, [], (List.append_nil _).symm, fun _ among => absurd among List.not_mem_nil⟩

theorem trans {w₁ w₂ w₃ : SharedBus} (first : Loads me w₁ w₂) (second : Loads me w₂ w₃) :
    Loads me w₁ w₃ := by
  obtain ⟨l, log, own⟩ := first.log
  obtain ⟨l', log', own'⟩ := second.log
  refine ⟨second.held, second.bytes.trans first.bytes, l ++ l', ?_, ?_⟩
  · rw [log', log, List.append_assoc]
  · intro e among
    rcases List.mem_append.mp among with among | among
    · exact own e among
    · exact own' e among

end Loads

/-- The same with stores. -/
structure Accesses (me : BitVec 64) (w w' : SharedBus) : Prop where
  held : w'.Held me
  log : ∃ l, w'.log = w.log ++ l ∧ ∀ e ∈ l, (isLoad e || isStore e) = true

namespace Accesses

theorem of_loads {w' : SharedBus} (loads : Loads me w w') : Accesses me w w' := by
  obtain ⟨l, log, own⟩ := loads.log
  exact ⟨loads.held, l, log, fun e among => by rw [own e among]; rfl⟩

theorem trans {w₁ w₂ w₃ : SharedBus} (first : Accesses me w₁ w₂) (second : Accesses me w₂ w₃) :
    Accesses me w₁ w₃ := by
  obtain ⟨l, log, own⟩ := first.log
  obtain ⟨l', log', own'⟩ := second.log
  refine ⟨second.held, l ++ l', ?_, ?_⟩
  · rw [log', log, List.append_assoc]
  · intro e among
    rcases List.mem_append.mp among with among | among
    · exact own e among
    · exact own' e among

end Accesses

theorem turn_of_held (held : w.Held me) : Loads me w (w.turn me) := by
  unfold turn
  split
  · exact .refl held
  case h_2 batch rest _ =>
    have rested : Held { w with agenda := rest } me := held
    rw [foldl_act_of_held rested]
    exact ⟨held, rfl, [], (List.append_nil _).symm, fun _ among => absurd among List.not_mem_nil⟩

theorem waitForAccessRights_of_held (held : w.Held me) :
    w.waitForAccessRights me = some (w.turn me) := by
  unfold waitForAccessRights
  rw [if_neg]
  rintro ⟨-, other⟩
  exact other (turn_of_held held).held.2

theorem read_of_held (held : w.Held me) (addr : BitVec 64) (n : Nat) :
    Loads me w (w.read addr n).2 where
  held := held
  bytes := rfl
  log := ⟨[.load addr n], rfl, fun e among => by rw [List.mem_singleton.mp among]; rfl⟩

theorem write_of_held (held : w.Held me) (addr : BitVec 64) (n : Nat) (value : BitVec (8 * n)) :
    Accesses me w (w.write addr n value) where
  held := held
  log := ⟨[.store addr n], rfl, fun e among => by rw [List.mem_singleton.mp among]; rfl⟩

/-! ## While it waits for the lock -/

/-- The work of others: whatever they do, no access of the core is in the log. -/
def OthersOnly (w w' : SharedBus) : Prop :=
  ∃ l, w'.log = w.log ++ l ∧ ∀ e ∈ l, (isLoad e || isStore e) = false

namespace OthersOnly

theorem refl (w : SharedBus) : OthersOnly w w :=
  ⟨[], (List.append_nil _).symm, fun _ among => absurd among List.not_mem_nil⟩

theorem trans {w₁ w₂ w₃ : SharedBus} (first : OthersOnly w₁ w₂) (second : OthersOnly w₂ w₃) :
    OthersOnly w₁ w₃ := by
  obtain ⟨l, log, other⟩ := first
  obtain ⟨l', log', other'⟩ := second
  refine ⟨l ++ l', ?_, ?_⟩
  · rw [log', log, List.append_assoc]
  · intro e among
    rcases List.mem_append.mp among with among | among
    · exact other e among
    · exact other' e among

theorem record (w : SharedBus) {e : BusEvent} (other : (isLoad e || isStore e) = false) :
    OthersOnly w (w.record e) :=
  ⟨[e], rfl, fun d among => by rwa [List.mem_singleton.mp among]⟩

end OthersOnly

theorem unlock_othersOnly (w : SharedBus) (hart : BitVec 64) : OthersOnly w (w.unlock hart) := by
  unfold unlock
  split
  · exact .record { w with locked := false } rfl
  · exact .refl w

theorem act_othersOnly (w : SharedBus) (me : BitVec 64) (a : OtherAction) :
    OthersOnly w (w.act me a) := by
  cases a with
  | lock hart =>
    show OthersOnly w (if _ then w.acquire hart else w)
    split
    · exact .record { w with locked := true, owner := hart } rfl
    · exact .refl w
  | unlock hart =>
    show OthersOnly w (if _ then w.unlock hart else w)
    split
    · exact unlock_othersOnly w hart
    · exact .refl w
  | store hart addr n value =>
    show OthersOnly w (if _ then (w.poke addr n value).unlock hart else w)
    have poked : OthersOnly w (w.poke addr n value) :=
      .record { w with bytes := w.bytes.write addr n (value.setWidth (8 * n)) } rfl
    split
    · exact poked.trans (unlock_othersOnly _ hart)
    · exact .refl w
  | dma addr n value =>
    show OthersOnly w (if _ then w else w.poke addr n value)
    split
    · exact .refl w
    · exact .record { w with bytes := w.bytes.write addr n (value.setWidth (8 * n)) } rfl

theorem foldl_act_othersOnly (w : SharedBus) (me : BitVec 64) (batch : List OtherAction) :
    OthersOnly w (batch.foldl (fun w a => w.act me a) w) := by
  induction batch generalizing w with
  | nil => exact .refl w
  | cons a batch ih => exact (act_othersOnly w me a).trans (ih (w.act me a))

theorem turn_othersOnly (w : SharedBus) (me : BitVec 64) : OthersOnly w (w.turn me) := by
  unfold turn
  split
  · exact .refl w
  case h_2 batch rest _ => exact foldl_act_othersOnly { w with agenda := rest } me batch

theorem waitUntilUnlocked_othersOnly (me : BitVec 64) {agenda : List (List OtherAction)}
    {w w' : SharedBus} (waited : waitUntilUnlocked me agenda w = some w') : OthersOnly w w' := by
  induction agenda generalizing w with
  | nil =>
    unfold waitUntilUnlocked at waited
    split at waited
    · cases waited
    · cases waited
      exact .refl w
  | cons batch rest ih =>
    unfold waitUntilUnlocked at waited
    split at waited
    · exact (foldl_act_othersOnly w me batch).trans (ih waited)
    · cases waited
      exact .refl w

theorem lock_othersOnly {w w' : SharedBus} (locked : w.lock me = some w') :
    OthersOnly w w' ∧ w'.Held me := by
  obtain ⟨v, waited, rfl⟩ := Option.map_eq_some_iff.mp locked
  have before : OthersOnly w v := by
    unfold waitForAccessRights at waited
    dsimp only at waited
    split at waited
    · exact (turn_othersOnly w me).trans (waitUntilUnlocked_othersOnly me waited)
    · cases waited
      exact turn_othersOnly w me
  exact ⟨before.trans (.record { v with locked := true, owner := me } rfl), rfl, rfl⟩

/-! ## Atomic histories -/

/-- The lock is let go, or somebody else writes. -/
def Disturbs (me : BitVec 64) : BusEvent → Prop
  | .released hart => hart = me
  | .foreign _ => True
  | _ => False

/-- Nothing of the kind happens between a load of the core and a later store of it. -/
def Atomic (me : BitVec 64) (l : List BusEvent) : Prop :=
  ∀ x e y, [x, e, y].Sublist l → isLoad x = true → Disturbs me e → ¬ isStore y = true

theorem not_disturbs_of_access {e : BusEvent} (own : (isLoad e || isStore e) = true) :
    ¬ Disturbs me e := by
  cases e <;> first | exact id | cases own

/-- The work of others, then that of the core under the lock, then perhaps the release. -/
theorem atomic_of_phases {before during last : List BusEvent}
    (others : ∀ e ∈ before, (isLoad e || isStore e) = false)
    (own : ∀ e ∈ during, (isLoad e || isStore e) = true)
    (final : last = [] ∨ last = [.released me]) : Atomic me (before ++ (during ++ last)) := by
  intro x e y sub loads disturbs _
  obtain ⟨front, back, parts, inBefore, inRest⟩ := List.sublist_append_iff.mp sub
  cases front with
  | cons z front =>
    obtain ⟨rfl, -⟩ := List.cons.inj parts
    have out := others x (inBefore.subset List.mem_cons_self)
    rw [loads] at out
    cases out
  | nil =>
    rw [List.nil_append] at parts
    subst parts
    obtain ⟨front, back, parts, inDuring, inLast⟩ := List.sublist_append_iff.mp inRest
    have short : last.length ≤ 1 := by
      rcases final with rfl | rfl <;> simp
    have length := Nat.le_trans inLast.length_le short
    rcases front with _ | ⟨a, _ | ⟨b, front⟩⟩
    · rw [← show [x, e, y] = back from parts] at length
      exact absurd length (by simp)
    · rw [← show [e, y] = back from (List.cons.inj parts).2] at length
      exact absurd length (by simp)
    · obtain ⟨-, parts⟩ := List.cons.inj parts
      obtain ⟨rfl, -⟩ := List.cons.inj parts
      have among : e ∈ during := inDuring.subset (List.mem_cons_of_mem _ List.mem_cons_self)
      exact not_disturbs_of_access (own e among) disturbs

end SharedBus

end RiscvVp
