/-
# RiscvVp.Gdb.ReadMemory -- what the debugger is told about memory

`readMemory` translates the first address of a range with the MMU of the hart and reads the range
from there on.  What it should tell are the bytes that the hart would load, one address after the
other, and it should change nothing.  It does both exactly where the translation needs no walk, the
rest of the range follows the first byte, and the digits can be sent.
-/
import RiscvVp.Gdb.Replies
import RiscvVp.Iss.Modes
import RiscvVp.Soc.DataPath

namespace RiscvVp

set_option autoImplicit false

open Lib Transition

/-! ## Translations that change nothing -/

namespace Iss

variable {isa : Isa} {World : Type} {plat : Platform World} {type : MemoryAccessType} {va : BitVec 64}
  {s t : Iss isa World}

/-- Translated without a walk: translation is off, or the TLB has the page. -/
def Direct (plat : Platform World) (type : MemoryAccessType) (va : BitVec 64) (s : Iss isa World) : Prop :=
  isa = .rv32 ∧ plat.hasMmu = false ∨ Satp.mode (s.csrs.reg .satp) = Satp.bare ∨
    effectiveMode type s = machineMode ∨ LowMode (effectiveMode type s) ∧
      (tlbLookup (effectiveMode type s) type (va >>> 12) s).vpn = va >>> 12

/-- The modes of `decode_vm_info`, and the one that needs none. -/
def knownModes : List Nat := [Satp.bare, Satp.sv32, Satp.sv39, Satp.sv48, Satp.sv57, Satp.sv64]

/-- A walk is needed, and `satp` has no mode for it. -/
def Unwalkable (plat : Platform World) (type : MemoryAccessType) (va : BitVec 64) (s : Iss isa World) :
    Prop :=
  ¬ Direct plat type va s ∧ LowMode (effectiveMode type s) ∧
    ∀ mode ∈ knownModes, Satp.mode (s.csrs.reg .satp) ≠ mode

theorem run_v2p_direct (direct : Direct plat type va s) : ∃ p, (v2p plat va type).run s = (.ok p, s) := by
  by_cases none : isa = .rv32 ∧ plat.hasMmu = false
  · unfold v2p
    rw [if_pos none]
    exact ⟨va, rfl⟩
  unfold v2p
  rw [if_neg none]
  by_cases bare : Satp.mode (s.csrs.reg .satp) = Satp.bare
  · unfold translateVirtualToPhysicalAddr
    rw [run_readCsr_bind, Exec.run_read_bind, if_pos bare]
    exact ⟨va, rfl⟩
  rcases (direct.resolve_left none).resolve_left bare with machine | ⟨low, hit⟩
  · exact ⟨va, run_translate_machine bare machine⟩
  · exact ⟨_, run_translate_hit bare rfl low hit⟩

/-- Where none of the shortcuts is open. -/
theorem run_v2p_of_not_direct (indirect : ¬ Direct plat type va s) (low : LowMode (effectiveMode type s)) :
    (v2p plat va type).run s =
      (do
        let paddr ← walk plat va type (effectiveMode type s)
        tlbFill (effectiveMode type s) type (va >>> 12) (.fill paddr (va >>> 12))
        return paddr : IssM isa World (BitVec 64)).run s := by
  have none : ¬ (isa = .rv32 ∧ plat.hasMmu = false) := fun none => indirect (.inl none)
  have paged : Satp.mode (s.csrs.reg .satp) ≠ Satp.bare := fun bare => indirect (.inr (.inl bare))
  have miss : (tlbLookup (effectiveMode type s) type (va >>> 12) s).vpn ≠ va >>> 12 :=
    fun hit => indirect (.inr (.inr (.inr ⟨low, hit⟩)))
  unfold v2p
  rw [if_neg none]
  exact run_translate_miss paged rfl low miss

theorem run_v2p_of_not_low (indirect : ¬ Direct plat type va s) (high : ¬ LowMode (effectiveMode type s)) :
    (v2p plat va type).run s = (.error (.abort .mmuMode), s) := by
  have none : ¬ (isa = .rv32 ∧ plat.hasMmu = false) := fun none => indirect (.inl none)
  have paged : Satp.mode (s.csrs.reg .satp) ≠ Satp.bare := fun bare => indirect (.inr (.inl bare))
  have below : effectiveMode type s ≠ machineMode := fun machine => indirect (.inr (.inr (.inl machine)))
  unfold v2p
  rw [if_neg none]
  exact run_translate_unknown paged below high

/-- A walk leaves its page in the TLB. -/
theorem tlb_ne_of_walked (indirect : ¬ Direct plat type va s) {p : BitVec 64}
    (ran : (v2p plat va type).run s = (.ok p, t)) : t.tlb ≠ s.tlb := by
  by_cases low : LowMode (effectiveMode type s)
  · rw [run_v2p_of_not_direct indirect low] at ran
    obtain ⟨paddr, u, -, rest⟩ := Exec.run_bind_eq_ok.mp ran
    have filled : t.tlb (effectiveMode type s) type ((va >>> 12).setWidth 8) = .fill paddr (va >>> 12) := by
      cases rest
      exact if_pos ⟨rfl, rfl, rfl⟩
    intro same
    rw [same] at filled
    exact indirect (.inr (.inr (.inr ⟨low, congrArg TlbEntry.vpn filled⟩)))
  · rw [run_v2p_of_not_low indirect low] at ran
    cases ran

theorem run_v2p_unwalkable (unwalkable : Unwalkable plat type va s) :
    (v2p plat va type).run s = (.error (.abort .unknownSatpMode), s) := by
  obtain ⟨indirect, low, unknown⟩ := unwalkable
  have below : effectiveMode type s ≤ supervisorMode := by rcases low with low | low <;> rw [low] <;> decide
  have decoded : (decodeVmInfo (effectiveMode type s)).run s = (.error (.abort .unknownSatpMode), s) := by
    unfold decodeVmInfo
    rw [run_assert_bind s below, run_readCsr_bind, if_neg (unknown _ (by decide)),
      if_neg (unknown _ (by decide)), if_neg (unknown _ (by decide)), if_neg (unknown _ (by decide)),
      if_neg (unknown _ (by decide))]
    rfl
  have walked : (walk plat va type (effectiveMode type s)).run s = (.error (.abort .unknownSatpMode), s) := by
    unfold walk
    rw [run_readField_bind, run_readField_bind, Exec.run_bind_error decoded]
  rw [run_v2p_of_not_direct indirect low, Exec.run_bind_error walked]

/-- Only the mode of `satp` makes a translation fail over the mode of `satp`. -/
structure BlamesMode (s : Iss isa World) (o : Option Exc) (t : Iss isa World) : Prop where
  satp : t.csrs.reg .satp = s.csrs.reg .satp
  unknown : o = some (.abort .unknownSatpMode) → ∀ mode ∈ knownModes, Satp.mode (s.csrs.reg .satp) ≠ mode

instance : Closed (@BlamesMode isa World) where
  refl _ := ⟨rfl, nofun⟩
  trans first second := ⟨second.satp.trans first.satp, fun ended => first.satp ▸ second.unknown ended⟩

instance : Walks (@BlamesMode isa World) type va where
  fault _ := ⟨rfl, nofun⟩
  abort _ _ explained := ⟨rfl, fun ended => by cases ended; exact explained⟩
  fill _ _ := ⟨rfl, nofun⟩

instance : Lifts Answers (@BlamesMode isa World) where
  world s o w answers := by
    refine ⟨rfl, fun ended => ?_⟩
    rcases answers _ ended with blocked | outside | refusal
    · cases blocked
    · cases outside
    · exact refusal.elim

theorem unwalkable_of_run (ran : (v2p plat va type).run s = (.error (.abort .unknownSatpMode), t)) :
    Unwalkable plat type va s := by
  have indirect : ¬ Direct plat type va s := by
    intro direct
    obtain ⟨p, fine⟩ := run_v2p_direct direct
    rw [fine] at ran
    cases ran
  refine ⟨indirect, ?_, ?_⟩
  · by_contra high
    rw [run_v2p_of_not_low indirect high] at ran
    cases ran
  · have blames := (sat_v2p plat Answers BlamesMode type va).holds s
    rw [ran] at blames
    exact blames.unknown rfl

end Iss

/-! ## What a reply has to say -/

/-- An `E` and a number. -/
def ErrorReply (reply : String) : Prop := ∃ code, reply = String.ofList ('E' :: hexByte code)

/-- The bytes, or an error where one of them is not there. -/
def Tells (byte : Nat → Option (BitVec 8)) (n : Nat) (reply : String) : Prop :=
  (∃ bytes : Nat → BitVec 8, (∀ k < n, byte k = some (bytes k)) ∧
    reply = hexString ((List.range n).map bytes)) ∨
  (∃ k < n, byte k = none) ∧ ErrorReply reply

section Tells

variable {byte : Nat → Option (BitVec 8)} {n : Nat}

/-- The digits of bytes are even in number. -/
theorem not_errorReply_hexString (bytes : List (BitVec 8)) : ¬ ErrorReply (hexString bytes) := by
  rintro ⟨code, same⟩
  have lengths := congrArg List.length (String.ofList_injective same)
  rw [length_flatMap_hexByte, List.length_cons] at lengths
  have two : (hexByte code).length = 2 := rfl
  omega

theorem tells_bytes_iff (bytes : Nat → BitVec 8) :
    Tells byte n (hexString ((List.range n).map bytes)) ↔ ∀ k < n, byte k = some (bytes k) := by
  constructor
  · rintro (⟨told, there, same⟩ | ⟨-, failed⟩)
    · intro k inside
      have equal := List.map_inj_left.mp (hexString_injective same) k (List.mem_range.mpr inside)
      rw [there k inside, equal]
    · exact absurd failed (not_errorReply_hexString _)
  · intro there
    exact .inl ⟨bytes, there, rfl⟩

theorem tells_error_iff : Tells byte n "E01" ↔ ∃ k < n, byte k = none := by
  have failed : ErrorReply "E01" := ⟨1, rfl⟩
  constructor
  · rintro (⟨told, -, same⟩ | ⟨missing, -⟩)
    · rw [same] at failed
      exact absurd failed (not_errorReply_hexString _)
    · exact missing
  · intro missing
    exact .inr ⟨missing, failed⟩

end Tells

/-! ## One hart is asked -/

namespace GdbServer

variable {isa : Isa} {Dev : Type} {n : Nat} (plat : Platform (SocState Dev)) (soc : Soc Dev)
  (g : GdbServer isa Dev n) (i : Fin (n + 1)) (mem : GdbMemory)

/-- The byte that the hart would load. -/
def virtualByte (va : BitVec 64) : Option (BitVec 8) :=
  match ((Iss.v2p plat va .load).run (g.hart i)).1 with
  | .ok p => soc.byteAt g.world p
  | .error _ => none

/-- The bytes of the range. -/
def rangeByte (k : Nat) : Option (BitVec 8) := g.virtualByte plat soc i (mem.addr + BitVec.ofNat 64 k)

/-- One reply, which tells the bytes of the hart, and nothing but the connection has changed. -/
def ReadsPurely : Prop :=
  ∃ t reply, (readMemory plat soc mem).run g = (.ok (), t) ∧ t.sent = g.sent ++ [.packet reply] ∧
    t.harts = g.harts ∧ t.world = g.world ∧ Tells (g.rangeByte plat soc i mem) mem.length.toNat reply

/-- Where the server ends up without changing the hart. -/
def Reaches (va p : BitVec 64) : Prop :=
  g.mmu = false ∧ p = va ∨
    g.mmu = true ∧ Iss.Direct plat .load va (g.hart i) ∧ ((Iss.v2p plat va .load).run (g.hart i)).1 = .ok p

/-- Byte `k` is on another page than the first one or behind another port, or the address was not translated
at all. -/
def Apart (va p : BitVec 64) (k : Nat) : Prop :=
  g.mmu = false ∨ (va + BitVec.ofNat 64 k) >>> 12 ≠ va >>> 12 ∨
    soc.decode (p + BitVec.ofNat 64 k) ≠ soc.decode p

/-- The hart's own translation leads to the place `k` bytes behind `offset`, or to another place where the same
byte is stored. -/
def Leads (p : BitVec 64) (memory : SimpleMemory) (offset : BitVec 32) (k : Nat) : Prop :=
  ∃ q memory' offset', ((Iss.v2p plat (mem.addr + BitVec.ofNat 64 k) .load).run (g.hart i)).1 = .ok q ∧
    soc.memoryAt g.world q = some (memory', offset') ∧ offset' < memory'.size ∧
    (soc.decode q = soc.decode p ∧ offset' = offset + BitVec.ofNat 32 k ∨
      memory'.data (offset'.setWidth 64) = memory.data (offset.setWidth 64 + BitVec.ofNat 64 k))

/-- The digits of `length` bytes of a memory, added up as characters. -/
def bytesWeight (memory : SimpleMemory) (offset : BitVec 32) (length : Nat) : Nat :=
  ((List.range length).map fun k => byteWeight (memory.data (offset.setWidth 64 + BitVec.ofNat 64 k))).sum

/-- The first address needs no walk, or gets none; and then nothing is there and the range has a
byte that is not, or the range is empty, or it goes on in the memory of its first byte and its digits add
up to an `int`. -/
def Straight : Prop :=
  mem.length ≤ uintMax ∧
    (g.mmu = true ∧ Iss.Unwalkable plat .load mem.addr (g.hart i) ∧ 0 < mem.length.toNat ∨
      ∃ p, g.Reaches plat i mem.addr p ∧
        (soc.decode p = none ∧ (∃ k < mem.length.toNat, g.rangeByte plat soc i mem k = none) ∨
          soc.decode p ≠ none ∧ soc.memoryAt g.world p = none ∧ mem.length.toNat = 0 ∨
          ∃ memory offset, soc.Backs g.world p mem.length.toNat memory offset ∧
            bytesWeight memory offset mem.length.toNat < 2 ^ 31 ∧
            ∀ k < mem.length.toNat, g.Apart soc mem.addr p k → g.Leads plat soc i mem p memory offset k))

variable {plat soc g i mem}

theorem withHart_hart : g.withHart i (g.hart i) = g := by
  have same : Function.update g.harts i (g.harts i) = g.harts := Function.update_eq_self i g.harts
  show ({ g with harts := Function.update g.harts i (g.harts i) } : GdbServer isa Dev n) = g
  rw [same]

theorem run_execThread_one {op : Char} (one : getThreads ((g.threadOps op).getD GdbThread.any) = some [i])
    (fn : Fin (n + 1) → M isa Dev n String) : (execThread fn op).run g = (fn i).run g := by
  rw [run_execThread one]
  unfold forThreads forThreads
  cases ran : (fn i).run g with
  | mk result t =>
    cases result with
    | error e => rw [Exec.run_bind_error ran]
    | ok text =>
      rw [Exec.run_bind_ok ran, Exec.run_pure_bind, String.append_empty]
      rfl

theorem run_readAt {p : BitVec 64} {result : Except Failure String} {t : GdbServer isa Dev n}
    (reached : (translateAddr plat i mem.addr .load).run g = (.ok p, t))
    (ran : (DebugMemoryInterface.readMemory soc p mem.length.toNat).run t.world = (result, t.world)) :
    (readAt plat soc mem i).run g = (result, t) := by
  unfold readAt
  rw [Exec.run_bind_ok reached, run_onMemory, ran]

section One

variable (one : getThreads ((g.threadOps 'g').getD GdbThread.any) = some [i])

include one

theorem run_readMemory_ok (short : mem.length ≤ uintMax) {text : String} {t : GdbServer isa Dev n}
    (ran : (readAt plat soc mem i).run g = (.ok text, t)) :
    (readMemory plat soc mem).run g = (sendPacket text).run t := by
  have caught : (catching .runtimeError (execThread (readAt plat soc mem) 'g')).run g =
      (.ok (some text), t) := run_catching_ok ((run_execThread_one one _).trans ran)
  unfold readMemory
  rw [Exec.ensure_pos short, Exec.run_pure_bind, Exec.run_bind_ok caught, Option.getD_some]

theorem run_readMemory_error (short : mem.length ≤ uintMax) {e : Failure} {t : GdbServer isa Dev n}
    (ran : (readAt plat soc mem i).run g = (.error e, t)) :
    (readMemory plat soc mem).run g =
      if e = .runtimeError then (sendPacket "E01").run t else (.error e, t) := by
  have caught : (catching .runtimeError (execThread (readAt plat soc mem) 'g')).run g = _ :=
    run_catching_error ((run_execThread_one one _).trans ran)
  unfold readMemory
  rw [Exec.ensure_pos short, Exec.run_pure_bind]
  split
  case isTrue runtime =>
    rw [if_pos runtime] at caught
    rw [Exec.run_bind_ok caught, Option.getD_none]
  case isFalse other =>
    rw [if_neg other] at caught
    exact Exec.run_bind_error caught

omit one in
theorem not_readsPurely_of_long (long : ¬ mem.length ≤ uintMax) : ¬ g.ReadsPurely plat soc i mem := by
  rintro ⟨t, reply, ran, -⟩
  unfold readMemory at ran
  rw [Exec.ensure_neg long, Exec.run_raise_bind] at ran
  cases ran

/-- What it takes, when the function returns: first that the reply is sent. -/
theorem readsPurely_of_ok (short : mem.length ≤ uintMax) {text : String} {t : GdbServer isa Dev n}
    (ran : (readAt plat soc mem i).run g = (.ok text, t)) (kept : t.sent = g.sent)
    (printable : LibGdb.Printable (LibGdb.bytes text)) :
    g.ReadsPurely plat soc i mem ↔ t.harts = g.harts ∧ t.world = g.world ∧ weight text < 2 ^ 31 ∧
      Tells (g.rangeByte plat soc i mem) mem.length.toNat text := by
  unfold ReadsPurely
  rw [run_readMemory_ok one short ran]
  by_cases light : weight text < 2 ^ 31
  case neg =>
    rw [run_sendPacket_heavy printable light]
    constructor
    · rintro ⟨u, reply, sent, -⟩
      cases sent
    · rintro ⟨-, -, light', -⟩
      exact absurd light' light
  rw [run_sendPacket ⟨printable, light⟩]
  constructor
  · rintro ⟨u, reply, sent, told, harts, world, tells⟩
    cases sent
    have last := (List.append_inj' told rfl).2
    cases last
    exact ⟨harts, world, light, tells⟩
  · rintro ⟨harts, world, -, tells⟩
    refine ⟨_, text, rfl, ?_, harts, world, tells⟩
    show t.sent ++ _ = _
    rw [kept]

/-- ... and in any case that the harts are as they were. -/
theorem harts_of_readsPurely (short : mem.length ≤ uintMax) {text : String} {t : GdbServer isa Dev n}
    (ran : (readAt plat soc mem i).run g = (.ok text, t)) (pure : g.ReadsPurely plat soc i mem) :
    t.harts = g.harts := by
  obtain ⟨u, reply, sent, -, harts, -⟩ := pure
  rw [run_readMemory_ok one short ran] at sent
  rw [eq_of_sendPacket sent] at harts
  exact harts

/-- What it takes, when it throws. -/
theorem readsPurely_of_error (short : mem.length ≤ uintMax) {e : Failure} {t : GdbServer isa Dev n}
    (ran : (readAt plat soc mem i).run g = (.error e, t)) (kept : t.sent = g.sent) :
    g.ReadsPurely plat soc i mem ↔ e = .runtimeError ∧ t.harts = g.harts ∧ t.world = g.world ∧
      ∃ k < mem.length.toNat, g.rangeByte plat soc i mem k = none := by
  unfold ReadsPurely
  rw [run_readMemory_error one short ran, ← tells_error_iff]
  split
  case isTrue runtime =>
    rw [run_sendPacket (by decide)]
    constructor
    · rintro ⟨u, reply, sent, told, harts, world, tells⟩
      cases sent
      have last := (List.append_inj' told rfl).2
      cases last
      exact ⟨runtime, harts, world, tells⟩
    · rintro ⟨-, harts, world, tells⟩
      refine ⟨_, "E01", rfl, ?_, harts, world, tells⟩
      show t.sent ++ _ = _
      rw [kept]
  case isFalse other =>
    constructor
    · rintro ⟨u, reply, sent, -⟩
      cases sent
    · rintro ⟨runtime, -⟩
      exact absurd runtime other

/-! ### From a physical address on -/

/-- Behind no port: the error has to be due to some byte. -/
theorem readsPurely_of_unmapped (short : mem.length ≤ uintMax) {p : BitVec 64}
    (reached : (translateAddr plat i mem.addr .load).run g = (.ok p, g)) (unmapped : soc.decode p = none) :
    g.ReadsPurely plat soc i mem ↔ ∃ k < mem.length.toNat, g.rangeByte plat soc i mem k = none := by
  have ran := run_readAt reached (DebugMemoryInterface.run_readMemory_unmapped unmapped)
  rw [readsPurely_of_error one short ran rfl]
  constructor
  · rintro ⟨-, -, -, missing⟩
    exact missing
  · intro missing
    exact ⟨rfl, rfl, rfl, missing⟩

/-- A peripheral has no bytes to give. -/
theorem readsPurely_of_peripheral (short : mem.length ≤ uintMax) {p : BitVec 64}
    (reached : (translateAddr plat i mem.addr .load).run g = (.ok p, g)) (mapped : soc.decode p ≠ none)
    (found : soc.memoryAt g.world p = none) : g.ReadsPurely plat soc i mem ↔ mem.length.toNat = 0 := by
  have ran := run_readAt reached (DebugMemoryInterface.run_readMemory_peripheral mapped found)
  by_cases zero : mem.length.toNat = 0
  · rw [if_pos zero] at ran
    rw [readsPurely_of_ok one short ran rfl (by decide)]
    refine ⟨fun _ => zero, fun _ => ⟨rfl, rfl, by decide, .inl ⟨fun _ => 0, ?_, ?_⟩⟩⟩
    · intro k inside
      omega
    · rw [zero]
      rfl
  · rw [if_neg zero] at ran
    rw [readsPurely_of_error one short ran rfl]
    constructor
    · rintro ⟨runtime, -⟩
      cases runtime
    · intro zero'
      exact absurd zero' zero

/-- A memory gives the bytes that follow, as far as it goes. -/
theorem readsPurely_of_memory (short : mem.length ≤ uintMax) {p : BitVec 64}
    (reached : (translateAddr plat i mem.addr .load).run g = (.ok p, g)) {memory : SimpleMemory}
    {offset : BitVec 32} (found : soc.memoryAt g.world p = some (memory, offset)) :
    g.ReadsPurely plat soc i mem ↔ soc.Backs g.world p mem.length.toNat memory offset ∧
      bytesWeight memory offset mem.length.toNat < 2 ^ 31 ∧
      ∀ k < mem.length.toNat,
        g.rangeByte plat soc i mem k = some (memory.data (offset.setWidth 64 + BitVec.ofNat 64 k)) := by
  by_cases within : offset < memory.size ∧ offset.toNat + mem.length.toNat ≤ memory.size.toNat
  · have backs : soc.Backs g.world p mem.length.toNat memory offset := ⟨found, within.1, within.2⟩
    have ran := run_readAt reached (DebugMemoryInterface.run_readMemory_backed backs)
    have digits : weight (hexString ((List.range mem.length.toNat).map fun k =>
        memory.data (offset.setWidth 64 + BitVec.ofNat 64 k))) = bytesWeight memory offset mem.length.toNat := by
      rw [weight_hexString, List.map_map]
      rfl
    rw [readsPurely_of_ok one short ran rfl (printable_hexString _), tells_bytes_iff, digits]
    constructor
    · rintro ⟨-, -, there⟩
      exact ⟨backs, there⟩
    · rintro ⟨-, there⟩
      exact ⟨rfl, rfl, there⟩
  · obtain ⟨e, ran, other⟩ := DebugMemoryInterface.run_readMemory_beyond found within
    rw [readsPurely_of_error one short (run_readAt reached ran) rfl]
    constructor
    · rintro ⟨runtime, -⟩
      exact absurd runtime other
    · rintro ⟨backs, -⟩
      exact absurd ⟨backs.first, backs.last⟩ within

theorem readsPurely_of_reached (short : mem.length ≤ uintMax) {p : BitVec 64}
    (reached : (translateAddr plat i mem.addr .load).run g = (.ok p, g)) :
    g.ReadsPurely plat soc i mem ↔
      soc.decode p = none ∧ (∃ k < mem.length.toNat, g.rangeByte plat soc i mem k = none) ∨
        soc.decode p ≠ none ∧ soc.memoryAt g.world p = none ∧ mem.length.toNat = 0 ∨
        ∃ memory offset, soc.Backs g.world p mem.length.toNat memory offset ∧
          bytesWeight memory offset mem.length.toNat < 2 ^ 31 ∧
          ∀ k < mem.length.toNat,
            g.rangeByte plat soc i mem k = some (memory.data (offset.setWidth 64 + BitVec.ofNat 64 k)) := by
  by_cases unmapped : soc.decode p = none
  · have nowhere : soc.memoryAt g.world p = none := by
      unfold Soc.memoryAt
      rw [unmapped]
    rw [readsPurely_of_unmapped one short reached unmapped]
    refine ⟨fun missing => .inl ⟨unmapped, missing⟩, ?_⟩
    rintro (⟨-, missing⟩ | ⟨mapped, -⟩ | ⟨memory, offset, backs, -⟩)
    · exact missing
    · exact absurd unmapped mapped
    · cases nowhere.symm.trans backs.memory
  cases found : soc.memoryAt g.world p with
  | none =>
    rw [readsPurely_of_peripheral one short reached unmapped found]
    refine ⟨fun zero => .inr (.inl ⟨unmapped, rfl, zero⟩), ?_⟩
    rintro (⟨unmapped', -⟩ | ⟨-, -, zero⟩ | ⟨memory, offset, backs, -⟩)
    · exact absurd unmapped' unmapped
    · exact zero
    · cases found.symm.trans backs.memory
  | some target =>
    rw [readsPurely_of_memory one short reached found]
    refine ⟨fun there => .inr (.inr ⟨target.1, target.2, there⟩), ?_⟩
    rintro (⟨unmapped', -⟩ | ⟨-, nothing, -⟩ | ⟨memory, offset, backs, there⟩)
    · exact absurd unmapped' unmapped
    · cases nothing
    · cases found.symm.trans backs.memory
      exact ⟨backs, there⟩

end One

/-! ### Bytes that follow the first one -/

/-- Offsets in a page add up as long as the page is the same. -/
theorem page_add_offset {page va : BitVec 64} (whole : page &&& 0xFFF = 0) {k : Nat} (small : k < 2 ^ 32)
    (same : (va + BitVec.ofNat 64 k) >>> 12 = va >>> 12) :
    page ||| ((va + BitVec.ofNat 64 k) &&& 0xFFF) = (page ||| (va &&& 0xFFF)) + BitVec.ofNat 64 k := by
  have low := va.isLt
  have sum : (va + BitVec.ofNat 64 k).toNat = (va.toNat + k) % 2 ^ 64 := by
    rw [BitVec.toNat_add, BitVec.toNat_ofNat, Nat.mod_eq_of_lt (a := k) (by omega)]
  have number := congrArg BitVec.toNat same
  rw [BitVec.toNat_ushiftRight, BitVec.toNat_ushiftRight, Nat.shiftRight_eq_div_pow,
    Nat.shiftRight_eq_div_pow, sum] at number
  have first := Iss.page_or_toNat whole va
  have second := Iss.page_or_toNat whole (va + BitVec.ofNat 64 k)
  have bound := (page ||| ((va + BitVec.ofNat 64 k) &&& 0xFFF)).isLt
  rw [sum] at second
  apply BitVec.eq_of_toNat_eq
  rw [BitVec.toNat_add, BitVec.toNat_ofNat, Nat.mod_eq_of_lt (a := k) (by omega), first]
  omega

/-- The next bytes behind the same port. -/
theorem byteAt_add {w : SocState Dev} {p : BitVec 64} {length k : Nat} {memory : SimpleMemory}
    {offset : BitVec 32} (backs : soc.Backs w p length memory offset) (inside : k < length)
    (same : soc.decode (p + BitVec.ofNat 64 k) = soc.decode p) :
    soc.byteAt w (p + BitVec.ofNat 64 k) = some (memory.data (offset.setWidth 64 + BitVec.ofNat 64 k)) := by
  obtain ⟨id, port, target, own, behind, place⟩ := Soc.memoryAt_eq_some backs.memory
  have top := memory.size.isLt
  have last := backs.last
  have place' : (port.globalToLocal (p + BitVec.ofNat 64 k)).setWidth 32 = offset + BitVec.ofNat 32 k := by
    have moved : port.globalToLocal (p + BitVec.ofNat 64 k) = port.globalToLocal p + BitVec.ofNat 64 k := by
      unfold PortMapping.globalToLocal
      bv_omega
    rw [moved, BitVec.setWidth_add _ _ (by decide), place, BitVec.setWidth_ofNat_of_le (by decide)]
  have number : (offset + BitVec.ofNat 32 k).toNat = offset.toNat + k := by
    rw [BitVec.toNat_add, BitVec.toNat_ofNat, Nat.mod_eq_of_lt (a := k) (by omega),
      Nat.mod_eq_of_lt (by omega)]
  have found : soc.memoryAt w (p + BitVec.ofNat 64 k) = some (memory, offset + BitVec.ofNat 32 k) := by
    unfold Soc.memoryAt
    rw [same, target]
    dsimp only
    rw [own, behind, ← place']
  have below : offset + BitVec.ofNat 32 k < memory.size := by
    rw [BitVec.lt_def, number]
    omega
  have address : (offset + BitVec.ofNat 32 k).setWidth 64 = offset.setWidth 64 + BitVec.ofNat 64 k := by
    apply BitVec.eq_of_toNat_eq
    rw [BitVec.toNat_setWidth, number, BitVec.toNat_add, BitVec.toNat_setWidth, BitVec.toNat_ofNat]
    omega
  unfold Soc.byteAt
  rw [found]
  dsimp only
  rw [if_pos below, address]

theorem rangeByte_near {p : BitVec 64} (reaches : g.Reaches plat i mem.addr p) {memory : SimpleMemory}
    {offset : BitVec 32} (backs : soc.Backs g.world p mem.length.toNat memory offset) {k : Nat}
    (inside : k < mem.length.toNat) (near : ¬ g.Apart soc mem.addr p k) :
    g.rangeByte plat soc i mem k = some (memory.data (offset.setWidth 64 + BitVec.ofNat 64 k)) := by
  have page : (mem.addr + BitVec.ofNat 64 k) >>> 12 = mem.addr >>> 12 := by
    by_contra other
    exact near (.inr (.inl other))
  have port : soc.decode (p + BitVec.ofNat 64 k) = soc.decode p := by
    by_contra other
    exact near (.inr (.inr other))
  rcases reaches with ⟨none, -⟩ | ⟨-, direct, translated⟩
  · exact absurd (.inl none) near
  obtain ⟨p', ran⟩ := Iss.run_v2p_direct direct
  rw [ran] at translated
  cases translated
  obtain ⟨base, whole, here, there⟩ := Iss.samePage_v2p page.symm plat .load ran
  have top := memory.size.isLt
  have last := backs.last
  rw [page_add_offset whole (by omega) page, ← here] at there
  unfold rangeByte virtualByte
  rw [there]
  exact byteAt_add backs inside port

/-- Where the translation of byte `k` has to lead. -/
theorem leads_iff {p : BitVec 64} {memory : SimpleMemory} {offset : BitVec 32}
    (backs : soc.Backs g.world p mem.length.toNat memory offset) {k : Nat} (inside : k < mem.length.toNat) :
    g.Leads plat soc i mem p memory offset k ↔
      g.rangeByte plat soc i mem k = some (memory.data (offset.setWidth 64 + BitVec.ofNat 64 k)) := by
  unfold Leads rangeByte virtualByte Soc.byteAt
  constructor
  · rintro ⟨q, memory', offset', translated, found, below, place | copy⟩
    · obtain ⟨port, rfl⟩ := place
      have last := backs.last
      have own : memory' = memory := by
        obtain ⟨id, -, target, here, -⟩ := Soc.memoryAt_eq_some backs.memory
        obtain ⟨id', -, target', there, -⟩ := Soc.memoryAt_eq_some found
        rw [port, target] at target'
        cases target'
        rw [here] at there
        exact (Option.some.inj there).symm
      have address : (offset + BitVec.ofNat 32 k).setWidth 64 = offset.setWidth 64 + BitVec.ofNat 64 k := by
        have top := memory.size.isLt
        apply BitVec.eq_of_toNat_eq
        rw [BitVec.toNat_setWidth, BitVec.toNat_add, BitVec.toNat_add, BitVec.toNat_setWidth, BitVec.toNat_ofNat,
          BitVec.toNat_ofNat]
        omega
      rw [translated]
      dsimp only
      rw [found]
      dsimp only
      rw [if_pos below, address, own]
    · rw [translated]
      dsimp only
      rw [found]
      dsimp only
      rw [if_pos below, copy]
  · intro same
    split at same
    case h_2 => cases same
    case h_1 q translated =>
      split at same
      case h_2 => cases same
      case h_1 memory' offset' found =>
        split at same
        case isFalse => cases same
        case isTrue below => exact ⟨q, memory', offset', translated, found, below, .inr (Option.some.inj same)⟩

/-! ## When a read is pure -/

theorem run_translateAddr_off (off : g.mmu = false) (va : BitVec 64) (type : MemoryAccessType) :
    (translateAddr plat i va type).run g = (.ok va, g) := by
  unfold translateAddr
  rw [Exec.run_read_bind, off]
  rfl

theorem run_translateAddr_on (on : g.mmu = true) {va : BitVec 64} {type : MemoryAccessType}
    {result : Except Exc (BitVec 64)} {s : Iss isa (SocState Dev)}
    (ran : (Iss.v2p plat va type).run (g.hart i) = (result, s)) :
    (translateAddr plat i va type).run g = (result.mapError failureOf, g.withHart i s) := by
  have unfolded : (onHart i (Iss.v2p plat va type)).run g =
      (((Iss.v2p plat va type).run (g.hart i)).1.mapError failureOf,
        g.withHart i ((Iss.v2p plat va type).run (g.hart i)).2) := rfl
  unfold translateAddr
  rw [Exec.run_read_bind, on, if_pos rfl, unfolded, ran]

/-- The state of the hart shows in the list of harts. -/
theorem withHart_harts_ne {s : Iss isa (SocState Dev)} (changed : s.tlb ≠ (g.hart i).tlb) :
    (g.withHart i s).harts ≠ g.harts := by
  intro same
  have here := congrFun same i
  have there : (g.withHart i s).harts i = { g.harts i with core := s.alone } := Function.update_self ..
  rw [there] at here
  exact changed (congrArg (fun hart => hart.core.tlb) here)

section Cases

variable (one : getThreads ((g.threadOps 'g').getD GdbThread.any) = some [i]) (short : mem.length ≤ uintMax)

include one short

theorem readsPurely_iff_of_reaches {p : BitVec 64} (reaches : g.Reaches plat i mem.addr p) :
    g.ReadsPurely plat soc i mem ↔
      soc.decode p = none ∧ (∃ k < mem.length.toNat, g.rangeByte plat soc i mem k = none) ∨
        soc.decode p ≠ none ∧ soc.memoryAt g.world p = none ∧ mem.length.toNat = 0 ∨
        ∃ memory offset, soc.Backs g.world p mem.length.toNat memory offset ∧
          bytesWeight memory offset mem.length.toNat < 2 ^ 31 ∧
          ∀ k < mem.length.toNat, g.Apart soc mem.addr p k → g.Leads plat soc i mem p memory offset k := by
  have reached : (translateAddr plat i mem.addr .load).run g = (.ok p, g) := by
    rcases reaches with ⟨off, rfl⟩ | ⟨on, direct, translated⟩
    · exact run_translateAddr_off off mem.addr .load
    · obtain ⟨q, ran⟩ := Iss.run_v2p_direct direct
      rw [ran] at translated
      cases translated
      rw [run_translateAddr_on on ran, withHart_hart]
      rfl
  rw [readsPurely_of_reached one short reached]
  refine or_congr_right (or_congr_right (exists_congr fun memory => exists_congr fun offset =>
    and_congr_right fun backs => and_congr_right fun _ => forall_congr' fun k => forall_congr' fun inside => ?_))
  rw [leads_iff backs inside]
  constructor
  · exact fun there _ => there
  · intro there
    by_cases apart : g.Apart soc mem.addr p k
    · exact there apart
    · exact rangeByte_near reaches backs inside apart

/-- No walk, and no address. -/
theorem readsPurely_iff_of_unwalkable (on : g.mmu = true)
    (unwalkable : Iss.Unwalkable plat .load mem.addr (g.hart i)) :
    g.ReadsPurely plat soc i mem ↔ 0 < mem.length.toNat := by
  have ran := Iss.run_v2p_unwalkable unwalkable
  have failed : (readAt plat soc mem i).run g = (.error .runtimeError, g) := by
    unfold readAt
    rw [Exec.run_bind_error (run_translateAddr_on on ran), withHart_hart]
    rfl
  rw [readsPurely_of_error one short failed rfl]
  constructor
  · rintro ⟨-, -, -, k, inside, -⟩
    omega
  · intro positive
    refine ⟨rfl, rfl, rfl, 0, positive, ?_⟩
    unfold rangeByte virtualByte
    rw [BitVec.add_zero, ran]

/-- A walk leaves a trace in the hart, or an exception that nothing catches. -/
theorem not_readsPurely_of_walk (on : g.mmu = true) (indirect : ¬ Iss.Direct plat .load mem.addr (g.hart i))
    (walkable : ¬ Iss.Unwalkable plat .load mem.addr (g.hart i)) : ¬ g.ReadsPurely plat soc i mem := by
  cases ran : (Iss.v2p plat mem.addr .load).run (g.hart i) with
  | mk result s =>
    have translated := run_translateAddr_on on ran
    cases result with
    | error e =>
      have other : failureOf e ≠ .runtimeError := by
        intro runtime
        unfold failureOf at runtime
        split at runtime
        case h_2 => exact walkable (Iss.unwalkable_of_run ran)
        all_goals cases runtime
      have failed : (readAt plat soc mem i).run g = (.error (failureOf e), g.withHart i s) := by
        unfold readAt
        rw [Exec.run_bind_error translated]
      rw [readsPurely_of_error one short failed rfl]
      exact fun runtime => other runtime.1
    | ok p =>
      have changed : (g.withHart i s).harts ≠ g.harts :=
        withHart_harts_ne (Iss.tlb_ne_of_walked indirect ran)
      cases read : (DebugMemoryInterface.readMemory soc p mem.length.toNat).run s.world with
      | mk answer w =>
        have reads : (readAt plat soc mem i).run g = (answer, { g.withHart i s with world := w }) := by
          unfold readAt
          rw [Exec.run_bind_ok translated]
          show (((DebugMemoryInterface.readMemory soc p mem.length.toNat).run s.world).1, { g.withHart i s with
            world := ((DebugMemoryInterface.readMemory soc p mem.length.toNat).run s.world).2 }) = _
          rw [read]
        cases answer with
        | error e =>
          rw [readsPurely_of_error one short reads rfl]
          exact fun pure => changed pure.2.1
        | ok text =>
          intro pure
          have kept := harts_of_readsPurely one short reads pure
          exact changed kept

end Cases

/-- The debugger is told the bytes of the hart, and the hart does not notice, exactly for the
straight reads. -/
theorem readMemory_pure_iff (one : getThreads ((g.threadOps 'g').getD GdbThread.any) = some [i]) :
    g.ReadsPurely plat soc i mem ↔ g.Straight plat soc i mem := by
  unfold Straight
  by_cases short : mem.length ≤ uintMax
  case neg => exact ⟨fun reads => absurd reads (not_readsPurely_of_long short), fun both => absurd both.1 short⟩
  rw [and_iff_right short]
  by_cases off : g.mmu = false
  · have reaches : g.Reaches plat i mem.addr mem.addr := .inl ⟨off, rfl⟩
    rw [readsPurely_iff_of_reaches one short reaches]
    constructor
    · exact fun pure => .inr ⟨mem.addr, reaches, pure⟩
    · rintro (⟨on, -⟩ | ⟨p, ⟨-, rfl⟩ | ⟨on, -⟩, pure⟩)
      · cases off.symm.trans on
      · exact pure
      · cases off.symm.trans on
  have on : g.mmu = true := by simpa using off
  by_cases direct : Iss.Direct plat .load mem.addr (g.hart i)
  · obtain ⟨p, ran⟩ := Iss.run_v2p_direct direct
    have reaches : g.Reaches plat i mem.addr p := .inr ⟨on, direct, by rw [ran]⟩
    rw [readsPurely_iff_of_reaches one short reaches]
    constructor
    · exact fun pure => .inr ⟨p, reaches, pure⟩
    · rintro (⟨-, unwalkable, -⟩ | ⟨q, ⟨off, -⟩ | ⟨-, -, translated⟩, pure⟩)
      · exact absurd direct unwalkable.1
      · cases off.symm.trans on
      · rw [ran] at translated
        cases translated
        exact pure
  by_cases unwalkable : Iss.Unwalkable plat .load mem.addr (g.hart i)
  · rw [readsPurely_iff_of_unwalkable one short on unwalkable]
    constructor
    · exact fun positive => .inl ⟨on, unwalkable, positive⟩
    · rintro (⟨-, -, positive⟩ | ⟨q, ⟨off, -⟩ | ⟨-, direct', -⟩, -⟩)
      · exact positive
      · cases off.symm.trans on
      · exact absurd direct' direct
  · refine ⟨fun pure => absurd pure (not_readsPurely_of_walk one short on direct unwalkable), ?_⟩
    rintro (⟨-, unwalkable', -⟩ | ⟨q, ⟨off, -⟩ | ⟨-, direct', -⟩, -⟩)
    · exact absurd unwalkable' unwalkable
    · cases off.symm.trans on
    · exact absurd direct' direct

end GdbServer

namespace Hifive

open GdbServer

/-- The stub of one hart, fresh, on the memories of `hifive`. -/
def stub {isa : Isa} (core : Iss isa Unit) : GdbServer isa Unit 0 where
  harts _ := ⟨core, .waiting⟩
  world := memories
  mmu := true
  threadOps _ := none
  singleRun := false
  prevpkt := none
  pktq := []
  mtx := false
  sent := []
  schedule := []

/-- The first word of the flash. -/
theorem readMemory_pure_flash :
    (stub core.alone).ReadsPurely (soc.platform devices []) soc 0 ⟨0x20000000, 4⟩ := by
  have bytes : ∀ k < 4, (stub core.alone).rangeByte (soc.platform devices []) soc 0 ⟨0x20000000, 4⟩ k =
      some 0 := by decide
  refine (readMemory_pure_iff (by decide)).mpr ⟨by decide, .inr ⟨0x20000000, .inr ⟨rfl, .inl ⟨rfl, rfl⟩, rfl⟩,
    .inr (.inr ⟨_, 0, ⟨rfl, by decide, by decide⟩, by decide, fun k inside _ => ?_⟩)⟩⟩
  exact (leads_iff ⟨rfl, by decide, by decide⟩ inside).mpr (bytes k inside)

/-- Supervisor mode, and a page table without an entry. -/
def unmapped : Iss .rv64 Unit :=
  { ((Iss.reset 0 false 0 0 () : Iss .rv64 Unit).setCsr .satp 0x8000000000020000) with prv := supervisorMode }

/-- An address that is not mapped: instead of an error reply there is an exception that nothing
catches. -/
theorem readMemory_not_pure :
    ¬ (stub unmapped).ReadsPurely (soc.platform devices []) soc 0 ⟨0x1000, 4⟩ := by
  have failed : ((readMemory (soc.platform devices []) soc ⟨0x1000, 4⟩).run (stub unmapped)).1 =
      .error (.trap ⟨.loadPageFault, 0x1000⟩) := by decide
  rintro ⟨t, reply, ran, -⟩
  rw [ran] at failed
  cases failed

end Hifive

end RiscvVp
