/-
# RiscvVp.Platform.DmaCopy -- the copy of the DMA controller

`_perform_memcpy` on the memories behind the bus, with the registers as they are when it starts and
nobody else at the memories.  Behind every block the destination is a copy of that much of the
source (`Copied`), and the transactions are those that a request asks for (`blocks`).
-/
import RiscvVp.Platform.Dma
import RiscvVp.Lib.Exec
import RiscvVp.Soc.Windows

namespace RiscvVp.Dma

set_option autoImplicit false

open Lib

/-- What ends the simulation: a failed assertion, or the exception of the connector. -/
inductive Stop where
  | assertion
  | runtimeError
deriving DecidableEq

/-- The platform, and the transactions so far. -/
structure Transfer (Dev : Type) where
  world : SocState Dev
  events : List Event

section Code

variable {Dev : Type} (soc : Soc Dev)

/-- `BusLock::wait_until_unlocked`: whoever has the lock gives it back. -/
def waitUntilUnlocked (w : SocState Dev) : SocState Dev := { w with lock := { w.lock with locked := false } }

def eventOf {n : Nat} (cmd : TlmCommand n) (addr : BitVec 64) : Event :=
  match cmd with
  | .read => .read addr n
  | .write _ => .write addr n

/-- `do_transaction`, through the `PeripheralWriteConnector`. -/
def doTransaction {n : Nat} (cmd : TlmCommand n) (addr : BitVec 64) :
    Exec (Transfer Dev) Stop (BitVec (8 * n)) := fun t =>
  match soc.transport cmd addr (waitUntilUnlocked t.world) with
  | (some buffer, w) => (.ok buffer, ⟨w, t.events ++ [eventOf cmd addr]⟩)
  | (none, w) => (.error (if w.aborted then .assertion else .runtimeError), ⟨w, t.events ++ [eventOf cmd addr]⟩)

/-- `_copy_block`; the buffer is what the read has put there. -/
def copyBlock (reg : Regs) (off : BitVec 32) (n : Nat) : Exec (Transfer Dev) Stop Unit := do
  let buffer ← doTransaction soc (.read : TlmCommand n) (address (reg .src) off)
  let _ ← doTransaction soc (.write buffer) (address (reg .dst) off)

/-- The loop of `_perform_memcpy` and the block behind it. -/
def copyFrom (reg : Regs) (off : BitVec 32) (n : Nat) : Exec (Transfer Dev) Stop Unit :=
  if 64 < n then do
    copyBlock soc reg off 64
    copyFrom reg (off + 64) (n - 64)
  else copyBlock soc reg off n
termination_by n

/-- `_perform_memcpy`. -/
def performMemcpy (reg : Regs) : Exec (Transfer Dev) Stop Unit := copyFrom soc reg 0 (reg .len).toNat

end Code

/-- The number of bytes of a transaction. -/
def Event.size : Event → Nat
  | .read _ n => n
  | .write _ n => n
  | .interrupt => 0

/-! ## Ranges of one memory -/

section Ranges

variable {Dev : Type} {soc : Soc Dev} {w v : SocState Dev} {base : BitVec 32} {len id k n : Nat}
  {port : PortMapping} {mem mem' : SimpleMemory}

/-- Where a range starts in its memory. -/
def startOf (port : PortMapping) (base : BitVec 32) : BitVec 64 := port.globalToLocal (base.setWidth 64)

/-- The range is mapped, also where it is empty, does not wrap, and lies inside of the memory at the
port `id`. -/
structure Inside (soc : Soc Dev) (w : SocState Dev) (base : BitVec 32) (len id : Nat) (port : PortMapping)
    (mem : SimpleMemory) : Prop where
  noWrap : base.toNat + len ≤ 2 ^ 32
  decodes : ∀ k, k < len ∨ k = 0 → soc.decode (address base (BitVec.ofNat 32 k)) = some id
  behind : soc.ports[id]? = some port
  memory : w.memory id = some mem
  first : (startOf port base).toNat < mem.size.toNat
  last : (startOf port base).toNat + len ≤ mem.size.toNat

theorem address_eq (noWrap : base.toNat + k < 2 ^ 32) :
    address base (BitVec.ofNat 32 k) = base.setWidth 64 + BitVec.ofNat 64 k := by
  apply BitVec.eq_of_toNat_eq
  unfold address
  simp only [BitVec.toNat_setWidth, BitVec.toNat_add, BitVec.toNat_ofNat]
  omega

namespace Inside

variable (inside : Inside soc w base len id port mem)

include inside

/-- The memory may have been written to. -/
theorem of_memory (own : v.memory id = some mem') (size : mem'.size = mem.size) :
    Inside soc v base len id port mem' where
  noWrap := inside.noWrap
  decodes := inside.decodes
  behind := inside.behind
  memory := own
  first := size ▸ inside.first
  last := size ▸ inside.last

theorem globalToLocal_eq (here : k < len ∨ k = 0) :
    port.globalToLocal (address base (BitVec.ofNat 32 k)) = startOf port base + BitVec.ofNat 64 k := by
  have small := base.isLt
  have noWrap := inside.noWrap
  rw [address_eq (by omega)]
  unfold startOf PortMapping.globalToLocal
  rw [sub_add_eq_add_sub]

/-- A block of the range is one that the memory accepts. -/
theorem transport_eq (here : k < len ∨ k = 0) (part : k + n ≤ len) (cmd : TlmCommand n) :
    soc.transport cmd (address base (BitVec.ofNat 32 k)) w =
      match cmd with
      | .read => (some (mem.data.read (startOf port base + BitVec.ofNat 64 k) n), w.setMemory id mem)
      | .write buffer => (some buffer, w.setMemory id
          { mem with data := mem.data.write (startOf port base + BitVec.ofNat 64 k) n buffer }) := by
  have first := inside.first
  have last := inside.last
  have size := mem.size.isLt
  have offset : (startOf port base + BitVec.ofNat 64 k).toNat = (startOf port base).toNat + k := by
    rw [BitVec.toNat_add, BitVec.toNat_ofNat]
    omega
  have cut : ((startOf port base + BitVec.ofNat 64 k).setWidth 32).toNat = (startOf port base).toNat + k := by
    rw [BitVec.toNat_setWidth, offset]
    omega
  have back : ((startOf port base + BitVec.ofNat 64 k).setWidth 32).setWidth 64 = startOf port base + BitVec.ofNat 64 k := by
    apply BitVec.eq_of_toNat_eq
    rw [BitVec.toNat_setWidth, cut, offset]
    omega
  have below : (startOf port base + BitVec.ofNat 64 k).setWidth 32 < mem.size := by
    rw [BitVec.lt_def, cut]
    omega
  have admits : mem.Admits ((startOf port base + BitVec.ofNat 64 k).setWidth 32) n := by
    unfold SimpleMemory.Admits
    rw [BitVec.le_def, BitVec.toNat_add, cut, BitVec.toNat_ofNat]
    omega
  unfold Soc.transport Soc.transportTo
  rw [inside.decodes k here]
  dsimp only
  rw [inside.behind]
  dsimp only
  rw [inside.memory, inside.globalToLocal_eq here]
  unfold SimpleMemory.transportDbg SimpleMemory.readData SimpleMemory.writeData
  dsimp only
  rw [if_pos below, back]
  cases cmd with
  | read => simp only [if_pos admits, Option.map_some]
  | write buffer => simp only [if_pos admits, Option.map_some]

end Inside

end Ranges

/-! ## The copy -/

/-- A copy from one memory of the bus to another, each with its port. -/
structure Route (Dev : Type) where
  soc : Soc Dev
  world : SocState Dev
  reg : Regs
  srcId : Nat
  srcPort : PortMapping
  srcMem : SimpleMemory
  dstId : Nat
  dstPort : PortMapping
  dstMem : SimpleMemory
  src : Inside soc world (reg .src) (reg .len).toNat srcId srcPort srcMem
  dst : Inside soc world (reg .dst) (reg .len).toNat dstId dstPort dstMem
  /-- The ranges do not overlap. -/
  apart : (reg .src).toNat + (reg .len).toNat ≤ (reg .dst).toNat ∨
    (reg .dst).toNat + (reg .len).toNat ≤ (reg .src).toNat

namespace Route

variable {Dev : Type} (r : Route Dev)

def len : Nat := (r.reg .len).toNat

def srcStart : BitVec 64 := startOf r.srcPort (r.reg .src)

def dstStart : BitVec 64 := startOf r.dstPort (r.reg .dst)

/-- The memory of the destination behind the copy of `k` bytes. -/
def copiedMem (k : Nat) : SimpleMemory :=
  { r.dstMem with data := r.dstMem.data.copy r.dstStart r.srcMem.data r.srcStart k }

/-- Behind the copy of `k` bytes. -/
structure Copied (k : Nat) (v : SocState Dev) : Prop where
  memory : v.memory = fun id => if id = r.dstId then some (r.copiedMem k) else r.world.memory id
  dev : v.dev = r.world.dev
  aborted : v.aborted = r.world.aborted

variable {r} {k n : Nat} {v : SocState Dev} {t : Transfer Dev}

theorem copiedMem_data (k : Nat) (a : BitVec 64) : (r.copiedMem k).data a =
    if (a - r.dstStart).toNat < k then r.srcMem.data (r.srcStart + (a - r.dstStart)) else r.dstMem.data a :=
  ByteMemory.copy_apply _ _ _

theorem copied_zero : r.Copied 0 r.world := by
  refine ⟨?_, rfl, rfl⟩
  funext id
  split
  case isTrue same =>
    rw [same, r.dst.memory, copiedMem, ByteMemory.copy_zero]
  case isFalse => rfl

namespace Copied

theorem memory_dst (copied : r.Copied k v) : v.memory r.dstId = some (r.copiedMem k) := by
  rw [copied.memory]
  exact if_pos rfl

theorem memory_of_ne (copied : r.Copied k v) {id : Nat} (other : id ≠ r.dstId) :
    v.memory id = r.world.memory id := by
  rw [copied.memory]
  exact if_neg other

end Copied

/-- Behind one more block; the lock makes no difference. -/
theorem Copied.next (copied : r.Copied k v) (short : k + n ≤ 2 ^ 64) : r.Copied (k + n)
    (v.setMemory r.dstId { r.copiedMem k with
      data := (r.copiedMem k).data.copy (r.dstStart + BitVec.ofNat 64 k) r.srcMem.data
        (r.srcStart + BitVec.ofNat 64 k) n }) := by
  refine ⟨?_, copied.dev, copied.aborted⟩
  funext id
  by_cases same : id = r.dstId
  · simp only [SocState.setMemory, same, if_true]
    rw [copiedMem, copiedMem, ByteMemory.copy_copy _ short]
  · simp only [SocState.setMemory, same, if_false]
    exact copied.memory_of_ne same

theorem Copied.inside_dst (copied : r.Copied k v) :
    Inside r.soc v (r.reg .dst) r.len r.dstId r.dstPort (r.copiedMem k) :=
  r.dst.of_memory copied.memory_dst rfl

/-- In one memory the source is not where the destination is. -/
theorem srcStart_apart (same : r.srcPort = r.dstPort) {i : Nat} (here : i < r.len) :
    r.len ≤ (r.srcStart + BitVec.ofNat 64 i - r.dstStart).toNat := by
  have src := r.src.noWrap
  have dst := r.dst.noWrap
  have apart := r.apart
  have difference : r.srcStart + BitVec.ofNat 64 i - r.dstStart =
      (r.reg .src).setWidth 64 + BitVec.ofNat 64 i - (r.reg .dst).setWidth 64 := by
    unfold srcStart dstStart startOf PortMapping.globalToLocal
    rw [same, sub_add_eq_add_sub, sub_sub_sub_cancel_right]
  unfold len at here ⊢
  rw [difference, BitVec.toNat_sub, BitVec.toNat_add, BitVec.toNat_ofNat, BitVec.toNat_setWidth,
    BitVec.toNat_setWidth]
  omega

/-- The source still has its bytes. -/
theorem Copied.inside_src (copied : r.Copied k v) (part : k ≤ r.len) : ∃ mem,
    Inside r.soc v (r.reg .src) r.len r.srcId r.srcPort mem ∧ ∀ i < r.len,
      mem.data (r.srcStart + BitVec.ofNat 64 i) = r.srcMem.data (r.srcStart + BitVec.ofNat 64 i) := by
  by_cases same : r.srcId = r.dstId
  case neg =>
    refine ⟨r.srcMem, r.src.of_memory ?_ rfl, fun _ _ => rfl⟩
    rw [copied.memory_of_ne same]
    exact r.src.memory
  case pos =>
    have one : r.srcMem = r.dstMem := by
      have first := r.src.memory
      rw [same] at first
      exact Option.some.inj (first.symm.trans r.dst.memory)
    have port : r.srcPort = r.dstPort := by
      have first := r.src.behind
      rw [same] at first
      exact Option.some.inj (first.symm.trans r.dst.behind)
    refine ⟨r.copiedMem k, r.src.of_memory ?_ (by rw [one]; rfl), fun i here => ?_⟩
    · rw [same]
      exact copied.memory_dst
    · have outside := srcStart_apart port here
      rw [copiedMem_data, if_neg (by omega), one]

theorem run_doTransaction {cmd : TlmCommand n} {addr : BitVec 64} {buffer : BitVec (8 * n)} {w : SocState Dev}
    (answered : r.soc.transport cmd addr (waitUntilUnlocked t.world) = (some buffer, w)) :
    (doTransaction r.soc cmd addr).run t = (.ok buffer, ⟨w, t.events ++ [eventOf cmd addr]⟩) := by
  unfold Exec.run doTransaction
  rw [answered]

theorem Copied.unlocked (copied : r.Copied k v) : r.Copied k (waitUntilUnlocked v) :=
  ⟨copied.memory, copied.dev, copied.aborted⟩

/-- One block, with the transactions that it makes. -/
theorem run_copyBlock (copied : r.Copied k t.world) (here : k < r.len ∨ k = 0) (part : k + n ≤ r.len) :
    ∃ u, (copyBlock r.soc r.reg (BitVec.ofNat 32 k) n).run t = (.ok (), u) ∧ r.Copied (k + n) u.world ∧
      u.events = t.events ++ [.read (address (r.reg .src) (BitVec.ofNat 32 k)) n,
        .write (address (r.reg .dst) (BitVec.ofNat 32 k)) n] := by
  have short : r.len < 2 ^ 32 := (r.reg .len).isLt
  obtain ⟨mem, src, bytes⟩ := copied.unlocked.inside_src (by omega)
  have fetched := src.transport_eq here part (.read : TlmCommand n)
  have kept : (waitUntilUnlocked t.world).setMemory r.srcId mem = waitUntilUnlocked t.world :=
    Soc.setMemory_self src.memory
  dsimp only at fetched
  rw [kept] at fetched
  have data : mem.data.read (startOf r.srcPort (r.reg .src) + BitVec.ofNat 64 k) n =
      r.srcMem.data.read (r.srcStart + BitVec.ofNat 64 k) n := by
    refine ByteMemory.read_congr fun i inside => ?_
    rw [add_assoc, add_assoc, ← BitVec.ofNat_add]
    exact bytes (k + i) (by omega)
  rw [data] at fetched
  have stored := copied.unlocked.unlocked.inside_dst.transport_eq here part
    (.write (r.srcMem.data.read (r.srcStart + BitVec.ofNat 64 k) n) : TlmCommand n)
  dsimp only at stored
  have first := run_doTransaction fetched
  have second := @run_doTransaction _ _ _
    ⟨waitUntilUnlocked t.world, t.events ++ [.read (address (r.reg .src) (BitVec.ofNat 32 k)) n]⟩ _ _ _ _ stored
  exact ⟨_, (Exec.run_bind_ok first).trans (Exec.run_bind_ok second), copied.unlocked.unlocked.next (by omega),
    List.append_assoc _ _ _⟩

/-- From the block at `k` on. -/
theorem run_copyFrom (copied : r.Copied k t.world) (here : k < r.len ∨ k = 0) (rest : k + n = r.len) :
    ∃ u, (copyFrom r.soc r.reg (BitVec.ofNat 32 k) n).run t = (.ok (), u) ∧ r.Copied r.len u.world ∧
      u.events = t.events ++ blocks r.reg (BitVec.ofNat 32 k) n := by
  induction n using Nat.strong_induction_on generalizing k t with
  | _ n ih =>
    rw [copyFrom, blocks]
    unfold blockSize
    by_cases more : 64 < n
    case neg =>
      obtain ⟨u, ran, done, events⟩ := run_copyBlock copied here (Nat.le_of_eq rest)
      rw [if_neg more, if_neg more, if_neg more]
      exact ⟨u, ran, rest ▸ done, events⟩
    case pos =>
      obtain ⟨u, ran, done, events⟩ := @run_copyBlock _ r k 64 t copied here (by omega)
      have next : BitVec.ofNat 32 k + 64 = BitVec.ofNat 32 (k + 64) := (BitVec.ofNat_add k 64).symm
      obtain ⟨u', ran', done', events'⟩ := @ih (n - 64) (by omega) (k + 64) u done (.inl (by omega)) (by omega)
      rw [if_pos more, if_pos more, if_pos more, Exec.run_bind_ok ran, next]
      refine ⟨u', ran', done', ?_⟩
      rw [events', events, List.append_assoc]
      rfl

end Route

theorem size_le_of_mem_blocks {reg : Regs} {off : BitVec 32} {n : Nat} {e : Event} (among : e ∈ blocks reg off n) :
    e.size ≤ 64 := by
  induction n using Nat.strong_induction_on generalizing off with
  | _ n ih =>
    have bound : blockSize n ≤ 64 := by
      unfold blockSize
      split <;> omega
    rw [blocks] at among
    rcases List.mem_cons.mp among with rfl | among
    · exact bound
    rcases List.mem_cons.mp among with rfl | among
    · exact bound
    split at among
    case isTrue more => exact ih (n - 64) (by omega) among
    case isFalse => cases among

/-! ## Byte by byte -/

/-- The memory behind an address of the bus, and the offset there. -/
def cell {Dev : Type} (soc : Soc Dev) (addr : BitVec 64) : Option (Nat × BitVec 64) :=
  (soc.decode addr).bind fun id => soc.ports[id]?.map fun port => (id, port.globalToLocal addr)

def cellByte {Dev : Type} (w : SocState Dev) (c : Nat × BitVec 64) : Option (BitVec 8) :=
  (w.memory c.1).map fun mem => mem.data c.2

def byteAt {Dev : Type} (soc : Soc Dev) (w : SocState Dev) (addr : BitVec 64) : Option (BitVec 8) :=
  (cell soc addr).bind (cellByte w)

theorem Inside.cell_eq {Dev : Type} {soc : Soc Dev} {w : SocState Dev} {base : BitVec 32} {len id k : Nat}
    {port : PortMapping} {mem : SimpleMemory} (inside : Inside soc w base len id port mem) (here : k < len) :
    cell soc (address base (BitVec.ofNat 32 k)) = some (id, startOf port base + BitVec.ofNat 64 k) := by
  unfold cell
  rw [inside.decodes k (.inl here), Option.bind_some, inside.behind, Option.map_some,
    inside.globalToLocal_eq (.inl here)]

namespace Route

variable {Dev : Type} {r : Route Dev} {v : SocState Dev}

theorem Copied.bytes (copied : r.Copied r.len v) {i : Nat} (here : i < r.len) :
    byteAt r.soc v (address (r.reg .dst) (BitVec.ofNat 32 i)) =
      byteAt r.soc r.world (address (r.reg .src) (BitVec.ofNat 32 i)) := by
  have short : r.len < 2 ^ 32 := (r.reg .len).isLt
  have offset : (BitVec.ofNat 64 i).toNat = i := by
    rw [BitVec.toNat_ofNat]
    omega
  unfold byteAt
  rw [r.dst.cell_eq here, r.src.cell_eq here, Option.bind_some, Option.bind_some]
  unfold cellByte
  rw [copied.memory_dst, r.src.memory]
  have moved := copiedMem_data (r := r) r.len (r.dstStart + BitVec.ofNat 64 i)
  rw [add_sub_cancel_left, offset, if_pos here] at moved
  exact congrArg some moved

theorem Copied.others (copied : r.Copied r.len v) {c : Nat × BitVec 64}
    (other : ∀ i < r.len, cell r.soc (address (r.reg .dst) (BitVec.ofNat 32 i)) ≠ some c) :
    cellByte v c = cellByte r.world c := by
  obtain ⟨id, a⟩ := c
  unfold cellByte
  dsimp only
  by_cases same : id = r.dstId
  case neg => rw [copied.memory_of_ne same]
  case pos =>
    subst same
    rw [copied.memory_dst, r.dst.memory]
    have outside : ¬ (a - r.dstStart).toNat < r.len := by
      intro near
      refine other _ near ?_
      rw [r.dst.cell_eq near]
      exact congrArg some (Prod.ext rfl (ByteMemory.add_offset _ _))
    have kept := copiedMem_data (r := r) r.len a
    rw [if_neg outside] at kept
    exact congrArg some kept

/-- The copy ends; the bytes of the source are those of the destination and every other byte is as it
was; and no transaction is larger than the buffer. -/
theorem performMemcpy_copies (r : Route Dev) : ∃ u, (performMemcpy r.soc r.reg).run ⟨r.world, []⟩ = (.ok (), u) ∧
    (∀ i < r.len, byteAt r.soc u.world (address (r.reg .dst) (BitVec.ofNat 32 i)) =
      byteAt r.soc r.world (address (r.reg .src) (BitVec.ofNat 32 i))) ∧
    (∀ c, (∀ i < r.len, cell r.soc (address (r.reg .dst) (BitVec.ofNat 32 i)) ≠ some c) →
      cellByte u.world c = cellByte r.world c) ∧
    u.world.dev = r.world.dev ∧ u.world.aborted = r.world.aborted ∧
    u.events = blocks r.reg 0 r.len ∧ ∀ e ∈ u.events, e.size ≤ 64 := by
  obtain ⟨u, ran, copied, events⟩ :=
    @run_copyFrom _ r 0 r.len ⟨r.world, []⟩ copied_zero (.inr rfl) (Nat.zero_add _)
  have made : u.events = blocks r.reg 0 r.len := events
  refine ⟨u, ran, fun i => copied.bytes, fun c => copied.others, copied.dev, copied.aborted, made, fun e among => ?_⟩
  rw [made] at among
  exact size_le_of_mem_blocks among

end Route

/-! ## In the memory of the basic platform -/

namespace Basic

def soc : Soc Unit where
  ports := [⟨0, 0x01ffffff, by decide⟩]
  peripheral _ _ _ _ dev := (none, dev)
  pointer _ := 0

def memory : SimpleMemory := ⟨fun a => a.setWidth 8, 0x02000000⟩

def world : SocState Unit where
  memory id := if id = 0 then some memory else none
  dev := ()
  lock := ⟨true, 0⟩
  aborted := false

theorem inside {base : BitVec 32} {len : Nat} (below : base.toNat < 0x02000000)
    (last : base.toNat + len ≤ 0x02000000) : Inside soc world base len 0 ⟨0, 0x01ffffff, by decide⟩ memory where
  noWrap := by omega
  decodes k here := by
    have contained : (⟨0, 0x01ffffff, by decide⟩ : PortMapping).contains (address base (BitVec.ofNat 32 k)) = true := by
      simp only [PortMapping.contains, Bool.and_eq_true, decide_eq_true_iff, BitVec.le_def]
      rw [address_eq (by omega), BitVec.toNat_add, BitVec.toNat_ofNat, BitVec.toNat_setWidth]
      refine ⟨Nat.zero_le _, ?_⟩
      change _ ≤ 0x01ffffff
      omega
    unfold Soc.decode soc
    rw [List.findIdx?_cons, if_pos contained]
  behind := rfl
  memory := rfl
  first := by
    change (base.setWidth 64 - 0).toNat < 0x02000000
    rw [sub_zero, BitVec.toNat_setWidth]
    omega
  last := by
    change (base.setWidth 64 - 0).toNat + len ≤ 0x02000000
    rw [sub_zero, BitVec.toNat_setWidth]
    omega

/-- 100 bytes, in two blocks. -/
def route : Route Unit where
  soc := soc
  world := world
  reg
    | .src => 0x1000
    | .dst => 0x2000
    | .len => 100
    | .op => 1
  srcId := 0
  srcPort := ⟨0, 0x01ffffff, by decide⟩
  srcMem := memory
  dstId := 0
  dstPort := ⟨0, 0x01ffffff, by decide⟩
  dstMem := memory
  src := inside (by decide) (by decide)
  dst := inside (by decide) (by decide)
  apart := .inl (by decide)

/-- The last byte of the second block. -/
theorem route_copies : ∃ u, (performMemcpy soc route.reg).run ⟨world, []⟩ = (.ok (), u) ∧
    byteAt soc u.world 0x2063 = some 0x63 := by
  obtain ⟨u, ran, bytes, -⟩ := Route.performMemcpy_copies route
  exact ⟨u, ran, bytes 99 (by decide)⟩

end Basic

end RiscvVp.Dma
