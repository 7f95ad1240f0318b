/-
# RiscvVp.Platform.Flash -- the flash controller and its block buffer

`Blockbuffer` keeps one block of the device file with its number and two flags; `Flashcontroller`
has a register for the number of the block and lets the guest at its bytes.  Seeking, reading and
writing the file are the host's: what each call comes to is an input.  A byte of the buffer carries
the block it belongs to, which nothing looks at.  A `memcpy` beyond the buffer or the register has no
meaning here.
-/
import RiscvVp.Lib.BitField
import RiscvVp.Util.MemoryMap

namespace RiscvVp.Flash

set_option autoImplicit false

open Lib

/-- A byte, and the block that it was read from or that the guest has written it to. -/
structure Tagged where
  value : BitVec 8
  block : Option Nat
deriving DecidableEq

/-- What comes of `lseek64` and of the `read` or `write` behind it: `count` is how many bytes get
through, and fewer than a block is reported as a failure. -/
structure HostCall where
  seek : Bool
  count : Nat

structure Blockbuffer where
  buf : Nat → Tagged
  offs : BitVec 64
  dirty : Bool
  active : Bool

structure Flashcontroller where
  blockBuf : Blockbuffer
  /-- `mTargetBlock`. -/
  targetBlock : BitVec 64
  /-- `mDeviceNumBlocks`. -/
  deviceNumBlocks : BitVec 64
  /-- `mFiledescriptor >= 0`. -/
  opened : Bool
  /-- The bytes of the file. -/
  file : Nat → BitVec 8

/-- What the guest gets from the buffer for a block, what is put into a block of the file, and what the
guest gets from a register. -/
inductive Event where
  | returned (block : Nat) (bytes : List Tagged)
  | committed (block : Nat) (bytes : List Tagged)
  | register (bytes : List (BitVec 8))

/-- An assertion, or a `memcpy` out of bounds. -/
inductive Fault where
  | assertion
  | undefined
deriving DecidableEq

/-- `blockOffset * width`. -/
def byteOffset (block : BitVec 64) : BitVec 64 := block * 512

/-- A seek to a negative offset fails. -/
def HostCall.seeks (call : HostCall) (offset : BitVec 64) : Bool := call.seek && !offset.msb

/-- How many bytes the host moves. -/
def HostCall.moved (call : HostCall) (offset : BitVec 64) : Nat := if call.seeks offset then min call.count 512 else 0

namespace Flashcontroller

variable (f : Flashcontroller)

/-- `Blockbuffer::writeBlock`. -/
def writeBlock (call : HostCall) (blockOffset : BitVec 64) : List Event × Flashcontroller :=
  let offset := byteOffset blockOffset
  let n := call.moved offset
  ([.committed (offset.toNat / 512) ((List.range n).map f.blockBuf.buf)], { f with
    file := fun p => if offset.toNat ≤ p ∧ p < offset.toNat + n then (f.blockBuf.buf (p - offset.toNat)).value
      else f.file p
    blockBuf := { f.blockBuf with dirty := f.blockBuf.dirty && n ≠ 512 } })

/-- `Blockbuffer::readBlock`. -/
def readBlock (call : HostCall) (blockOffset : BitVec 64) : Flashcontroller :=
  let offset := byteOffset blockOffset
  let n := call.moved offset
  { f with blockBuf := { f.blockBuf with
    buf := fun i => if i < n then ⟨f.file (offset.toNat + i), some (offset.toNat / 512)⟩ else f.blockBuf.buf i
    dirty := f.blockBuf.dirty && n ≠ 512 } }

/-- `Blockbuffer::setPos`. -/
def setPos (commit load : HostCall) (blockOffset : BitVec 64) : List Event × Flashcontroller :=
  if blockOffset ≠ f.blockBuf.offs ∨ f.blockBuf.active = false then
    let (events, g) :=
      if f.blockBuf.dirty = true ∧ f.blockBuf.active = true then f.writeBlock commit f.blockBuf.offs else ([], f)
    let h := readBlock { g with blockBuf := { g.blockBuf with offs := blockOffset } } load blockOffset
    (events, { h with blockBuf := { h.blockBuf with active := true } })
  else ([], f)

/-- `Blockbuffer::setData`; the length is cut to 16 bits. -/
def setData {n : Nat} (source : BitVec (8 * n)) (pos : Nat) : Except Fault Flashcontroller :=
  if f.blockBuf.active = false then .error .assertion
  else if pos + n % 2 ^ 16 ≤ 512 then
    .ok { f with blockBuf := { f.blockBuf with
      buf := fun i => if pos ≤ i ∧ i < pos + n % 2 ^ 16 then
        ⟨source.extractLsb' (8 * (i - pos)) 8, some f.targetBlock.toNat⟩ else f.blockBuf.buf i
      dirty := true } }
  else .error .undefined

/-- `Blockbuffer::getData`. -/
def getData (pos n : Nat) : Except Fault (List Tagged) :=
  if f.blockBuf.active = false then .error .assertion
  else if pos + n % 2 ^ 16 ≤ 512 then .ok ((List.range (n % 2 ^ 16)).map fun i => f.blockBuf.buf (pos + i))
  else .error .undefined

/-- `Blockbuffer::clear`, in the destructor. -/
def clear (commit : HostCall) : List Event × Flashcontroller :=
  let (events, g) :=
    if f.blockBuf.active = true ∧ f.blockBuf.dirty = true then f.writeBlock commit f.blockBuf.offs else ([], f)
  (events, { g with blockBuf := { g.blockBuf with active := false } })

/-- The bytes of a register from the `k`-th on. -/
def registerBytes (register : BitVec 64) (k n : Nat) : List (BitVec 8) :=
  (List.range n).map fun i => register.extractLsb' (8 * (k + i)) 8

/-- `Flashcontroller::transport`. -/
def transport {n : Nat} (cmd : TlmCommand n) (address : BitVec 64) (commit load : HostCall) :
    Except Fault (List Event × Flashcontroller) :=
  let addr := (address.setWidth 32).toNat
  if addr < 528 ∧ f.opened = true then
    if addr < 8 then
      if addr + n ≤ 8 then
        match cmd with
        | .write buffer =>
            .ok ([], { f with targetBlock := (⟨8 * addr⟩ : Lib.Field (8 * n)).set buffer f.targetBlock })
        | .read => .ok ([.register (registerBytes f.targetBlock addr n)], f)
      else .error .undefined
    else if addr < 16 then
      match cmd with
      | .write _ => .error .assertion
      | .read =>
          if addr - 8 + n ≤ 8 then .ok ([.register (registerBytes f.deviceNumBlocks (addr - 8) n)], f)
          else .error .undefined
    else if f.targetBlock < f.deviceNumBlocks then
      let (events, g) := f.setPos commit load f.targetBlock
      match cmd with
      | .write buffer => (g.setData buffer (addr - 16)).map (events, ·)
      | .read => (g.getData (addr - 16) n).map fun bytes => (events ++ [.returned f.targetBlock.toNat bytes], g)
    else .error .assertion
  else .error .assertion

end Flashcontroller

/-- The controller with a device of which `deviceNumBlocks` blocks may be selected; nothing has been
put into the buffer. -/
def init (deviceNumBlocks : BitVec 64) (buf : Nat → BitVec 8) (file : Nat → BitVec 8) : Flashcontroller where
  blockBuf := ⟨fun i => ⟨buf i, none⟩, 0, false, false⟩
  targetBlock := 0
  deviceNumBlocks := deviceNumBlocks
  opened := true
  file := file

end RiscvVp.Flash
