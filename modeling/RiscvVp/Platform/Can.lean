/-
# RiscvVp.Platform.Can -- the commands of the CAN controller

The controller gets its commands byte by byte.  `state` is the command that the bytes belong to, and the
member function of each command keeps in static variables how far it has come; they outlive the
command.  Indices are checked where the arrays are accessed: out of the array there is no next state.
-/
import Mathlib.Logic.Function.Basic
import RiscvVp.Platform.CanId

namespace RiscvVp.Can

set_option autoImplicit false

/-- `CAN::State`, as far as it is used. -/
inductive State where
  | init
  | readRegister
  | writeRegister
  | bitmod
  | loadTX0
  | loadTX1
  | loadTX2
  | sendTX0
  | sendTX1
  | sendTX2
  | sendALL
  | readRX0
  | readRX1
  | getStatus
deriving DecidableEq, Repr

inductive Fault where
  | outOfRange
deriving DecidableEq, Repr

/-- An index of an array of `n` elements. -/
def index (n i : Nat) : Except Fault (Fin n) := if inside : i < n then .ok ⟨i, inside⟩ else .error .outOfRange

/-- `CAN::MCPFrame`; the frame is also read as the array `raw` of its bytes. -/
structure MCPFrame where
  id : IdField
  length : BitVec 8
  payload : Fin 64 → BitVec 8

def MCPFrame.raw (f : MCPFrame) (i : Fin 69) : BitVec 8 :=
  if inId : i.val < 4 then f.id ⟨i.val, inId⟩
  else if i.val = 4 then f.length
  else f.payload ⟨i.val - 5, by omega⟩

/-- `struct can_frame`. -/
structure CanFrame where
  canId : BitVec 32
  canDlc : BitVec 8
  data : Fin 8 → BitVec 8

/-- `memcpy(target, source, length)` between the data of a frame and a payload. -/
def copyData {n m : Nat} (source : Fin n → BitVec 8) (target : Fin m → BitVec 8) (length : Nat) :
    Except Fault (Fin m → BitVec 8) :=
  if inside : length ≤ n ∧ length ≤ m then
    .ok fun i => if copied : i.val < length then source ⟨i.val, Nat.lt_of_lt_of_le copied inside.1⟩ else target i
  else .error .outOfRange

inductive ModRegState where
  | address
  | mask
  | data
deriving DecidableEq, Repr

/-- The static `command` of `modifyRegister`. -/
structure ModReg where
  state : ModRegState
  address : BitVec 8
  mask : BitVec 8
  data : BitVec 8
deriving DecidableEq, Repr

inductive LoadState where
  | id
  | length
  | payload
deriving DecidableEq, Repr

/-- The static `command` of `loadTxBuf`. -/
structure LoadTX where
  state : LoadState
  payloadPtr : BitVec 8
deriving DecidableEq, Repr

/-- `CAN` with the static variables of its member functions. -/
structure CAN where
  state : State
  registers : Fin 0x72 → BitVec 8
  txBuf : Fin 3 → MCPFrame
  rxBuf : Fin 2 → MCPFrame
  status : BitVec 8
  readSelected : BitVec 16
  writeSelected : BitVec 16
  modReg : ModReg
  loadTX : LoadTX
  rxPtr : BitVec 8

/-- `CAN::CAN`: registers and buffers have not been written yet. -/
def init (registers : Fin 0x72 → BitVec 8) (txBuf : Fin 3 → MCPFrame) (rxBuf : Fin 2 → MCPFrame) : CAN where
  state := .init
  registers := registers
  txBuf := txBuf
  rxBuf := rxBuf
  status := 0
  readSelected := -1
  writeSelected := -1
  modReg := ⟨.address, 0, 0, 0⟩
  loadTX := ⟨.id, 0⟩
  rxPtr := 0

/-- The byte that is read, and the frame that goes to the bus if there is one. -/
structure Answer where
  ret : BitVec 8
  sent : Option CanFrame

def MCP_READ : BitVec 8 := 0x03

/-- The state that a command byte leads to; `MCP_RX_STATUS` and unknown commands lead nowhere. -/
def commandState (byte : BitVec 8) : Option State :=
  match byte.toNat with
  | 0x02 => some .writeRegister
  | 0x03 => some .readRegister
  | 0x05 => some .bitmod
  | 0x40 => some .loadTX0
  | 0x42 => some .loadTX1
  | 0x44 => some .loadTX2
  | 0x81 => some .sendTX0
  | 0x82 => some .sendTX1
  | 0x84 => some .sendTX2
  | 0x87 => some .sendALL
  | 0x90 => some .readRX0
  | 0x94 => some .readRX1
  | 0xA0 => some .getStatus
  | 0xB0 => none
  | 0xC0 => some .init
  | _ => none

namespace CAN

/-- `CAN::command`. -/
def command (c : CAN) (byte : BitVec 8) : CAN :=
  match commandState byte with
  | some state => { c with state := state }
  | none => c

/-- `CAN::readRegister`. -/
def readRegister (c : CAN) (byte : BitVec 8) : Except Fault (Answer × CAN) :=
  if c.readSelected.toInt < 0 then .ok (⟨0, none⟩, { c with readSelected := byte.setWidth 16 })
  else if byte ≠ 0 then .ok (⟨0, none⟩, { c with readSelected := -1 }.command byte)
  else if 0x71 < c.readSelected.toInt then .ok (⟨0, none⟩, { c with readSelected := c.readSelected + 1 })
  else do
    let i ← index 0x72 c.readSelected.toNat
    .ok (⟨c.registers i, none⟩, { c with readSelected := c.readSelected + 1 })

/-- `CAN::writeRegister`. -/
def writeRegister (c : CAN) (byte : BitVec 8) : Except Fault (Answer × CAN) :=
  if c.writeSelected.toInt < 0 then .ok (⟨0, none⟩, { c with writeSelected := byte.setWidth 16 })
  else if 0x71 < c.writeSelected.toInt then .ok (⟨0, none⟩, c)
  else do
    let i ← index 0x72 c.writeSelected.toNat
    .ok (⟨0, none⟩,
      { c with registers := Function.update c.registers i byte, writeSelected := -1, state := .init })

/-- `CAN::modifyRegister`. -/
def modifyRegister (c : CAN) (byte : BitVec 8) : Except Fault (Answer × CAN) :=
  match c.modReg.state with
  | .address => .ok (⟨0, none⟩, { c with modReg := { c.modReg with address := byte, state := .mask } })
  | .mask => .ok (⟨0, none⟩, { c with modReg := { c.modReg with mask := byte, state := .data } })
  | .data => do
      let i ← index 0x72 c.modReg.address.toNat
      .ok (⟨0, none⟩,
        { c with
          modReg := { c.modReg with data := byte, state := .address }
          state := .init
          registers := Function.update c.registers i (c.registers i &&& ~~~c.modReg.mask ||| byte) })

/-- `CAN::loadTxBuf`. -/
def loadTxBuf (c : CAN) (no : Nat) (byte : BitVec 8) : Except Fault (Answer × CAN) := do
  let no ← index 3 no
  let buf := c.txBuf no
  let next := c.loadTX.payloadPtr + 1
  match c.loadTX.state with
  | .id =>
      let k ← index 4 c.loadTX.payloadPtr.toNat
      .ok (⟨0, none⟩,
        { c with
          txBuf := Function.update c.txBuf no { buf with id := Function.update buf.id k byte }
          loadTX := if next = 4 then ⟨.length, 0⟩ else ⟨.id, next⟩ })
  | .length =>
      .ok (⟨0, none⟩,
        { c with
          txBuf := Function.update c.txBuf no { buf with length := byte }
          loadTX := { c.loadTX with state := .payload } })
  | .payload =>
      let k ← index 64 c.loadTX.payloadPtr.toNat
      let c := { c with
        txBuf := Function.update c.txBuf no { buf with payload := Function.update buf.payload k byte }
        loadTX := { c.loadTX with payloadPtr := next } }
      .ok (⟨0, none⟩, if next = buf.length then { c with loadTX := ⟨.id, 0⟩, state := .init } else c)

/-- `CAN::sendTxBuf`; the byte is not looked at. -/
def sendTxBuf (c : CAN) (no : Nat) : Except Fault (Answer × CAN) := do
  let no ← index 3 (if no = 4 then 0 else no)
  let data ← copyData (c.txBuf no).payload (fun _ : Fin 8 => 0) (c.txBuf no).length.toNat
  .ok (⟨0, some ⟨(mcp2515BufToId (c.txBuf no).id).1, (c.txBuf no).length, data⟩⟩,
    { c with registers := Function.update c.registers 0x30 0, state := .readRegister })

/-- `CAN::readRxBuf`. -/
def readRxBuf (c : CAN) (no : Nat) : Except Fault (Answer × CAN) := do
  let buf ← index 2 no
  let i ← index 69 c.rxPtr.toNat
  let next := c.rxPtr + 1
  .ok (⟨(c.rxBuf buf).raw i, none⟩,
    if next.toNat > (c.rxBuf buf).length.toNat + 4 then
      { c with rxPtr := 0, state := .init, status := c.status &&& ~~~(1#8 <<< no) }
    else { c with rxPtr := next })

/-- `CAN::write`. -/
def write (c : CAN) (byte : BitVec 8) : Except Fault (Answer × CAN) :=
  match c.state with
  | .init => .ok (⟨0, none⟩, c.command byte)
  | .readRegister => c.readRegister byte
  | .writeRegister => c.writeRegister byte
  | .bitmod => c.modifyRegister byte
  | .loadTX0 => c.loadTxBuf 0 byte
  | .loadTX1 => c.loadTxBuf 1 byte
  | .loadTX2 => c.loadTxBuf 2 byte
  | .sendTX0 => c.sendTxBuf 0
  | .sendTX1 => c.sendTxBuf 1
  | .sendTX2 => c.sendTxBuf 2
  | .sendALL => c.sendTxBuf 3
  | .readRX0 => c.readRxBuf 0
  | .readRX1 => c.readRxBuf 1
  | .getStatus => .ok (⟨c.status, none⟩, { c with state := .init })

/-- The buffer behind an incoming frame. -/
def enqueue (c : CAN) (no : Nat) (frame : CanFrame) : Except Fault CAN := do
  let buf ← index 2 no
  let payload ← copyData frame.data (fun _ : Fin 64 => 0) frame.canDlc.toNat
  .ok { c with
    rxBuf := Function.update c.rxBuf buf ⟨mcp2515IdToBuf (frame.canId.setWidth 64) false, frame.canDlc, payload⟩
    status := c.status ||| 1#8 <<< no }

/-- `CAN::enqueueIncomingCanFrame`: the first buffer whose bit in the status is clear. -/
def enqueueIncomingCanFrame (c : CAN) (frame : CanFrame) : Except Fault CAN :=
  if c.status &&& 0b11 = 0b11 then .ok c
  else
    match (List.range 2).find? fun i => c.status &&& 1#8 <<< i = 0 with
    | some no => c.enqueue no frame
    | none => .ok c

end CAN

/-- What comes to the controller: a byte from the SPI master, or a frame from the bus. -/
inductive Input where
  | byte (byte : BitVec 8)
  | frame (frame : CanFrame)

def step (c : CAN) : Input → Except Fault (Answer × CAN)
  | .byte byte => c.write byte
  | .frame frame => (c.enqueueIncomingCanFrame frame).map (⟨0, none⟩, ·)

end RiscvVp.Can
