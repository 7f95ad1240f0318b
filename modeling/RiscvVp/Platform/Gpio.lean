/-
# RiscvVp.Platform.Gpio -- the GPIO controller

The register bank of the controller with its callback, the pins as the server has them (changed by
its own thread at any time), and the loop that compares the two and triggers interrupts.  The
pending registers are inverted: a one says that the edge may fire.
-/
import RiscvVp.Util.RegisterMapping

namespace RiscvVp.Gpio

set_option autoImplicit false

open Lib RegisterMapping

/-- The registers in the order of the bank. -/
inductive Reg where
  | value
  | inputEn
  | outputEn
  | port
  | pullupEn
  | pinDriveStrength
  | riseIntrEn
  | riseIntrPending
  | fallIntrEn
  | fallIntrPending
  | highIntrEn
  | highIntrPending
  | lowIntrEn
  | lowIntrPending
  | iofEn
  | iofSel
  | outXor
deriving DecidableEq

namespace Reg

def addr : Reg → BitVec 64
  | value => 0x000
  | inputEn => 0x004
  | outputEn => 0x008
  | port => 0x00C
  | pullupEn => 0x010
  | pinDriveStrength => 0x014
  | riseIntrEn => 0x018
  | riseIntrPending => 0x01C
  | fallIntrEn => 0x020
  | fallIntrPending => 0x024
  | highIntrEn => 0x028
  | highIntrPending => 0x02C
  | lowIntrEn => 0x030
  | lowIntrPending => 0x034
  | iofEn => 0x038
  | iofSel => 0x03C
  | outXor => 0x040

def reset : Reg → BitVec 32
  | riseIntrPending => 0xffffffff
  | fallIntrPending => 0xffffffff
  | highIntrPending => 0xffffffff
  | lowIntrPending => 0xffffffff
  | _ => 0

end Reg

def mapping (r : Reg) : RegMapping Reg := { addr := r.addr, vptr := r }

def bank : List (RegMapping Reg) :=
  [.value, .inputEn, .outputEn, .port, .pullupEn, .pinDriveStrength, .riseIntrEn, .riseIntrPending, .fallIntrEn,
    .fallIntrPending, .highIntrEn, .highIntrPending, .lowIntrEn, .lowIntrPending, .iofEn, .iofSel, .outXor].map mapping

/-- `GpioServer`: a level for each pin. -/
structure Server where
  state : BitVec 64

abbrev GpioState := State Reg Server

def init : GpioState := ⟨Reg.reset, ⟨0⟩, fun _ => 0⟩

/-- `GPIO::register_access_callback`. -/
def registerAccessCallback (r : RegisterAccess Reg Server) : BankM Reg Server Unit :=
  if r.write = true ∧ r.vptr = .value then return ()
  else do
    let regBak ← Exec.read fun s => if r.write = true ∧ r.vptr = .pullupEn then s.reg .pullupEn else 0
    r.fn
    Exec.when (r.write = true) do
      if r.vptr = .port then
        -- `~output_en` is 32 bits wide: the pins above are cleared
        Exec.update fun s => { s.set .value ((s.reg .value &&& ~~~s.reg .outputEn) ||| (s.reg .port &&& s.reg .outputEn))
          with device := ⟨(s.device.state &&& (~~~s.reg .outputEn).setWidth 64) |||
            (s.reg .port &&& s.reg .outputEn).setWidth 64⟩ }
      else if r.vptr = .pullupEn then
        Exec.update fun s => { s.set .value (s.reg .value ||| (regBak ^^^ s.reg .pullupEn))
          with device := ⟨s.device.state ||| (regBak ^^^ s.reg .pullupEn).setWidth 64⟩ }

/-- `GPIO::transport`, with the bytes of the transaction and what is behind them. -/
def transport (trans : Payload) (data : ByteMemory) (s : GpioState) : Except Fault GpioState :=
  match (RegisterMapping.transport bank registerAccessCallback trans).run { s with data := data } with
  | (.ok _, t) => .ok t
  | (.error e, _) => .error e

/-- `GPIO::asyncOnchange`, in the thread of the server; a third value is ignored. -/
def asyncOnchange (bit : Fin 64) (val : BitVec 8) (s : GpioState) : GpioState :=
  if ((s.device.state &&& (1#64 <<< bit.val)) >>> bit.val).toNat = val.toNat then s
  else if val = 0 then { s with device := ⟨s.device.state &&& ~~~(1#64 <<< bit.val)⟩ }
  else if val = 1 then { s with device := ⟨s.device.state ||| 1#64 <<< bit.val⟩ }
  else s

/-! ## `GPIO::synchronousChange` -/

inductive Edge where
  | rise
  | fall
deriving DecidableEq

namespace Edge

def enable : Edge → Reg
  | rise => .riseIntrEn
  | fall => .fallIntrEn

def pending : Edge → Reg
  | rise => .riseIntrPending
  | fall => .fallIntrPending

end Edge

/-- A call of `gateway_trigger_interrupt`, and what it was made for. -/
structure Trigger where
  edge : Edge
  pin : Nat
  irq : BitVec 32
deriving DecidableEq

/-- What the change of a pin comes to: nothing, where the edge is pending already. -/
def fire (base : BitVec 32) (edge : Edge) (i : Nat) (s : GpioState × List Trigger) : GpioState × List Trigger :=
  if (s.1.reg edge.enable).getLsbD i then
    if (~~~s.1.reg edge.pending).getLsbD i then s
    else (s.1.set edge.pending (s.1.reg edge.pending &&& ~~~(1#32 <<< i)),
      s.2 ++ [⟨edge, i, base + BitVec.ofNat 32 i⟩])
  else s

/-- The body of the loop. -/
def changePin (base : BitVec 32) (snapshot : BitVec 64) (diff : BitVec 32) (s : GpioState × List Trigger) (i : Nat) :
    GpioState × List Trigger :=
  if diff.getLsbD i then
    if snapshot.getLsbD i then fire base .rise i s else fire base .fall i s
  else s

def changePins (base : BitVec 32) (snapshot : BitVec 64) (diff : BitVec 32) (s : GpioState) : GpioState × List Trigger :=
  (List.range 32).foldl (changePin base snapshot diff) (s, [])

/-- `(serverSnapshot ^ value) & input_en`. -/
def difference (s : GpioState) : BitVec 32 := (s.device.state.setWidth 32 ^^^ s.reg .value) &&& s.reg .inputEn

/-- `(serverSnapshot & input_en) | (port & output_en)`. -/
def newValue (snapshot : BitVec 64) (s : GpioState) : BitVec 32 :=
  (snapshot.setWidth 32 &&& s.reg .inputEn) ||| (s.reg .port &&& s.reg .outputEn)

/-- The thread of the server may change its state at any time: `reads` are what the comparison at the
end of a call finds, and what the call that follows it then finds. -/
def synchronousChange (base : BitVec 32) (reads : List (BitVec 64 × BitVec 64)) (s : GpioState) :
    GpioState × List Trigger :=
  let diff := difference s
  if diff = 0 then (s, [])
  else
    let (t, triggers) := changePins base s.device.state diff s
    let t := t.set .value (newValue s.device.state t)
    match reads with
    | [] => (t, triggers)
    | (check, again) :: reads =>
        if s.device.state = check then (t, triggers)
        else
          let (u, more) := synchronousChange base reads { t with device := ⟨again⟩ }
          (u, triggers ++ more)

end RiscvVp.Gpio
