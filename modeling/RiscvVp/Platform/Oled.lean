/-
# RiscvVp.Platform.Oled -- commands and data of the SS1106 display

A pin says whether a byte is a command or data.  Commands are found in a table by opcode and mask, and
set the place of the next data byte in the frame, the column in two halves; a data byte goes to its
place and the column moves on.  The checks in front of it let the column and the page pass that are one
behind the last.
-/
import Mathlib.Data.BitVec

namespace RiscvVp.Oled

set_option autoImplicit false

/-- `ss1106::Operator`. -/
inductive Operator where
  | colLow
  | colHigh
  | pumpVoltage
  | displayStartLine
  | contrastModeSet
  | segmentRemap
  | entireDisplay
  | normalInverse
  | multiplexRatio
  | dcDcVoltage
  | displayOn
  | pageAddr
  | commonOutputDir
  | displayOffset
  | displayDivideRatio
  | disPreChargePeriod
  | commonPadsStuff
  | vcomDeselect
  | rmw
  | rmwEnd
  | nop
deriving DecidableEq, Repr

namespace Operator

/-- In the order of the enumeration. -/
def all : List Operator :=
  [colLow, colHigh, pumpVoltage, displayStartLine, contrastModeSet, segmentRemap, entireDisplay, normalInverse,
    multiplexRatio, dcDcVoltage, displayOn, pageAddr, commonOutputDir, displayOffset, displayDivideRatio,
    disPreChargePeriod, commonPadsStuff, vcomDeselect, rmw, rmwEnd, nop]

/-- `SS1106::opcode`. -/
def opcode : Operator → BitVec 8
  | colLow => 0x00
  | colHigh => 0x10
  | pumpVoltage => 0b00110000
  | displayStartLine => 0b01000000
  | contrastModeSet => 0b10000001
  | segmentRemap => 0xA0
  | entireDisplay => 0xA4
  | normalInverse => 0xA6
  | multiplexRatio => 0b10101000
  | dcDcVoltage => 0x8B
  | displayOn => 0xAE
  | pageAddr => 0xB0
  | commonOutputDir => 0xC0
  | displayOffset => 0b11010011
  | displayDivideRatio => 0b11010101
  | disPreChargePeriod => 0b11011001
  | commonPadsStuff => 0b11011010
  | vcomDeselect => 0b11011011
  | rmw => 0b11100000
  | rmwEnd => 0b11101110
  | nop => 0b11100011

/-- `SS1106::mask`. -/
def mask : Operator → BitVec 8
  | displayStartLine => 0b11000000
  | colLow | colHigh | pageAddr | commonOutputDir => 0b11110000
  | pumpVoltage => 0b11111100
  | segmentRemap | entireDisplay | normalInverse | displayOn => 0b11111110
  | contrastModeSet | multiplexRatio | dcDcVoltage | displayOffset | displayDivideRatio | disPreChargePeriod
  | commonPadsStuff | vcomDeselect | rmw | rmwEnd | nop => 0b11111111

/-- The byte is a command of the operator. -/
def Matches (cmd : BitVec 8) (op : Operator) : Prop := (cmd ^^^ op.opcode) &&& op.mask = 0

instance {cmd : BitVec 8} : DecidablePred (Matches cmd) := fun op =>
  inferInstanceAs (Decidable ((cmd ^^^ op.opcode) &&& op.mask = 0))

end Operator

/-- `SS1106::Command`. -/
structure Command where
  op : Operator
  payload : BitVec 8
deriving DecidableEq, Repr

/-- `SS1106::match`. -/
def matchCommand (cmd : BitVec 8) : Command :=
  match Operator.all.find? (Operator.Matches cmd ·) with
  | some op => ⟨op, cmd &&& ~~~op.mask⟩
  | none => ⟨.nop, 0⟩

def width : Nat := 132

def height : Nat := 64

inductive Mode where
  | normal
  | secondArg
deriving DecidableEq, Repr

/-- `SS1106` with the fields of `ss1106::State` that it uses.  The frame is an array of rows at the end
of the shared state: a byte behind a row is the next row's, or behind the state. -/
structure SS1106 where
  mode : Mode
  lastCmd : Command
  changed : Bool
  column : BitVec 8
  page : BitVec 8
  pumpVoltage : BitVec 2
  contrast : BitVec 8
  invertColor : BitVec 1
  displayOn : BitVec 1
  frame : Nat → BitVec 8

/-- The shared state is cleared, up to its end. -/
def init (frame : Nat → BitVec 8) : SS1106 where
  mode := .normal
  lastCmd := ⟨.nop, 0⟩
  changed := false
  column := 0
  page := 0
  pumpVoltage := 0
  contrast := 0
  invertColor := 0
  displayOn := 0
  frame := fun i => if i < height / 8 * width then 0 else frame i

/-- A write `state->frame[page][column]`. -/
structure Place where
  page : BitVec 8
  column : BitVec 8
deriving DecidableEq, Repr

/-- Within the dimensions of the array. -/
def Place.Inside (p : Place) : Prop := p.page.toNat < height / 8 ∧ p.column.toNat < width

instance : DecidablePred Place.Inside := fun _ => inferInstanceAs (Decidable (_ ∧ _))

/-- What the SPI host reads, and the write to the frame if there was one. -/
structure Answer where
  ret : BitVec 8
  stored : Option Place
deriving DecidableEq, Repr

namespace SS1106

/-- A byte of data. -/
def data (d : SS1106) (byte : BitVec 8) : Answer × SS1106 :=
  if d.column.toNat > width then (⟨-1, none⟩, d)
  else if d.page.toNat > height / 8 then (⟨-1, none⟩, d)
  else
    (⟨0, some ⟨d.page, d.column⟩⟩,
      { d with
        frame := Function.update d.frame (d.page.toNat * width + d.column.toNat) byte
        changed := true
        column := d.column + 1 })

/-- A command in `Mode::normal`; `cmd` is what `match` has found. -/
def normal (d : SS1106) (cmd : Command) : SS1106 :=
  let d := { d with lastCmd := cmd }
  match cmd.op with
  | .colLow => { d with column := (d.column &&& 0xf0) ||| cmd.payload }
  | .colHigh => { d with column := (d.column &&& 0x0f) ||| (cmd.payload <<< 4) }
  | .pumpVoltage => { d with pumpVoltage := cmd.payload.setWidth 2 }
  | .contrastModeSet => { d with mode := .secondArg }
  | .normalInverse => { d with invertColor := cmd.payload.setWidth 1 }
  | .displayOn => { d with displayOn := cmd.payload.setWidth 1 }
  | .pageAddr => { d with page := cmd.payload }
  | _ => d

/-- The argument of a double command. -/
def secondArg (d : SS1106) (byte : BitVec 8) : SS1106 :=
  match d.lastCmd.op with
  | .contrastModeSet => { d with contrast := byte, changed := true, mode := .normal }
  | _ => { d with mode := .normal }

/-- `SS1106::write` with the level of the data/command pin. -/
def write (d : SS1106) (dc : Bool) (byte : BitVec 8) : Answer × SS1106 :=
  if dc then d.data byte
  else
    match d.mode with
    | .normal => (⟨0, none⟩, d.normal (matchCommand byte))
    | .secondArg => (⟨0, none⟩, d.secondArg byte)

end SS1106

/-- A byte with the level of the pin. -/
structure Input where
  dc : Bool
  byte : BitVec 8
deriving DecidableEq, Repr

/-- The writes to the frame that a stream of bytes leads to, in their order. -/
def stores (d : SS1106) : List Input → List Place
  | [] => []
  | a :: rest => (d.write a.dc a.byte).1.stored.toList ++ stores (d.write a.dc a.byte).2 rest

/-- The display behind a stream of bytes. -/
def behind (d : SS1106) : List Input → SS1106
  | [] => d
  | a :: rest => behind (d.write a.dc a.byte).2 rest

variable {d : SS1106} {byte cmd : BitVec 8} {dc : Bool} {op op' : Operator} {a : Input}

/-! ## The table of commands -/

theorem Operator.mem_all (op : Operator) : op ∈ all := by cases op <;> decide

/-- No byte is a command of two operators: where both masks have a bit, some bit tells the opcodes apart. -/
theorem Operator.apart (other : op ≠ op') : (op.opcode ^^^ op'.opcode) &&& (op.mask &&& op'.mask) ≠ 0 := by
  cases op <;> cases op' <;> first | exact absurd rfl other | decide

theorem Operator.Matches.bit (found : Matches cmd op) (i : Nat) :
    (cmd.getLsbD i ^^ op.opcode.getLsbD i) = false ∨ op.mask.getLsbD i = false := by
  have bit : ((cmd ^^^ op.opcode) &&& op.mask).getLsbD i = false := by
    rw [found]
    exact BitVec.getLsbD_zero
  rw [BitVec.getLsbD_and, BitVec.getLsbD_xor] at bit
  exact Bool.and_eq_false_iff.mp bit

theorem Operator.Matches.unique (first : Matches cmd op) (second : Matches cmd op') : op = op' := by
  by_contra other
  refine apart other (BitVec.eq_of_getLsbD_eq fun i _ => Eq.trans ?_ BitVec.getLsbD_zero.symm)
  rw [BitVec.getLsbD_and, BitVec.getLsbD_xor, BitVec.getLsbD_and]
  rcases first.bit i with same | hidden
  · rcases second.bit i with same' | hidden
    · have equal := (bne_eq_false_iff_eq.mp same).symm.trans (bne_eq_false_iff_eq.mp same')
      rw [equal, Bool.xor_self, Bool.false_and]
    · rw [hidden, Bool.and_false, Bool.and_false]
  · rw [hidden, Bool.false_and, Bool.and_false]

/-- The order of the table does not matter. -/
theorem matchCommand_of_matches (found : op.Matches cmd) : matchCommand cmd = ⟨op, cmd &&& ~~~op.mask⟩ := by
  unfold matchCommand
  cases search : Operator.all.find? (Operator.Matches cmd ·) with
  | none =>
    have missing := List.find?_eq_none.mp search op op.mem_all
    exact absurd (decide_eq_true found) missing
  | some op' =>
    have hit : decide (Operator.Matches cmd op') = true :=
      @List.find?_some _ (fun op => decide (Operator.Matches cmd op)) _ _ search
    rw [found.unique (of_decide_eq_true hit)]

/-! ## The place of a data byte -/

/-- The checks let the byte through, to a column or a page behind the last one. -/
def Outside (d : SS1106) (a : Input) : Prop :=
  a.dc = true ∧ (d.column.toNat = width ∧ d.page.toNat ≤ height / 8 ∨
    d.page.toNat = height / 8 ∧ d.column.toNat ≤ width)

/-- No byte of the stream is let through to such a place. -/
def Avoids (d : SS1106) : List Input → Prop
  | [] => True
  | a :: rest => ¬ Outside d a ∧ Avoids (d.write a.dc a.byte).2 rest

theorem write_data : d.write true byte = d.data byte := if_pos rfl

theorem stored_command : (d.write false byte).1.stored = none := by
  unfold SS1106.write
  rw [if_neg Bool.false_ne_true]
  cases d.mode with
  | normal => rfl
  | secondArg => rfl

/-- The checks of a data byte let it through. -/
def Passes (d : SS1106) : Prop := d.column.toNat ≤ width ∧ d.page.toNat ≤ height / 8

instance : Decidable (Passes d) := inferInstanceAs (Decidable (_ ∧ _))

theorem data_eq : d.data byte =
    if Passes d then
      (⟨0, some ⟨d.page, d.column⟩⟩,
        { d with
          frame := Function.update d.frame (d.page.toNat * width + d.column.toNat) byte
          changed := true
          column := d.column + 1 })
    else (⟨-1, none⟩, d) := by
  unfold SS1106.data
  by_cases wide : d.column.toNat > width
  · rw [if_pos wide, if_neg fun both => Nat.not_le_of_gt wide both.1]
  · rw [if_neg wide]
    by_cases high : d.page.toNat > height / 8
    · rw [if_pos high, if_neg fun both => Nat.not_le_of_gt high both.2]
    · rw [if_neg high, if_pos ⟨Nat.le_of_not_gt wide, Nat.le_of_not_gt high⟩]

theorem stored_data : (d.data byte).1.stored = if Passes d then some ⟨d.page, d.column⟩ else none := by
  rw [data_eq]
  split <;> rfl

theorem page_data : (d.data byte).2.page = d.page := by
  rw [data_eq]
  split <;> rfl

/-- The column moves on with a byte that is stored, and its counter never wraps around. -/
theorem column_data :
    (d.data byte).2.column.toNat = if Passes d then d.column.toNat + 1 else d.column.toNat := by
  rw [data_eq]
  by_cases passes : Passes d
  · have small : d.column.toNat ≤ 132 := passes.1
    have one : (1 : BitVec 8).toNat = 1 := rfl
    rw [if_pos passes, if_pos passes]
    change (d.column + 1).toNat = _
    rw [BitVec.toNat_add, one]
    omega
  · rw [if_neg passes, if_neg passes]

/-- One byte. -/
theorem stored_inside_iff : (∀ p ∈ (d.write a.dc a.byte).1.stored, p.Inside) ↔ ¬ Outside d a := by
  obtain ⟨dc, byte⟩ := a
  cases dc with
  | false =>
    rw [stored_command]
    exact iff_of_true nofun fun outside => Bool.false_ne_true outside.1
  | true =>
    rw [write_data, stored_data]
    by_cases checked : Passes d
    case neg =>
      rw [if_neg checked]
      refine iff_of_true nofun ?_
      rintro ⟨-, ⟨column, page⟩ | ⟨page, column⟩⟩
      · exact checked ⟨column.le, page⟩
      · exact checked ⟨column, page.le⟩
    case pos =>
      rw [if_pos checked]
      have last : (∀ p ∈ some (Place.mk d.page d.column), p.Inside) ↔
          d.page.toNat < height / 8 ∧ d.column.toNat < width := by
        constructor
        · intro all
          exact all _ rfl
        · intro inside p here
          cases here
          exact inside
      rw [last]
      constructor
      · rintro ⟨low, narrow⟩ ⟨-, ⟨column, -⟩ | ⟨page, -⟩⟩
        · exact narrow.ne column
        · exact low.ne page
      · intro avoided
        exact ⟨lt_of_le_of_ne checked.2 fun page => avoided ⟨rfl, .inr ⟨page, checked.1⟩⟩,
          lt_of_le_of_ne checked.1 fun column => avoided ⟨rfl, .inl ⟨column, checked.2⟩⟩⟩

/-- From every state, a stream stays inside the frame exactly when none of its data bytes is let through
to a column or a page behind the last one. -/
theorem stores_inside_iff (d : SS1106) (inputs : List Input) :
    (∀ p ∈ stores d inputs, p.Inside) ↔ Avoids d inputs := by
  induction inputs generalizing d with
  | nil => exact iff_of_true nofun trivial
  | cons a rest ih =>
    have parts : (∀ p ∈ stores d (a :: rest), p.Inside) ↔
        (∀ p ∈ (d.write a.dc a.byte).1.stored, p.Inside) ∧ ∀ p ∈ stores (d.write a.dc a.byte).2 rest, p.Inside := by
      change (∀ p ∈ (d.write a.dc a.byte).1.stored.toList ++ stores (d.write a.dc a.byte).2 rest, p.Inside) ↔ _
      rw [List.forall_mem_append]
      simp only [Option.mem_toList, Option.mem_def]
    exact parts.trans (and_congr stored_inside_iff (ih _))

/-- Column 132 and page 8 can be selected, and a byte of data is stored there. -/
theorem stores_outside :
    (¬ ∀ p ∈ stores (init fun _ => 0) [⟨false, 0x18⟩, ⟨false, 0x04⟩, ⟨true, 0xff⟩], p.Inside) ∧
    ¬ ∀ p ∈ stores (init fun _ => 0) [⟨false, 0xB8⟩, ⟨true, 0xff⟩], p.Inside := by
  decide

/-! ## A driver that writes a row -/

def dataBytes (bytes : List (BitVec 8)) : List Input := bytes.map (Input.mk true)

/-- The commands that select a page and a column. -/
def select (page column : BitVec 8) : List Input :=
  [⟨false, 0xB0 ||| page⟩, ⟨false, column &&& 0x0f⟩, ⟨false, 0x10 ||| column >>> 4⟩]

theorem behind_command {rest : List Input} (normal : d.mode = .normal) (found : op.Matches byte) :
    behind d (⟨false, byte⟩ :: rest) = behind (d.normal ⟨op, byte &&& ~~~op.mask⟩) rest := by
  have written : d.write false byte = (⟨0, none⟩, d.normal ⟨op, byte &&& ~~~op.mask⟩) := by
    unfold SS1106.write
    rw [if_neg Bool.false_ne_true, normal, matchCommand_of_matches found]
  change behind (d.write false byte).2 rest = _
  rw [written]

/-- Both halves of the column arrive, whatever it was before. -/
theorem behind_select (page column : BitVec 8) (normal : d.mode = .normal) (small : page.toNat < 16) :
    (behind d (select page column)).page = page ∧ (behind d (select page column)).column = column := by
  have pages : ∀ page : BitVec 8, page.toNat < 16 → Operator.Matches (0xB0 ||| page) .pageAddr ∧
      (0xB0 ||| page) &&& ~~~Operator.mask .pageAddr = page := by decide
  have lows : ∀ column : BitVec 8, Operator.Matches (column &&& 0x0f) .colLow := by decide
  have highs : ∀ column : BitVec 8, Operator.Matches (0x10 ||| column >>> 4) .colHigh := by decide
  have halves : ∀ column : BitVec 8, (column &&& 0x0f) &&& ~~~Operator.mask .colLow &&& 0x0f |||
      ((0x10 ||| column >>> 4) &&& ~~~Operator.mask .colHigh) <<< 4 = column := by decide
  have cleared : d.column &&& 0xf0 &&& 0x0f = 0#8 := by
    rw [BitVec.and_assoc]
    exact BitVec.and_zero
  unfold select
  have second : (d.normal ⟨.pageAddr, (0xB0 ||| page) &&& ~~~Operator.mask .pageAddr⟩).mode = .normal := normal
  have third : ((d.normal ⟨.pageAddr, (0xB0 ||| page) &&& ~~~Operator.mask .pageAddr⟩).normal
      ⟨.colLow, column &&& 0x0f &&& ~~~Operator.mask .colLow⟩).mode = .normal := normal
  rw [behind_command normal (pages page small).1, behind_command second (lows column),
    behind_command third (highs column)]
  refine ⟨(pages page small).2, ?_⟩
  change ((d.column &&& 0xf0) ||| _) &&& 0x0f ||| _ = column
  rw [BitVec.and_or_distrib_right, cleared, BitVec.zero_or]
  exact halves column

/-- In a page of the frame, a row of data stays inside exactly when it ends with the last column. -/
theorem avoids_row (bytes : List (BitVec 8)) (page : d.page.toNat < height / 8) (column : d.column.toNat ≤ width) :
    Avoids d (dataBytes bytes) ↔ d.column.toNat + bytes.length ≤ width := by
  induction bytes generalizing d with
  | nil => exact iff_of_true trivial column
  | cons byte rest ih =>
    have moved : (d.write true byte).2.column.toNat = d.column.toNat + 1 := by
      rw [write_data, column_data, if_pos ⟨column, page.le⟩]
    have kept : (d.write true byte).2.page = d.page := by rw [write_data, page_data]
    have first : Outside d ⟨true, byte⟩ ↔ d.column.toNat = width := by
      constructor
      · rintro ⟨-, ⟨last, -⟩ | ⟨high, -⟩⟩
        · exact last
        · exact absurd high page.ne
      · intro last
        exact ⟨rfl, .inl ⟨last, page.le⟩⟩
    change ¬ Outside d ⟨true, byte⟩ ∧ Avoids (d.write true byte).2 (dataBytes rest) ↔ _
    rw [first, List.length_cons]
    by_cases last : d.column.toNat = width
    · exact iff_of_false (fun both => both.1 last) (by omega)
    · rw [ih (kept ▸ page) (by omega), moved]
      exact ⟨fun both => by omega, fun fits => ⟨last, by omega⟩⟩

/-- After the selection of any page of the frame and any column of it. -/
theorem select_row (bytes : List (BitVec 8)) (normal : d.mode = .normal) {page column : BitVec 8}
    (low : page.toNat < height / 8) (narrow : column.toNat < width) :
    (∀ p ∈ stores (behind d (select page column)) (dataBytes bytes), p.Inside) ↔
      column.toNat + bytes.length ≤ width := by
  have small : page.toNat < 16 := Nat.lt_trans low (by decide)
  obtain ⟨pages, columns⟩ := behind_select page column normal small
  have place : (behind d (select page column)).column.toNat = column.toNat := congrArg BitVec.toNat columns
  refine (stores_inside_iff _ _).trans ?_
  rw [avoids_row bytes (pages.symm ▸ low) (place.le.trans narrow.le), place]

end RiscvVp.Oled
