/-
# RiscvVp.Platform.UartInput -- the command mode of the UART

`UART` takes the bytes of the host one by one.  Ctrl-a enters a mode in which the next byte is a command,
and Ctrl-a once more is to send one literal Ctrl-a.  In the normal mode every byte is pushed, Ctrl-a
included, and only then does the mode change: each command sends a Ctrl-a that nobody asked for.
-/
import Mathlib.Data.BitVec
import Mathlib.Data.List.Basic

namespace RiscvVp.Uart

set_option autoImplicit false

/-- `CTRL`. -/
def ctrl (c : BitVec 8) : BitVec 8 := c &&& 0x1f

/-- Ctrl-a. -/
def keyEsc : BitVec 8 := ctrl 0x61

/-- The letter x. -/
def keyExit : BitVec 8 := 0x78

/-- Ctrl-x. -/
def keyCexit : BitVec 8 := ctrl keyExit

inductive UartState where
  | command
  | normal
deriving DecidableEq

/-- What ends the program: `exit`, and the exceptions of a read. -/
inductive InputFault where
  | exit
  | systemError
  | shortRead
deriving DecidableEq

/-- What `read` returns. -/
inductive Nread where
  | failed
  | short
  | byte (buf : BitVec 8)

/-- The bytes that are pushed. -/
def handleCmd (cmd : BitVec 8) : Except InputFault (List (BitVec 8)) :=
  if cmd = keyEsc then .ok [cmd]
  else if cmd = keyExit ∨ cmd = keyCexit then .error .exit
  else .ok []

/-- The bytes that are pushed, and the state for the next byte. -/
def handleInput (state : UartState) : Nread → Except InputFault (List (BitVec 8) × UartState)
  | .failed => .error .systemError
  | .short => .error .shortRead
  | .byte buf => do
      let pushed ←
        match state with
        | .normal => .ok [buf]
        | .command => handleCmd buf
      return (pushed, if buf = keyEsc ∧ state ≠ .command then .command else .normal)

/-- All the input that comes in. -/
def handleInputs (state : UartState) : List Nread → Except InputFault (List (BitVec 8) × UartState)
  | [] => .ok ([], state)
  | nread :: rest => do
      let (pushed, state) ← handleInput state nread
      let (more, state) ← handleInputs state rest
      return (pushed ++ more, state)

/-! ## What the mode is for -/

/-- The input without its commands, but for a Ctrl-a for every Ctrl-a Ctrl-a.  A Ctrl-a at the end has no
command behind it yet. -/
def filtered : List (BitVec 8) → List (BitVec 8)
  | [] => []
  | [c] => [c]
  | c :: d :: rest =>
      if c = keyEsc then if d = keyEsc then keyEsc :: filtered rest else filtered rest
      else c :: filtered (d :: rest)

/-- A command that exits is among the input. -/
def exits : List (BitVec 8) → Bool
  | [] => false
  | [_] => false
  | c :: d :: rest => if c = keyEsc then d = keyExit || d = keyCexit || exits rest else exits (d :: rest)

/-- The number of commands. -/
def commands : List (BitVec 8) → Nat
  | [] => 0
  | [_] => 0
  | c :: d :: rest => if c = keyEsc then commands rest + 1 else commands (d :: rest)

theorem commands_eq_zero_iff (input : List (BitVec 8)) : commands input = 0 ↔ keyEsc ∉ input.dropLast := by
  induction input using commands.induct with
  | case1 => exact iff_of_true rfl List.not_mem_nil
  | case2 c => exact iff_of_true rfl List.not_mem_nil
  | case3 d rest ih =>
    refine iff_of_false (by rw [commands, if_pos rfl]; nofun) fun none => none ?_
    rw [List.dropLast_cons_cons]
    exact List.mem_cons_self
  | case4 c d rest other ih =>
    rw [commands, if_neg other, ih, List.dropLast_cons_cons, List.mem_cons, not_or]
    exact (and_iff_right fun same => other same.symm).symm

theorem handleInputs_cons {state next last : UartState} {nread : Nread} {rest : List Nread}
    {pushed more : List (BitVec 8)} (first : handleInput state nread = .ok (pushed, next))
    (ran : handleInputs next rest = .ok (more, last)) :
    handleInputs state (nread :: rest) = .ok (pushed ++ more, last) := by
  rw [handleInputs, first]
  show (handleInputs next rest >>= fun more => .ok (pushed ++ more.1, more.2)) = _
  rw [ran]
  rfl

theorem handleInput_normal {c : BitVec 8} (other : c ≠ keyEsc) :
    handleInput .normal (.byte c) = .ok ([c], .normal) :=
  congrArg (fun state => Except.ok ([c], state)) (if_neg fun both => other both.1)

/-- A command that is not Ctrl-a and does not exit. -/
theorem handleInput_command {d : BitVec 8} (other : d ≠ keyEsc) (stays : ¬ (d = keyExit ∨ d = keyCexit)) :
    handleInput .command (.byte d) = .ok ([], .normal) := by
  have cmd : handleCmd d = .ok [] := by
    unfold handleCmd
    rw [if_neg other, if_neg stays]
  unfold handleInput
  dsimp only
  rw [cmd]
  exact congrArg (fun state => Except.ok ([], state)) (if_neg fun both => other both.1)

/-- Every command brings one byte too many. -/
theorem handleInputs_length {input : List (BitVec 8)} (stays : exits input = false) : ∃ pushed state,
    handleInputs .normal (input.map .byte) = .ok (pushed, state) ∧
      pushed.length = (filtered input).length + commands input ∧ (commands input = 0 → pushed = filtered input) := by
  induction input using filtered.induct with
  | case1 => exact ⟨[], .normal, rfl, rfl, fun _ => rfl⟩
  | case2 c => exact ⟨[c], _, rfl, rfl, fun _ => rfl⟩
  | case3 rest ih =>
    -- Ctrl-a Ctrl-a
    rw [exits, if_pos rfl, Bool.or_eq_false_iff] at stays
    obtain ⟨pushed, state, ran, length, -⟩ := ih stays.2
    have first : handleInput .normal (.byte keyEsc) = .ok ([keyEsc], .command) := rfl
    have second : handleInput .command (.byte keyEsc) = .ok ([keyEsc], .normal) := rfl
    refine ⟨_, state, handleInputs_cons first (handleInputs_cons second ran), ?_, ?_⟩
    · rw [filtered, if_pos rfl, if_pos rfl, commands, if_pos rfl]
      simp only [List.length_append, List.length_cons, List.length_nil]
      omega
    · rw [commands, if_pos rfl]
      nofun
  | case4 d rest other ih =>
    -- another command
    rw [exits, if_pos rfl, Bool.or_eq_false_iff, Bool.or_eq_false_iff] at stays
    obtain ⟨⟨letter, control⟩, later⟩ := stays
    obtain ⟨pushed, state, ran, length, -⟩ := ih later
    have first : handleInput .normal (.byte keyEsc) = .ok ([keyEsc], .command) := rfl
    have second := handleInput_command other
      (not_or.mpr ⟨of_decide_eq_false letter, of_decide_eq_false control⟩)
    refine ⟨_, state, handleInputs_cons first (handleInputs_cons second ran), ?_, ?_⟩
    · rw [filtered, if_pos rfl, if_neg other, commands, if_pos rfl]
      simp only [List.length_append, List.length_cons, List.length_nil]
      omega
    · rw [commands, if_pos rfl]
      nofun
  | case5 c d rest other ih =>
    rw [exits, if_neg other] at stays
    obtain ⟨pushed, state, ran, length, same⟩ := ih stays
    refine ⟨_, state, handleInputs_cons (handleInput_normal other) ran, ?_, ?_⟩
    · rw [filtered, if_neg other, commands, if_neg other]
      simp only [List.length_append, List.length_cons, List.length_nil]
      omega
    · rw [filtered, if_neg other, commands, if_neg other]
      intro none
      rw [same none]
      rfl

/-- What the guest gets is the filtered input exactly where Ctrl-a is not in it, but for its end. -/
theorem handleInputs_iff (input : List (BitVec 8)) (stays : exits input = false) :
    (∃ state, handleInputs .normal (input.map .byte) = .ok (filtered input, state)) ↔ keyEsc ∉ input.dropLast := by
  obtain ⟨pushed, state, ran, length, same⟩ := handleInputs_length stays
  rw [← commands_eq_zero_iff]
  constructor
  · rintro ⟨state', ran'⟩
    cases ran.symm.trans ran'
    omega
  · intro none
    exact ⟨state, ran.trans (by rw [same none])⟩

theorem handleInputs_letters : exits [0x68, 0x69, 0x01] = false ∧
    ∃ state, handleInputs .normal [.byte 0x68, .byte 0x69, .byte 0x01] = .ok ([0x68, 0x69, 0x01], state) :=
  ⟨by decide, (handleInputs_iff [0x68, 0x69, 0x01] (by decide)).mpr (by decide)⟩

/-- Ctrl-a Ctrl-a sends two of them. -/
theorem not_handleInputs : ¬ ∀ input, exits input = false →
    ∃ state, handleInputs .normal (input.map .byte) = .ok (filtered input, state) := by
  intro all
  obtain ⟨state, ran⟩ := all [0x01, 0x01] (by decide)
  have twice : handleInputs .normal [.byte 0x01, .byte 0x01] = .ok ([0x01, 0x01], .normal) := rfl
  have once : filtered [0x01, 0x01] = [0x01] := by decide
  cases once.symm.trans (congrArg Prod.fst (Except.ok.inj (ran.symm.trans twice)))

end RiscvVp.Uart
