/-
# RiscvVp.Gdb.ThreadIds -- the numbers of threads, printed and read

The protocol has thread ids in hexadecimal digits.  The parser of the packets reads them so; the list of the threads
and the reply to `vCont` print them in decimal ones.  Up to nine that is the same.
-/
import RiscvVp.Gdb.Answers
import Mathlib.Algebra.Order.BigOperators.Group.List
import Mathlib.Tactic.IntervalCases
import Mathlib.Tactic.Linarith

namespace RiscvVp

set_option autoImplicit false

open Lib Transition

/-! ## The parser of thread ids -/

namespace LibGdb

def hexDigits : CString := bytes "0123456789ABCDEFabcdef"

def hexDigit (c : BitVec 8) : Nat :=
  if c.toNat < 58 then c.toNat - 48 else if c.toNat < 71 then c.toNat - 55 else c.toNat - 87

def hexValue (text : CString) : Nat := text.foldl (fun value c => 16 * value + hexDigit c) 0

/-- `(int)strtol(text, NULL, 16)`: `strtol` stops at `LONG_MAX`. -/
def strtolHex (text : CString) : Int := (BitVec.ofNat 32 (min (hexValue text) (2 ^ 63 - 1))).toInt

/-- The library has parsers for hexadecimal digits and for the `int` that they stand for. -/
structure HexCombinators extends MoreCombinators (BitVec 8) where
  hexdigits : Parser CString
  hex : Parser Int

namespace HexCombinators

structure Lawful (mpc : HexCombinators) : Prop extends toMore : mpc.toMoreCombinators.Lawful where
  hexdigits (back : Bool) {text rest : CString} : text ≠ [] → (∀ c ∈ text, c ∈ hexDigits) →
    (∀ c ∈ rest.head?, c ∉ hexDigits) → mpc.run back mpc.hexdigits (text ++ rest) = .ok text rest
  hex (back : Bool) {text rest : CString} : text ≠ [] → (∀ c ∈ text, c ∈ hexDigits) →
    (∀ c ∈ rest.head?, c ∉ hexDigits) → mpc.run back mpc.hex (text ++ rest) = .ok (strtolHex text) rest

/-- A library with these parsers that has the laws. -/
def direct : HexCombinators where
  toMoreCombinators := MoreCombinators.direct (BitVec 8)
  hexdigits :=
    let mpc := MoreCombinators.direct (BitVec 8)
    mpc.many1 (mpc.oneof hexDigits)
  hex :=
    let mpc := MoreCombinators.direct (BitVec 8)
    mpc.apply strtolHex (mpc.many1 (mpc.oneof hexDigits))

theorem lawful_direct : direct.Lawful where
  toMore := MoreCombinators.lawful_direct
  hexdigits back _ _ some hex stops := MoreCombinators.lawful_direct.many1_oneof back some hex stops
  hex back _ _ some hex stops := MoreCombinators.lawful_direct.apply strtolHex
    (MoreCombinators.lawful_direct.many1_oneof back some hex stops)

end HexCombinators

/-- `GDB_THREAD_UNSET`. -/
def threadUnset : Int := -2

def gdbfThreadId (pid : Option Int) (tid : Int) : GdbThread := ⟨pid.getD threadUnset, tid⟩

/-- The text is `-1`. -/
def gdbfNegative (_ : CString) : Int := -1

/-- The letter, the signal if there is one, and the thread; without a thread the action is for all. -/
def gdbfVcontAction (actstr : CString) (thread : Option GdbThread) : Except Fault (BitVec 8 × Int × GdbThread) :=
  let thread := thread.getD ⟨threadUnset, GdbThread.all⟩
  match actstr with
  | [action] => .ok (action, -1, thread)
  | [action, first, second] => .ok (action, strtolHex [first, second], thread)
  | _ => .error .assertion

section Parser

variable (mpc : HexCombinators)

def gdbHexid : mpc.Parser Int := mpc.or2 mpc.hex (mpc.apply gdbfNegative (mpc.string (bytes "-1")))

def gdbThreadId : mpc.Parser GdbThread :=
  mpc.and2 gdbfThreadId
    (mpc.maybe (mpc.and3 (fun _ pid _ => pid) (mpc.char (ascii 'p')) (gdbHexid mpc) (mpc.char (ascii '.'))))
    (gdbHexid mpc)

/-- The operation and the thread. -/
def gdbPacketH : mpc.Parser (CString × GdbThread) :=
  mpc.and3 (fun _ op id => (op, id)) (mpc.char (ascii 'H')) mpc.any (gdbThreadId mpc)

/-- An action of `vCont`. -/
def gdbVcontAction : mpc.Parser (Except Fault (BitVec 8 × Int × GdbThread)) :=
  mpc.and2 gdbfVcontAction
    (mpc.or2 (mpc.oneof (bytes "cst")) (mpc.and2 mpc.strfold (mpc.oneof (bytes "CS")) mpc.hexdigits))
    (mpc.maybe (mpc.and2 (fun _ id => id) (mpc.char (ascii ':')) (gdbThreadId mpc)))

end Parser

/-- What may follow an id in a packet: the end, or the next action. -/
def Ends (rest : CString) : Prop := ∀ c ∈ rest.head?, c = ascii ';'

section Lawful

variable {mpc : HexCombinators} (lawful : mpc.Lawful) {text rest : CString}

include lawful

theorem run_gdbThreadId (back : Bool) (some : text ≠ []) (hex : ∀ c ∈ text, c ∈ hexDigits) (ends : Ends rest) :
    mpc.run back (gdbThreadId mpc) (text ++ rest) = .ok ⟨threadUnset, strtolHex text⟩ rest := by
  have stops : ∀ c ∈ rest.head?, c ∉ hexDigits := by
    intro c first
    rw [ends c first]
    decide
  have hexid : mpc.run back (gdbHexid mpc) (text ++ rest) = .ok (strtolHex text) rest :=
    lawful.or2_first _ (lawful.hex back some hex stops)
  have noPid : mpc.run back (mpc.char (ascii 'p')) (text ++ rest) = .failed (text ++ rest) := by
    cases text with
    | nil => exact absurd rfl some
    | cons c text =>
      have digit : c ∈ hexDigits := hex c List.mem_cons_self
      have other : c ≠ ascii 'p' := fun same => absurd (same ▸ digit) (by decide)
      rw [lawful.char, List.cons_append, one, if_neg (by simpa using other)]
  exact lawful.and2 gdbfThreadId (lawful.maybe_none (lawful.and3_failed _ _ _ noPid)) hexid

theorem run_gdbPacketH (back : Bool) (op : BitVec 8) (some : text ≠ []) (hex : ∀ c ∈ text, c ∈ hexDigits) :
    mpc.run back (gdbPacketH mpc) (ascii 'H' :: op :: text) = .ok ([op], ⟨threadUnset, strtolHex text⟩) [] := by
  have letter := lawful.char back (ascii 'H') (ascii 'H' :: op :: text)
  rw [one, if_pos (by decide)] at letter
  have ends : Ends ([] : CString) := by
    intro c first
    cases first
  have id : mpc.run back (gdbThreadId mpc) (text ++ []) = _ := run_gdbThreadId lawful back some hex ends
  rw [List.append_nil] at id
  exact lawful.and3 _ letter (lawful.any back (op :: text)) id

theorem run_gdbVcontAction (back : Bool) {action : BitVec 8} (known : action ∈ bytes "cst") (some : text ≠ [])
    (hex : ∀ c ∈ text, c ∈ hexDigits) (ends : Ends rest) :
    mpc.run back (gdbVcontAction mpc) (action :: ascii ':' :: (text ++ rest)) =
      .ok (.ok (action, -1, ⟨threadUnset, strtolHex text⟩)) rest := by
  have letter := lawful.oneof back (bytes "cst") (action :: ascii ':' :: (text ++ rest))
  rw [one, if_pos (decide_eq_true known)] at letter
  have colon := lawful.char back (ascii ':') (ascii ':' :: (text ++ rest))
  rw [one, if_pos (by decide)] at colon
  have thread := lawful.and2 (fun _ id => id) colon (run_gdbThreadId lawful back some hex ends)
  exact lawful.and2 gdbfVcontAction (lawful.or2_first _ letter) (lawful.maybe_some thread)

end Lawful

/-! ## Decimal digits, read as hexadecimal ones -/

/-- A number as `std::to_string` prints it. -/
def decimal (m : Nat) : CString := bytes (toString m)

theorem decimal_eq (m : Nat) : decimal m = (Nat.toDigits 10 m).map ascii := bytes_toString m

theorem decimal_of_lt {m : Nat} (small : m < 10) : decimal m = [ascii m.digitChar] := by
  rw [decimal_eq, Nat.toDigits_of_lt_base small]
  rfl

theorem decimal_of_le {m : Nat} (large : 10 ≤ m) : decimal m = decimal (m / 10) ++ decimal (m % 10) := by
  rw [decimal_of_lt (Nat.mod_lt m (by decide)), decimal_eq, decimal_eq, Nat.toDigits_of_base_le (by decide) large,
    List.map_append]
  rfl

theorem decimal_digit {d : Nat} (small : d < 10) :
    ascii d.digitChar ∈ hexDigits ∧ hexDigit (ascii d.digitChar) = d := by
  interval_cases d <;> decide

theorem decimal_ne_nil (m : Nat) : decimal m ≠ [] := by
  rw [decimal_eq]
  exact mt List.map_eq_nil_iff.mp Nat.toDigits_ne_nil

theorem decimal_hex (m : Nat) : ∀ c ∈ decimal m, c ∈ hexDigits := by
  induction m using Nat.strong_induction_on with
  | _ m ih =>
    by_cases small : m < 10
    case pos =>
      rw [decimal_of_lt small]
      exact List.forall_mem_singleton.mpr (decimal_digit small).1
    case neg =>
      rw [decimal_of_le (Nat.le_of_not_lt small)]
      exact List.forall_mem_append.mpr ⟨ih (m / 10) (by omega), ih (m % 10) (by omega)⟩

theorem hexValue_append_singleton (text : CString) (c : BitVec 8) :
    hexValue (text ++ [c]) = 16 * hexValue text + hexDigit c := by
  unfold hexValue
  rw [List.foldl_append]
  rfl

theorem hexValue_decimal_of_lt {m : Nat} (small : m < 10) : hexValue (decimal m) = m := by
  rw [decimal_of_lt small]
  exact (Nat.zero_add _).trans (decimal_digit small).2

/-- A digit more counts sixteen times. -/
theorem hexValue_decimal (m : Nat) : hexValue (decimal m) = m % 10 + 16 * hexValue (decimal (m / 10)) := by
  by_cases small : m < 10
  case pos =>
    rw [Nat.div_eq_of_lt small, hexValue_decimal_of_lt small, hexValue_decimal_of_lt (show 0 < 10 by decide),
      Nat.mod_eq_of_lt small, Nat.mul_zero, Nat.add_zero]
  case neg =>
    have low : m % 10 < 10 := Nat.mod_lt m (by decide)
    rw [decimal_of_le (Nat.le_of_not_lt small), decimal_of_lt low, hexValue_append_singleton, (decimal_digit low).2,
      Nat.add_comm]

theorem le_hexValue_decimal (m : Nat) : m ≤ hexValue (decimal m) := by
  induction m using Nat.strong_induction_on with
  | _ m ih =>
    by_cases small : m < 10
    case pos => exact (hexValue_decimal_of_lt small).ge
    case neg =>
      have shorter := ih (m / 10) (by omega)
      rw [hexValue_decimal]
      omega

/-- Without a bound on what is read, only the digits mean what was printed. -/
theorem hexValue_decimal_eq_iff (m : Nat) : hexValue (decimal m) = m ↔ m < 10 := by
  constructor
  · intro same
    by_contra large
    have shorter := le_hexValue_decimal (m / 10)
    rw [hexValue_decimal] at same
    omega
  · exact hexValue_decimal_of_lt

/-- Of the eight lower digits, what hexadecimal ones are worth more than decimal ones is no multiple of `10 ^ 8`. -/
theorem no_wrap {t d1 d2 d3 d4 d5 d6 d7 : Nat} (b1 : d1 ≤ 9) (b2 : d2 ≤ 9) (b3 : d3 ≤ 9) (b4 : d4 ≤ 9) (b5 : d5 ≤ 9)
    (b6 : d6 ≤ 9) (short : 10 * t + d7 < 215) :
    6 * (d1 + 26 * d2 + 516 * d3 + 9256 * d4 + 158096 * d5 + 2629536 * d6 + 43072576 * d7) = 100000000 * t →
      t = 0 := by
  -- each digit is worth more than all below it, so the sums to exclude are found from the top
  have two : d1 + 26 * d2 ≤ 243 ∧ d1 + 26 * d2 ≠ 220 := by omega
  generalize d1 + 26 * d2 = sum at *
  clear b1 b2
  have three : sum + 516 * d3 ≤ 4887 ∧ sum + 516 * d3 ≠ 736 := by omega
  clear two
  generalize sum + 516 * d3 = sum at *
  have four : sum + 9256 * d4 ≤ 88191 ∧ sum + 9256 * d4 ≠ 74784 := by omega
  clear three
  generalize sum + 9256 * d4 = sum at *
  have five : sum + 158096 * d5 ≤ 1511055 ∧ sum + 158096 * d5 ≠ 707168 := by omega
  clear four
  generalize sum + 158096 * d5 = sum at *
  have bound : sum + 2629536 * d6 ≤ 25176879 := by omega
  have one : sum + 2629536 * d6 ≠ 6927424 := by omega
  have two : sum + 2629536 * d6 ≠ 13854848 := by omega
  have three : sum + 2629536 * d6 ≠ 20782272 := by omega
  clear five
  generalize sum + 2629536 * d6 = sum at *
  intro same
  have divides : 3 ∣ t := by
    have product : 3 ∣ 50000000 * t := ⟨sum + 43072576 * d7, by linarith⟩
    exact Nat.Coprime.dvd_of_dvd_mul_left (by decide) product
  obtain ⟨u, rfl⟩ := divides
  have reduced : sum + 43072576 * d7 = 50000000 * u := by linarith
  have small : u ≤ 7 := by linarith
  clear same
  interval_cases u
  case «0» => rfl
  all_goals omega

/-- The `k` lower digits. -/
def lowHex : Nat → Nat → Nat
  | 0, _ => 0
  | k + 1, m => m % 10 + 16 * lowHex k (m / 10)

theorem lowHex_lt (k m : Nat) : lowHex k m < 16 ^ k := by
  induction k generalizing m with
  | zero => exact Nat.one_pos
  | succ k ih =>
    have shorter := ih (m / 10)
    unfold lowHex
    rw [Nat.pow_succ]
    omega

theorem hexValue_split (k m : Nat) :
    hexValue (decimal m) = lowHex k m + 16 ^ k * hexValue (decimal (m / 10 ^ k)) := by
  induction k generalizing m with
  | zero => rw [lowHex, Nat.pow_zero, Nat.pow_zero, Nat.one_mul, Nat.zero_add, Nat.div_one]
  | succ k ih =>
    have quotient : m / 10 / 10 ^ k = m / 10 ^ (k + 1) := by rw [Nat.div_div_eq_div_mul, Nat.pow_succ']
    rw [hexValue_decimal, ih (m / 10), quotient, lowHex, Nat.mul_add, ← Nat.mul_assoc, ← Nat.pow_succ',
      Nat.add_assoc]

/-- Below `2 ^ 31` the lower eight digits alone are not the number either. -/
theorem lowHex_ne {m : Nat} (inInt : m < 2 ^ 31) (same : lowHex 8 m = m) : m / 10 ^ 8 = 0 := by
  have digit (q : Nat) : q % 10 ≤ 9 := Nat.lt_succ_iff.mp (Nat.mod_lt q (by decide))
  have split (q : Nat) : q = q % 10 + 10 * (q / 10) := (Nat.mod_add_div q 10).symm
  have quotient : m / 10 / 10 / 10 / 10 / 10 / 10 / 10 / 10 = m / 10 ^ 8 := by
    simp only [Nat.div_div_eq_div_mul]
    rfl
  simp only [lowHex, Nat.mul_zero, Nat.add_zero] at same
  have e0 := split m
  generalize m / 10 = q1 at e0 same quotient
  have e1 := split q1
  generalize q1 / 10 = q2 at e1 same quotient
  have e2 := split q2
  generalize q2 / 10 = q3 at e2 same quotient
  have e3 := split q3
  generalize q3 / 10 = q4 at e3 same quotient
  have e4 := split q4
  generalize q4 / 10 = q5 at e4 same quotient
  have e5 := split q5
  generalize q5 / 10 = q6 at e5 same quotient
  have e6 := split q6
  generalize q6 / 10 = q7 at e6 same quotient
  have e7 := split q7
  rw [quotient] at e7
  have short : 10 * (m / 10 ^ 8) + q7 % 10 < 215 := by
    have least (q next : Nat) (e : q = q % 10 + 10 * next) : 10 * next ≤ q := by omega
    linarith [least m q1 e0, least q1 q2 e1, least q2 q3 e2, least q3 q4 e3, least q4 q5 e4, least q5 q6 e5,
      least q6 q7 e6]
  refine no_wrap (digit q1) (digit q2) (digit q3) (digit q4) (digit q5) (digit q6) short ?_
  linarith

/-- Even in an `int`, which keeps eight digits, only the digits mean what was printed. -/
theorem strtolHex_decimal_eq_iff {m : Nat} (inInt : m < 2 ^ 31) : strtolHex (decimal m) = m ↔ m ≤ 9 := by
  have upper : hexValue (decimal (m / 10 ^ 8)) < 2 ^ 10 := by
    have few : m / 10 ^ 8 / 10 < 10 := by omega
    have low : m / 10 ^ 8 % 10 < 10 := Nat.mod_lt _ (by decide)
    rw [hexValue_decimal, hexValue_decimal_of_lt few]
    omega
  have whole := hexValue_split 8 m
  have low := lowHex_lt 8 m
  have short : min (hexValue (decimal m)) (2 ^ 63 - 1) = hexValue (decimal m) := by
    refine Nat.min_eq_left ?_
    rw [whole]
    omega
  have reduced : hexValue (decimal m) % 2 ^ 32 = lowHex 8 m := by
    rw [whole]
    exact (Nat.add_mul_mod_self_left _ _ _).trans (Nat.mod_eq_of_lt low)
  unfold strtolHex
  rw [short]
  constructor
  · intro same
    have word : (BitVec.ofNat 32 (hexValue (decimal m))).toNat = m := by
      have positive := (BitVec.ofNat 32 (hexValue (decimal m))).isLt
      rw [BitVec.toInt_eq_toNat_cond] at same
      split at same
      case isTrue => omega
      case isFalse => omega
    rw [BitVec.toNat_ofNat, reduced] at word
    have none := lowHex_ne inInt word
    rw [none, hexValue_decimal_of_lt (show 0 < 10 by decide), Nat.mul_zero, Nat.add_zero, word] at whole
    exact Nat.lt_succ_iff.mp ((hexValue_decimal_eq_iff m).mp whole)
  · intro few
    rw [hexValue_decimal_of_lt (by omega)]
    have word : (BitVec.ofNat 32 m).toNat = m := Nat.mod_eq_of_lt (by omega)
    rw [BitVec.toInt_eq_toNat_of_lt (by omega), word]

/-! ## The list of the threads, as the protocol has it -/

/-- An id in hexadecimal digits. -/
def readHex (text : CString) : Option Nat :=
  if text ≠ [] ∧ ∀ c ∈ text, c ∈ hexDigits then some (hexValue text) else none

/-- No id, or ids with commas between them. -/
def readThreadIds (text : CString) : Option (List Nat) :=
  if text = [] then some [] else (text.splitOn (ascii ',')).mapM readHex

theorem readHex_decimal (m : Nat) : readHex (decimal m) = some (hexValue (decimal m)) :=
  if_pos ⟨decimal_ne_nil m, decimal_hex m⟩

theorem comma_not_mem_decimal (m : Nat) : ascii ',' ∉ decimal m := fun among =>
  absurd (decimal_hex m _ among) (by decide)

/-- Numbers with a comma behind each, and something without one. -/
theorem splitOn_commas (ids : List Nat) {tail : CString} (free : ascii ',' ∉ tail) :
    ((ids.flatMap fun m => decimal m ++ [ascii ',']) ++ tail).splitOn (ascii ',') = ids.map decimal ++ [tail] := by
  have joined : (ids.flatMap fun m => decimal m ++ [ascii ',']) ++ tail =
      [ascii ','].intercalate (ids.map decimal ++ [tail]) := by
    induction ids with
    | nil => simp [List.intercalate]
    | cons m ids ih =>
      have more : ids.map decimal ++ [tail] ≠ [] := by simp
      obtain ⟨next, rest, same⟩ := List.exists_cons_of_ne_nil more
      rw [List.flatMap_cons, List.append_assoc, ih, List.map_cons, List.cons_append, same]
      simp [List.intercalate]
  rw [joined]
  refine List.splitOn_intercalate (ascii ',') ?_ (by simp)
  intro piece among
  rcases List.mem_append.mp among with among | among
  · obtain ⟨m, -, rfl⟩ := List.mem_map.mp among
    exact comma_not_mem_decimal m
  · rw [List.mem_singleton.mp among]
    exact free

theorem mapM_some {α β : Type} {f : α → Option β} {h : α → β} {xs : List α} (all : ∀ x ∈ xs, f x = some (h x)) :
    xs.mapM f = some (xs.map h) := by
  induction xs with
  | nil => rfl
  | cons x xs ih =>
    obtain ⟨first, later⟩ := List.forall_mem_cons.mp all
    rw [List.mapM_cons, first, ih later]
    rfl

theorem mapM_none {α β : Type} {f : α → Option β} {x : α} {xs : List α} (among : x ∈ xs) (none : f x = Option.none) :
    xs.mapM f = Option.none := by
  induction xs with
  | nil => cases among
  | cons y xs ih =>
    rw [List.mapM_cons]
    rcases List.mem_cons.mp among with rfl | among
    · rw [none]
      rfl
    · rw [ih among]
      cases f y <;> rfl

/-- A comma at the end is followed by nothing. -/
theorem readThreadIds_trailing (ids : List Nat) :
    readThreadIds (ids.flatMap fun m => decimal m ++ [ascii ',']) = if ids = [] then some [] else none := by
  unfold readThreadIds
  cases ids with
  | nil => rfl
  | cons m ids =>
    have text : ((m :: ids).flatMap fun m => decimal m ++ [ascii ',']) ≠ [] := by simp
    have pieces := splitOn_commas (m :: ids) (show ascii ',' ∉ ([] : CString) from List.not_mem_nil)
    rw [List.append_nil] at pieces
    rw [if_neg text, if_neg (List.cons_ne_nil m ids), pieces]
    exact mapM_none (List.mem_append_right _ (List.mem_singleton_self [])) (if_neg fun good => good.1 rfl)

theorem readThreadIds_decimals (ids : List Nat) (last : Nat) :
    readThreadIds ((ids.flatMap fun m => decimal m ++ [ascii ',']) ++ decimal last) =
      some ((ids ++ [last]).map fun m => hexValue (decimal m)) := by
  have text : (ids.flatMap fun m => decimal m ++ [ascii ',']) ++ decimal last ≠ [] :=
    fun none => decimal_ne_nil last (List.append_eq_nil_iff.mp none).2
  unfold readThreadIds
  rw [if_neg text, splitOn_commas ids (comma_not_mem_decimal last)]
  have pieces : ids.map decimal ++ [decimal last] = (ids ++ [last]).map decimal := by rw [List.map_append]; rfl
  rw [pieces, List.mapM_map]
  exact mapM_some fun m _ => readHex_decimal m

end LibGdb

/-! ## What the server prints -/

namespace GdbServer

open LibGdb

variable {isa : Isa} {Dev : Type} {n : Nat} (g : GdbServer isa Dev n)

/-- The harts are in the order of their numbers. -/
def Indexed : Prop := ∀ i, (g.harts i).core.hartId.toNat = i.val

/-- The id of a hart, as `threadInfo` prints it. -/
def listed (i : Fin (n + 1)) : CString := decimal ((g.harts i).core.hartId + 1).toNat

/-- The ids that should be listed. -/
def liveIds : List Nat := ((List.finRange (n + 1)).filter (g.status · ≠ .terminated)).map (·.val + 1)

theorem run_threadInfo : threadInfo.run g = (sendPacket ("m" ++ g.threadList)).run g := by
  unfold threadInfo
  rw [Exec.run_read_bind]

theorem flatMap_filter {α β : Type} (p : α → Bool) (f : α → List β) (xs : List α) :
    (xs.flatMap fun x => if p x then f x else []) = (xs.filter p).flatMap f := by
  induction xs with
  | nil => rfl
  | cons x xs ih =>
    rw [List.flatMap_cons, ih]
    cases holds : p x
    case false => rw [List.filter_cons_of_neg (by simp [holds])]; rfl
    case true => rw [List.filter_cons_of_pos holds]; rfl

/-- A comma behind the id of every hart but the last. -/
theorem bytes_threadList : bytes g.threadList =
    (((List.finRange n).filter (g.status ·.castSucc ≠ .terminated)).flatMap fun i =>
        g.listed i.castSucc ++ [ascii ',']) ++
      if g.status (Fin.last n) = .terminated then [] else g.listed (Fin.last n) := by
  have piece (i : Fin (n + 1)) : bytes (g.threadEntry i) =
      if g.status i = .terminated then [] else g.listed i ++ if i.val + 1 < n + 1 then [ascii ','] else [] := by
    unfold threadEntry bytes listed decimal bytes
    split
    · rfl
    · split
      · rw [String.toList_append, List.map_append]
        rfl
      · rw [String.toList_append, List.map_append]
        rfl
  have joined : bytes g.threadList = (List.finRange (n + 1)).flatMap fun i =>
      if g.status i = .terminated then [] else g.listed i ++ if i.val + 1 < n + 1 then [ascii ','] else [] := by
    unfold threadList
    rw [show bytes (String.join _) = _ from congrArg (List.map ascii) String.toList_join, List.map_flatMap,
      List.flatMap_map]
    exact List.flatMap_congr fun i _ => piece i
  rw [joined, List.finRange_succ_last, List.flatMap_append, List.flatMap_map, ← flatMap_filter]
  congr 1
  · refine List.flatMap_congr fun i _ => ?_
    have inner : i.castSucc.val + 1 < n + 1 := Nat.succ_lt_succ i.isLt
    rw [if_pos inner]
    by_cases gone : g.status i.castSucc = .terminated
    · simp [gone]
    · simp [gone]
  · rw [List.flatMap_singleton, Fin.val_last, if_neg (Nat.lt_irrefl _), List.append_nil]

variable {g}

/-- The ids of the harts but the last, as they should be listed. -/
def initIds (g : GdbServer isa Dev n) : List Nat :=
  ((List.finRange n).filter (g.status ·.castSucc ≠ .terminated)).map (·.val + 1)

theorem liveIds_eq (g : GdbServer isa Dev n) :
    g.liveIds = g.initIds ++ if g.status (Fin.last n) = .terminated then [] else [n + 1] := by
  unfold liveIds initIds
  rw [List.finRange_succ_last, List.filter_append, List.map_append, List.filter_map, List.map_map]
  congr 1
  by_cases gone : g.status (Fin.last n) = .terminated
  · simp [gone]
  · simp [gone]

theorem initIds_eq_nil_iff : g.initIds = [] ↔ ∀ i : Fin n, g.status i.castSucc = .terminated := by
  unfold initIds
  rw [List.map_eq_nil_iff, List.filter_eq_nil_iff]
  simp

/-- The ids of the harts but the last are printed as what they are. -/
theorem bytes_threadList_eq (indexed : g.Indexed) : bytes g.threadList =
    (g.initIds.flatMap fun m => decimal m ++ [ascii ',']) ++
      if g.status (Fin.last n) = .terminated then [] else decimal ((n + 1) % 2 ^ 64) := by
  have number (i : Fin (n + 1)) : ((g.harts i).core.hartId + 1).toNat = (i.val + 1) % 2 ^ 64 := by
    rw [BitVec.toNat_add, indexed i]
    rfl
  have top : n < 2 ^ 64 := by
    have bound := ((g.harts (Fin.last n)).core.hartId).isLt
    rwa [indexed (Fin.last n)] at bound
  rw [bytes_threadList]
  congr 1
  · unfold initIds listed
    rw [List.flatMap_map]
    refine List.flatMap_congr fun i _ => ?_
    rw [number, Nat.mod_eq_of_lt]
    · rfl
    · exact (Nat.succ_le_of_lt i.isLt).trans_lt top
  · unfold listed
    rw [number]
    rfl

theorem readThreadIds_iff (indexed : g.Indexed) : readThreadIds (bytes g.threadList) = some g.liveIds ↔
    (∀ i, g.status i = .terminated) ∨ g.status (Fin.last n) ≠ .terminated ∧ n + 1 ≤ 9 := by
  rw [bytes_threadList_eq indexed, liveIds_eq]
  by_cases gone : g.status (Fin.last n) = .terminated
  case pos =>
    rw [if_pos gone, if_pos gone, List.append_nil, List.append_nil, readThreadIds_trailing,
      or_iff_left (fun good => good.1 gone), Fin.forall_fin_succ', and_iff_left gone, ← initIds_eq_nil_iff]
    by_cases none : g.initIds = []
    · rw [if_pos none, none]
      exact iff_of_true rfl rfl
    · rw [if_neg none]
      exact iff_of_false nofun none
  case neg =>
    have someLive : ¬ ∀ i, g.status i = .terminated := fun all => gone (all (Fin.last n))
    have bound : ∀ m ∈ g.initIds, m ≤ n := by
      intro m among
      obtain ⟨i, -, rfl⟩ := List.mem_map.mp among
      exact i.isLt
    rw [if_neg gone, if_neg gone, readThreadIds_decimals, or_iff_right someLive, and_iff_right gone, List.map_append]
    have top : n < 2 ^ 64 := by
      have bound := ((g.harts (Fin.last n)).core.hartId).isLt
      rwa [indexed (Fin.last n)] at bound
    constructor
    · intro same
      have last := (List.append_inj' (Option.some.inj same) rfl).2
      have last : hexValue (decimal ((n + 1) % 2 ^ 64)) = n + 1 := List.singleton_inj.mp last
      by_cases wraps : n + 1 = 2 ^ 64
      · rw [wraps, Nat.mod_self, hexValue_decimal_of_lt (by decide)] at last
        cases last
      · rw [Nat.mod_eq_of_lt (by omega)] at last
        exact Nat.lt_succ_iff.mp ((hexValue_decimal_eq_iff (n + 1)).mp last)
    · intro few
      rw [Nat.mod_eq_of_lt (by omega)]
      congr 2
      · calc g.initIds.map (fun m => hexValue (decimal m)) = g.initIds.map id :=
              List.map_congr_left fun m among => hexValue_decimal_of_lt (by have := bound m among; omega)
          _ = g.initIds := List.map_id _
      · exact List.singleton_inj.mpr (hexValue_decimal_of_lt (by omega))

/-- The list of nine harts at most, each of them with one digit, is no long reply. -/
theorem light_of_few (indexed : g.Indexed) (few : (∀ i, g.status i = .terminated) ∨ n + 1 ≤ 9) :
    weight "m" + ((List.finRange (n + 1)).map g.entryWeight).sum < 2 ^ 31 := by
  have first : weight "m" = 109 := by decide
  rcases few with gone | few
  · have nothing : ∀ w ∈ (List.finRange (n + 1)).map g.entryWeight, w = 0 := by
      intro w among
      obtain ⟨i, -, rfl⟩ := List.mem_map.mp among
      unfold entryWeight threadEntry
      rw [if_pos (gone i)]
      rfl
    rw [List.sum_eq_zero nothing]
    omega
  · have little : ∀ w ∈ (List.finRange (n + 1)).map g.entryWeight, w ≤ 1314 := by
      intro w among
      obtain ⟨i, -, rfl⟩ := List.mem_map.mp among
      have number : ((g.harts i).core.hartId + 1).toNat < 10 ^ 10 := by
        rw [BitVec.toNat_add, indexed i]
        exact (Nat.mod_le _ _).trans_lt (show i.val + 1 < 10 ^ 10 by omega)
      unfold entryWeight threadEntry
      split
      · decide
      · have digits := weight_toString_le number
        have comma : weight (if i.val + 1 < n + 1 then "," else "") ≤ 44 := by split <;> decide
        rw [weight_append]
        omega
    have sum := List.sum_le_card_nsmul _ _ little
    rw [List.length_map, List.length_finRange, nsmul_eq_mul, Nat.cast_id] at sum
    omega

/-- A list that is right goes out. -/
theorem sent_threadInfo (indexed : g.Indexed) (right : readThreadIds (bytes g.threadList) = some g.liveIds) :
    ∃ t, threadInfo.run g = (.ok (), t) ∧ t.sent = g.sent ++ [.packet ("m" ++ g.threadList)] := by
  have light := light_of_few indexed (((readThreadIds_iff indexed).mp right).imp_right And.right)
  rw [run_threadInfo, run_sendPacket (sendable_threadList light)]
  exact ⟨_, rfl, rfl⟩

/-! ## What comes back -/

/-- An id that is sent back names the hart, in an `H` packet and in an action of `vCont`. -/
structure Selects (mpc : HexCombinators) (text : CString) (i : Fin (n + 1)) : Prop where
  h : ∀ op, ∃ id, mpc.run true (gdbPacketH mpc) (ascii 'H' :: op :: text) = .ok ([op], id) [] ∧
    getThreads id.tid = some [i]
  vCont : ∀ action ∈ bytes "cst", ∀ rest, Ends rest → ∃ id,
    mpc.run true (gdbVcontAction mpc) (action :: ascii ':' :: (text ++ rest)) = .ok (.ok (action, -1, id)) rest ∧
      getThreads id.tid = some [i]

theorem selects_decimal_iff {mpc : HexCombinators} (lawful : mpc.Lawful) (k : Nat) (i : Fin (n + 1)) :
    Selects mpc (decimal k) i ↔ getThreads (strtolHex (decimal k)) = some [i] := by
  have inH (op : BitVec 8) := run_gdbPacketH lawful true op (decimal_ne_nil k) (decimal_hex k)
  have inVCont {action : BitVec 8} (known : action ∈ bytes "cst") {rest : CString} (ends : Ends rest) :=
    run_gdbVcontAction lawful true known (decimal_ne_nil k) (decimal_hex k) ends
  generalize strtolHex (decimal k) = tid at inH inVCont ⊢
  constructor
  · intro selects
    obtain ⟨id, parsed, found⟩ := selects.h (ascii 'g')
    have same : (⟨threadUnset, tid⟩ : GdbThread) = id :=
      congrArg Prod.snd (Outcome.ok.inj ((inH (ascii 'g')).symm.trans parsed)).1
    rw [← same] at found
    exact found
  · intro found
    exact ⟨fun op => ⟨⟨threadUnset, tid⟩, inH op, found⟩,
      fun action known rest ends => ⟨⟨threadUnset, tid⟩, inVCont known ends, found⟩⟩

/-- Only a positive number selects a hart that is not the first. -/
theorem val_of_getThreads {id : Int} {i : Fin (n + 1)} (found : getThreads id = some [i]) :
    i.val = 0 ∨ id = i.val + 1 := by
  rcases getThreads_cases found with all | ⟨j, same, number⟩
  · have count := congrArg List.length all
    rw [List.length_finRange] at count
    have single : 0 = n := Nat.succ.inj count
    exact .inl (by omega)
  · cases List.singleton_inj.mp same
    exact number

theorem getThreads_succ (i : Fin (n + 1)) : getThreads ((i.val + 1 : Nat) : Int) = some [i] := by
  have notAny : ((i.val + 1 : Nat) : Int) ≠ GdbThread.any := by unfold GdbThread.any; omega
  have notAll : ((i.val + 1 : Nat) : Int) ≠ GdbThread.all := by unfold GdbThread.all; omega
  have back : (((i.val + 1 : Nat) : Int) - 1).toNat = i.val := by omega
  unfold getThreads
  rw [if_neg notAny]
  dsimp only
  rw [if_neg notAll, if_neg (by omega), dif_pos (by omega)]
  exact congrArg (fun j => some [j]) (Fin.ext back)

/-- A number that is printed for a hart, where an `int` has room for it. -/
theorem selects_iff {mpc : HexCombinators} (lawful : mpc.Lawful) {k : Nat} {i : Fin (n + 1)}
    (printed : i.val + 1 < 2 ^ 31 → k = i.val + 1) : Selects mpc (decimal k) i ↔ i.val + 1 ≤ 9 := by
  rw [selects_decimal_iff lawful]
  constructor
  · intro found
    rcases val_of_getThreads found with first | same
    · omega
    have inInt : strtolHex (decimal k) < 2 ^ 31 := BitVec.toInt_lt
    have room : i.val + 1 < 2 ^ 31 := by omega
    rw [printed room] at same
    exact (strtolHex_decimal_eq_iff room).mp (by exact_mod_cast same)
  · intro few
    rw [printed (by omega), (strtolHex_decimal_eq_iff (by omega)).mpr few]
    exact getThreads_succ i

/-! ## The reply to `vCont` -/

/-- The harts are in the order of their numbers, and no turn gives one another number. -/
structure Placed (g : GdbServer isa Dev n) : Prop where
  harts : g.Indexed
  turns : ∀ i core world, Turn.hart i core world ∈ g.schedule → core.hartId.toNat = i.val

/-- The server has not replied yet. -/
def Unanswered : Transition (GdbServer isa Dev n) Failure := fun g _ t => g.Placed → t.sent = g.sent ∧ t.Placed

instance : Closed (Unanswered : Transition (GdbServer isa Dev n) Failure) where
  refl _ placed := ⟨rfl, placed⟩
  trans first second placed := by
    obtain ⟨sent, placed⟩ := first placed
    obtain ⟨sent', placed⟩ := second placed
    exact ⟨sent'.trans sent, placed⟩

theorem Placed.setHart (placed : g.Placed) {i : Fin (n + 1)} {hart : DebugHart isa}
    (same : hart.core.hartId = (g.harts i).core.hartId) : (g.setHart i hart).Placed where
  harts j := by
    by_cases own : j = i
    · rw [own, setHart_self, same]
      exact placed.harts i
    · rw [setHart_of_ne g own]
      exact placed.harts j
  turns := placed.turns

theorem Indexed.turn (indexed : g.Indexed) {i : Fin (n + 1)} {core : Iss isa Unit}
    (index : core.hartId.toNat = i.val) (world : SocState Dev) : (g.turn i core world).2.Indexed := by
  intro j
  by_cases own : j = i
  · subst own
    rcases turn_hartId j core world g with same | same
    · rw [same]
      exact index
    · rw [same]
      exact indexed j
  · rw [turn_others core world own]
    exact indexed j

theorem awaitFrom_placed {awaited : List (Fin (n + 1))} {t : GdbServer isa Dev n} (placed : g.Placed)
    (ended : g.awaitFrom awaited false g.schedule = some t) : t.sent = g.sent ∧ t.Placed := by
  have kept : ∀ i core world, Turn.hart i core world ∈ g.schedule → ∀ (woken : Bool) (u : GdbServer isa Dev n),
      u.sent = g.sent ∧ u.Indexed → (u.turn i core world).2.sent = g.sent ∧ (u.turn i core world).2.Indexed := by
    rintro i core world among - u ⟨sent, indexed⟩
    have line : (u.turn i core world).2.sent = u.sent := congrArg Prod.fst (turn_line core world)
    exact ⟨line.trans sent, indexed.turn (placed.turns i core world among) world⟩
  obtain ⟨u, rest, ⟨sent, indexed⟩, part, rfl⟩ :=
    awaitFrom_invariant (P := fun _ u => u.sent = g.sent ∧ u.Indexed) kept ⟨rfl, placed.harts⟩ ended
  exact ⟨sent, indexed, fun i core world among => placed.turns i core world (part among)⟩

instance (awaited : List (Fin (n + 1))) : Sat Unanswered (await awaited : M isa Dev n Unit) where
  holds g placed := by
    unfold Exec.run await
    split
    case h_1 t ended => exact awaitFrom_placed placed ended
    case h_2 => exact ⟨rfl, placed⟩

instance (i : Fin (n + 1)) (status : CoreExecStatus) :
    Sat Unanswered (Exec.update (setStatus i status) : M isa Dev n Unit) :=
  Sat.update fun _ placed => ⟨rfl, placed.setHart rfl⟩

instance (harts : List (Fin (n + 1))) : Sat Unanswered (stopHarts harts : M isa Dev n _) := by
  induction harts with
  | nil =>
    unfold stopHarts
    infer_instance
  | cons i harts ih =>
    unfold stopHarts
    infer_instance

instance (hartsrun : List (Fin (n + 1))) (single : Bool) :
    Sat Unanswered (Exec.update (resume hartsrun single) : M isa Dev n Unit) := by
  refine Sat.update fun g placed => ?_
  refine resume_invariant (P := fun t => t.sent = g.sent ∧ t.Placed) (fun i t kept => ?_) hartsrun
    ⟨rfl, placed.harts, placed.turns⟩
  unfold notifyRun
  split
  case isTrue => exact ⟨kept.1, kept.2.setHart rfl⟩
  case isFalse => exact kept

instance (orig : List (Fin (n + 1) × CoreExecStatus)) :
    Sat Unanswered (Exec.update (restoreStatus orig) : M isa Dev n Unit) := by
  refine Sat.update fun g placed => ?_
  unfold restoreStatus
  induction orig generalizing g with
  | nil => exact ⟨rfl, placed⟩
  | cons entry orig ih => exact ih (g.setStatus entry.1 entry.2) (placed.setHart rfl)

instance (hartsrun : List (Fin (n + 1))) (single : Bool) :
    Sat Unanswered (runThreads hartsrun single : M isa Dev n Unit) := by
  unfold runThreads
  infer_instance

/-- The number of the hart with an index, as an `int`. -/
def numberOf (i : Fin (n + 1)) : Int := ((BitVec.ofNat 64 i.val + 1).setWidth 32).toInt

theorem Placed.threadNumber (placed : g.Placed) (i : Fin (n + 1)) : threadNumber (g.harts i).core = numberOf i := by
  have id : (g.harts i).core.hartId = BitVec.ofNat 64 i.val := by
    rw [← placed.harts i, BitVec.ofNat_toNat, BitVec.setWidth_eq]
  unfold GdbServer.threadNumber numberOf
  rw [id]

/-- A hart that is reported is one of the harts. -/
def OfHart (n : Nat) (stop : Stop) : Prop :=
  ∀ reason number, stop = some (reason, number) → ∃ i : Fin (n + 1), number = numberOf i

theorem collectStops_placed {stop stop' : Stop} {harts : List (Fin (n + 1))} {t : GdbServer isa Dev n}
    (placed : g.Placed) (known : OfHart n stop) (ran : (collectStops stop harts).run g = (.ok stop', t)) :
    t.sent = g.sent ∧ t.Placed ∧ OfHart n stop' := by
  induction harts generalizing g stop with
  | nil =>
    cases ran
    exact ⟨rfl, placed, known⟩
  | cons i harts ih =>
    have own (reason : String) : OfHart n (some (reason, GdbServer.threadNumber (g.harts i).core)) := by
      intro _ _ same
      cases same
      exact ⟨i, placed.threadNumber i⟩
    unfold collectStops at ran
    rw [Exec.run_read_bind, Exec.run_read_bind] at ran
    cases status : g.status i with
    | hitBreakpoint =>
      rw [status] at ran
      exact ih (g := g.setStatus i .runnable) (placed.setHart rfl) (own "05") ran
    | terminated =>
      rw [status] at ran
      exact ih placed (own "03") ran
    | runnable =>
      rw [status] at ran
      exact ih placed known ran

/-- The reply to `vCont`, where there is one: an error, or a hart that has stopped. -/
theorem sent_vContLoop {matched : List (Fin (n + 1))} {stop : Stop} {actions : List GdbVcont}
    {t : GdbServer isa Dev n} (placed : g.Placed) (known : OfHart n stop)
    (ran : (vContLoop matched stop actions).run g = (.ok (), t)) :
    t.sent = g.sent ++ [.packet "E01"] ∨ ∃ (i : Fin (n + 1)) (reason : String), t.Placed ∧ 1 ≤ numberOf i ∧
      t.sent = g.sent ++ [.packet ("T" ++ reason ++ "thread:" ++ toString (numberOf i) ++ ";")] := by
  induction actions generalizing g matched stop with
  | nil =>
    cases stop with
    | none => cases ran
    | some stopped =>
      obtain ⟨i, same⟩ := known stopped.1 stopped.2 rfl
      unfold vContLoop vContEnd at ran
      dsimp only at ran
      rw [same] at ran
      by_cases positive : 1 ≤ numberOf i
      · rw [Exec.ensure_pos positive, Exec.run_pure_bind, Exec.run_update_bind] at ran
        rw [eq_of_sendPacket ran]
        exact .inr ⟨i, stopped.1, ⟨placed.harts, placed.turns⟩, positive, rfl⟩
      · rw [Exec.ensure_neg positive] at ran
        cases ran
  | cons vcont rest ih =>
    unfold vContLoop at ran
    by_cases supported : vcont.action = .s ∨ vcont.action = .c
    case neg =>
      rw [Exec.ensure_neg supported] at ran
      cases ran
    case pos =>
      rw [Exec.ensure_pos supported, Exec.run_pure_bind] at ran
      cases threads : (getThreads vcont.thread.tid : Option (List (Fin (n + 1)))) with
      | none =>
        rw [threads] at ran
        rw [eq_of_sendPacket ran]
        exact .inl rfl
      | some selected =>
        rw [threads] at ran
        obtain ⟨_, u, resumed, behind⟩ := Exec.run_bind_eq_ok.mp ran
        obtain ⟨stop', v, collected, last⟩ := Exec.run_bind_eq_ok.mp behind
        obtain ⟨sent, placed⟩ := Sat.ok (R := Unanswered) inferInstance resumed placed
        obtain ⟨sent', placed, known⟩ := collectStops_placed placed known collected
        have replied := ih placed known last
        rwa [sent', sent] at replied

theorem bytes_number {number : Int} (positive : 1 ≤ number) : bytes (toString number) = decimal number.toNat := by
  obtain ⟨k, rfl⟩ := Int.eq_ofNat_of_zero_le (show 0 ≤ number by omega)
  rfl

theorem toNat_numberOf {i : Fin (n + 1)} (inInt : i.val + 1 < 2 ^ 31) : (numberOf i).toNat = i.val + 1 := by
  have word : ((BitVec.ofNat 64 i.val + 1).setWidth 32).toNat = i.val + 1 := by
    rw [BitVec.toNat_setWidth, BitVec.toNat_add, BitVec.toNat_ofNat]
    change (i.val % 2 ^ 64 + 1) % 2 ^ 64 % 2 ^ 32 = i.val + 1
    omega
  unfold numberOf
  rw [BitVec.toInt_eq_toNat_of_lt (by omega), word, Int.toNat_natCast]

/-- The list of the threads is read as it should be exactly when every hart has terminated, or the last has not and
there are nine harts at most; then it is sent.  An id of the list, or of the reply to `vCont`, names its hart up to the ninth. -/
theorem threadIds_iff {mpc : HexCombinators} (lawful : mpc.Lawful) (placed : g.Placed) :
    (threadInfo.run g = (sendPacket ("m" ++ g.threadList)).run g ∧
      (readThreadIds (bytes g.threadList) = some g.liveIds ↔
        (∀ i, g.status i = .terminated) ∨ g.status (Fin.last n) ≠ .terminated ∧ n + 1 ≤ 9) ∧
      (readThreadIds (bytes g.threadList) = some g.liveIds →
        ∃ t, threadInfo.run g = (.ok (), t) ∧ t.sent = g.sent ++ [.packet ("m" ++ g.threadList)])) ∧
    (∀ i, Selects mpc (g.listed i) i ↔ i.val + 1 ≤ 9) ∧
    ∀ first rest t, (vCont first rest).run g = (.ok (), t) → t.sent = g.sent ++ [.packet "E01"] ∨
      ∃ (i : Fin (n + 1)) (reason : String),
        t.sent = g.sent ++
          [.packet ("T" ++ reason ++ "thread:" ++ toString (threadNumber (t.harts i).core) ++ ";")] ∧
        (Selects mpc (bytes (toString (threadNumber (t.harts i).core))) i ↔ i.val + 1 ≤ 9) := by
  refine ⟨⟨run_threadInfo g, readThreadIds_iff placed.harts, sent_threadInfo placed.harts⟩, fun i => ?_, fun first rest t ran => ?_⟩
  · refine selects_iff lawful fun inInt => ?_
    rw [BitVec.toNat_add, placed.harts i]
    exact Nat.mod_eq_of_lt (show i.val + 1 < 2 ^ 64 by omega)
  · have start : OfHart n none := fun _ _ same => nomatch same
    rcases sent_vContLoop placed start ran with error | ⟨i, reason, placed', positive, sent⟩
    · exact .inl error
    · refine .inr ⟨i, reason, ?_, ?_⟩
      · rw [placed'.threadNumber]
        exact sent
      · rw [placed'.threadNumber, bytes_number positive]
        exact selects_iff lawful toNat_numberOf

end GdbServer

namespace Hifive

open GdbServer LibGdb

/-- The stub of several harts, fresh. -/
def multi (n : Nat) : GdbServer .rv32 Unit n where
  harts i := ⟨(Iss.reset (BitVec.ofNat 32 i.val) false 0x20000000 0x80004000 memories).alone, .waiting⟩
  world := memories
  mmu := true
  threadOps _ := none
  singleRun := false
  prevpkt := none
  pktq := []
  mtx := false
  sent := []
  schedule := []

theorem placed_multi {n : Nat} (few : n < 2 ^ 32) : (multi n).Placed where
  harts i := by
    have id : ((multi n).harts i).core.hartId = (BitVec.ofNat 32 i.val).setWidth 64 := rfl
    rw [id, BitVec.toNat_setWidth, BitVec.toNat_ofNat]
    omega
  turns _ _ _ among := absurd among List.not_mem_nil

theorem threadIds_two : readThreadIds (bytes (multi 1).threadList) = some (multi 1).liveIds ∧
    ∀ i, Selects HexCombinators.direct ((multi 1).listed i) i := by
  have all := threadIds_iff HexCombinators.lawful_direct (placed_multi (n := 1) (by decide))
  refine ⟨all.1.2.1.mpr (.inr ⟨by decide, by decide⟩), fun i => (all.2.1 i).mpr ?_⟩
  have bound := i.isLt
  omega

/-- The second of two harts has terminated. -/
def halfOver : GdbServer .rv32 Unit 1 := (multi 1).setStatus 1 .terminated

/-- A comma behind the last id, and an id of the list that is read as another one. -/
theorem not_threadIds : (threadInfo.run halfOver).2.sent = [.packet "m1,"] ∧ readThreadIds (bytes "1,") = none ∧
    (multi 9).listed 9 = bytes "10" ∧
    (∀ op, HexCombinators.direct.run true (gdbPacketH HexCombinators.direct)
      (ascii 'H' :: op :: bytes "10") = .ok ([op], ⟨threadUnset, 16⟩) []) ∧
    getThreads 16 = (none : Option (List (Fin 10))) := by
  refine ⟨by decide, by decide, by decide, fun op => ?_, by decide⟩
  exact run_gdbPacketH HexCombinators.lawful_direct true op (by decide) (by decide)

end Hifive

end RiscvVp
