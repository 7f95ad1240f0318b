/-
# RiscvVp.Gdb.RunLength -- run lengths and escapes

`gdb_decode_runlen` takes every `*` for the mark of a run, also where it is the count of one, and
lets a `*` at the end of the data pass.  Its buffer grows by a counter that wraps, and has room for
every byte that is written; so has that of `gdb_unescape`.
-/
import RiscvVp.Gdb.Checksum
import Mathlib.Data.List.Chain

namespace RiscvVp.LibGdb

set_option autoImplicit false

/-! ## Run lengths -/

def runlenChar : BitVec 8 := ascii '*'

def runlenOff : Int := 29

def runlenStep : Nat := 32

def escapeChar : BitVec 8 := ascii '}'

def escapeByte : BitVec 8 := 0x20

/-- The new data: what has been written (`nlen` bytes), the size it is allocated with, and `nrem`. -/
structure NewData where
  ndat : CString
  size : Nat
  nrem : Nat

namespace NewData

/-- `ndat[nlen++] = c`. -/
def write (new : NewData) (c : BitVec 8) : Except Fault NewData :=
  if new.ndat.length < new.size then .ok { new with ndat := new.ndat ++ [c] } else .error .outside

/-- `nrem-- == 0`, and the buffer that is then allocated; `nrem` is a `size_t`. -/
def reserve (new : NewData) : NewData :=
  if new.nrem = 0 then
    { new with size := new.ndat.length + runlenStep, nrem := (2 ^ 64 - 1 + runlenStep) % 2 ^ 64 }
  else { new with nrem := new.nrem - 1 }

def push (new : NewData) (runlen : Int) : Except Fault NewData :=
  let new := new.reserve
  if 0 ≤ runlen ∧ runlen ≤ 127 then new.write (BitVec.ofInt 8 runlen) else .error .assertion

/-- The loop `j < rcount`. -/
def pushes (new : NewData) (runlen : Int) : Nat → Except Fault NewData
  | 0 => .ok new
  | rcount + 1 =>
      match new.push runlen with
      | .ok new => new.pushes runlen rcount
      | .error e => .error e

/-- The buffer in its actual size, with a NUL at the end. -/
def shrink (new : NewData) : Except Fault CString :=
  let new := { new with size := new.ndat.length + 1 }
  match new.write 0 with
  | .ok _ => .ok new.ndat
  | .error e => .error e

end NewData

/-- The loop over `data`, behind `prev`; there is nothing behind the first character. -/
def decodeRunlen (prev : Option (BitVec 8)) (runlen : Int) (new : NewData) :
    CString → Except Fault (Option CString)
  | [] => new.shrink.map some
  | c :: data =>
      if c = runlenChar then
        match prev with
        | none => .ok none
        | some prev => decodeRunlen (some c) prev.toInt new data
      else if runlen = -1 then
        match new.pushes c.toInt 1 with
        | .ok new => decodeRunlen (some c) (-1) new data
        | .error e => .error e
      else
        let rcount := c.toInt - runlenOff
        if rcount ≤ 0 then .ok none
        else
          match new.pushes runlen rcount.toNat with
          | .ok new => decodeRunlen (some c) (-1) new data
          | .error e => .error e

/-- `none` is NULL. -/
def gdbDecodeRunlen (data : CString) : Except Fault (Option CString) :=
  decodeRunlen none (-1) ⟨[], data.length, data.length⟩ data

/-! ## Escapes -/

def unescape (esc : Bool) (new : NewData) : CString → Except Fault CString
  | [] => new.shrink
  | c :: data =>
      if c = escapeChar then unescape true new data
      else
        match new.write (if esc then c ^^^ escapeByte else c) with
        | .ok new => unescape false new data
        | .error e => .error e

def gdbUnescape (data : CString) : Except Fault CString := unescape false ⟨[], data.length, 0⟩ data

/-! ## There is room -/

namespace NewData

/-- `nrem` bytes are left. -/
def Fits (new : NewData) : Prop := new.size = new.ndat.length + new.nrem

variable {new : NewData}

theorem shrink_eq : new.shrink = .ok new.ndat := by
  unfold shrink write
  simp

theorem push_of_fits (fits : new.Fits) {runlen : Int} (inside : 0 ≤ runlen ∧ runlen ≤ 127) :
    ∃ new' : NewData, new'.Fits ∧ new'.ndat = new.ndat ++ [BitVec.ofInt 8 runlen] ∧ new.push runlen = .ok new' := by
  unfold Fits at fits
  unfold push reserve write
  dsimp only
  rw [if_pos inside]
  by_cases full : new.nrem = 0
  · rw [if_pos full, if_pos (by simp [runlenStep])]
    refine ⟨_, ?_, rfl, rfl⟩
    simp [Fits, runlenStep]
  · rw [if_neg full, if_pos (by dsimp only; omega)]
    refine ⟨_, ?_, rfl, rfl⟩
    simp only [Fits, List.length_append, List.length_singleton]
    omega

theorem pushes_of_fits (fits : new.Fits) {runlen : Int} (inside : 0 ≤ runlen ∧ runlen ≤ 127) (rcount : Nat) :
    ∃ new' : NewData, new'.Fits ∧ new'.ndat = new.ndat ++ List.replicate rcount (BitVec.ofInt 8 runlen) ∧
      new.pushes runlen rcount = .ok new' := by
  induction rcount generalizing new with
  | zero => exact ⟨new, fits, by simp, rfl⟩
  | succ rcount ih =>
    obtain ⟨next, fits', ndat, pushed⟩ := push_of_fits fits inside
    obtain ⟨last, fits'', ndat', rest⟩ := ih fits'
    refine ⟨last, fits'', ?_, ?_⟩
    · rw [ndat', ndat, List.append_assoc]
      rfl
    · unfold pushes
      rw [pushed]
      exact rest

theorem pushes_assertion {runlen : Int} (outside : ¬ (0 ≤ runlen ∧ runlen ≤ 127)) {rcount : Nat}
    (some : 0 < rcount) : new.pushes runlen rcount = .error .assertion := by
  cases rcount with
  | zero => cases some
  | succ rcount =>
    unfold pushes push
    rw [if_neg outside]

end NewData

/-- The loop over `data` with the text that has been written. -/
def expand (prev : Option (BitVec 8)) (runlen : Int) (text : CString) : CString → Except Fault (Option CString)
  | [] => .ok (some text)
  | c :: data =>
      if c = runlenChar then
        match prev with
        | none => .ok none
        | some prev => expand (some c) prev.toInt text data
      else if runlen = -1 then
        if 0 ≤ c.toInt then expand (some c) (-1) (text ++ [c]) data else .error .assertion
      else if c.toInt ≤ runlenOff then .ok none
      else if 0 ≤ runlen ∧ runlen ≤ 127 then
        expand (some c) (-1) (text ++ List.replicate (c.toInt - runlenOff).toNat (BitVec.ofInt 8 runlen)) data
      else .error .assertion

theorem toInt_le (c : BitVec 8) : c.toInt ≤ 127 := by
  have small := BitVec.toInt_lt (x := c)
  omega

theorem decodeRunlen_eq {new : NewData} (fits : new.Fits) (prev : Option (BitVec 8)) (runlen : Int) (data : CString) :
    decodeRunlen prev runlen new data = expand prev runlen new.ndat data := by
  induction data generalizing new prev runlen with
  | nil =>
    unfold decodeRunlen
    rw [NewData.shrink_eq]
    rfl
  | cons c data ih =>
    unfold decodeRunlen expand
    split
    · cases prev with
      | none => rfl
      | some prev => exact ih fits _ _
    split
    · by_cases inside : 0 ≤ c.toInt
      · obtain ⟨next, fits', ndat, pushed⟩ := NewData.pushes_of_fits fits ⟨inside, toInt_le c⟩ 1
        rw [BitVec.ofInt_toInt] at ndat
        rw [pushed, if_pos inside]
        dsimp only
        rw [ih fits', ndat]
        rfl
      · rw [NewData.pushes_assertion (fun both => inside both.1) Nat.one_pos, if_neg inside]
    · dsimp only
      by_cases low : c.toInt ≤ runlenOff
      · rw [if_pos (by omega), if_pos low]
      · rw [if_neg (by omega), if_neg low]
        by_cases inside : 0 ≤ runlen ∧ runlen ≤ 127
        · obtain ⟨next, fits', ndat, pushed⟩ :=
            NewData.pushes_of_fits fits inside (c.toInt - runlenOff).toNat
          rw [pushed, if_pos inside]
          dsimp only
          rw [ih fits', ndat]
        · rw [NewData.pushes_assertion inside (by omega), if_neg inside]

theorem gdbDecodeRunlen_eq (data : CString) : gdbDecodeRunlen data = expand none (-1) [] data :=
  decodeRunlen_eq (by simp [NewData.Fits]) none (-1) data

/-- The text without its escapes; `esc` when a `}` is in front. -/
def plain (esc : Bool) : CString → CString
  | [] => []
  | c :: data =>
      if c = escapeChar then plain true data
      else (if esc then c ^^^ escapeByte else c) :: plain false data

theorem unescape_eq {new : NewData} {data : CString} (room : new.ndat.length + data.length ≤ new.size) (esc : Bool) :
    unescape esc new data = .ok (new.ndat ++ plain esc data) := by
  induction data generalizing new esc with
  | nil =>
    unfold unescape
    rw [NewData.shrink_eq]
    simp [plain]
  | cons c data ih =>
    rw [List.length_cons] at room
    unfold unescape plain
    split
    · exact ih (by omega) true
    · unfold NewData.write
      rw [if_pos (by omega)]
      dsimp only
      rw [ih (by simp only [List.length_append, List.length_singleton]; omega)]
      simp

theorem gdbUnescape_eq (data : CString) : gdbUnescape data = .ok (plain false data) :=
  unescape_eq (by simp) false

/-! ## The standard encoding -/

def escape (text : CString) : CString :=
  text.flatMap fun c =>
    if c ∈ [ascii '#', ascii '$', escapeChar, runlenChar] then [escapeChar, c ^^^ escapeByte] else [c]

/-- What an encoding is put together from: a character, or one with `n` further repeats. -/
inductive Chunk where
  | literal (c : BitVec 8)
  | run (c : BitVec 8) (n : Nat)
deriving DecidableEq

namespace Chunk

def text : Chunk → CString
  | literal c => [c]
  | run c n => List.replicate (n + 1) c

def code : Chunk → CString
  | literal c => [c]
  | run c n => [c, runlenChar, BitVec.ofNat 8 (n + 29)]

def Allowed : Chunk → Prop
  | literal _ => True
  | run _ n => 3 ≤ n ∧ n ≤ 97 ∧ n ≠ 6 ∧ n ≠ 7

end Chunk

/-- `chunks` encode `text`. -/
structure Encodes (text : CString) (chunks : List Chunk) : Prop where
  escaped : chunks.flatMap Chunk.text = escape text
  allowed : ∀ chunk ∈ chunks, chunk.Allowed

/-- The two functions give back the text that was encoded. -/
def Inverts (text data : CString) : Prop :=
  ∃ ndat, gdbDecodeRunlen data = .ok (some ndat) ∧ gdbUnescape ndat = .ok text

theorem inverts_iff {text data : CString} :
    Inverts text data ↔ ∃ ndat, expand none (-1) [] data = .ok (some ndat) ∧ plain false ndat = text := by
  unfold Inverts
  simp only [gdbDecodeRunlen_eq, gdbUnescape_eq, Except.ok.injEq]

/-! ### Escaped text -/

@[simp] theorem escape_cons (c : BitVec 8) (text : CString) : escape (c :: text) =
    (if c ∈ [ascii '#', ascii '$', escapeChar, runlenChar] then [escapeChar, c ^^^ escapeByte] else [c]) ++
      escape text := rfl

theorem plain_cons_of_ne (esc : Bool) {c : BitVec 8} (other : c ≠ escapeChar) (data : CString) :
    plain esc (c :: data) = (if esc then c ^^^ escapeByte else c) :: plain false data :=
  if_neg other

theorem plain_escape (text : CString) : plain false (escape text) = text := by
  induction text with
  | nil => rfl
  | cons c text ih =>
    rw [escape_cons]
    split
    case isTrue special =>
      have other : c ^^^ escapeByte ≠ escapeChar := by
        revert special
        revert c
        decide
      show plain true ((c ^^^ escapeByte) :: escape text) = _
      rw [plain_cons_of_ne true other, ih, if_pos rfl, BitVec.xor_assoc, BitVec.xor_self, BitVec.xor_zero]
    case isFalse usual =>
      have other : c ≠ escapeChar := by
        rintro rfl
        exact usual (by decide)
      rw [List.singleton_append, plain_cons_of_ne false other, ih]
      rfl

/-- No mark of a run is left, and no escape character stands behind another. -/
theorem escape_clean (text : CString) : runlenChar ∉ escape text ∧
    (escape text).IsChain fun a b => a = escapeChar → b ≠ escapeChar := by
  induction text with
  | nil => exact ⟨List.not_mem_nil, .nil⟩
  | cons c text ih =>
    obtain ⟨unmarked, chain⟩ := ih
    rw [escape_cons]
    split
    case isTrue special =>
      have last : c ^^^ escapeByte ≠ escapeChar ∧ c ^^^ escapeByte ≠ runlenChar := by
        revert special
        revert c
        decide
      refine ⟨?_, List.isChain_append.mpr ⟨?_, chain, ?_⟩⟩
      · simp [unmarked, last.2.symm, show runlenChar ≠ escapeChar by decide]
      · simp [last.1]
      · simp [last.1]
    case isFalse usual =>
      have other : c ≠ escapeChar ∧ runlenChar ≠ c := by
        constructor
        · rintro rfl
          exact usual (by decide)
        · rintro rfl
          exact usual (by decide)
      refine ⟨?_, List.isChain_append.mpr ⟨?_, chain, ?_⟩⟩
      · simp [unmarked, other.2]
      · simp
      · simp [other.1]

/-- Behind the start of a text, whether the next character is escaped. -/
theorem exists_plain_append (esc : Bool) (front : CString) :
    ∃ esc', ∀ data, plain esc (front ++ data) = plain esc front ++ plain esc' data := by
  induction front generalizing esc with
  | nil => exact ⟨esc, fun _ => rfl⟩
  | cons c front ih =>
    by_cases marked : c = escapeChar
    · obtain ⟨esc', rest⟩ := ih true
      refine ⟨esc', fun data => ?_⟩
      simp only [List.cons_append, plain, if_pos marked]
      exact rest data
    · obtain ⟨esc', rest⟩ := ih false
      refine ⟨esc', fun data => ?_⟩
      simp only [List.cons_append, plain, if_neg marked, rest data]

/-! ### Steps -/

section Steps

variable {prev : Option (BitVec 8)} {p c : BitVec 8} {text data : CString}

theorem expand_literal (other : c ≠ runlenChar) (low : 0 ≤ c.toInt) :
    expand prev (-1) text (c :: data) = expand (some c) (-1) (text ++ [c]) data := by
  show (if c = runlenChar then _ else if (-1 : Int) = -1 then _ else _) = _
  rw [if_neg other, if_pos rfl, if_pos low]

theorem expand_mark {runlen : Int} :
    expand (some p) runlen text (runlenChar :: data) = expand (some runlenChar) p.toInt text data := rfl

theorem expand_count (low : 0 ≤ p.toInt) (other : c ≠ runlenChar) (count : runlenOff < c.toInt) :
    expand prev p.toInt text (c :: data) =
      expand (some c) (-1) (text ++ List.replicate (c.toInt - runlenOff).toNat p) data := by
  have inside : 0 ≤ p.toInt ∧ p.toInt ≤ 127 := ⟨low, toInt_le p⟩
  show (if c = runlenChar then _ else if p.toInt = -1 then _ else _) = _
  rw [if_neg other, if_neg (by omega), if_neg (Int.not_le.mpr count), if_pos inside, BitVec.ofInt_toInt]

theorem expand_bad_count (low : 0 ≤ p.toInt) (other : c ≠ runlenChar) (count : c.toInt ≤ runlenOff) :
    expand prev p.toInt text (c :: data) = .ok none := by
  show (if c = runlenChar then _ else if p.toInt = -1 then _ else _) = _
  rw [if_neg other, if_neg (by omega), if_pos count]

/-- What has been written stays in front. -/
theorem prefix_of_expand {runlen : Int} {ndat : CString} (ran : expand prev runlen text data = .ok (some ndat)) :
    text <+: ndat := by
  induction data generalizing prev runlen text with
  | nil =>
    obtain rfl := Option.some.inj (Except.ok.inj ran)
    exact List.prefix_rfl
  | cons c data ih =>
    unfold expand at ran
    split at ran
    · cases prev with
      | none => cases ran
      | some prev => exact ih ran
    split at ran
    · split at ran
      · exact (List.prefix_append _ _).trans (ih ran)
      · cases ran
    split at ran
    · cases ran
    split at ran
    · exact (List.prefix_append _ _).trans (ih ran)
    · cases ran

end Steps

/-! ### Chunks -/

theorem toInt_of_low {c : BitVec 8} (low : c.toNat < 128) : c.toInt = c.toNat := by
  rw [BitVec.toInt_eq_toNat_cond, if_pos (by omega)]

theorem toInt_count {n : Nat} (short : n ≤ 97) : (BitVec.ofNat 8 (n + 29)).toInt = n + 29 := by
  have value : (BitVec.ofNat 8 (n + 29)).toNat = n + 29 := by
    rw [BitVec.toNat_ofNat]
    omega
  rw [toInt_of_low (by omega), value]
  rfl

theorem count_ne_mark {n : Nat} (short : n ≤ 97) (other : n ≠ 13) : BitVec.ofNat 8 (n + 29) ≠ runlenChar := by
  intro same
  have value := toInt_count short
  rw [same, show runlenChar.toInt = 42 from rfl] at value
  omega

/-- A chunk of an encoding with characters below 128. -/
structure Chunk.Readable (chunk : Chunk) : Prop where
  allowed : chunk.Allowed
  low : ∀ c ∈ chunk.code, c.toNat < 128
  unmarked : runlenChar ∉ chunk.text
  unescaped (c : BitVec 8) (n : Nat) : chunk = .run c n → c ≠ escapeChar

theorem readable_of_encodes {text : CString} {chunks : List Chunk} (encodes : Encodes text chunks)
    (low : ∀ c ∈ chunks.flatMap Chunk.code, c.toNat < 128) {chunk : Chunk} (inside : chunk ∈ chunks) :
    chunk.Readable where
  allowed := encodes.allowed chunk inside
  low c found := low c (List.mem_flatMap.mpr ⟨chunk, inside, found⟩)
  unmarked found := by
    refine (escape_clean text).1 ?_
    rw [← encodes.escaped]
    exact List.mem_flatMap.mpr ⟨chunk, inside, found⟩
  unescaped c n same escaped := by
    -- two of the repeats are neighbours
    have chain := (escape_clean text).2
    obtain ⟨front, rest, split⟩ := List.append_of_mem inside
    have allowed := encodes.allowed chunk inside
    subst same
    rw [← encodes.escaped, split, List.flatMap_append, List.flatMap_cons] at chain
    have pair := (List.isChain_append.mp (List.isChain_append.mp chain).2.1).1
    obtain ⟨m, rfl⟩ : ∃ m, n = m + 1 := ⟨n - 1, by have := allowed.1; omega⟩
    have both : List.IsChain (fun a b => a = escapeChar → b ≠ escapeChar) (c :: c :: List.replicate m c) := pair
    rw [List.isChain_cons_cons] at both
    exact both.1 escaped escaped

theorem exists_expand_chunk {chunk : Chunk} (readable : chunk.Readable) (other : ∀ c, chunk ≠ .run c 13)
    (prev : Option (BitVec 8)) (text data : CString) :
    ∃ prev', expand prev (-1) text (chunk.code ++ data) = expand prev' (-1) (text ++ chunk.text) data := by
  obtain ⟨allowed, low, unmarked, -⟩ := readable
  cases chunk with
  | literal c =>
    have first : 0 ≤ c.toInt := by
      rw [toInt_of_low (low c (by simp [Chunk.code]))]
      omega
    exact ⟨some c, expand_literal (fun mark => unmarked (by simp [Chunk.text, mark])) first⟩
  | run c n =>
    have first : 0 ≤ c.toInt := by
      rw [toInt_of_low (low c (by simp [Chunk.code]))]
      omega
    have plain : c ≠ runlenChar := fun mark => unmarked (by simp [Chunk.text, mark])
    have thirteen : n ≠ 13 := by
      rintro rfl
      exact other c rfl
    obtain ⟨least, most, -⟩ := allowed
    have value := toInt_count most
    refine ⟨some (BitVec.ofNat 8 (n + 29)), ?_⟩
    calc expand prev (-1) text (c :: runlenChar :: BitVec.ofNat 8 (n + 29) :: data)
        = expand (some c) (-1) (text ++ [c]) (runlenChar :: BitVec.ofNat 8 (n + 29) :: data) :=
          expand_literal plain first
      _ = expand (some runlenChar) c.toInt (text ++ [c]) (BitVec.ofNat 8 (n + 29) :: data) := expand_mark
      _ = expand (some (BitVec.ofNat 8 (n + 29))) (-1) (text ++ [c] ++ List.replicate n c) data := by
          rw [expand_count first (count_ne_mark most thirteen) (by rw [value, runlenOff]; omega), value]
          congr 3
          rw [runlenOff]
          omega
      _ = _ := by
          rw [List.append_assoc]
          rfl

theorem expand_chunks {chunks : List Chunk} (readable : ∀ chunk ∈ chunks, chunk.Readable)
    (other : ∀ c, Chunk.run c 13 ∉ chunks) (prev : Option (BitVec 8)) (text : CString) :
    expand prev (-1) text (chunks.flatMap Chunk.code) = .ok (some (text ++ chunks.flatMap Chunk.text)) := by
  induction chunks generalizing prev text with
  | nil => simp [expand]
  | cons chunk chunks ih =>
    obtain ⟨first, later⟩ := List.forall_mem_cons.mp readable
    have usual : ∀ c, chunk ≠ .run c 13 := fun c same => other c (by simp [same])
    obtain ⟨prev', step⟩ := exists_expand_chunk first usual prev text (chunks.flatMap Chunk.code)
    rw [List.flatMap_cons, List.flatMap_cons, step, ih later (fun c found => other c (List.mem_cons_of_mem _ found)),
      List.append_assoc]

/-- The count of a run of thirteen further repeats is a mark itself: what comes behind it counts marks. -/
theorem expand_thirteen {prev : Option (BitVec 8)} {c : BitVec 8} {text data ndat : CString}
    (other : c ≠ runlenChar) (low : 0 ≤ c.toInt) (behind : ∀ x ∈ data.head?, x ≠ runlenChar)
    (ran : expand prev (-1) text (c :: runlenChar :: runlenChar :: data) = .ok (some ndat)) :
    ndat = text ++ [c] ∨ text ++ [c, runlenChar] <+: ndat := by
  rw [expand_literal other low, expand_mark, expand_mark] at ran
  cases data with
  | nil => exact .inl (Option.some.inj (Except.ok.inj ran)).symm
  | cons x data =>
    have usual : x ≠ runlenChar := behind x rfl
    have mark : 0 ≤ runlenChar.toInt := by decide
    by_cases count : x.toInt ≤ runlenOff
    · rw [expand_bad_count mark usual count] at ran
      cases ran
    · rw [expand_count mark usual (Int.not_le.mp count)] at ran
      have front := prefix_of_expand ran
      obtain ⟨m, repeats⟩ : ∃ m, (x.toInt - runlenOff).toNat = m + 1 := ⟨(x.toInt - runlenOff).toNat - 1, by omega⟩
      rw [repeats, List.replicate_succ, List.append_assoc] at front
      refine .inr (.trans ?_ front)
      exact (List.prefix_append_right_inj text).mpr (by simp)

theorem plain_ne {c : BitVec 8} {text ndat data : CString} (other : c ≠ runlenChar) (usual : c ≠ escapeChar)
    (short : ndat = text ++ [c] ∨ text ++ [c, runlenChar] <+: ndat) :
    plain false ndat ≠ plain false (text ++ c :: c :: data) := by
  obtain ⟨esc, behind⟩ := exists_plain_append false text
  intro same
  rcases short with rfl | ⟨more, rfl⟩
  · rw [behind, behind, plain_cons_of_ne _ usual, plain_cons_of_ne _ usual, plain_cons_of_ne _ usual] at same
    simp [plain] at same
  · rw [List.append_assoc, behind, behind] at same
    simp only [List.cons_append, List.nil_append] at same
    rw [plain_cons_of_ne _ usual, plain_cons_of_ne _ (show runlenChar ≠ escapeChar by decide), plain_cons_of_ne _ usual,
      plain_cons_of_ne _ usual] at same
    have heads := (List.cons.inj (List.cons.inj (List.append_cancel_left same)).2).1
    exact other heads.symm

theorem plain_ne_of_thirteen {chunks : List Chunk} (readable : ∀ chunk ∈ chunks, chunk.Readable)
    {c : BitVec 8} (found : Chunk.run c 13 ∈ chunks) {prev : Option (BitVec 8)} {text ndat : CString}
    (ran : expand prev (-1) text (chunks.flatMap Chunk.code) = .ok (some ndat)) :
    plain false ndat ≠ plain false (text ++ chunks.flatMap Chunk.text) := by
  induction chunks generalizing prev text with
  | nil => cases found
  | cons chunk chunks ih =>
    obtain ⟨first, later⟩ := List.forall_mem_cons.mp readable
    by_cases usual : ∀ c, chunk ≠ .run c 13
    · obtain ⟨prev', step⟩ := exists_expand_chunk first usual prev text (chunks.flatMap Chunk.code)
      rw [List.flatMap_cons, step] at ran
      have rest : Chunk.run c 13 ∈ chunks := (List.mem_cons.mp found).resolve_left fun same => usual c same.symm
      have differ := ih later rest ran
      rwa [List.append_assoc] at differ
    · push Not at usual
      obtain ⟨x, rfl⟩ := usual
      have plain : x ≠ runlenChar := fun mark => first.unmarked (by simp [Chunk.text, mark])
      have low : 0 ≤ x.toInt := by
        rw [toInt_of_low (first.low x (by simp [Chunk.code]))]
        omega
      have behind : ∀ y ∈ (chunks.flatMap Chunk.code).head?, y ≠ runlenChar := by
        cases chunks with
        | nil => simp
        | cons next chunks =>
          obtain ⟨second, -⟩ := List.forall_mem_cons.mp later
          rintro y start rfl
          refine second.unmarked ?_
          cases next with
          | literal c => simp_all [Chunk.text, Chunk.code]
          | run c n => simp_all [Chunk.text, Chunk.code]
      exact plain_ne plain (first.unescaped x 13 rfl) (expand_thirteen plain low behind ran)

/-- An encoding is decoded unless it has a run of thirteen further repeats. -/
theorem inverts_chunks_iff {text : CString} {chunks : List Chunk} (encodes : Encodes text chunks)
    (low : ∀ c ∈ chunks.flatMap Chunk.code, c.toNat < 128) :
    Inverts text (chunks.flatMap Chunk.code) ↔ ∀ c, Chunk.run c 13 ∉ chunks := by
  have readable : ∀ chunk ∈ chunks, chunk.Readable := fun chunk inside => readable_of_encodes encodes low inside
  rw [inverts_iff]
  constructor
  · rintro ⟨ndat, ran, same⟩ c found
    refine plain_ne_of_thirteen readable found ran ?_
    rw [same, List.nil_append, encodes.escaped, plain_escape]
  · intro usual
    refine ⟨_, expand_chunks readable usual none [], ?_⟩
    rw [List.nil_append, encodes.escaped, plain_escape]

/-! ## Data that is rejected -/

/-- A mark with a count below one, and no character from 128 on in front of it. -/
def BadCount (data : CString) : Prop :=
  ∃ front x rest, data = front ++ runlenChar :: x :: rest ∧ (∀ c ∈ front, c.toNat < 128) ∧ x ≠ runlenChar ∧
    x.toInt ≤ runlenOff

theorem not_badCount_nil : ¬ BadCount [] := by
  rintro ⟨front, x, rest, same, -⟩
  simp at same

theorem badCount_mark {data : CString} :
    BadCount (runlenChar :: data) ↔ (∃ x ∈ data.head?, x ≠ runlenChar ∧ x.toInt ≤ runlenOff) ∨ BadCount data := by
  constructor
  · rintro ⟨front, x, rest, same, low, other, count⟩
    cases front with
    | nil =>
      obtain ⟨-, rfl⟩ := List.cons.inj same
      exact .inl ⟨x, rfl, other, count⟩
    | cons c front =>
      obtain ⟨-, rfl⟩ := List.cons.inj same
      exact .inr ⟨front, x, rest, rfl, (List.forall_mem_cons.mp low).2, other, count⟩
  · rintro (⟨x, start, other, count⟩ | ⟨front, x, rest, rfl, low, other, count⟩)
    · obtain ⟨rest, rfl⟩ := List.head?_eq_some_iff.mp start
      exact ⟨[], x, rest, rfl, by simp, other, count⟩
    · exact ⟨runlenChar :: front, x, rest, rfl, List.forall_mem_cons.mpr ⟨by decide, low⟩, other, count⟩

theorem badCount_cons {c : BitVec 8} (other : c ≠ runlenChar) {data : CString} :
    BadCount (c :: data) ↔ c.toNat < 128 ∧ BadCount data := by
  constructor
  · rintro ⟨front, x, rest, same, low, count⟩
    cases front with
    | nil => exact absurd (List.cons.inj same).1 other
    | cons c' front =>
      obtain ⟨rfl, rfl⟩ := List.cons.inj same
      obtain ⟨first, later⟩ := List.forall_mem_cons.mp low
      exact ⟨first, front, x, rest, rfl, later, count⟩
  · rintro ⟨first, front, x, rest, rfl, low, count⟩
    exact ⟨c :: front, x, rest, rfl, List.forall_mem_cons.mpr ⟨first, low⟩, count⟩

theorem toInt_nonneg_iff {c : BitVec 8} : 0 ≤ c.toInt ↔ c.toNat < 128 := by
  have small := c.isLt
  rw [BitVec.toInt_eq_toNat_cond]
  split <;> omega

/-- Between the runs, and behind a mark of `q`. -/
theorem expand_eq_none_iff {p : BitVec 8} (low : 0 ≤ p.toInt) (text data : CString) :
    (expand (some p) (-1) text data = .ok none ↔ BadCount data) ∧
      ∀ q : BitVec 8, 0 ≤ q.toInt →
        (expand (some runlenChar) q.toInt text data = .ok none ↔ BadCount (runlenChar :: data)) := by
  induction data generalizing p text with
  | nil =>
    refine ⟨iff_of_false (by simp [expand]) not_badCount_nil, fun q _ => ?_⟩
    rw [badCount_mark]
    exact iff_of_false (by simp [expand]) (by simp [not_badCount_nil])
  | cons c data ih =>
    by_cases mark : c = runlenChar
    · subst mark
      have behind := (ih (p := p) low text).2
      refine ⟨by rw [expand_mark]; exact behind p low, fun q _ => ?_⟩
      have twice : BadCount (runlenChar :: runlenChar :: data) ↔ BadCount (runlenChar :: data) := by
        rw [badCount_mark]
        simp
      rw [expand_mark, behind runlenChar (by decide), twice]
    · constructor
      · rw [badCount_cons mark, ← toInt_nonneg_iff]
        by_cases first : 0 ≤ c.toInt
        · rw [expand_literal mark first, (ih first _).1]
          simp [first]
        · refine iff_of_false ?_ (fun both => first both.1)
          show (if c = runlenChar then _ else if (-1 : Int) = -1 then _ else _) ≠ _
          rw [if_neg mark, if_pos rfl, if_neg first]
          exact nofun
      · intro q inside
        rw [badCount_mark, badCount_cons mark, ← toInt_nonneg_iff]
        by_cases count : c.toInt ≤ runlenOff
        · exact iff_of_true (expand_bad_count inside mark count) (.inl ⟨c, rfl, mark, count⟩)
        · have first : 0 ≤ c.toInt := by
            rw [runlenOff] at count
            omega
          rw [expand_count inside mark (Int.not_le.mp count), (ih first _).1]
          simp [first, count]

theorem gdbDecodeRunlen_eq_none_iff (data : CString) :
    gdbDecodeRunlen data = .ok none ↔ data.head? = some runlenChar ∨ BadCount data := by
  rw [gdbDecodeRunlen_eq]
  cases data with
  | nil => exact iff_of_false (by simp [expand]) (by simp [not_badCount_nil])
  | cons c data =>
    by_cases mark : c = runlenChar
    · subst mark
      exact iff_of_true rfl (.inl rfl)
    · rw [badCount_cons mark, ← toInt_nonneg_iff]
      by_cases first : 0 ≤ c.toInt
      · rw [expand_literal mark first, (expand_eq_none_iff first _ data).1]
        simp [first, mark]
      · refine iff_of_false ?_ (by simp [first, mark])
        show (if c = runlenChar then _ else if (-1 : Int) = -1 then _ else _) ≠ _
        rw [if_neg mark, if_pos rfl, if_neg first]
        exact nofun

theorem expand_ne_outside (prev : Option (BitVec 8)) (runlen : Int) (text data : CString) :
    expand prev runlen text data ≠ .error .outside := by
  induction data generalizing prev runlen text with
  | nil => exact nofun
  | cons c data ih =>
    unfold expand
    split
    · cases prev with
      | none => exact nofun
      | some prev => exact ih _ _ _
    split
    · split
      · exact ih _ _ _
      · exact nofun
    split
    · exact nofun
    split
    · exact ih _ _ _
    · exact nofun

/-- Encodings without a run of thirteen further repeats are decoded; data is rejected where it starts
with a mark or has one with a bad count; nothing is written beyond a buffer. -/
theorem decoding_iff (text : CString) (chunks : List Chunk) (data : CString) :
    (Encodes text chunks → (∀ c ∈ chunks.flatMap Chunk.code, c.toNat < 128) →
      (Inverts text (chunks.flatMap Chunk.code) ↔ ∀ c, Chunk.run c 13 ∉ chunks)) ∧
    (data.head? = some runlenChar ∨ data.getLast? = some runlenChar →
      (gdbDecodeRunlen data = .ok none ↔ data.head? = some runlenChar ∨ BadCount data)) ∧
    gdbDecodeRunlen data ≠ .error .outside ∧ gdbUnescape data ≠ .error .outside := by
  refine ⟨inverts_chunks_iff, fun _ => gdbDecodeRunlen_eq_none_iff data, ?_, ?_⟩
  · rw [gdbDecodeRunlen_eq]
    exact expand_ne_outside none (-1) [] data
  · rw [gdbUnescape_eq]
    exact nofun

/-- `a* ` is `aaaa`. -/
theorem decoding_four : Inverts [ascii 'a', ascii 'a', ascii 'a', ascii 'a'] [ascii 'a', ascii '*', ascii ' '] :=
  ((decoding_iff _ [.run (ascii 'a') 3] []).1 ⟨by decide, by simp [Chunk.Allowed]⟩ (by decide)).mpr (by simp)

/-- `a**` is not taken for fourteen times `a`, and `a*` is not rejected. -/
theorem not_decoding :
    (¬ ∀ text chunks, 0#8 ∉ text → Encodes text chunks → (∀ c ∈ chunks.flatMap Chunk.code, c.toNat < 128) →
      Inverts text (chunks.flatMap Chunk.code)) ∧
    ¬ ∀ data : CString, data.head? = some runlenChar ∨ data.getLast? = some runlenChar →
      gdbDecodeRunlen data = .ok none := by
  constructor
  · intro all
    obtain ⟨ndat, decoded, same⟩ := all (List.replicate 14 (ascii 'a')) [.run (ascii 'a') 13] (by decide)
      ⟨by decide, by simp [Chunk.Allowed]⟩ (by decide)
    have single : gdbDecodeRunlen [ascii 'a', ascii '*', ascii '*'] = .ok (some [ascii 'a']) := by decide
    have told := decoded.symm.trans single
    cases told
    exact absurd same (by decide)
  · intro all
    have rejected := all [ascii 'a', ascii '*'] (.inr rfl)
    have taken : gdbDecodeRunlen [ascii 'a', ascii '*'] = .ok (some [ascii 'a']) := by decide
    rw [taken] at rejected
    cases rejected

end RiscvVp.LibGdb
