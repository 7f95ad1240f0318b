/-
# RiscvVp.Gdb.Packets -- packets as text

`gdb_serialize` prints a packet and `gdb_parse_pkt` reads one, with tables of their own for the
kinds: a notification is printed with a character that no packet starts with.  The parser is put
together from the combinators of a library, of which the laws are assumed.
-/
import RiscvVp.Gdb.Checksum
import RiscvVp.Lib.Combinators

namespace RiscvVp.LibGdb

set_option autoImplicit false

open Lib

def bytes (s : String) : CString := s.toList.map ascii

/-! ## The serialiser -/

def kindToChar : GdbKind → BitVec 8
  | .notify => ascii '#'
  | .packet => ascii '$'
  | .nack => ascii '-'
  | .ack => ascii '+'

/-- `INT_MAX`, the most that `snprintf` can say it has printed. -/
def intMax : Nat := 2 ^ 31 - 1

def gdbSerialize (kind : GdbKind) (data : Option CString) : Except Fault CString :=
  if kind = .nack ∨ kind = .ack then
    if data = none then .ok [kindToChar kind] else .error .assertion
  else
    match data with
    | none => .error .nullPointer
    | some data =>
        match calcCsum data with
        | .error e => .error e
        | .ok csum =>
            let pktlen := data.length + 2 + 3
            let serialized := kindToChar kind :: data ++ ascii '#' :: formatCsum csum
            if intMax < serialized.length then .error .exit
            else if pktlen ≤ serialized.length then .error .exit
            else .ok serialized

/-! ## The parser -/

/-- The texts of the start, the data and the checksum with its `#`. -/
def gdbfPacket (start data csum : CString) : Except Fault GdbPacket :=
  match csum with
  | [_, first, second] =>
      match start with
      | [c] =>
          if c = ascii '%' then .ok ⟨.notify, some data, (first, second)⟩
          else if c = ascii '$' then .ok ⟨.packet, some data, (first, second)⟩
          else .error .assertion
      | _ => .error .assertion
  | _ => .error .outside

def gdbfAcknowledge (text : CString) : Except Fault GdbPacket :=
  match text with
  | [c] =>
      if c = ascii '+' then .ok ⟨.ack, none, (0, 0)⟩
      else if c = ascii '-' then .ok ⟨.nack, none, (0, 0)⟩
      else .error .assertion
  | _ => .error .assertion

section Parser

variable (mpc : Combinators (BitVec 8))

def gdbCsum : mpc.Parser CString :=
  mpc.and2 mpc.strfold (mpc.char (ascii '#')) (mpc.and2 mpc.strfold mpc.any mpc.any)

def gdbPacket : mpc.Parser (Except Fault GdbPacket) :=
  mpc.and3 gdbfPacket (mpc.char (ascii '$')) (mpc.many (mpc.noneof [ascii '#', ascii '$'])) (gdbCsum mpc)

def gdbNotification : mpc.Parser (Except Fault GdbPacket) :=
  mpc.and3 gdbfPacket (mpc.char (ascii '%')) (mpc.many (mpc.noneof [ascii '#', ascii '$', ascii '%'])) (gdbCsum mpc)

def gdbAcknowledge : mpc.Parser (Except Fault GdbPacket) :=
  mpc.apply gdbfAcknowledge (mpc.oneof [ascii '+', ascii '-'])

def gdbParseStage1 : mpc.Parser (Except Fault GdbPacket) :=
  mpc.or3 (gdbAcknowledge mpc) (gdbPacket mpc) (gdbNotification mpc)

/-- `none` is NULL. -/
def gdbParsePkt (stream : CString) : Option (Except Fault GdbPacket) :=
  match mpc.run true (mpc.predictive (gdbParseStage1 mpc)) stream with
  | .ok pkt _ => some pkt
  | .failed _ => none

end Parser

/-! ## What the parser makes of a text -/

section Lawful

variable {mpc : Combinators (BitVec 8)} (lawful : mpc.Lawful)

include lawful

theorem run_gdbCsum (back : Bool) (first second : BitVec 8) (rest : CString) :
    mpc.run back (gdbCsum mpc) (ascii '#' :: first :: second :: rest) = .ok [ascii '#', first, second] rest := by
  have hash := lawful.char back (ascii '#') (ascii '#' :: first :: second :: rest)
  have digit := lawful.any back (first :: second :: rest)
  have digit' := lawful.any back (second :: rest)
  rw [one, if_pos (by decide)] at hash
  have folded : mpc.run back (gdbCsum mpc) _ = _ :=
    lawful.and2 mpc.strfold hash (lawful.and2 mpc.strfold digit digit')
  rw [folded, lawful.strfold, lawful.strfold]
  rfl

theorem parse_acknowledge {kind : GdbKind} (ack : kind = .nack ∨ kind = .ack) :
    gdbParsePkt mpc [kindToChar kind] = some (.ok ⟨kind, none, (0, 0)⟩) := by
  have taken : mpc.run false (mpc.oneof [ascii '+', ascii '-']) [kindToChar kind] = .ok [kindToChar kind] [] := by
    rw [lawful.oneof]
    rcases ack with rfl | rfl <;> decide
  have parsed := lawful.or3_first (gdbPacket mpc) (gdbNotification mpc) (lawful.apply gdbfAcknowledge taken)
  have result : gdbfAcknowledge [kindToChar kind] = .ok ⟨kind, none, (0, 0)⟩ := by
    rcases ack with rfl | rfl <;> rfl
  unfold gdbParsePkt
  rw [lawful.predictive, show mpc.run false (gdbParseStage1 mpc) _ = _ from parsed, result]

theorem acknowledge_fails (back : Bool) {c : BitVec 8} (other : c ∉ [ascii '+', ascii '-']) (rest : CString) :
    mpc.run back (gdbAcknowledge mpc) (c :: rest) = .failed (c :: rest) := by
  refine lawful.apply_failed _ ?_
  rw [lawful.oneof, one, if_neg (by simpa using other)]

theorem parse_packet {data : CString} (clean : ∀ c ∈ data, c ∉ [ascii '#', ascii '$']) (first second : BitVec 8) :
    gdbParsePkt mpc (ascii '$' :: data ++ [ascii '#', first, second]) =
      some (.ok ⟨.packet, some data, (first, second)⟩) := by
  have start := lawful.char false (ascii '$') (ascii '$' :: (data ++ [ascii '#', first, second]))
  rw [one, if_pos (by decide)] at start
  have text := lawful.many_noneof false [first, second] clean
    (show ascii '#' ∈ [ascii '#', ascii '$'] by decide)
  have parsed := lawful.or3_second (gdbNotification mpc)
    (acknowledge_fails lawful false (by decide) (data ++ [ascii '#', first, second]))
    (lawful.and3 gdbfPacket start text (run_gdbCsum lawful false first second []))
  unfold gdbParsePkt
  rw [List.cons_append, lawful.predictive, show mpc.run false (gdbParseStage1 mpc) _ = _ from parsed]
  rfl

/-- Nothing starts with `#`. -/
theorem parse_hash (rest : CString) : gdbParsePkt mpc (ascii '#' :: rest) = none := by
  have dollar := lawful.char false (ascii '$') (ascii '#' :: rest)
  have percent := lawful.char false (ascii '%') (ascii '#' :: rest)
  rw [one, if_neg (by decide)] at dollar percent
  have failed := lawful.or3_failed (acknowledge_fails lawful false (by decide) rest)
    (lawful.and3_failed gdbfPacket (mpc.many (mpc.noneof [ascii '#', ascii '$'])) (gdbCsum mpc) dollar)
    (lawful.and3_failed gdbfPacket (mpc.many (mpc.noneof [ascii '#', ascii '$', ascii '%'])) (gdbCsum mpc) percent)
  unfold gdbParsePkt
  rw [lawful.predictive, show mpc.run false (gdbParseStage1 mpc) _ = _ from failed]

end Lawful

/-! ## The round trip -/

/-- What is printed is read as the packet it was printed from, and its checksum is accepted. -/
def RoundTrips (mpc : Combinators (BitVec 8)) (kind : GdbKind) (data : Option CString) : Prop :=
  ∃ text pkt, gdbSerialize kind data = .ok text ∧ gdbParsePkt mpc text = some (.ok pkt) ∧
    pkt.kind = kind ∧ pkt.data = data ∧ gdbIsValid pkt = .ok true

theorem gdbSerialize_ack {kind : GdbKind} (ack : kind = .nack ∨ kind = .ack) {data : Option CString} {text : CString} :
    gdbSerialize kind data = .ok text ↔ data = none ∧ text = [kindToChar kind] := by
  unfold gdbSerialize
  rw [if_pos ack]
  split
  case isTrue absent => simp [absent, eq_comm]
  case isFalse given => simp [given]

/-- A buffer of five bytes more than the data has room for two digits, and `int` for the length. -/
theorem gdbSerialize_data {kind : GdbKind} (other : ¬ (kind = .nack ∨ kind = .ack)) {data text : CString} :
    gdbSerialize kind (some data) = .ok text ↔ ∃ csum, calcCsum data = .ok csum ∧ data.length + 4 ≤ intMax ∧
      (formatCsum csum).length = 2 ∧ text = kindToChar kind :: data ++ ascii '#' :: formatCsum csum := by
  unfold gdbSerialize
  rw [if_neg other]
  dsimp only
  cases sum : calcCsum data with
  | error e => simp
  | ok csum =>
    have least : 2 ≤ (formatCsum csum).length := by
      unfold formatCsum
      rw [List.length_append, List.length_replicate]
      omega
    have whole : (kindToChar kind :: data ++ ascii '#' :: formatCsum csum).length =
        data.length + 2 + (formatCsum csum).length := by
      rw [List.length_append, List.length_cons, List.length_cons]
      omega
    dsimp only
    rw [whole]
    constructor
    · intro printed
      split at printed
      · cases printed
      split at printed
      · cases printed
      refine ⟨csum, rfl, ?_, ?_, (Except.ok.inj printed).symm⟩ <;> omega
    · rintro ⟨csum', same, fits, two, rfl⟩
      cases same
      rw [if_neg (by omega), if_neg (by omega)]

theorem gdbSerialize_null {kind : GdbKind} (other : ¬ (kind = .nack ∨ kind = .ack)) :
    gdbSerialize kind none = .error .nullPointer :=
  if_neg other

/-- Two digits are printed where the remainder is not below zero. -/
theorem twoDigits_of_length {data : CString} {csum : Int} (sum : calcCsum data = .ok csum)
    (two : (formatCsum csum).length = 2) : Bounded data ∧ (0 ≤ signedSum data ∨ 256 ∣ signedSum data) := by
  by_cases bounded : Bounded data
  · rw [calcCsum_of_bounded bounded] at sum
    obtain rfl := Except.ok.inj sum
    refine ⟨bounded, (tmod_signedSum data).mp ?_⟩
    have above : 0 ≤ (signedSum data).tmod 256 := by
      by_contra below
      have small : -256 < (signedSum data).tmod 256 := by
        have size := Int.lt_tmod_of_pos (signedSum data) (b := 256) (by decide)
        omega
      exact length_formatCsum_of_neg (Int.not_le.mp below) small two
    have size := Int.tmod_lt_of_pos (signedSum data) (b := 256) (by decide)
    have same : (signedSum data).tmod 256 % 256 = signedSum data % 256 := by
      rw [Int.tmod_eq_emod]
      split <;> omega
    rw [signedSum_emod] at same
    omega
  · rw [calcCsum_of_not_bounded bounded] at sum
    cases sum

/-- Acknowledgements come back, and packets whose checksum has two digits; no notification does. -/
theorem serialize_parse_iff {mpc : Combinators (BitVec 8)} (lawful : mpc.Lawful) (kind : GdbKind) {data : Option CString}
    (clean : ∀ text ∈ data, ∀ c ∈ text, c ∉ [ascii '#', ascii '$', ascii '%']) :
    RoundTrips mpc kind data ↔ ((kind = .ack ∨ kind = .nack) ∧ data = none) ∨
      (kind = .packet ∧ ∃ text, data = some text ∧ Bounded text ∧ (0 ≤ signedSum text ∨ 256 ∣ signedSum text) ∧
        text.length + 4 ≤ intMax) := by
  constructor
  · rintro ⟨text, pkt, printed, parsed, -⟩
    by_cases ack : kind = .nack ∨ kind = .ack
    · exact .inl ⟨ack.symm, ((gdbSerialize_ack ack).mp printed).1⟩
    · cases data with
      | none =>
        rw [gdbSerialize_null ack] at printed
        cases printed
      | some data =>
        obtain ⟨csum, sum, fits, two, rfl⟩ := (gdbSerialize_data ack).mp printed
        have digits := twoDigits_of_length sum two
        cases kind with
        | notify =>
          rw [show kindToChar .notify = ascii '#' from rfl, List.cons_append, parse_hash lawful] at parsed
          cases parsed
        | packet => exact .inr ⟨rfl, data, rfl, digits.1, digits.2, fits⟩
        | nack => exact absurd (.inl rfl) ack
        | ack => exact absurd (.inr rfl) ack
  · rintro (⟨ack, rfl⟩ | ⟨rfl, data, rfl, bounded, sign, fits⟩)
    · exact ⟨_, _, (gdbSerialize_ack ack.symm).mpr ⟨rfl, rfl⟩, parse_acknowledge lawful ack.symm, rfl, rfl, rfl⟩
    · have small : unsignedSum data % 256 < 256 := Nat.mod_lt _ (by decide)
      have sum := calcCsum_of_sign bounded sign
      have digits := formatCsum_of_small small
      have plain : ∀ c ∈ data, c ∉ [ascii '#', ascii '$'] := by
        intro c inside found
        have other := clean data rfl c inside
        simp only [List.mem_cons, List.not_mem_nil, or_false, not_or] at other found
        exact found.elim other.1 other.2.1
      have printed : gdbSerialize .packet (some data) = .ok (ascii '$' :: data ++ [ascii '#',
          (twoDigits (unsignedSum data % 256)).1, (twoDigits (unsignedSum data % 256)).2]) := by
        rw [gdbSerialize_data (by decide)]
        exact ⟨_, sum, fits, by rw [digits]; rfl, by rw [digits]; rfl⟩
      have valid := gdbIsValid_of_calcCsum small sum .packet (twoDigits (unsignedSum data % 256))
      rw [decide_eq_true rfl] at valid
      exact ⟨_, _, printed, parse_packet lawful plain _ _, rfl, rfl, valid⟩

/-- `$OK#9a`. -/
theorem serialize_parse_ok : RoundTrips (Combinators.direct (BitVec 8)) .packet (some [ascii 'O', ascii 'K']) := by
  refine (serialize_parse_iff Combinators.lawful_direct .packet (by decide)).mpr (.inr ⟨rfl, _, rfl, ?_, ?_, ?_⟩)
  · intro part front
    rw [← List.mem_inits] at front
    revert part
    decide
  · exact .inl (by decide)
  · decide

/-- A notification is printed with a `#` in front. -/
theorem not_serialize_parse : ¬ ∀ kind data, 0#8 ∉ data → (∀ c ∈ data, c ∉ [ascii '#', ascii '$', ascii '%']) →
    RoundTrips (Combinators.direct (BitVec 8)) kind (some data) := by
  intro all
  obtain ⟨text, pkt, printed, parsed, -⟩ := all .notify [ascii 'a'] (by decide) (by decide)
  have start : gdbSerialize .notify (some [ascii 'a']) = .ok [ascii '#', ascii 'a', ascii '#', ascii '6', ascii '1'] := by
    decide
  rw [start] at printed
  obtain rfl := Except.ok.inj printed
  rw [parse_hash Combinators.lawful_direct] at parsed
  cases parsed

end RiscvVp.LibGdb
