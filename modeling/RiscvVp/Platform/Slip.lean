/-
# RiscvVp.Platform.Slip -- packets over a serial line

`SLIP` frames the packets of a network device for the UART (`handle_input`) and takes the frames of
the guest apart again (`write_data`).  The decoder keeps no flag for an escape: it looks at the last
byte of its buffer, which may also be a decoded one.  So a packet comes through exactly when it has
no escape byte in front of one of the two codes.
-/
import Mathlib.Data.BitVec
import Mathlib.Data.List.Chain

namespace RiscvVp

set_option autoImplicit false

abbrev Packet := List (BitVec 8)

/-- `sndcap` is the size that the buffer has been allocated with, and `sent` is what was written to
the device. -/
structure Slip where
  sndbuf : Nat → BitVec 8
  sndcap : Nat
  sndsiz : Nat
  sent : List Packet

namespace Slip

/-- `SLIP_SNDBUF_STEP`. -/
def sndbufStep : Nat := 1500

def slipEnd : BitVec 8 := 0xC0

def slipEsc : BitVec 8 := 0xDB

def slipEscEnd : BitVec 8 := 0xDC

def slipEscEsc : BitVec 8 := 0xDD

/-! ## The encoder -/

/-- One turn of the loop of `handle_input`. -/
def pushed (data : BitVec 8) : List (BitVec 8) :=
  if data = slipEnd then [slipEsc, slipEscEnd]
  else if data = slipEsc then [slipEsc, slipEscEsc]
  else [data]

/-- What `handle_input` pushes for the packet that it reads. -/
def handleInput (rcvbuf : Packet) : List (BitVec 8) := rcvbuf.flatMap pushed ++ [slipEnd]

/-! ## The decoder -/

/-- An access beyond the buffer. -/
inductive Fault where
  | outside
deriving DecidableEq

section Decoder

variable (s : Slip)

def packet : Packet := (List.range s.sndsiz).map s.sndbuf

def store (i : Nat) (data : BitVec 8) : Except Fault Slip :=
  if i < s.sndcap then .ok { s with sndbuf := Function.update s.sndbuf i data } else .error .outside

/-- The device takes the whole packet. -/
def sendPacket : Except Fault Slip :=
  if s.sndsiz ≤ s.sndcap then
    .ok { s with
      sent := s.sent ++ [s.packet]
      sndcap := if sndbufStep < s.sndsiz then sndbufStep else s.sndcap
      sndsiz := 0 }
  else .error .outside

/-- The buffer is full where its size is a multiple of the step. -/
def grow : Slip :=
  if 0 < s.sndsiz ∧ s.sndsiz % sndbufStep = 0 then { s with sndcap := s.sndsiz + sndbufStep } else s

def push (data : BitVec 8) : Except Fault Slip :=
  (s.store s.sndsiz data).map fun s => { s with sndsiz := s.sndsiz + 1 }

def writeData (data : BitVec 8) : Except Fault Slip :=
  if data = slipEnd then
    if 0 < s.sndsiz then s.sendPacket else .ok s
  else if 0 < s.sndsiz ∧ s.sndbuf (s.sndsiz - 1) = slipEsc ∧ data = slipEscEnd then
    s.store (s.sndsiz - 1) slipEnd
  else if 0 < s.sndsiz ∧ s.sndbuf (s.sndsiz - 1) = slipEsc ∧ data = slipEscEsc then
    s.store (s.sndsiz - 1) slipEsc
  else s.grow.push data

/-- The constructor, with whatever `malloc` has left in the buffer. -/
def init (sndbuf : Nat → BitVec 8) : Slip := ⟨sndbuf, sndbufStep, 0, []⟩

end Decoder

/-! ## The packets without their buffer -/

/-- The packet so far, and those before it. -/
structure Framer where
  packet : Packet
  sent : List Packet

/-- A byte behind those of the packet: it may change the last one. -/
def append (packet : Packet) (data : BitVec 8) : Packet :=
  if packet.getLast? = some slipEsc ∧ data = slipEscEnd then packet.dropLast ++ [slipEnd]
  else if packet.getLast? = some slipEsc ∧ data = slipEscEsc then packet.dropLast ++ [slipEsc]
  else packet ++ [data]

def Framer.accept (f : Framer) (data : BitVec 8) : Framer :=
  if data = slipEnd then
    if f.packet = [] then f else ⟨[], f.sent ++ [f.packet]⟩
  else { f with packet := append f.packet data }

variable {s t : Slip} {f : Framer} {data : BitVec 8}

/-- The buffer has room for what is in it, and a place more unless it is full to a step. -/
structure Sized (s : Slip) : Prop where
  step : s.sndcap % sndbufStep = 0
  room : 0 < s.sndcap
  fits : s.sndsiz ≤ s.sndcap
  tight : s.sndcap = sndbufStep ∨ s.sndcap < s.sndsiz + sndbufStep

structure Holds (s : Slip) (f : Framer) : Prop where
  sized : s.Sized
  packet : s.packet = f.packet
  sent : s.sent = f.sent

theorem holds_init (sndbuf : Nat → BitVec 8) : (init sndbuf).Holds ⟨[], []⟩ :=
  ⟨⟨Nat.mod_self _, Nat.zero_lt_succ _, Nat.zero_le _, .inl rfl⟩, rfl, rfl⟩

theorem Holds.length (holds : s.Holds f) : f.packet.length = s.sndsiz := by
  rw [← holds.packet]
  simp [Slip.packet]

theorem Holds.getLast? (holds : s.Holds f) (filled : 0 < s.sndsiz) :
    f.packet.getLast? = some (s.sndbuf (s.sndsiz - 1)) := by
  have last : s.sndsiz - 1 < s.sndsiz := by omega
  rw [← holds.packet, List.getLast?_eq_getElem?]
  simp [Slip.packet, List.getElem?_range last]

/-- The condition of the two escapes, in the code and on the packet. -/
theorem Holds.escaped_iff (holds : s.Holds f) :
    (0 < s.sndsiz ∧ s.sndbuf (s.sndsiz - 1) = slipEsc) ↔ f.packet.getLast? = some slipEsc := by
  by_cases filled : 0 < s.sndsiz
  · rw [holds.getLast? filled]
    simp [filled]
  · have empty : f.packet = [] := by
      apply List.eq_nil_of_length_eq_zero
      rw [holds.length]
      omega
    simp [filled, empty]

theorem map_range_update (sndbuf : Nat → BitVec 8) (n : Nat) :
    (List.range n).map (Function.update sndbuf n data) = (List.range n).map sndbuf := by
  refine List.map_congr_left fun i inside => Function.update_of_ne ?_ _ _
  exact Nat.ne_of_lt (List.mem_range.mp inside)

theorem holds_push (holds : s.Holds f) : ∃ t, s.grow.push data = .ok t ∧
    t.Holds { f with packet := f.packet ++ [data] } := by
  obtain ⟨step, room, fits, tight⟩ := holds.sized
  have bigger : s.sndsiz < s.grow.sndcap ∧ s.grow.sndcap % sndbufStep = 0 ∧
      (s.grow.sndcap = sndbufStep ∨ s.grow.sndcap < s.sndsiz + 1 + sndbufStep) := by
    unfold grow
    unfold sndbufStep at *
    split
    case isTrue full =>
      refine ⟨?_, ?_, ?_⟩
      · show s.sndsiz < s.sndsiz + 1500
        omega
      · show (s.sndsiz + 1500) % 1500 = 0
        omega
      · show s.sndsiz + 1500 = 1500 ∨ s.sndsiz + 1500 < s.sndsiz + 1 + 1500
        omega
    case isFalse => omega
  have same : s.grow.sndsiz = s.sndsiz ∧ s.grow.sndbuf = s.sndbuf ∧ s.grow.sent = s.sent := by
    unfold grow
    split <;> exact ⟨rfl, rfl, rfl⟩
  generalize s.grow = u at bigger same
  obtain ⟨size, buffer, sent⟩ := same
  rw [← size] at bigger
  refine ⟨{ u with sndbuf := Function.update u.sndbuf u.sndsiz data, sndsiz := u.sndsiz + 1 }, ?_, ?_, ?_, ?_⟩
  · unfold push store
    rw [if_pos bigger.1]
    rfl
  · exact ⟨bigger.2.1, Nat.zero_lt_of_lt bigger.1, bigger.1, bigger.2.2⟩
  · show (List.range (u.sndsiz + 1)).map (Function.update u.sndbuf u.sndsiz data) = f.packet ++ [data]
    rw [List.range_succ, List.map_append, map_range_update, List.map_singleton, Function.update_self,
      size, buffer, ← holds.packet]
    rfl
  · exact sent.trans holds.sent

/-- The last byte is an escape byte no longer. -/
theorem holds_store (holds : s.Holds f) (filled : 0 < s.sndsiz) : ∃ t, s.store (s.sndsiz - 1) data = .ok t ∧
    t.Holds { f with packet := f.packet.dropLast ++ [data] } := by
  have fits := holds.sized.fits
  refine ⟨{ s with sndbuf := Function.update s.sndbuf (s.sndsiz - 1) data }, ?_, ?_, ?_, holds.sent⟩
  · unfold store
    rw [if_pos (by omega)]
  · exact ⟨holds.sized.step, holds.sized.room, fits, holds.sized.tight⟩
  · show (List.range s.sndsiz).map (Function.update s.sndbuf (s.sndsiz - 1) data) = f.packet.dropLast ++ [data]
    have last : List.range s.sndsiz = List.range (s.sndsiz - 1) ++ [s.sndsiz - 1] := by
      rw [← List.range_succ]
      congr 1
      omega
    have before : f.packet.dropLast = (List.range (s.sndsiz - 1)).map s.sndbuf := by
      rw [← holds.packet]
      unfold Slip.packet
      rw [last, List.map_append, List.map_singleton, List.dropLast_concat]
    rw [last, List.map_append, map_range_update, List.map_singleton, Function.update_self, before]

theorem holds_sendPacket (holds : s.Holds f) : ∃ t, s.sendPacket = .ok t ∧
    t.Holds ⟨[], f.sent ++ [f.packet]⟩ := by
  obtain ⟨step, room, fits, tight⟩ := holds.sized
  refine ⟨_, if_pos fits, ⟨?_, ?_, Nat.zero_le _, ?_⟩, rfl, ?_⟩
  · show (if sndbufStep < s.sndsiz then sndbufStep else s.sndcap) % sndbufStep = 0
    split
    · rfl
    · exact step
  · show 0 < if sndbufStep < s.sndsiz then sndbufStep else s.sndcap
    split
    · decide
    · exact room
  · left
    show (if sndbufStep < s.sndsiz then sndbufStep else s.sndcap) = sndbufStep
    split
    · rfl
    · unfold sndbufStep at *
      omega
  · show s.sent ++ [s.packet] = f.sent ++ [f.packet]
    rw [holds.sent, holds.packet]

/-- No access leaves the buffer, and the buffer holds what it should. -/
theorem holds_writeData (holds : s.Holds f) (data : BitVec 8) :
    ∃ t, s.writeData data = .ok t ∧ t.Holds (f.accept data) := by
  have escape := holds.escaped_iff
  have empty : f.packet = [] ↔ ¬ 0 < s.sndsiz := by
    rw [← List.length_eq_zero_iff, holds.length]
    omega
  unfold writeData Framer.accept append
  by_cases last : data = slipEnd
  · rw [if_pos last, if_pos last]
    by_cases filled : 0 < s.sndsiz
    · rw [if_pos filled, if_neg (mt empty.mp (not_not_intro filled))]
      exact holds_sendPacket holds
    · rw [if_neg filled, if_pos (empty.mpr filled)]
      exact ⟨s, rfl, holds⟩
  · rw [if_neg last, if_neg last]
    simp only [← and_assoc, escape]
    by_cases first : f.packet.getLast? = some slipEsc ∧ data = slipEscEnd
    · simp only [if_pos first]
      exact holds_store holds (escape.mpr first.1).1
    · simp only [if_neg first]
      by_cases second : f.packet.getLast? = some slipEsc ∧ data = slipEscEsc
      · simp only [if_pos second]
        exact holds_store holds (escape.mpr second.1).1
      · simp only [if_neg second]
        exact holds_push holds

theorem holds_run (holds : s.Holds f) (bytes : List (BitVec 8)) :
    ∃ t, bytes.foldlM writeData s = .ok t ∧ t.Holds (bytes.foldl Framer.accept f) := by
  induction bytes generalizing s f with
  | nil => exact ⟨s, rfl, holds⟩
  | cons data bytes ih =>
    obtain ⟨t, wrote, next⟩ := holds_writeData holds data
    rw [List.foldlM_cons, wrote, List.foldl_cons]
    exact ih next

/-! ## What comes through -/

/-- The decoder takes `b` for the code of an escape. -/
def Taken (a b : BitVec 8) : Prop := a = slipEsc ∧ (b = slipEscEnd ∨ b = slipEscEsc)

/-- No escape byte stands in front of one of the codes. -/
def Plain (packet : Packet) : Prop := packet.IsChain fun a b => ¬ Taken a b

instance {a b : BitVec 8} : Decidable (Taken a b) := inferInstanceAs (Decidable (_ ∧ _))

instance {packet : Packet} : Decidable (Plain packet) := inferInstanceAs (Decidable (List.IsChain _ _))

/-- The two bytes of an escape come to the byte they stand for. -/
theorem foldl_pushed (f : Framer) (data : BitVec 8) :
    (pushed data).foldl Framer.accept f = { f with packet := append f.packet data } := by
  unfold pushed
  split
  case isTrue last =>
    subst last
    simp [Framer.accept, append, slipEnd, slipEsc, slipEscEnd, slipEscEsc]
  case isFalse other =>
    split
    case isTrue escape =>
      subst escape
      simp [Framer.accept, append, slipEnd, slipEsc, slipEscEnd, slipEscEsc]
    case isFalse => simp [Framer.accept, other]

/-- The packet that a packet comes out as. -/
def received (packet : Packet) : Packet := packet.foldl append []

theorem foldl_flatMap_pushed (packet : Packet) (f : Framer) :
    (packet.flatMap pushed).foldl Framer.accept f = { f with packet := packet.foldl append f.packet } := by
  induction packet generalizing f with
  | nil => rfl
  | cons data packet ih => rw [List.flatMap_cons, List.foldl_append, foldl_pushed, ih, List.foldl_cons]

theorem append_of_taken {packet : Packet} {a data : BitVec 8} (last : packet.getLast? = some a)
    (taken : Taken a data) : (append packet data).length = packet.length := by
  obtain ⟨rfl, code⟩ := taken
  have some : packet.length ≠ 0 := by
    intro empty
    rw [List.length_eq_zero_iff] at empty
    simp [empty] at last
  unfold append
  rcases code with rfl | rfl
  · rw [if_pos ⟨last, rfl⟩]
    simp
    omega
  · rw [if_neg fun both => absurd both.2 (by decide), if_pos ⟨last, rfl⟩]
    simp
    omega

theorem append_of_plain {packet : Packet} {data : BitVec 8}
    (plain : ∀ a ∈ packet.getLast?, ¬ Taken a data) : append packet data = packet ++ [data] := by
  unfold append
  rw [if_neg fun both => plain _ both.1 ⟨rfl, .inl both.2⟩, if_neg fun both => plain _ both.1 ⟨rfl, .inr both.2⟩]

theorem length_append_le (packet : Packet) (data : BitVec 8) :
    (append packet data).length ≤ packet.length + 1 := by
  by_cases plain : ∀ a ∈ packet.getLast?, ¬ Taken a data
  · simp [append_of_plain plain]
  · push Not at plain
    obtain ⟨a, last, taken⟩ := plain
    have same := append_of_taken last taken
    omega

theorem append_ne_nil (packet : Packet) (data : BitVec 8) : append packet data ≠ [] := by
  unfold append
  split
  · simp
  · split <;> simp

theorem length_foldl_le (packet buffer : Packet) :
    (packet.foldl append buffer).length ≤ buffer.length + packet.length := by
  induction packet generalizing buffer with
  | nil => simp
  | cons data packet ih =>
    have one := length_append_le buffer data
    have rest := ih (append buffer data)
    simp only [List.foldl_cons, List.length_cons]
    omega

theorem foldl_ne_nil {packet buffer : Packet} (some : buffer ≠ []) : packet.foldl append buffer ≠ [] := by
  induction packet generalizing buffer with
  | nil => exact some
  | cons data packet ih => exact ih (append_ne_nil buffer data)

theorem received_ne_nil {packet : Packet} (some : packet ≠ []) : received packet ≠ [] := by
  cases packet with
  | nil => exact absurd rfl some
  | cons data packet =>
    show packet.foldl append (append [] data) ≠ []
    exact foldl_ne_nil (append_ne_nil [] data)

/-- A byte that is taken for a code makes the packet shorter for good. -/
theorem foldl_eq_iff {packet buffer : Packet} (before : Plain buffer) :
    packet.foldl append buffer = buffer ++ packet ↔ Plain (buffer ++ packet) := by
  induction packet generalizing buffer with
  | nil => simp [before]
  | cons data packet ih =>
    by_cases plain : ∀ a ∈ buffer.getLast?, ¬ Taken a data
    · have next : Plain (buffer ++ [data]) := by
        refine List.IsChain.append before (.singleton data) fun a last b first => ?_
        cases first
        exact plain a last
      have whole : buffer ++ data :: packet = buffer ++ [data] ++ packet := by simp
      rw [List.foldl_cons, append_of_plain plain, whole]
      exact ih next
    · have mixed : ¬ Plain (buffer ++ data :: packet) := by
        intro chain
        exact plain fun a last => (List.isChain_append.mp chain).2.2 a last data rfl
      refine iff_of_false ?_ mixed
      push Not at plain
      obtain ⟨a, last, taken⟩ := plain
      intro same
      have kept := append_of_taken last taken
      have rest := length_foldl_le packet (append buffer data)
      have count := congrArg List.length same
      rw [List.foldl_cons, List.length_append, List.length_cons] at count
      omega

theorem received_eq_iff (packet : Packet) : received packet = packet ↔ Plain packet :=
  foldl_eq_iff (show Plain [] from .nil)

theorem foldl_handleInput {packet : Packet} (some : packet ≠ []) (sent : List Packet) :
    (handleInput packet).foldl Framer.accept ⟨[], sent⟩ = ⟨[], sent ++ [received packet]⟩ := by
  unfold handleInput
  rw [List.foldl_append, foldl_flatMap_pushed]
  show Framer.accept ⟨received packet, sent⟩ slipEnd = _
  unfold Framer.accept
  rw [if_pos rfl, if_neg (received_ne_nil some)]

theorem foldl_packets {packets : List Packet} (some : ∀ packet ∈ packets, packet ≠ []) (sent : List Packet) :
    (packets.flatMap handleInput).foldl Framer.accept ⟨[], sent⟩ = ⟨[], sent ++ packets.map received⟩ := by
  induction packets generalizing sent with
  | nil => simp
  | cons packet packets ih =>
    obtain ⟨first, rest⟩ := List.forall_mem_cons.mp some
    rw [List.flatMap_cons, List.foldl_append, foldl_handleInput first, ih rest]
    simp

/-- The packets come out as they went in, and no access leaves the buffer, exactly when all of them
are plain. -/
theorem roundTrip_iff (sndbuf : Nat → BitVec 8) {packets : List Packet}
    (some : ∀ packet ∈ packets, packet ≠ []) :
    (∃ t, (packets.flatMap handleInput).foldlM writeData (init sndbuf) = .ok t ∧ t.sent = packets) ↔
      ∀ packet ∈ packets, Plain packet := by
  obtain ⟨t, ran, holds⟩ := holds_run (holds_init sndbuf) (packets.flatMap handleInput)
  rw [foldl_packets some] at holds
  have sent : t.sent = packets.map received := holds.sent
  have each : packets.map received = packets ↔ ∀ packet ∈ packets, Plain packet := by
    have same := List.map_inj_left (l := packets) (f := received) (g := id)
    rw [List.map_id] at same
    simpa only [id, received_eq_iff] using same
  rw [← each, ← sent]
  constructor
  · rintro ⟨u, ran', same⟩
    cases ran.symm.trans ran'
    exact same
  · intro same
    exact ⟨t, ran, same⟩

/-- Both escapes, one behind the other. -/
theorem roundTrip_escapes : ∃ t, ([[slipEsc, slipEnd], [slipEscEnd]].flatMap handleInput).foldlM writeData
    (init fun _ => 0) = .ok t ∧ t.sent = [[slipEsc, slipEnd], [slipEscEnd]] :=
  (roundTrip_iff (fun _ => 0) (by decide)).mpr (by decide)

/-- An escape byte and a code make one byte of the two. -/
theorem not_roundTrip : ¬ ∀ (sndbuf : Nat → BitVec 8) (packets : List Packet), (∀ packet ∈ packets, packet ≠ []) →
    ∃ t, (packets.flatMap handleInput).foldlM writeData (init sndbuf) = .ok t ∧ t.sent = packets := by
  intro all
  obtain ⟨t, ran, sent⟩ := all (fun _ => 0) [[slipEsc, slipEscEnd]] (by decide)
  have told : (([[slipEsc, slipEscEnd]].flatMap handleInput).foldlM writeData (init fun _ => 0)).map Slip.sent =
      .ok [[slipEnd]] := by decide
  rw [ran] at told
  have other : t.sent = [[slipEnd]] := Except.ok.inj told
  rw [sent] at other
  exact absurd other (by decide)

end Slip

end RiscvVp
