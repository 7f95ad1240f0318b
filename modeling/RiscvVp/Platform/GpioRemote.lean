/-
# RiscvVp.Platform.GpioRemote -- pins over a connection

A client sets pins and asks for the bank of all of them; `GpioServer` serves its requests in a thread
of its own, from a stream of bytes, while the device changes the pins as well.  However the bytes are
cut and whoever is first, an `update` that succeeds has seen the pins as they were at one moment: with
all that the client itself had set before.

The callback of a change and the callback of a register access take turns as wholes here.  The source
has no lock on `server.state`: runs in which one of them is in the middle of the other, and may lose
what it wrote, are not among these.
-/
import RiscvVp.Lib.Runs
import RiscvVp.Platform.Gpio

namespace RiscvVp.GpioRemote

set_option autoImplicit false

open Lib

/-! ## Requests -/

/-- `GpioCommon::Request`; the second byte has the pin in its low six bits and the level above. -/
structure Request where
  op : BitVec 8
  setBit : BitVec 8

namespace Operation

def getBank : BitVec 8 := 1
def setBit : BitVec 8 := 2

end Operation

namespace Request

def bytes (req : Request) : List (BitVec 8) := [req.op, req.setBit]

def pos (req : Request) : Fin 64 := (req.setBit.extractLsb' 0 6).toFin

/-- A `Tristate` of two bits. -/
def val (req : Request) : BitVec 8 := (req.setBit.extractLsb' 6 2).setWidth 8

def ofGetBank : Request := ⟨Operation.getBank, 0⟩

/-- The bit fields cut both arguments. -/
def ofSetBit (pos val : BitVec 8) : Request :=
  ⟨Operation.setBit, val.extractLsb' 0 2 ++ pos.extractLsb' 0 6⟩

@[simp] theorem length_bytes (req : Request) : req.bytes.length = 2 := rfl

@[simp] theorem pos_ofSetBit (pos val : BitVec 8) :
    (ofSetBit pos val).pos = (pos.extractLsb' 0 6).toFin := by
  have low : (val.extractLsb' 0 2 ++ pos.extractLsb' 0 6).extractLsb' 0 6 = pos.extractLsb' 0 6 := by
    rw [BitVec.extractLsb'_append_eq_of_add_le (Nat.le_refl 6), BitVec.extractLsb'_eq_self]
  exact congrArg BitVec.toFin low

@[simp] theorem val_ofSetBit (pos val : BitVec 8) :
    (ofSetBit pos val).val = (val.extractLsb' 0 2).setWidth 8 := by
  have high : (val.extractLsb' 0 2 ++ pos.extractLsb' 0 6).extractLsb' 6 2 = val.extractLsb' 0 2 := by
    rw [BitVec.extractLsb'_append_eq_of_le (Nat.le_refl 6), BitVec.extractLsb'_eq_self]
  exact congrArg (BitVec.setWidth 8) high

end Request

/-- A `Reg` as it is sent. -/
def bytesOf (state : BitVec 64) : List (BitVec 8) :=
  (List.range 8).map fun k => state.extractLsb' (8 * k) 8

def ofBytes : List (BitVec 8) → BitVec 64
  | [] => 0
  | byte :: bytes => byte.setWidth 64 ||| ofBytes bytes <<< 8

@[simp] theorem length_bytesOf (state : BitVec 64) : (bytesOf state).length = 8 := by simp [bytesOf]

theorem getLsbD_ofBytes (bytes : List (BitVec 8)) {i : Nat} (inside : i < 64) :
    (ofBytes bytes).getLsbD i = (bytes.getD (i / 8) 0).getLsbD (i % 8) := by
  induction bytes generalizing i with
  | nil => simp [ofBytes]
  | cons byte bytes ih =>
    rw [ofBytes, BitVec.getLsbD_or, BitVec.getLsbD_setWidth, BitVec.getLsbD_shiftLeft]
    by_cases first : i < 8
    · simp [first, inside, Nat.div_eq_of_lt first, Nat.mod_eq_of_lt first]
    · obtain ⟨j, rfl⟩ : ∃ j, i = j + 8 := ⟨i - 8, by omega⟩
      have beyond : byte.getLsbD (j + 8) = false := BitVec.getLsbD_of_ge _ _ (by omega)
      rw [beyond, Nat.add_div_right _ (by decide), Nat.add_mod_right, Nat.add_sub_cancel, ih (by omega)]
      simp [inside]

theorem ofBytes_bytesOf (state : BitVec 64) : ofBytes (bytesOf state) = state := by
  refine BitVec.eq_of_getLsbD_eq fun i inside => ?_
  have byte : (bytesOf state).getD (i / 8) 0 = state.extractLsb' (8 * (i / 8)) 8 := by
    have below : i / 8 < 8 := by omega
    simp [bytesOf, List.getD_eq_getElem?_getD, below]
  have whole : 8 * (i / 8) + i % 8 = i := Nat.div_add_mod i 8
  rw [getLsbD_ofBytes _ inside, byte, BitVec.getLsbD_extractLsb', whole]
  simp [Nat.mod_lt]

/-! ## The connection -/

variable {σ ι : Type}

/-- What the server serves: the levels of the pins, the callback for a change (or what is done
without one), and what else happens to them. -/
structure Backend (σ ι : Type) where
  bank : σ → BitVec 64
  change : Fin 64 → BitVec 8 → σ → σ
  other : ι → σ → σ

/-- Where the server is: in `read`, or behind the loop, with the connection closed or left open. -/
inductive Serving where
  | reading
  | closed
  | left
deriving DecidableEq

/-- The two parties and the bytes under way. -/
structure Link (σ : Type) where
  server : σ
  serving : Serving
  up : List (BitVec 8)
  down : List (BitVec 8)
  /-- `state` of the client. -/
  client : BitVec 64
  /-- The client is in the `read` of `update`. -/
  waiting : Bool

/-- The numbers are what `read` and `write` return. -/
inductive Act (ι : Type) where
  | setBit (pos val : BitVec 8)
  | update
  | serve (n written : Nat)
  | receive (n : Nat)
  | other (i : ι)

namespace Link

variable (b : Backend σ ι) (l : Link σ)

/-- The body of the loop of `handleConnection`; a pin of six bits is never above 63. -/
def handle (written : Nat) (req : Request) : Link σ :=
  if req.op = Operation.getBank then
    { l with
      down := l.down ++ (bytesOf (b.bank l.server)).take written
      serving := if written = 8 then .reading else .closed }
  else if req.op = Operation.setBit then
    if 2 < req.val then { l with serving := .left }
    else { l with server := b.change req.pos req.val l.server }
  else { l with serving := .left }

/-- A turn of `handleConnection`: what it reads, and what comes of it. -/
def serve (n written : Nat) : Link σ :=
  match n, l.up with
  | 2, op :: setBit :: up => handle b { l with up := up } written ⟨op, setBit⟩
  | n, up => { l with up := up.drop n, serving := .closed }

/-- The end of `update`: the bytes go over the old state. -/
def receive (n : Nat) : Link σ :=
  { l with
    client := ofBytes (l.down.take n ++ (bytesOf l.client).drop n)
    down := l.down.drop n
    waiting := false }

end Link

namespace Link

variable {b : Backend σ ι} {l : Link σ} {written : Nat} {up : List (BitVec 8)}

theorem serve_getBank (asked : l.up = Request.ofGetBank.bytes) :
    l.serve b 2 written =
      { l with
        up := []
        down := l.down ++ (bytesOf (b.bank l.server)).take written
        serving := if written = 8 then .reading else .closed } := by
  unfold serve
  rw [asked]
  rfl

theorem serve_setBit {pos val : BitVec 8} (asked : l.up = (Request.ofSetBit pos val).bytes ++ up) :
    l.serve b 2 written =
      if 2 < (val.extractLsb' 0 2).setWidth 8 then { l with up := up, serving := .left }
      else
        { l with
          up := up
          server := b.change (pos.extractLsb' 0 6).toFin ((val.extractLsb' 0 2).setWidth 8) l.server } := by
  unfold serve
  rw [asked]
  show handle b { l with up := up } written (Request.ofSetBit pos val) = _
  have op : (Request.ofSetBit pos val).op = Operation.setBit := rfl
  have other : ¬ Operation.setBit = Operation.getBank := by decide
  unfold handle
  rw [op, if_neg other, if_pos rfl, Request.val_ofSetBit, Request.pos_ofSetBit]

/-- A request that is not whole ends the connection. -/
theorem serve_short {n : Nat} (short : n ≠ 2) :
    l.serve b n written = { l with up := l.up.drop n, serving := .closed } := by
  unfold serve
  split
  · exact absurd rfl short
  · rfl

end Link

/-- An action, with what the call of the client that ends there returns. -/
def step (b : Backend σ ι) (l : Link σ) : Act ι → Except Empty (Option Bool × Link σ)
  | .setBit pos val => .ok (some true, { l with up := l.up ++ (Request.ofSetBit pos val).bytes })
  | .update => .ok (none, { l with up := l.up ++ Request.ofGetBank.bytes, waiting := true })
  | .serve n written => .ok (none, l.serve b n written)
  | .receive n => .ok (some (n = 8), l.receive n)
  | .other i => .ok (none, { l with server := b.other i l.server })

/-- The client makes one call after the other; `read` returns bytes that are there, and zero at the
end of the stream. -/
def Allowed (l : Link σ) : Act ι → Prop
  | .setBit _ _ => l.waiting = false
  | .update => l.waiting = false
  | .serve n _ => l.serving = .reading ∧ n ≤ 2 ∧ n ≤ l.up.length ∧ (n = 0 → l.waiting = false)
  | .receive n => l.waiting = true ∧ n ≤ 8 ∧ n ≤ l.down.length ∧ (n = 0 → l.serving = .closed)
  | .other _ => True

/-- A client that has just connected. -/
def connected (s : σ) (client : BitVec 64) : Link σ := ⟨s, .reading, [], [], client, false⟩

/-! ## What has happened -/

inductive Effect (ι : Type) where
  | change (bit : Fin 64) (val : BitVec 8)
  | other (i : ι)

namespace Effect

def change? : Effect ι → Option (Fin 64 × BitVec 8)
  | change bit val => some (bit, val)
  | other _ => none

def other? : Effect ι → Option ι
  | change _ _ => none
  | other i => some i

end Effect

namespace Backend

variable (b : Backend σ ι) (s : σ)

def apply (s : σ) : Effect ι → σ
  | .change bit val => b.change bit val s
  | .other i => b.other i s

def after (effects : List (Effect ι)) : σ := effects.foldl b.apply s

@[simp] theorem after_snoc (effects : List (Effect ι)) (e : Effect ι) :
    b.after s (effects ++ [e]) = b.apply (b.after s effects) e := by
  simp [after]

end Backend

abbrev Log (ι : Type) := List (Act ι × Option Bool)

/-- A call of `setBit`, as the request has it. -/
def cut (call : BitVec 8 × BitVec 8) : Fin 64 × BitVec 8 :=
  ((call.1.extractLsb' 0 6).toFin, (call.2.extractLsb' 0 2).setWidth 8)

def call? : Act ι × Option Bool → Option (Fin 64 × BitVec 8)
  | (.setBit pos val, _) => some (cut (pos, val))
  | _ => none

def other? : Act ι × Option Bool → Option ι
  | (.other i, _) => some i
  | _ => none

def calls (log : Log ι) : List (Fin 64 × BitVec 8) := log.filterMap call?

def others (log : Log ι) : List ι := log.filterMap other?

@[simp] theorem calls_snoc (log : Log ι) (e : Act ι × Option Bool) :
    calls (log ++ [e]) = calls log ++ (call? e).toList := by
  cases called : call? e <;> simp [calls, called]

@[simp] theorem others_snoc (log : Log ι) (e : Act ι × Option Bool) :
    others (log ++ [e]) = others log ++ (other? e).toList := by
  cases happened : other? e <;> simp [others, happened]

/-- No `update` has failed so far. -/
def Heard (log : Log ι) : Prop := ∀ e ∈ log, e.2 ≠ some false

/-! ## The invariant -/

/-- The requests under way, and the calls they were made for. -/
def Queued (served : List (Effect ι)) (calls : List (Fin 64 × BitVec 8)) (tail up : List (BitVec 8)) : Prop :=
  ∃ pending : List (BitVec 8 × BitVec 8),
    up = pending.flatMap (fun call => (Request.ofSetBit call.1 call.2).bytes) ++ tail ∧
      served.filterMap Effect.change? ++ pending.map cut = calls

/-- The client is between two calls, or it waits for an answer that is not there yet, or is. -/
inductive Phase (b : Backend σ ι) (s : σ) (served : List (Effect ι)) (calls : List (Fin 64 × BitVec 8))
    (l : Link σ) : Prop where
  | idle (free : l.waiting = false) (down : l.down = [])
      (queue : l.serving = .reading → Queued served calls [] l.up)
  | asked (waits : l.waiting = true) (down : l.down = [])
      (queue : l.serving = .reading → Queued served calls Request.ofGetBank.bytes l.up)
  | answered (first rest : List (Effect ι)) (written : Nat) (waits : l.waiting = true)
      (split : served = first ++ rest) (all : first.filterMap Effect.change? = calls)
      (quiet : rest.filterMap Effect.change? = [])
      (down : l.down = (bytesOf (b.bank (b.after s first))).take written)
      (whole : l.serving = .reading → l.up = [])

structure Inv (b : Backend σ ι) (s : σ) (log : Log ι) (l : Link σ) (served : List (Effect ι)) : Prop where
  server : l.server = b.after s served
  others : served.filterMap Effect.other? = others log
  phase : Phase b s served (calls log) l

variable {b : Backend σ ι} {s : σ} {log : Log ι} {l : Link σ} {served : List (Effect ι)}

section Steps

variable (inv : Inv b s log l served)

include inv

theorem inv_setBit (free : l.waiting = false) (pos val : BitVec 8) :
    Inv b s (log ++ [(.setBit pos val, some true)])
      { l with up := l.up ++ (Request.ofSetBit pos val).bytes } served where
  server := inv.server
  others := by simp [other?, inv.others]
  phase := by
    cases inv.phase with
    | idle _ down queue =>
      refine .idle free down fun reading => ?_
      obtain ⟨pending, up, all⟩ := queue reading
      refine ⟨pending ++ [(pos, val)], by simp [up], ?_⟩
      simp [call?, ← all]
    | asked waits => exact absurd (free.symm.trans waits) (by decide)
    | answered _ _ _ waits => exact absurd (free.symm.trans waits) (by decide)

theorem inv_update (free : l.waiting = false) :
    Inv b s (log ++ [(.update, none)])
      { l with up := l.up ++ Request.ofGetBank.bytes, waiting := true } served where
  server := inv.server
  others := by simp [other?, inv.others]
  phase := by
    cases inv.phase with
    | idle _ down queue =>
      refine .asked rfl down fun reading => ?_
      obtain ⟨pending, up, all⟩ := queue reading
      exact ⟨pending, by simp [up], by simp [call?, ← all]⟩
    | asked waits => exact absurd (free.symm.trans waits) (by decide)
    | answered _ _ _ waits => exact absurd (free.symm.trans waits) (by decide)

theorem inv_other (i : ι) :
    Inv b s (log ++ [(.other i, none)]) { l with server := b.other i l.server }
      (served ++ [.other i]) where
  server := by simp [Backend.apply, inv.server]
  others := by simp [other?, Effect.other?, inv.others]
  phase := by
    have same : (served ++ [Effect.other i]).filterMap Effect.change? = served.filterMap Effect.change? := by
      simp [Effect.change?]
    have called : calls (log ++ [(Act.other i, none)]) = calls log := by simp [call?]
    rw [called]
    cases inv.phase with
    | idle free down queue => exact .idle free down (by unfold Queued; rw [same]; exact queue)
    | asked waits down queue => exact .asked waits down (by unfold Queued; rw [same]; exact queue)
    | answered first rest written waits split all quiet down whole =>
      refine .answered first (rest ++ [.other i]) written waits (by simp [split]) all ?_ down whole
      simp [quiet, Effect.change?]

/-- The server comes to a call of `setBit`. -/
theorem inv_serves {call : BitVec 8 × BitVec 8} {pending : List (BitVec 8 × BitVec 8)} {tail : List (BitVec 8)}
    {written : Nat} {waiting : Bool} (stays : l.waiting = waiting) (down : l.down = [])
    (asked : l.up = (Request.ofSetBit call.1 call.2).bytes ++
      (pending.flatMap (fun call => (Request.ofSetBit call.1 call.2).bytes) ++ tail))
    (all : served.filterMap Effect.change? ++ (call :: pending).map cut = calls log)
    (phase : ∀ {served' : List (Effect ι)} {l' : Link σ}, l'.waiting = waiting → l'.down = [] →
      (l'.serving = .reading → Queued served' (calls log) tail l'.up) → Phase b s served' (calls log) l') :
    ∃ served', Inv b s (log ++ [(.serve 2 written, none)]) (l.serve b 2 written) served' := by
  have called : calls (log ++ [(Act.serve 2 written, none)]) = calls log := by simp [call?]
  have happened : others (log ++ [(Act.serve 2 written, none)]) = others log := by simp [other?]
  rw [Link.serve_setBit asked]
  split
  · exact ⟨served, inv.server, by rw [happened]; exact inv.others,
      by rw [called]; exact phase stays down nofun⟩
  · refine ⟨served ++ [.change (cut call).1 (cut call).2], ?_, ?_, ?_⟩
    · rw [Backend.after_snoc, ← inv.server]
      rfl
    · rw [happened, List.filterMap_append, inv.others]
      simp [Effect.other?]
    · rw [called]
      refine phase stays down fun _ => ⟨pending, rfl, ?_⟩
      rw [← all]
      simp [Effect.change?]

theorem inv_serve {n written : Nat} (reading : l.serving = .reading) (some_ : n ≤ l.up.length)
    (none_ : n = 0 → l.waiting = false) :
    ∃ served', Inv b s (log ++ [(.serve n written, none)]) (l.serve b n written) served' := by
  have called : calls (log ++ [(Act.serve n written, none)]) = calls log := by simp [call?]
  have happened : others (log ++ [(Act.serve n written, none)]) = others log := by simp [other?]
  have busy : ∀ first, first = l.up → first = [] → l.waiting = true → False := by
    rintro first rfl empty waits
    rw [empty] at some_
    exact absurd ((none_ (Nat.le_zero.mp some_)).symm.trans waits) (by decide)
  by_cases whole : n = 2
  · subst whole
    cases inv.phase with
    | idle free down queue =>
      obtain ⟨pending, up, all⟩ := queue reading
      cases pending with
      | nil => simp [up] at some_
      | cons call pending =>
        rw [List.flatMap_cons, List.append_assoc] at up
        refine inv_serves inv free down up all ?_
        exact fun {_ _} free' down' queue' => .idle free' down' queue'
    | asked waits down queue =>
      obtain ⟨pending, up, all⟩ := queue reading
      cases pending with
      | nil =>
        rw [Link.serve_getBank up]
        refine ⟨served, inv.server, by rw [happened]; exact inv.others, ?_⟩
        rw [called]
        refine .answered served [] written waits (by simp) (by simpa using all) rfl ?_ fun _ => rfl
        simp [down, inv.server]
      | cons call pending =>
        rw [List.flatMap_cons, List.append_assoc] at up
        refine inv_serves inv waits down up all ?_
        exact fun {_ _} waits' down' queue' => .asked waits' down' queue'
    | answered _ _ _ waits _ _ _ _ empty => exact (busy _ rfl (empty reading) waits).elim
  · rw [Link.serve_short whole]
    refine ⟨served, inv.server, by rw [happened]; exact inv.others, ?_⟩
    rw [called]
    cases inv.phase with
    | idle free down => exact .idle free down nofun
    | asked waits down => exact .asked waits down nofun
    | answered _ _ _ waits _ _ _ _ empty => exact (busy _ rfl (empty reading) waits).elim

/-- An answer of eight bytes is all of an answer. -/
theorem inv_receive (there : 8 ≤ l.down.length) :
    Inv b s (log ++ [(.receive 8, some true)]) (l.receive 8) served ∧
      ∃ first rest, served = first ++ rest ∧ first.filterMap Effect.change? = calls log ∧
        (l.receive 8).client = b.bank (b.after s first) := by
  have called : calls (log ++ [(Act.receive 8, some true)]) = calls log := by simp [call?]
  have happened : others (log ++ [(Act.receive 8, some true)]) = others log := by simp [other?]
  cases inv.phase with
  | idle _ down => simp [down] at there
  | asked _ down => simp [down] at there
  | answered first rest written _ split all quiet down whole =>
    have complete : l.down = bytesOf (b.bank (b.after s first)) := by
      rw [down, List.length_take, length_bytesOf] at there
      rw [down, List.take_of_length_le (by rw [length_bytesOf]; omega)]
    refine ⟨⟨inv.server, by rw [happened]; exact inv.others, ?_⟩, first, rest, split, all, ?_⟩
    · rw [called]
      refine .idle rfl (by simp [Link.receive, complete]) fun reading => ⟨[], by simpa [Link.receive] using whole reading, ?_⟩
      simp [split, all, quiet]
    · show ofBytes (l.down.take 8 ++ (bytesOf l.client).drop 8) = _
      rw [complete, List.take_of_length_le (by simp), List.drop_of_length_le (by simp), List.append_nil,
        ofBytes_bytesOf]

end Steps

/-! ## Runs -/

theorem inv_connected (client : BitVec 64) : Inv b s [] (connected s client) [] where
  server := rfl
  others := rfl
  phase := .idle rfl rfl fun _ => ⟨[], rfl, rfl⟩

theorem inv_of_runs {client : BitVec 64} (run : Runs (step b) Allowed (connected s client) log l)
    (heard : Heard log) : ∃ served, Inv b s log l served := by
  suffices general : Heard log → ∃ served, Inv b s log l served from general heard
  clear heard
  induction run with
  | start => exact fun _ => ⟨[], inv_connected client⟩
  | @next log t u a r _ allowed took ih =>
    intro heard
    obtain ⟨served, inv⟩ := ih fun e among => heard e (List.mem_append_left _ among)
    cases a with
    | setBit pos val =>
      cases took
      exact ⟨served, inv_setBit inv allowed pos val⟩
    | update =>
      cases took
      exact ⟨served, inv_update inv allowed⟩
    | serve n written =>
      cases took
      obtain ⟨reading, -, some_, none_⟩ := allowed
      exact inv_serve inv reading some_ none_
    | receive n =>
      obtain ⟨-, -, there, -⟩ := allowed
      have last : r ≠ some false := heard (.receive n, r) (by simp)
      cases took
      have whole : n = 8 := by simpa using last
      subst whole
      exact ⟨served, (inv_receive inv there).1⟩
    | other i =>
      cases took
      exact ⟨_, inv_other inv i⟩

/-- What an `update` that succeeds has seen. -/
theorem update_sees {client : BitVec 64} (run : Runs (step b) Allowed (connected s client) log l)
    (heard : Heard log) {n : Nat} (allowed : Allowed l (.receive n : Act ι)) {l' : Link σ}
    (took : step b l (.receive n) = .ok (some true, l')) :
    ∃ effects, effects.filterMap Effect.change? = calls log ∧
      effects.filterMap Effect.other? <+: others log ∧ l'.client = b.bank (b.after s effects) := by
  obtain ⟨served, inv⟩ := inv_of_runs run heard
  obtain ⟨-, -, there, -⟩ := allowed
  have result : (n = 8) ∧ l.receive n = l' := by simpa [step] using took
  obtain ⟨rfl, rfl⟩ := result
  obtain ⟨-, first, rest, split, all, sees⟩ := inv_receive inv there
  refine ⟨first, all, ⟨rest.filterMap Effect.other?, ?_⟩, sees⟩
  rw [← inv.others, split, List.filterMap_append]

/-! ## Levels -/

/-- The level of a pin after calls of `setBit`: the last one that gave it a level. -/
def level (i : Nat) (start : Bool) (calls : List (Fin 64 × BitVec 8)) : Bool :=
  calls.foldl (fun now call =>
    if i = call.1 ∧ call.2 = 0 then false else if i = call.1 ∧ call.2 = 1 then true else now) start

/-- A change gives its pin the level, and leaves the others alone. -/
def Backend.Sets (b : Backend σ ι) : Prop := ∀ (bit : Fin 64) (val : BitVec 8) (s : σ) (i : Nat), i < 64 →
  (b.bank (b.change bit val s)).getLsbD i =
    if i = bit ∧ val = 0 then false else if i = bit ∧ val = 1 then true else (b.bank s).getLsbD i

theorem level_after (sets : b.Sets) {effects : List (Effect ι)} (alone : effects.filterMap Effect.other? = [])
    {i : Nat} (pin : i < 64) :
    (b.bank (b.after s effects)).getLsbD i =
      level i ((b.bank s).getLsbD i) (effects.filterMap Effect.change?) := by
  induction effects generalizing s with
  | nil => rfl
  | cons e effects ih =>
    cases e with
    | change bit val =>
      rw [List.filterMap_cons_none rfl] at alone
      refine (ih alone).trans ?_
      have first : (Effect.change bit val :: effects).filterMap Effect.change? =
        (bit, val) :: effects.filterMap Effect.change? := rfl
      rw [first]
      exact congrArg (level i · _) (sets bit val s i pin)
    | other j => simp [Effect.other?] at alone

theorem getLsbD_pin (bit : Fin 64) (i : Nat) : (1#64 <<< bit.val).getLsbD i = decide (i = bit) := by
  rw [BitVec.getLsbD_shiftLeft, BitVec.getLsbD_one]
  by_cases same : i = bit
  · simp [same]
  · by_cases below : i < bit
    · simp [below, same]
    · have above : ¬ i - bit = 0 := by omega
      simp [above, same]

/-- The branch of `handleConnection` without a callback. -/
def standalone : Backend (BitVec 64) Empty where
  bank := id
  change bit val state :=
    if val = 0 then state &&& ~~~(1#64 <<< bit.val)
    else if val = 1 then state ||| 1#64 <<< bit.val
    else state
  other := nofun

/-- The callback of a change against the accesses of the guest that get to an end, one whole behind the
other; behind a failed assertion there is nothing. -/
def controller : Backend Gpio.GpioState (RegisterMapping.Payload × ByteMemory) where
  bank s := s.device.state
  change := Gpio.asyncOnchange
  other access s :=
    match Gpio.transport access.1 access.2 s with
    | .ok t => t
    | .error _ => s

theorem sets_standalone : standalone.Sets := by
  intro bit val state i pin
  show (standalone.change bit val state).getLsbD i = if i = bit ∧ val = 0 then false
    else if i = bit ∧ val = 1 then true else state.getLsbD i
  unfold standalone
  dsimp only
  by_cases low : val = 0
  · rw [if_pos low, BitVec.getLsbD_and, BitVec.getLsbD_not, getLsbD_pin bit, low]
    by_cases same : i = bit <;> simp [same, pin]
  · by_cases high : val = 1
    · rw [if_neg low, if_pos high, BitVec.getLsbD_or, getLsbD_pin bit, high]
      by_cases same : i = bit <;> simp [same]
    · rw [if_neg low, if_neg high, if_neg fun both => low both.2, if_neg fun both => high both.2]

theorem toNat_level (state : BitVec 64) (bit : Fin 64) :
    ((state &&& 1#64 <<< bit.val) >>> bit.val).toNat = (state.getLsbD bit).toNat := by
  have alone : (state &&& 1#64 <<< bit.val) >>> bit.val = BitVec.setWidth 64 (BitVec.ofBool (state.getLsbD bit)) := by
    refine BitVec.eq_of_getLsbD_eq fun i inside => ?_
    rw [BitVec.getLsbD_ushiftRight, BitVec.getLsbD_and, BitVec.getLsbD_setWidth, BitVec.getLsbD_ofBool]
    by_cases pin : bit.val + i < 64
    · rw [getLsbD_pin bit]
      by_cases first : i = 0 <;> simp [first]
    · have beyond : state.getLsbD (bit.val + i) = false := BitVec.getLsbD_of_ge _ _ (by omega)
      have later : i ≠ 0 := by omega
      simp [beyond, later]
  rw [alone]
  cases state.getLsbD bit <;> rfl

/-- The callback of the controller changes the pins as the server would. -/
theorem asyncOnchange_eq (bit : Fin 64) (val : BitVec 8) (s : Gpio.GpioState) :
    (Gpio.asyncOnchange bit val s).device.state = standalone.change bit val s.device.state := by
  unfold Gpio.asyncOnchange
  split
  case isTrue still =>
    rw [toNat_level] at still
    refine (BitVec.eq_of_getLsbD_eq fun i pin => ?_).symm
    rw [show (standalone.change bit val s.device.state).getLsbD i = _ from sets_standalone bit val _ i pin]
    split
    case isTrue low =>
      rw [low.2] at still
      rw [low.1]
      exact (Bool.toNat_eq_zero.mp still).symm
    case isFalse =>
      split
      case isTrue high =>
        rw [high.2] at still
        rw [high.1]
        exact (Bool.toNat_eq_one.mp still).symm
      case isFalse => rfl
  case isFalse =>
    unfold standalone
    dsimp only
    split
    case isTrue => rfl
    case isFalse => split <;> rfl

theorem sets_controller : controller.Sets := by
  intro bit val s i pin
  rw [show controller.bank (controller.change bit val s) = _ from asyncOnchange_eq bit val s]
  exact sets_standalone bit val s.device.state i pin

section Seen

variable {client : BitVec 64} {n : Nat}

/-- Pins over a connection to the GPIO controller: however the threads take turns, callback by
callback, and the bytes are cut, an `update` of a client none of whose updates has failed shows the bank at a moment when all that
the client had set was in it, and of what the guest did a beginning; where the guest does nothing,
each pin has the level that the client gave it last. -/
theorem pins_seen {s : Gpio.GpioState} {log : Log (RegisterMapping.Payload × ByteMemory)}
    {l l' : Link Gpio.GpioState} (run : Runs (step controller) Allowed (connected s client) log l)
    (heard : Heard log) (allowed : Allowed l (.receive n : Act (RegisterMapping.Payload × ByteMemory)))
    (took : step controller l (.receive n) = .ok (some true, l')) :
    (∃ effects, effects.filterMap Effect.change? = calls log ∧
      effects.filterMap Effect.other? <+: others log ∧
        l'.client = (controller.after s effects).device.state) ∧
      (others log = [] → ∀ i < 64,
        l'.client.getLsbD i = level i (s.device.state.getLsbD i) (calls log)) := by
  obtain ⟨effects, all, part, sees⟩ := update_sees run heard allowed took
  refine ⟨⟨effects, all, part, sees⟩, fun quiet i pin => ?_⟩
  rw [quiet, List.prefix_nil] at part
  rw [sees, ← all]
  exact level_after sets_controller part pin

/-- Pin 3 is set, and the bank is asked for. -/
theorem pins_seen_three : ∃ log l l', Runs (step controller) Allowed (connected Gpio.init 0) log l ∧
    step controller l (.receive 8) = .ok (some true, l') ∧ l'.client.getLsbD 3 = true := by
  have set : Runs (step controller) Allowed (connected Gpio.init 0) [(Act.setBit 3 1, some true)] _ :=
    Runs.start.next rfl rfl
  have asked := set.next (a := Act.update) rfl rfl
  have raised := asked.next (a := Act.serve 2 8) ⟨rfl, by decide, by decide, nofun⟩ rfl
  have answered := raised.next (a := Act.serve 2 8) ⟨rfl, by decide, by decide, nofun⟩ rfl
  refine ⟨_, _, _, answered, rfl, ?_⟩
  have seen := pins_seen (n := 8) answered (by simp [Heard]) ⟨rfl, by decide, by decide, nofun⟩ rfl
  rw [seen.2 rfl 3 (by decide)]
  rfl

end Seen

end RiscvVp.GpioRemote
