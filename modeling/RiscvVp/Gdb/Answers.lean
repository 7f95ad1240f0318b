/-
# RiscvVp.Gdb.Answers -- every command is answered

The runs of the stub: a packet comes in and takes the mutex, `run` answers it and gives the mutex
back.  A command is acknowledged and gets one packet in reply, and the stub lives on, as long as
every command is one that its handler can stand in the state it finds (`Bearable`).
-/
import RiscvVp.Gdb.ReadMemory
import RiscvVp.Gdb.Resume
import RiscvVp.Lib.Runs

namespace RiscvVp

set_option autoImplicit false

namespace GdbServer

open Lib Transition
open LibGdb (Printable bytes)

variable {isa : Isa} {Dev : Type} {n : Nat} {g t : GdbServer isa Dev n}

/-! ## What handlers do before they reply -/

/-- The connection, the queue and the mutex are left alone, and only some exceptions come out. -/
structure Mild (caught : Failure → Prop) (g : GdbServer isa Dev n) (o : Option Failure)
    (t : GdbServer isa Dev n) : Prop where
  line : t.line = g.line
  only : ∀ e, o = some e → caught e

instance (caught : Failure → Prop) : Closed (@Mild isa Dev n caught) where
  refl _ := ⟨rfl, nofun⟩
  trans first second := ⟨second.line.trans first.line, second.only⟩

/-- No exception. -/
abbrev None : Failure → Prop := fun _ => False

theorem run_of_mild {α : Type} {m : M isa Dev n α} (mild : SatAt (Mild None) m g) :
    ∃ a t, m.run g = (.ok a, t) ∧ t.line = g.line := by
  cases ran : m.run g with
  | mk result t =>
    cases result with
    | error e => exact absurd rfl ((mild.error ran).only e)
    | ok a => exact ⟨a, t, rfl, (mild.ok ran).line⟩

/-- The exception that a handler catches. -/
theorem mild_catching {α : Type} {m : M isa Dev n α} {caught : Failure}
    (mild : SatAt (Mild (· = caught)) m g) : SatAt (Mild None) (catching caught m) g := by
  unfold SatAt
  cases ran : m.run g with
  | mk result t =>
    cases result with
    | error e =>
      have failed := mild.error ran
      rw [run_catching_error ran, if_pos (failed.only e rfl)]
      exact ⟨failed.line, nofun⟩
    | ok a =>
      rw [run_catching_ok ran]
      exact ⟨(mild.ok ran).line, nofun⟩

theorem repliesOnce_of_mild {α : Type} {m : M isa Dev n α} (mild : SatAt (Mild None) m g)
    (reply : α → String) (sendable : ∀ a t, m.run g = (.ok a, t) → Sendable (reply a)) :
    RepliesOnce (m >>= fun a => sendPacket (reply a)) g := by
  obtain ⟨a, t, ran, line⟩ := run_of_mild mild
  exact .bind ran line (repliesOnce_sendPacket (sendable a t ran) t)

/-- The texts of harts that are only looked at. -/
theorem run_forThreads_read (text : Fin (n + 1) → GdbServer isa Dev n → String) (threads : List (Fin (n + 1))) :
    (forThreads (fun i => Exec.read (text i)) threads).run g =
      (.ok (String.join (threads.map fun i => text i g)), g) := by
  induction threads with
  | nil => rfl
  | cons i threads ih =>
    unfold forThreads
    rw [Exec.run_read_bind, Exec.run_bind_ok ih, List.map_cons, String.join_cons]
    rfl

theorem mild_getThreadsOrThrow (id : Int) :
    Sat (Mild (· = .outOfRange)) (getThreadsOrThrow id : M isa Dev n (List (Fin (n + 1)))) := by
  unfold getThreadsOrThrow
  split
  · infer_instance
  · exact .raise fun g => ⟨rfl, fun e same => (Option.some.inj same).symm⟩

/-- The threads that `op` selects. -/
def selected (op : Char) (g : GdbServer isa Dev n) : Option (List (Fin (n + 1))) :=
  getThreads ((g.threadOps op).getD GdbThread.any)

/-! ## Registers and threads -/

/-- The digits of a register, added up. -/
def registerWeight (isa : Isa) (value : BitVec 64) : Nat := weight (formatRegister isa value)

theorem printable_formatRegister (isa : Isa) (value : BitVec 64) : Printable (bytes (formatRegister isa value)) :=
  printable_hexString _

/-- The digits of all the registers of a hart. -/
def registersWeight (g : GdbServer isa Dev n) (i : Fin (n + 1)) : Nat :=
  ((List.finRange 32).map fun reg => registerWeight isa (g.readRegisterOf i (BitVec.ofFin reg))).sum

theorem printable_registersText (g : GdbServer isa Dev n) (i : Fin (n + 1)) :
    Printable (bytes (g.registersText i)) := by
  refine printable_join fun text among => ?_
  obtain ⟨reg, -, rfl⟩ := List.mem_map.mp among
  exact printable_formatRegister isa _

theorem weight_registersText (g : GdbServer isa Dev n) (i : Fin (n + 1)) :
    weight (g.registersText i) = g.registersWeight i := by
  unfold registersText registersWeight
  rw [weight_join, List.map_map]
  rfl

/-- Texts of the harts one after the other, where the sum of what they weigh is an `int`. -/
theorem sendable_join {threads : List (Fin (n + 1))} {text : Fin (n + 1) → String}
    (printable : ∀ i, Printable (bytes (text i))) (light : (threads.map fun i => weight (text i)).sum < 2 ^ 31) :
    Sendable (String.join (threads.map text)) where
  printable := by
    refine printable_join fun text among => ?_
    obtain ⟨i, -, rfl⟩ := List.mem_map.mp among
    exact printable i
  light := by
    rw [weight_join, List.map_map]
    exact light

theorem repliesOnce_getRegisters {threads : List (Fin (n + 1))} (known : g.selected 'g' = some threads)
    (light : (threads.map g.registersWeight).sum < 2 ^ 31) : RepliesOnce getRegisters g := by
  have ran : (execThread (fun i => Exec.read (registersText i)) 'g').run g =
      (.ok (String.join (threads.map g.registersText)), g) := by
    rw [run_execThread known]
    exact run_forThreads_read _ threads
  have sums : (threads.map fun i => weight (g.registersText i)) = threads.map g.registersWeight :=
    List.map_congr_left fun i _ => weight_registersText g i
  refine .bind ran rfl (repliesOnce_sendPacket (sendable_join (printable_registersText g) ?_) g)
  rw [sums]
  exact light

/-- The value of a register, or of the program counter. -/
def numbered (g : GdbServer isa Dev n) (reg : Int) (i : Fin (n + 1)) : BitVec 64 :=
  if reg = pcReg then (g.harts i).core.pc.setWidth 64 else g.readRegisterOf i (BitVec.ofInt 5 reg)

/-- An unknown thread and an unknown register end in the same exception, and that one is caught. -/
theorem repliesOnce_readRegister {reg : Int} (light : reg = pcReg ∨ 0 ≤ reg ∧ reg < 32 → ∀ threads,
    g.selected 'g' = some threads → (threads.map fun i => registerWeight isa (g.numbered reg i)).sum < 2 ^ 31) :
    RepliesOnce (readRegister reg) g := by
  have unknownReply {m : M isa Dev n String} (failed : m.run g = (.error .outOfRange, g)) :
      RepliesOnce (do sendPacket ((← catching .outOfRange m).getD "E01")) g := by
    have caught : (catching .outOfRange m).run g = (.ok none, g) := run_catching_error failed
    exact .bind caught rfl (repliesOnce_sendPacket (by decide) g)
  unfold readRegister
  cases known : g.selected 'g' with
  | none =>
    refine unknownReply ?_
    have thrown : (getThreadsOrThrow ((g.threadOps 'g').getD GdbThread.any) : M isa Dev n _).run g =
        (.error .outOfRange, g) := by
      unfold selected at known
      unfold getThreadsOrThrow
      rw [known]
      rfl
    unfold execThread
    rw [Exec.run_read_bind, Exec.run_bind_error thrown]
  | some threads =>
    by_cases register : reg = pcReg ∨ 0 ≤ reg ∧ reg < 32
    case neg =>
      refine unknownReply ?_
      have other : ¬ reg = pcReg := fun pc => register (.inl pc)
      have outside : ¬ (0 ≤ reg ∧ reg < 32) := fun inside => register (.inr inside)
      rw [run_execThread known]
      cases threads with
      | nil => exact absurd rfl (getThreads_ne_nil known)
      | cons i threads =>
        unfold forThreads
        rw [if_neg other, if_neg outside]
        rfl
    case pos =>
      have reads : (fun i : Fin (n + 1) => (if reg = pcReg then
          Exec.read fun g : GdbServer isa Dev n => formatRegister isa ((g.harts i).core.pc.setWidth 64)
          else if 0 ≤ reg ∧ reg < 32 then
            Exec.read fun g => formatRegister isa (g.readRegisterOf i (BitVec.ofInt 5 reg))
          else Exec.raise .outOfRange : M isa Dev n String)) =
          fun i => Exec.read fun g => formatRegister isa (g.numbered reg i) := by
        funext i
        unfold numbered
        by_cases pc : reg = pcReg
        · simp only [if_pos pc]
        · simp only [if_neg pc, if_pos (register.resolve_left pc)]
      have ran : (execThread (fun i => Exec.read fun g => formatRegister isa (g.numbered reg i)) 'g').run g =
          (.ok (String.join (threads.map fun i => formatRegister isa (g.numbered reg i))), g) := by
        rw [run_execThread known]
        exact run_forThreads_read _ threads
      rw [reads]
      exact .bind (run_catching_ok ran) rfl (repliesOnce_sendPacket
        (sendable_join (fun i => printable_formatRegister isa _) (light register threads known)) g)

theorem repliesOnce_isAlive (thr : GdbThread) (g : GdbServer isa Dev n) : RepliesOnce (isAlive thr) g :=
  repliesOnce_of_mild (mild_catching (.of_sat (mild_getThreadsOrThrow thr.tid)))
    (fun threads => if threads.isSome then "OK" else "E01") fun threads _ _ => by split <;> decide

theorem repliesOnce_changeBreakpoint (change : List (Word isa) → List (Word isa)) (type : GdbZtype)
    (g : GdbServer isa Dev n) : RepliesOnce (changeBreakpoint change type) g := by
  unfold changeBreakpoint
  split
  · exact repliesOnce_sendPacket (by decide) g
  · exact .bind rfl rfl (repliesOnce_sendPacket (by decide) _)

/-- An entry of the list of threads, added up. -/
def entryWeight (g : GdbServer isa Dev n) (i : Fin (n + 1)) : Nat := weight (g.threadEntry i)

theorem printable_threadEntry (g : GdbServer isa Dev n) (i : Fin (n + 1)) : Printable (bytes (g.threadEntry i)) := by
  unfold threadEntry
  split
  · decide
  · refine printable_append (printable_toString _) ?_
    split <;> decide

theorem sendable_threadList (light : weight "m" + ((List.finRange (n + 1)).map g.entryWeight).sum < 2 ^ 31) :
    Sendable ("m" ++ g.threadList) := by
  refine ⟨printable_append (by decide) ?_, ?_⟩
  · refine printable_join fun text among => ?_
    obtain ⟨i, -, rfl⟩ := List.mem_map.mp among
    exact printable_threadEntry g i
  · unfold threadList
    rw [weight_append, weight_join, List.map_map]
    exact light

theorem repliesOnce_threadInfo (light : weight "m" + ((List.finRange (n + 1)).map g.entryWeight).sum < 2 ^ 31) :
    RepliesOnce threadInfo g :=
  .bind (t := g) rfl rfl (repliesOnce_sendPacket (sendable_threadList light) g)

/-! ## Memory -/

section Memory

variable (plat : Platform (SocState Dev)) (soc : Soc Dev)

/-- The reads of several harts, each in the state that the translation for the one before has left: up to
one that gets an error, the address is translated and the range stays in one memory, or is empty.  `sum` is
what the digits add up to so far. -/
def ReadsFine (va : BitVec 64) (length : Nat) : List (Fin (n + 1)) → Nat → GdbServer isa Dev n → Prop
  | [], sum, _ => sum < 2 ^ 31
  | i :: threads, sum, g =>
      match (translateAddr plat i va .load).run g with
      | (.error e, _) => e = .runtimeError
      | (.ok p, t) =>
          soc.decode p = none ∨ soc.memoryAt t.world p = none ∧ length = 0 ∧ ReadsFine va length threads sum t ∨
            ∃ memory offset, soc.Backs t.world p length memory offset ∧
              ReadsFine va length threads (sum + bytesWeight memory offset length) t

/-- The writes of several harts, each in the state that the one before has left. -/
def WritesFine (va : BitVec 64) (length : Nat) (data : List (Fin 16)) :
    List (Fin (n + 1)) → GdbServer isa Dev n → Prop
  | [], _ => True
  | i :: threads, g =>
      match (translateAddr plat i va .store).run g with
      | (.error e, _) => e = .runtimeError
      | (.ok p, t) =>
          soc.decode p = none ∨ soc.memoryAt t.world p = none ∧ length = 0 ∧ WritesFine va length data threads t ∨
            ∃ id memory offset, soc.decode p = some id ∧ soc.Backs t.world p length memory offset ∧
              WritesFine va length data threads { t with
                world := t.world.setMemory id { memory with
                  data := memory.data.write (offset.setWidth 64) length
                    (DebugMemoryInterface.parsedBuffer length data) } }

variable {plat soc} {va : BitVec 64} {length : Nat}

theorem line_translateAddr (type : MemoryAccessType) (i : Fin (n + 1)) (g : GdbServer isa Dev n) :
    ((translateAddr plat i va type).run g).2.line = g.line := by
  unfold translateAddr
  rw [Exec.run_read_bind]
  split <;> rfl

/-- The reads end in the exception that is caught, or in a text that can be sent. -/
theorem run_reads {mem : GdbMemory} {threads : List (Fin (n + 1))} {sum : Nat}
    (fine : ReadsFine plat soc mem.addr mem.length.toNat threads sum g) :
    (∃ t, (forThreads (readAt plat soc mem) threads).run g = (.error .runtimeError, t) ∧ t.line = g.line) ∨
      ∃ text t, (forThreads (readAt plat soc mem) threads).run g = (.ok text, t) ∧ t.line = g.line ∧
        Printable (bytes text) ∧ sum + weight text < 2 ^ 31 := by
  induction threads generalizing sum g with
  | nil => exact .inr ⟨"", g, rfl, rfl, by decide, fine⟩
  | cons i threads ih =>
    have line : ((translateAddr plat i mem.addr .load).run g).2.line = g.line := line_translateAddr .load i g
    unfold ReadsFine at fine
    unfold forThreads
    cases ran : (translateAddr plat i mem.addr .load).run g with
    | mk result t =>
      rw [ran] at fine line
      cases result with
      | error e =>
        cases fine
        exact .inl ⟨t, Exec.run_bind_error (Exec.run_bind_error ran), line⟩
      | ok p =>
        have next {text : String} (read : (readAt plat soc mem i).run g = (.ok text, t))
            (printable : Printable (bytes text))
            (rest : ReadsFine plat soc mem.addr mem.length.toNat threads (sum + weight text) t) :
            (∃ u, (forThreads (readAt plat soc mem) (i :: threads)).run g = (.error .runtimeError, u) ∧
                u.line = g.line) ∨
              ∃ text u, (forThreads (readAt plat soc mem) (i :: threads)).run g = (.ok text, u) ∧
                u.line = g.line ∧ Printable (bytes text) ∧ sum + weight text < 2 ^ 31 := by
          unfold forThreads
          rw [Exec.run_bind_ok read]
          rcases ih rest with ⟨u, failed, line'⟩ | ⟨text', u, ran', line', printable', light⟩
          · exact .inl ⟨u, Exec.run_bind_error failed, line'.trans line⟩
          · refine .inr ⟨text ++ text', u, Exec.run_bind_ok ran', line'.trans line,
              printable_append printable printable', ?_⟩
            rw [weight_append]
            omega
        by_cases unmapped : soc.decode p = none
        · have failed := run_readAt ran (DebugMemoryInterface.run_readMemory_unmapped unmapped)
          exact .inl ⟨t, Exec.run_bind_error failed, line⟩
        rcases fine.resolve_left unmapped with ⟨none, zero, rest⟩ | ⟨memory, offset, backs, rest⟩
        · have read := run_readAt ran (DebugMemoryInterface.run_readMemory_peripheral unmapped none)
          rw [if_pos zero] at read
          exact next read (by decide) rest
        · have read := run_readAt ran (DebugMemoryInterface.run_readMemory_backed backs)
          refine next read (printable_hexString _) ?_
          rw [weight_hexString, List.map_map]
          exact rest

theorem repliesOnce_readMemory {mem : GdbMemory} {threads : List (Fin (n + 1))}
    (short : mem.length ≤ uintMax) (known : g.selected 'g' = some threads)
    (fine : ReadsFine plat soc mem.addr mem.length.toNat threads 0 g) : RepliesOnce (readMemory plat soc mem) g := by
  unfold readMemory
  rw [Exec.ensure_pos short]
  refine .bind (t := g) rfl rfl ?_
  rcases run_reads fine with ⟨t, failed, line⟩ | ⟨text, t, ran, line, printable, light⟩
  · exact .bind (run_catching_error ((run_execThread known _).trans failed)) line
      (repliesOnce_sendPacket (by decide) t)
  · exact .bind (run_catching_ok ((run_execThread known _).trans ran)) line
      (repliesOnce_sendPacket ⟨printable, by omega⟩ t)

theorem run_writeAt {loc : GdbMemory} {data : List (Fin 16)} {i : Fin (n + 1)} {p : BitVec 64} {t : GdbServer isa Dev n}
    {result : Except Failure Unit} {w : SocState Dev} (reached : (translateAddr plat i loc.addr .store).run g = (.ok p, t))
    (ran : (DebugMemoryInterface.writeMemory soc p loc.length.toNat data).run t.world = (result, w)) :
    (writeAt plat soc loc data i).run g = (result.map fun _ => "", { t with world := w }) := by
  unfold writeAt
  rw [Exec.run_bind_ok reached, run_onMemory]
  cases result with
  | error e => rw [Exec.run_bind_error ran]; rfl
  | ok done => rw [Exec.run_bind_ok ran]; rfl

theorem run_writes {loc : GdbMemory} {data : List (Fin 16)} (whole : data.length = 2 * loc.length.toNat)
    {threads : List (Fin (n + 1))} (fine : WritesFine plat soc loc.addr loc.length.toNat data threads g) :
    ∃ t, t.line = g.line ∧ ((forThreads (writeAt plat soc loc data) threads).run g = (.error .runtimeError, t) ∨
      ∃ text, (forThreads (writeAt plat soc loc data) threads).run g = (.ok text, t)) := by
  induction threads generalizing g with
  | nil => exact ⟨g, rfl, .inr ⟨"", rfl⟩⟩
  | cons i threads ih =>
    have line : ((translateAddr plat i loc.addr .store).run g).2.line = g.line := line_translateAddr .store i g
    unfold WritesFine at fine
    unfold forThreads
    cases ran : (translateAddr plat i loc.addr .store).run g with
    | mk result t =>
      rw [ran] at fine line
      cases result with
      | error e =>
        cases fine
        exact ⟨t, line, .inl (Exec.run_bind_error (Exec.run_bind_error ran))⟩
      | ok p =>
        have next {w : SocState Dev}
            (wrote : (DebugMemoryInterface.writeMemory soc p loc.length.toNat data).run t.world = (.ok (), w))
            (rest : WritesFine plat soc loc.addr loc.length.toNat data threads { t with world := w }) :
            ∃ u, u.line = g.line ∧ ((forThreads (writeAt plat soc loc data) (i :: threads)).run g =
                (.error .runtimeError, u) ∨
              ∃ text, (forThreads (writeAt plat soc loc data) (i :: threads)).run g = (.ok text, u)) := by
          have written : (writeAt plat soc loc data i).run g = (.ok "", { t with world := w }) := run_writeAt ran wrote
          obtain ⟨u, line', later⟩ := ih rest
          refine ⟨u, line'.trans line, ?_⟩
          unfold forThreads
          rw [Exec.run_bind_ok written]
          rcases later with failed | ⟨text, ran'⟩
          · exact .inl (Exec.run_bind_error failed)
          · exact .inr ⟨_, Exec.run_bind_ok ran'⟩
        by_cases unmapped : soc.decode p = none
        · have failed := run_writeAt ran (DebugMemoryInterface.run_writeMemory_error whole
            (Soc.run_transaction_unmapped unmapped _))
          exact ⟨t, line, .inl (Exec.run_bind_error failed)⟩
        rcases fine.resolve_left unmapped with ⟨none, zero, rest⟩ | ⟨id, memory, offset, target, backs, rest⟩
        · obtain ⟨buffer, transferred⟩ := Soc.run_transaction_peripheral unmapped none
            (.write (DebugMemoryInterface.parsedBuffer loc.length.toNat data))
          exact next (DebugMemoryInterface.run_writeMemory_ok whole zero.symm transferred) rest
        · obtain ⟨id', target', transferred⟩ := Soc.run_transaction_write backs
            (DebugMemoryInterface.parsedBuffer loc.length.toNat data)
          cases target.symm.trans target'
          exact next (DebugMemoryInterface.run_writeMemory_ok whole rfl transferred) rest

theorem repliesOnce_writeMemory {loc : GdbMemory} {data : List (Fin 16)} {threads : List (Fin (n + 1))}
    (short : loc.length ≤ uintMax) (whole : data.length = 2 * loc.length.toNat) (known : g.selected 'g' = some threads)
    (fine : WritesFine plat soc loc.addr loc.length.toNat data threads g) :
    RepliesOnce (writeMemory plat soc loc data) g := by
  unfold writeMemory
  rw [Exec.ensure_pos short]
  refine .bind (t := g) rfl rfl ?_
  obtain ⟨t, line, failed | ⟨text, ran⟩⟩ := run_writes whole fine
  · exact .bind (run_catching_error ((run_execThread known _).trans failed)) line
      (repliesOnce_sendPacket (by decide) t)
  · exact .bind (run_catching_ok ((run_execThread known _).trans ran)) line
      (repliesOnce_sendPacket (show Sendable "OK" by decide) t)

end Memory

/-! ## Commands -/

variable (plat : Platform (SocState Dev)) (soc : Soc Dev)

/-- The commands whose handlers read arguments. -/
def withArguments : List String := ["H", "m", "M", "p", "T", "vCont", "z", "Z"]

/-- What a handler can stand: the arguments are there, the thread that `g` was set to exists,
accesses stay inside a memory, the digits of what is reported are not too many, and harts that are resumed
get to stop again. -/
def Bearable (g : GdbServer isa Dev n) : GdbCommand → Prop
  | .none name =>
      name ∉ withArguments ∧ name ≠ "k" ∧
        (name = "g" → ∃ threads, g.selected 'g' = some threads ∧ (threads.map g.registersWeight).sum < 2 ^ 31) ∧
        (name = "qfThreadInfo" → weight "m" + ((List.finRange (n + 1)).map g.entryWeight).sum < 2 ^ 31)
  | .vcont first rest => g.Fit ∧ ActionsFine [] (first :: rest) g
  | .memory mem => mem.length ≤ uintMax ∧ ∃ threads, g.selected 'g' = some threads ∧
      ReadsFine plat soc mem.addr mem.length.toNat threads 0 g
  | .memoryw loc data => loc.length ≤ uintMax ∧ data.length = 2 * loc.length.toNat ∧
      ∃ threads, g.selected 'g' = some threads ∧ WritesFine plat soc loc.addr loc.length.toNat data threads g
  | .int reg => reg = pcReg ∨ 0 ≤ reg ∧ reg < 32 → ∀ threads, g.selected 'g' = some threads →
      (threads.map fun i => registerWeight isa (g.numbered reg i)).sum < 2 ^ 31
  | .h _ _ | .breakpoint _ _ _ _ | .thread _ => True

variable {plat soc}

/-- A handler that is found by a name without arguments. -/
theorem repliesOnce_handle_none {name : String} {handler : Handler} (found : handlers name = some handler)
    (plain : name ∉ withArguments) (alive : name ≠ "k")
    (known : name = "g" → ∃ threads, g.selected 'g' = some threads ∧ (threads.map g.registersWeight).sum < 2 ^ 31)
    (light : name = "qfThreadInfo" → weight "m" + ((List.finRange (n + 1)).map g.entryWeight).sum < 2 ^ 31) :
    RepliesOnce (handle plat soc handler (.none name)) g := by
  unfold handlers at found
  split at found <;> cases found
  case h_1 => exact repliesOnce_sendPacket (show Sendable "S05" by decide) g
  case h_2 =>
    obtain ⟨threads, selected, digits⟩ := known rfl
    exact repliesOnce_getRegisters selected digits
  case h_3 => exact absurd (by decide) plain
  case h_4 => exact absurd rfl alive
  case h_5 => exact absurd (by decide) plain
  case h_6 => exact absurd (by decide) plain
  case h_7 => exact absurd (by decide) plain
  case h_8 => exact repliesOnce_sendPacket (show Sendable "0" by decide) g
  case h_9 => exact repliesOnce_sendPacket (show Sendable "vContSupported+;PacketSize=4096" by decide) g
  case h_10 => exact repliesOnce_threadInfo (light rfl)
  case h_11 => exact repliesOnce_sendPacket (show Sendable "l" by decide) g
  case h_12 => exact absurd (by decide) plain
  case h_13 => exact absurd (by decide) plain
  case h_14 => exact repliesOnce_sendPacket (show Sendable "vCont;c;C" by decide) g
  case h_15 => exact absurd (by decide) plain
  case h_16 => exact absurd (by decide) plain

/-- One handler, one reply. -/
theorem repliesOnce_command {cmd : GdbCommand} (bearable : g.Bearable plat soc cmd) :
    RepliesOnce (match handlers cmd.name with
      | none => sendPacket ""
      | some handler => handle plat soc handler cmd) g := by
  cases cmd with
  | none name =>
    obtain ⟨plain, alive, known, light⟩ := bearable
    show RepliesOnce (match handlers name with | none => _ | some handler => _) g
    cases found : handlers name with
    | none => exact repliesOnce_sendPacket (by decide) g
    | some handler => exact repliesOnce_handle_none found plain alive known light
  | vcont first rest => exact repliesOnce_vContLoop bearable.1 bearable.2 (.inr ⟨rfl, nofun⟩)
  | h op id => exact .bind rfl rfl (repliesOnce_sendPacket (by decide) _)
  | int reg => exact repliesOnce_readRegister bearable
  | memory mem =>
    obtain ⟨short, threads, known, fine⟩ := bearable
    exact repliesOnce_readMemory short known fine
  | memoryw loc data =>
    obtain ⟨short, whole, threads, known, fine⟩ := bearable
    exact repliesOnce_writeMemory short whole known fine
  | breakpoint insert type address kind =>
    cases insert with
    | true => exact repliesOnce_changeBreakpoint _ type g
    | false => exact repliesOnce_changeBreakpoint _ type g
  | thread thr => exact repliesOnce_isAlive thr g

/-! ## Runs -/

/-- What goes out for a packet: for a command the acknowledgement, and one packet. -/
def Answered : GdbPacket → List GdbMessage → Prop
  | .command _, messages => ∃ reply, messages = [.ack, .packet reply]
  | .refused, messages => messages = [.nack]
  | .ack, messages => messages = []
  | .nack, messages => messages = [] ∨ ∃ data, messages = [.packet data]

/-- The packets of a log came in one at a time, each answered before the next one; the last one may
still have to be. -/
inductive Served : List (Input isa Dev n × List GdbMessage) → Option GdbPacket → Prop where
  | start : Served [] none
  | receive {log : List (Input isa Dev n × List GdbMessage)} (pkt : GdbPacket) :
      Served log none → Served (log ++ [(.receive pkt, [])]) (some pkt)
  | serve {log : List (Input isa Dev n × List GdbMessage)} {pkt : GdbPacket} {messages : List GdbMessage}
      (schedule : List (Turn isa Dev n)) : Served log (some pkt) → Answered pkt messages →
      Served (log ++ [(.serve schedule, messages)]) none

variable (plat soc)

/-- Behind every run the packets that came in were answered, the mutex is free unless one of them
is left, and the stub takes the next step. -/
def Responsive (allowed : GdbServer isa Dev n → Input isa Dev n → Prop) (g : GdbServer isa Dev n) : Prop :=
  ∀ log t, Runs (step plat soc) allowed g log t →
    ∃ pending, Served log pending ∧ t.pktq = pending.toList ∧ t.mtx = pending.isSome ∧
      ∀ input, allowed t input → ∃ messages u, step plat soc t input = .ok (messages, u)

/-- All that can come: a packet when the mutex is free, but for `k`, and a round of `run` when there
is a packet. -/
def Possible (g : GdbServer isa Dev n) : Input isa Dev n → Prop
  | .receive pkt => g.mtx = false ∧ pkt ≠ .command (.none "k")
  | .serve _ => g.pktq ≠ []

/-- ... and commands that the handlers stand. -/
def Considerate (g : GdbServer isa Dev n) : Input isa Dev n → Prop
  | .receive _ => g.mtx = false
  | .serve schedule => g.pktq ≠ [] ∧ ∀ cmd, g.pktq.head? = some (.command cmd) →
      ({ g with sent := [.ack], schedule := schedule } : GdbServer isa Dev n).Bearable plat soc cmd

variable {plat soc}

theorem step_receive (free : g.mtx = false) (pkt : GdbPacket) : ∃ t,
    step plat soc g (.receive pkt) = .ok ([], t) ∧ t.pktq = g.pktq ++ [pkt] ∧ t.mtx = true := by
  have unlocked : ¬ g.mtx = true := by
    rw [free]
    decide
  have ran : (dispatch pkt).run ({ g with sent := [] } : GdbServer isa Dev n) =
      (.ok (), { g with sent := [], mtx := true, pktq := g.pktq ++ [pkt] }) := by
    unfold dispatch
    rw [Exec.run_read_bind, Exec.ensure_pos unlocked]
    rfl
  refine ⟨{ g with sent := [], mtx := true, pktq := g.pktq ++ [pkt] }, ?_, rfl, rfl⟩
  unfold step
  dsimp only
  rw [ran]
  rfl

/-- A packet that is not a command, or one that the handler stands. -/
theorem run_answerPacket {pkt : GdbPacket} (silent : g.sent = [])
    (bearable : ∀ cmd, pkt = .command cmd →
      ({ g with sent := [.ack] } : GdbServer isa Dev n).Bearable plat soc cmd) :
    ∃ t, (answerPacket plat soc pkt).run g = (.ok (), t) ∧ Answered pkt t.sent ∧ t.pktq = g.pktq := by
  cases pkt with
  | ack => exact ⟨g, rfl, silent, rfl⟩
  | nack =>
    have again : Answered .nack (g.sent ++ (g.prevpkt.map GdbMessage.packet).toList) := by
      rw [silent]
      cases g.prevpkt with
      | none => exact .inl rfl
      | some data => exact .inr ⟨data, rfl⟩
    exact ⟨_, rfl, again, rfl⟩
  | refused =>
    have refusal : Answered .refused (g.sent ++ [.nack]) := by
      rw [silent]
      rfl
    exact ⟨_, rfl, refusal, rfl⟩
  | command cmd =>
    have acked : sendAck.run g = (.ok (), { g with sent := [.ack] }) := by
      have unfolded : sendAck.run g = (.ok (), { g with sent := g.sent ++ [.ack] }) := rfl
      rw [unfolded, silent]
      rfl
    obtain ⟨reply, t, ran, line⟩ := repliesOnce_command (bearable cmd rfl)
    refine ⟨t, ?_, ⟨reply, congrArg Prod.fst line⟩, congrArg (fun rest => rest.2.1) line⟩
    show (answerCommand plat soc cmd).run g = _
    unfold answerCommand
    rw [Exec.run_bind_ok acked]
    exact ran

theorem run_run {pkt : GdbPacket} {rest : List GdbPacket} (queue : g.pktq = pkt :: rest)
    (answered : (answerPacket plat soc pkt).run g = (.ok (), t)) :
    (run plat soc).run g = (.ok (), { t with pktq := t.pktq.tail, mtx := false }) := by
  unfold run
  rw [Exec.run_read_bind, queue]
  dsimp only
  rw [Exec.run_bind_ok answered]
  rfl

theorem step_serve {pkt : GdbPacket} {schedule : List (Turn isa Dev n)} (queue : g.pktq = [pkt])
    (considerate : Considerate plat soc g (.serve schedule)) : ∃ messages t,
    step plat soc g (.serve schedule) = .ok (messages, t) ∧ Answered pkt messages ∧ t.pktq = [] ∧
      t.mtx = false := by
  have bearable (cmd : GdbCommand) (same : pkt = .command cmd) :
      ({ g with sent := [.ack], schedule := schedule } : GdbServer isa Dev n).Bearable plat soc cmd := by
    refine considerate.2 cmd ?_
    rw [queue, same]
    rfl
  obtain ⟨u, answered, messages, kept⟩ := @run_answerPacket _ _ _
    { g with sent := [], schedule := schedule } plat soc pkt rfl bearable
  have ran := @run_run _ _ _ { g with sent := [], schedule := schedule } u plat soc pkt [] queue answered
  have emptied : u.pktq.tail = [] := by
    rw [kept]
    exact congrArg List.tail queue
  refine ⟨u.sent, { u with pktq := u.pktq.tail, mtx := false }, ?_, messages, emptied, rfl⟩
  unfold step
  dsimp only
  rw [ran]
  rfl

/-- The stub answers every command once and lives on, in every run in which each command is one
that its handler stands in the state it finds. -/
theorem answers_runs (empty : g.pktq = []) (free : g.mtx = false) :
    Responsive plat soc (Considerate plat soc) g := by
  intro log t runs
  have invariant : ∃ pending, Served log pending ∧ t.pktq = pending.toList ∧ t.mtx = pending.isSome := by
    refine runs.invariant_log (I := fun log t => ∃ pending, Served log pending ∧ t.pktq = pending.toList ∧
      t.mtx = pending.isSome) ⟨none, .start, empty, free⟩ ?_
    rintro log t input messages u ⟨pending, served, queue, mutex⟩ considerate took
    cases input with
    | receive pkt =>
      cases pending with
      | some waiting =>
        have locked : t.mtx = false := considerate
        cases locked.symm.trans mutex
      | none =>
        obtain ⟨u', took', queue', mutex'⟩ := @step_receive _ _ _ t plat soc mutex pkt
        cases took.symm.trans took'
        rw [queue] at queue'
        exact ⟨some pkt, served.receive pkt, queue', mutex'⟩
    | serve schedule =>
      cases pending with
      | none => exact absurd queue considerate.1
      | some pkt =>
        obtain ⟨messages', u', took', answered, queue', mutex'⟩ := step_serve queue considerate
        cases took.symm.trans took'
        exact ⟨none, served.serve schedule answered, queue', mutex'⟩
  obtain ⟨pending, served, queue, mutex⟩ := invariant
  refine ⟨pending, served, queue, mutex, fun input considerate => ?_⟩
  cases input with
  | receive pkt =>
    obtain ⟨u, took, -⟩ := @step_receive _ _ _ t plat soc considerate pkt
    exact ⟨[], u, took⟩
  | serve schedule =>
    cases pending with
    | none => exact absurd queue considerate.1
    | some pkt =>
      obtain ⟨messages, u, took, -⟩ := step_serve queue considerate
      exact ⟨messages, u, took⟩

end GdbServer

namespace Hifive

open Lib GdbServer

/-- The hart makes a step, its runner reports it, and the server goes on. -/
def oneStep : List (Turn .rv32 Unit 0) :=
  [.hart 0 core.alone memories, .hart 0 core.alone memories, .server]

/-- `vCont;s:1`. -/
def singleStep : GdbPacket := .command (.vcont ⟨.s, -1, ⟨-2, 1⟩⟩ [])

def stepping : GdbServer .rv32 Unit 0 := { stub core.alone with pktq := [singleStep], mtx := true }

theorem stepping_considerate : Considerate (soc.platform devices []) soc stepping (.serve oneStep) := by
  refine ⟨nofun, fun cmd head => ?_⟩
  cases head
  have number : 1 ≤ threadNumber core.alone := by decide
  refine ⟨⟨fun _ => number, ?_⟩, .inl rfl, fun threads found => ?_⟩
  · intro i core' world among
    simp only [oneStep, List.mem_cons, List.not_mem_nil, or_false] at among
    rcases among with here | here | here
    · cases here
      exact number
    · cases here
      exact number
    · cases here
  · have first : getThreads 1 = some [(0 : Fin 1)] := by decide
    cases first.symm.trans found
    refine ⟨.inr ⟨_, ⟨oneStep.take 2, [], rfl, ⟨0, List.mem_singleton_self 0, ?_⟩, fun front back same => ?_, rfl⟩, ?_⟩,
      fun _ _ _ _ _ _ => trivial⟩
    · show Reports true 0 .notified .runnable (oneStep.take 2)
      simp [oneStep, Reports]
    · have among : Turn.server ∈ oneStep.take 2 := by simp [same]
      simp [oneStep] at among
    · show StopsAll [0] _
      unfold StopsAll
      rw [if_neg (by decide)]
      trivial

/-- A single step, up to the packet that reports it. -/
theorem answers_runs_step : ∃ t, Runs (step (soc.platform devices []) soc)
    (Considerate (soc.platform devices []) soc) (stub core.alone)
      [(Input.receive singleStep, []), (Input.serve oneStep, [.ack, .packet "T05thread:1;"])] t ∧
      t.mtx = false := by
  have first : Runs (step (soc.platform devices []) soc) (Considerate (soc.platform devices []) soc)
      (stub core.alone) [(Input.receive singleStep, [])] stepping :=
    Runs.start.next (a := Input.receive singleStep) (show (stub core.alone).mtx = false from rfl) rfl
  have fresh : Responsive (soc.platform devices []) soc (Considerate (soc.platform devices []) soc)
      (stub core.alone) := answers_runs rfl rfl
  obtain ⟨-, -, -, -, next⟩ := fresh _ _ first
  obtain ⟨messages, t, took⟩ := next _ stepping_considerate
  have told : (step (soc.platform devices []) soc stepping (.serve oneStep)).map (fun r => (r.1, r.2.mtx)) =
      .ok ([.ack, .packet "T05thread:1;"], false) := by decide
  rw [took] at told
  obtain ⟨rfl, free⟩ := Prod.mk.inj (Except.ok.inj told)
  exact ⟨t, first.next stepping_considerate took, free⟩

/-- `Hg5`, with one hart. -/
def astray : GdbServer .rv32 Unit 0 :=
  { stub core.alone with
    threadOps := Function.update (fun _ => none) 'g' (some 5)
    prevpkt := some "OK"
    sent := [.ack, .packet "OK"] }

/-- ... and then `g`: nothing catches the exception of the second one. -/
theorem not_responsive :
    ¬ Responsive (soc.platform devices []) soc Possible (stub core.alone) := by
  intro responsive
  have received : Runs (step (soc.platform devices []) soc) Possible (stub core.alone) _
      { stub core.alone with pktq := [.command (.h 'g' ⟨-2, 5⟩)], mtx := true } :=
    Runs.start.next (a := Input.receive (.command (.h 'g' ⟨-2, 5⟩)))
      (show (stub core.alone).mtx = false ∧ _ from ⟨rfl, by decide⟩) rfl
  have set : Runs (step (soc.platform devices []) soc) Possible (stub core.alone) _ astray :=
    received.next (a := Input.serve []) (show _ ≠ [] from nofun) rfl
  have asked : Runs (step (soc.platform devices []) soc) Possible (stub core.alone) _
      { astray with sent := [], pktq := [.command (.none "g")], mtx := true } :=
    set.next (a := Input.receive (.command (.none "g")))
      (show astray.mtx = false ∧ _ from ⟨rfl, by decide⟩) rfl
  obtain ⟨-, -, -, -, next⟩ := responsive _ _ asked
  obtain ⟨messages, u, took⟩ := next (.serve []) (show _ ≠ [] from nofun)
  cases took

end Hifive

end RiscvVp
