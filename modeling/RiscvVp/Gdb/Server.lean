/-
# RiscvVp.Gdb.Server -- the GDB stub

`GDBServer` with its sixteen handlers, the thread of `GDBServerRunner` that runs a hart for it, and
the loop of `run` with the queue and the mutex it shares with `dispatch`.

The SystemC kernel is a schedule: who has the processor next.  A turn of a hart takes its runner to
the next point where it can be suspended, and a `run_step` of the guest may leave any state of the
core and of the rest of the system; it is the turn that says which.  The server waits until it has
a turn after one of the events it waits for; where the schedule ends before that, the wait does.
-/
import RiscvVp.Gdb.Packets
import RiscvVp.Iss.Translate
import RiscvVp.Soc.DebugMemory
import Mathlib.Data.List.FinRange

namespace RiscvVp

set_option autoImplicit false

open Lib

/-! ## What `gdb_parse_cmd` returns -/

/-- `gdb_thread_t`. -/
structure GdbThread where
  pid : Int
  tid : Int
deriving DecidableEq

namespace GdbThread

/-- `GDB_THREAD_ANY`. -/
def any : Int := 0

/-- `GDB_THREAD_ALL`. -/
def all : Int := -1

end GdbThread

/-- The letters of the actions of `vCont`. -/
inductive VcontAction where
  | c | s | t | C | S
deriving DecidableEq

/-- `gdb_vcont_t`, without the pointer to the next one. -/
structure GdbVcont where
  action : VcontAction
  sig : Int
  thread : GdbThread
deriving DecidableEq

/-- `gdb_ztype_t`. -/
inductive GdbZtype where
  | soft | hard | watchw | watchr | watcha
deriving DecidableEq

/-- `gdb_memory_t`; the length is a `size_t`. -/
structure GdbMemory where
  addr : BitVec 64
  length : BitVec 64
deriving DecidableEq

/-- `gdb_command_t`: a name, and the member of the union that the parser has set. -/
inductive GdbCommand where
  /-- `GDB_ARG_NONE`: a command without arguments, or one that no other parser took. -/
  | none (name : String)
  | vcont (first : GdbVcont) (rest : List GdbVcont)
  | h (op : Char) (id : GdbThread)
  | int (ival : Int)
  | memory (mem : GdbMemory)
  | memoryw (location : GdbMemory) (data : List (Fin 16))
  | breakpoint (insert : Bool) (type : GdbZtype) (address kind : BitVec 64)
  | thread (tval : GdbThread)
deriving DecidableEq

def GdbCommand.name : GdbCommand → String
  | none name => name
  | vcont _ _ => "vCont"
  | h _ _ => "H"
  | int _ => "p"
  | memory _ => "m"
  | memoryw _ _ => "M"
  | breakpoint insert _ _ _ => if insert then "Z" else "z"
  | thread _ => "T"

/-- A packet, by its kind, and what `gdb_parse_cmd` makes of it. -/
inductive GdbPacket where
  | ack | nack
  /-- A notification, or a packet that is not valid. -/
  | refused
  | command (cmd : GdbCommand)
deriving DecidableEq

/-- What goes to the client. -/
inductive GdbMessage where
  | ack | nack
  | packet (data : String)
deriving DecidableEq

/-! ## The state -/

/-- Where the thread of a runner is. -/
inductive RunnerState where
  /-- At `wait(run_event)`. -/
  | waiting
  /-- Behind it, in front of the first `run_step`. -/
  | notified
  /-- Behind the one `run_step` of a single step. -/
  | stepped
  /-- Behind a `run_step` of `run`. -/
  | running
  /-- Behind the loop of `run`, in the `sync` that follows it. -/
  | syncing
  | ended
deriving DecidableEq

/-- A core without the system around it, and its runner. -/
structure DebugHart (isa : Isa) where
  core : Iss isa Unit
  runner : RunnerState

/-- Who goes on next; a turn of a hart says what `run_step` does if it comes to one. -/
inductive Turn (isa : Isa) (Dev : Type) (n : Nat) where
  | server
  | hart (i : Fin (n + 1)) (core : Iss isa Unit) (world : SocState Dev)

/-- The stub has `n + 1` harts: the constructor throws if there are none. -/
structure GdbServer (isa : Isa) (Dev : Type) (n : Nat) where
  harts : Fin (n + 1) → DebugHart isa
  world : SocState Dev
  /-- The constructor was given the `mmu_memory_if`s of the harts. -/
  mmu : Bool
  threadOps : Char → Option Int
  singleRun : Bool
  prevpkt : Option String
  pktq : List GdbPacket
  /-- Whether `mtx` is locked. -/
  mtx : Bool
  /-- What was written to the connection. -/
  sent : List GdbMessage
  schedule : List (Turn isa Dev n)

/-- A core in its system. -/
def Iss.inside {isa : Isa} {World : Type} (core : Iss isa Unit) (w : World) : Iss isa World :=
  { core with world := w }

/-- A core on its own. -/
def Iss.alone {isa : Isa} {World : Type} (s : Iss isa World) : Iss isa Unit := { s with world := () }

namespace GdbServer

variable {isa : Isa} {Dev : Type} {n : Nat}

abbrev M (isa : Isa) (Dev : Type) (n : Nat) (α : Type) := Exec (GdbServer isa Dev n) Failure α

def setHart (g : GdbServer isa Dev n) (i : Fin (n + 1)) (hart : DebugHart isa) : GdbServer isa Dev n :=
  { g with harts := Function.update g.harts i hart }

def status (i : Fin (n + 1)) (g : GdbServer isa Dev n) : CoreExecStatus := (g.harts i).core.status

def setStatus (i : Fin (n + 1)) (status : CoreExecStatus) (g : GdbServer isa Dev n) :
    GdbServer isa Dev n :=
  g.setHart i { g.harts i with core := { (g.harts i).core with status := status } }

/-- `hart->get_hart_id() + 1`, as an `int`. -/
def threadNumber (core : Iss isa Unit) : Int := ((core.hartId + 1).setWidth 32).toInt

/-! ## Packets -/

/-- `send_packet`.  Before it sends, `gdb_serialize` can end the process, or add up more than an `int`. -/
def sendPacket (data : String) : M isa Dev n Unit :=
  match LibGdb.gdbSerialize .packet (some (LibGdb.bytes data)) with
  | .ok _ => Exec.update fun g => { g with sent := g.sent ++ [.packet data], prevpkt := some data }
  | .error .overflow => Exec.raise .undefined
  | .error _ => Exec.raise .exit

def sendAck : M isa Dev n Unit := Exec.update fun g => { g with sent := g.sent ++ [.ack] }

def sendNack : M isa Dev n Unit := Exec.update fun g => { g with sent := g.sent ++ [.nack] }

def retransmit : M isa Dev n Unit := Exec.update fun g =>
  { g with sent := g.sent ++ (g.prevpkt.map GdbMessage.packet).toList }

/-- A `try` block with one handler: `none` where the handler took over. -/
def catching {α : Type} (caught : Failure) (m : M isa Dev n α) : M isa Dev n (Option α) :=
  Exec.tryCatch (do return some (← m)) fun e => if e = caught then return none else Exec.raise e

theorem run_catching_ok {α : Type} {caught : Failure} {m : M isa Dev n α} {g t : GdbServer isa Dev n} {a : α}
    (ran : m.run g = (.ok a, t)) : (catching caught m).run g = (.ok (some a), t) := by
  unfold catching
  refine Exec.run_tryCatch_ok ?_
  rw [Exec.run_bind_ok ran]
  rfl

theorem run_catching_error {α : Type} {caught e : Failure} {m : M isa Dev n α} {g t : GdbServer isa Dev n}
    (ran : m.run g = (.error e, t)) :
    (catching caught m).run g = (if e = caught then .ok none else .error e, t) := by
  unfold catching
  rw [Exec.run_tryCatch_error (Exec.run_bind_error ran)]
  split <;> rfl

/-! ## Threads -/

/-- `none` is an exception, `std::out_of_range`. -/
def getThreads (id : Int) : Option (List (Fin (n + 1))) :=
  let id := if id = GdbThread.any then 1 else id
  if id = GdbThread.all then some (List.finRange (n + 1))
  else if id < 1 then none
  else if inside : (id - 1).toNat < n + 1 then some [⟨(id - 1).toNat, inside⟩]
  else none

def getThreadsOrThrow (id : Int) : M isa Dev n (List (Fin (n + 1))) :=
  match getThreads id with
  | some threads => pure threads
  | none => Exec.raise .outOfRange

/-- The texts of the harts, one after the other. -/
def forThreads (fn : Fin (n + 1) → M isa Dev n String) : List (Fin (n + 1)) → M isa Dev n String
  | [] => pure ""
  | i :: threads => do
      let text ← fn i
      return text ++ (← forThreads fn threads)

def execThread (fn : Fin (n + 1) → M isa Dev n String) (op : Char) : M isa Dev n String := do
  let thread ← Exec.read fun g => (g.threadOps op).getD GdbThread.any
  forThreads fn (← getThreadsOrThrow thread)

theorem run_execThread {op : Char} {g : GdbServer isa Dev n} {threads : List (Fin (n + 1))}
    (known : getThreads ((g.threadOps op).getD GdbThread.any) = some threads)
    (fn : Fin (n + 1) → M isa Dev n String) : (execThread fn op).run g = (forThreads fn threads).run g := by
  have found : (getThreadsOrThrow ((g.threadOps op).getD GdbThread.any) : M isa Dev n _) = pure threads := by
    unfold getThreadsOrThrow
    rw [known]
  unfold execThread
  rw [Exec.run_read_bind, found, Exec.run_pure_bind]

/-! ## Harts that run -/

/-- The runner behind `stop_event->notify()`: it waits again, or its thread is over. -/
def stopRunner (i : Fin (n + 1)) (g : GdbServer isa Dev n) : GdbServer isa Dev n :=
  g.setHart i ⟨(g.harts i).core, if g.status i = .terminated then .ended else .waiting⟩

/-- A turn of the runner of `i`: what it leaves, and whether it has notified `stop_event`. -/
def turn (i : Fin (n + 1)) (core : Iss isa Unit) (world : SocState Dev) (g : GdbServer isa Dev n) :
    Bool × GdbServer isa Dev n :=
  match (g.harts i).runner with
  | .waiting | .ended => (false, g)
  | .notified =>
      (false, { g.setHart i ⟨core, if g.singleRun then .stepped else .running⟩ with world := world })
  | .stepped => (true, (if g.status i = .runnable then g.setStatus i .hitBreakpoint else g).stopRunner i)
  | .running =>
      -- the condition of the loop of `run`
      if g.status i = .runnable then (false, { g.setHart i ⟨core, .running⟩ with world := world })
      else (false, g.setHart i { g.harts i with runner := .syncing })
  | .syncing => (true, g.stopRunner i)

/-- Whether a hart is in a list is decided by comparing. -/
scoped instance lawfulHarts : LawfulBEq (Fin (n + 1)) := inferInstance

/-- `wait` for one of the stop events: the state when the server goes on. -/
def awaitFrom (awaited : List (Fin (n + 1))) :
    Bool → List (Turn isa Dev n) → GdbServer isa Dev n → Option (GdbServer isa Dev n)
  | _, [], _ => none
  | woken, .server :: turns, g =>
      if woken then some { g with schedule := turns } else awaitFrom awaited woken turns g
  | woken, .hart i core world :: turns, g =>
      awaitFrom awaited (woken || ((g.turn i core world).1 && decide (i ∈ awaited))) turns
        (g.turn i core world).2

def await (awaited : List (Fin (n + 1))) : M isa Dev n Unit := fun g =>
  match g.awaitFrom awaited false g.schedule with
  | some t => (.ok (), t)
  | none => (.error .blocked, g)

/-- `run_event->notify()`: only a runner that waits for it goes on. -/
def notifyRun (i : Fin (n + 1)) (g : GdbServer isa Dev n) : GdbServer isa Dev n :=
  if (g.harts i).runner = .waiting then g.setHart i ⟨(g.harts i).core, .notified⟩ else g

/-- The harts that are still running are stopped; what they all were at when they were asked. -/
def stopHarts : List (Fin (n + 1)) → M isa Dev n (List (Fin (n + 1) × CoreExecStatus))
  | [] => return []
  | i :: harts => do
      let status ← Exec.read (status i)
      Exec.when (status = .runnable) do
        Exec.update (setStatus i .hitBreakpoint)
        await [i]
      return (i, status) :: (← stopHarts harts)

def restoreStatus (orig : List (Fin (n + 1) × CoreExecStatus)) (g : GdbServer isa Dev n) :
    GdbServer isa Dev n :=
  orig.foldl (fun g entry => g.setStatus entry.1 entry.2) g

/-- The selected harts are resumed. -/
def resume (hartsrun : List (Fin (n + 1))) (single : Bool) (g : GdbServer isa Dev n) :
    GdbServer isa Dev n :=
  hartsrun.foldl (fun g i => g.notifyRun i) { g with singleRun := single }

def runThreads (hartsrun : List (Fin (n + 1))) (single : Bool) : M isa Dev n Unit :=
  if hartsrun = [] then pure ()
  else do
    Exec.update (resume hartsrun single)
    await hartsrun
    let orig ← stopHarts hartsrun
    Exec.update (restoreStatus orig)

/-! ## Handlers -/

def haltReason : M isa Dev n Unit := sendPacket "S05"

/-- `formatRegister`: the digits of a number with its bytes swapped. -/
def formatRegister (isa : Isa) (value : BitVec 64) : String :=
  hexString (bufferBytes (n := isa.xlen / 8) (value.setWidth _))

def readRegisterOf (i : Fin (n + 1)) (reg : BitVec 5) (g : GdbServer isa Dev n) : BitVec 64 :=
  ((g.harts i).core.regs reg).setWidth 64

/-- The registers of a hart, one after the other. -/
def registersText (i : Fin (n + 1)) (g : GdbServer isa Dev n) : String :=
  String.join ((List.finRange 32).map fun reg => formatRegister isa (g.readRegisterOf i (BitVec.ofFin reg)))

def getRegisters : M isa Dev n Unit := do
  let text ← execThread (fun i => Exec.read (registersText i)) 'g'
  sendPacket text

def setThread (op : Char) (id : GdbThread) : M isa Dev n Unit := do
  Exec.update fun g => { g with threadOps := Function.update g.threadOps op (some id.tid) }
  sendPacket "OK"

/-- What a translation throws; but for the mode of `satp`, it ends the simulation by assertions. -/
def failureOf : Exc → Failure
  | .trap e => .trap e
  | .abort .unknownSatpMode => .runtimeError
  | .abort _ => .assertion
  | .blocked => .blocked

/-- A core in its system. -/
def hart (g : GdbServer isa Dev n) (i : Fin (n + 1)) : Iss isa (SocState Dev) :=
  (g.harts i).core.inside g.world

def withHart (g : GdbServer isa Dev n) (i : Fin (n + 1)) (s : Iss isa (SocState Dev)) :
    GdbServer isa Dev n :=
  { g.setHart i { g.harts i with core := s.alone } with world := s.world }

def onHart {α : Type} (i : Fin (n + 1)) (m : IssM isa (SocState Dev) α) : M isa Dev n α := fun g =>
  ((m.run (g.hart i)).1.mapError failureOf, g.withHart i (m.run (g.hart i)).2)

variable (plat : Platform (SocState Dev)) (soc : Soc Dev)

def translateAddr (i : Fin (n + 1)) (addr : BitVec 64) (type : MemoryAccessType) :
    M isa Dev n (BitVec 64) := do
  if ← Exec.read mmu then onHart i (Iss.v2p plat addr type)
  else return addr

def onMemory {α : Type} (m : Exec (SocState Dev) Failure α) : M isa Dev n α :=
  Exec.onPart world (fun w g => { g with world := w }) m

theorem run_onMemory {α : Type} (m : Exec (SocState Dev) Failure α) (g : GdbServer isa Dev n) :
    (onMemory m).run g = ((m.run g.world).1, { g with world := (m.run g.world).2 }) := rfl

/-- `UINT_MAX`. -/
def uintMax : BitVec 64 := 0xFFFFFFFF

/-- The function that `readMemory` runs for a thread. -/
def readAt (mem : GdbMemory) (i : Fin (n + 1)) : M isa Dev n String := do
  let addr ← translateAddr plat i mem.addr .load
  onMemory (DebugMemoryInterface.readMemory soc addr mem.length.toNat)

def readMemory (mem : GdbMemory) : M isa Dev n Unit := do
  Exec.ensure (mem.length ≤ uintMax) .assertion
  let retval ← catching .runtimeError (execThread (readAt plat soc mem) 'g')
  sendPacket (retval.getD "E01")

/-- The function that `writeMemory` runs for a thread; it appends nothing. -/
def writeAt (loc : GdbMemory) (data : List (Fin 16)) (i : Fin (n + 1)) : M isa Dev n String := do
  let addr ← translateAddr plat i loc.addr .store
  onMemory do
    DebugMemoryInterface.writeMemory soc addr loc.length.toNat data
    return ""

def writeMemory (loc : GdbMemory) (data : List (Fin 16)) : M isa Dev n Unit := do
  Exec.ensure (loc.length ≤ uintMax) .assertion
  let retval ← catching .runtimeError (execThread (writeAt plat soc loc data) 'g')
  sendPacket (if retval.isSome then "OK" else "E01")

/-- `GDB_PC_REG`. -/
def pcReg : Int := 32

/-- The number becomes an `unsigned`. -/
def readRegister (reg : Int) : M isa Dev n Unit := do
  let retval ← catching .outOfRange (execThread (fun i => do
    if reg = pcReg then
      Exec.read fun g => formatRegister isa ((g.harts i).core.pc.setWidth 64)
    else if 0 ≤ reg ∧ reg < 32 then
      Exec.read fun g => formatRegister isa (g.readRegisterOf i (BitVec.ofInt 5 reg))
    else Exec.raise .outOfRange) 'g')
  sendPacket (retval.getD "E01")

/-- A comma behind every number but that of the last hart. -/
def threadEntry (g : GdbServer isa Dev n) (i : Fin (n + 1)) : String :=
  if g.status i = .terminated then ""
  else toString ((g.harts i).core.hartId + 1).toNat ++ if i.val + 1 < n + 1 then "," else ""

/-- The list that `threadInfo` sends behind its `m`. -/
def threadList (g : GdbServer isa Dev n) : String := String.join ((List.finRange (n + 1)).map g.threadEntry)

def threadInfo : M isa Dev n Unit := do
  let thrlist ← Exec.read threadList
  sendPacket ("m" ++ thrlist)

def threadInfoEnd : M isa Dev n Unit := sendPacket "l"

def qAttached : M isa Dev n Unit := sendPacket "0"

def qSupported : M isa Dev n Unit := sendPacket "vContSupported+;PacketSize=4096"

def isAlive (thr : GdbThread) : M isa Dev n Unit := do
  let threads ← catching .outOfRange (getThreadsOrThrow thr.tid)
  sendPacket (if threads.isSome then "OK" else "E01")

/-- `stop_reason` and `stopped_thread`. -/
abbrev Stop := Option (String × Int)

/-- The harts that have stopped, and the last one of them; a breakpoint is over with this. -/
def collectStops (stop : Stop) : List (Fin (n + 1)) → M isa Dev n Stop
  | [] => return stop
  | i :: harts => do
      let number ← Exec.read fun g => threadNumber (g.harts i).core
      match ← Exec.read (status i) with
      | .hitBreakpoint => do
          Exec.update (setStatus i .runnable)
          collectStops (some ("05", number)) harts
      | .terminated => collectStops (some ("03", number)) harts
      | .runnable => collectStops stop harts

/-- Behind the loop over the actions. -/
def vContEnd : Stop → M isa Dev n Unit
  | none => Exec.raise .assertion
  | some (reason, thread) => do
      Exec.ensure (1 ≤ thread) .assertion
      Exec.update fun g => { g with threadOps := Function.update g.threadOps 'g' (some thread) }
      sendPacket ("T" ++ reason ++ "thread:" ++ toString thread ++ ";")

/-- The loop over the actions; `matched` are the harts that an earlier action has named. -/
def vContLoop (matched : List (Fin (n + 1))) (stop : Stop) : List GdbVcont → M isa Dev n Unit
  | [] => vContEnd stop
  | vcont :: rest => do
      Exec.ensure (vcont.action = .s ∨ vcont.action = .c) .invalidArgument
      match getThreads vcont.thread.tid with
      | none => sendPacket "E01"
      | some threads => do
          let run := threads.filter (· ∉ matched)
          runThreads run (vcont.action = .s)
          let stop ← collectStops stop run
          vContLoop (if 0 < vcont.thread.tid then threads ++ matched else matched) stop rest

def vCont (first : GdbVcont) (rest : List GdbVcont) : M isa Dev n Unit :=
  vContLoop [] none (first :: rest)

def vContSupported : M isa Dev n Unit := sendPacket "vCont;c;C"

/-- `removeBreakpoint` and `setBreakpoint`: every hart gets the change. -/
def changeBreakpoint (change : List (Word isa) → List (Word isa)) (type : GdbZtype) : M isa Dev n Unit :=
  if type ≠ .soft then sendPacket ""
  else do
    Exec.update fun g => { g with harts := fun i =>
      let core := (g.harts i).core
      { g.harts i with core := { core with breakpoints := change core.breakpoints } } }
    sendPacket "OK"

def removeBreakpoint (type : GdbZtype) (address : BitVec 64) : M isa Dev n Unit :=
  changeBreakpoint (·.filter (· ≠ address.setWidth isa.xlen)) type

def setBreakpoint (type : GdbZtype) (address : BitVec 64) : M isa Dev n Unit :=
  changeBreakpoint (·.insert (address.setWidth isa.xlen)) type

/-! ## The table and the loop -/

inductive Handler where
  | haltReason | getRegisters | setThread | killServer | readMemory | writeMemory | readRegister
  | qAttached | qSupported | threadInfo | threadInfoEnd | isAlive | vCont | vContSupported
  | removeBreakpoint | setBreakpoint
deriving DecidableEq

def handlers : String → Option Handler
  | "?" => some .haltReason
  | "g" => some .getRegisters
  | "H" => some .setThread
  | "k" => some .killServer
  | "m" => some .readMemory
  | "M" => some .writeMemory
  | "p" => some .readRegister
  | "qAttached" => some .qAttached
  | "qSupported" => some .qSupported
  | "qfThreadInfo" => some .threadInfo
  | "qsThreadInfo" => some .threadInfoEnd
  | "T" => some .isAlive
  | "vCont" => some .vCont
  | "vCont?" => some .vContSupported
  | "z" => some .removeBreakpoint
  | "Z" => some .setBreakpoint
  | _ => none

/-- A handler reads its own member of the union, whatever the parser has set. -/
def handle : Handler → GdbCommand → M isa Dev n Unit
  | .haltReason, _ => haltReason
  | .getRegisters, _ => getRegisters
  | .setThread, .h op id => setThread op id
  | .killServer, _ => Exec.raise .exit
  | .readMemory, .memory mem => readMemory plat soc mem
  | .writeMemory, .memoryw location data => writeMemory plat soc location data
  | .readRegister, .int reg => readRegister reg
  | .qAttached, _ => qAttached
  | .qSupported, _ => qSupported
  | .threadInfo, _ => threadInfo
  | .threadInfoEnd, _ => threadInfoEnd
  | .isAlive, .thread thr => isAlive thr
  | .vCont, .vcont first rest => vCont first rest
  | .vContSupported, _ => vContSupported
  | .removeBreakpoint, .breakpoint _ type address _ => removeBreakpoint type address
  | .setBreakpoint, .breakpoint _ type address _ => setBreakpoint type address
  | _, _ => Exec.raise .undefined

def answerCommand (cmd : GdbCommand) : M isa Dev n Unit := do
  sendAck
  match handlers cmd.name with
  | none => sendPacket ""
  | some handler => handle plat soc handler cmd

def answerPacket : GdbPacket → M isa Dev n Unit
  | .nack => retransmit
  | .ack => pure ()
  | .refused => sendNack
  | .command cmd => answerCommand plat soc cmd

/-- `mtx.lock()` of `dispatch` returns when nobody has the mutex. -/
def dispatch (pkt : GdbPacket) : M isa Dev n Unit := do
  Exec.ensure (¬ (← Exec.read mtx)) .blocked
  Exec.update fun g => { g with mtx := true, pktq := g.pktq ++ [pkt] }

/-- A round of the loop of `run`. -/
def run : M isa Dev n Unit := do
  match ← Exec.read pktq with
  | [] => Exec.raise .blocked
  | pkt :: _ => do
      answerPacket plat soc pkt
      Exec.update fun g => { g with pktq := g.pktq.tail, mtx := false }

/-- A packet comes in, or `run` has its turn, with what the kernel does meanwhile. -/
inductive Input (isa : Isa) (Dev : Type) (n : Nat) where
  | receive (pkt : GdbPacket)
  | serve (schedule : List (Turn isa Dev n))

/-- A step, with what it writes to the connection. -/
def step (g : GdbServer isa Dev n) (input : Input isa Dev n) :
    Except Failure (List GdbMessage × GdbServer isa Dev n) :=
  let (result, t) :=
    match input with
    | .receive pkt => (dispatch pkt).run { g with sent := [] }
    | .serve schedule => (run plat soc).run { g with sent := [], schedule := schedule }
  result.map fun _ => (t.sent, t)

end GdbServer

end RiscvVp
