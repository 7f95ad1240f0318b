/-
# RiscvVp.Gdb.Vcont -- which action a hart is resumed with

The actions of `vCont` are applied from left to right, and to no hart that an action before has matched.
Only an action for one thread counts as a match: where the first action for a hart is one for all threads
or for any, the next one resumes the hart again.

What is resumed is recorded beside the server.  In every run the record is a part of `planned`, which
depends on the actions alone; in some runs it is all of it.
-/
import RiscvVp.Gdb.Resume
import RiscvVp.Lib.Ghost

namespace RiscvVp.GdbServer

set_option autoImplicit false

open Lib

variable {isa : Isa} {Dev : Type} {n : Nat} {g t : GdbServer isa Dev n} {i j : Fin (n + 1)}

/-! ## What is resumed -/

/-- A hart, and whether for one step. -/
abbrev Resumption (n : Nat) := Fin (n + 1) × Bool

abbrev Recorded (isa : Isa) (Dev : Type) (n : Nat) (α : Type) :=
  Exec (GdbServer isa Dev n × List (Resumption n)) Failure α

/-- `vContLoop`, with the harts that `run_threads` is given. -/
def vContLoopRecorded (matched : List (Fin (n + 1))) (stop : Stop) : List GdbVcont → Recorded isa Dev n Unit
  | [] => Exec.beside _ (vContEnd stop)
  | vcont :: rest => do
      Exec.beside _ (Exec.ensure (vcont.action = .s ∨ vcont.action = .c) .invalidArgument)
      match getThreads vcont.thread.tid with
      | none => Exec.beside _ (sendPacket "E01")
      | some threads => do
          let run := threads.filter (· ∉ matched)
          Exec.note (· ++ run.map (·, decide (vcont.action = .s)))
          Exec.beside _ (runThreads run (vcont.action = .s))
          let stop ← Exec.beside _ (collectStops stop run)
          vContLoopRecorded (if 0 < vcont.thread.tid then threads ++ matched else matched) stop rest

def vContRecorded (first : GdbVcont) (rest : List GdbVcont) : Recorded isa Dev n Unit :=
  vContLoopRecorded [] none (first :: rest)

theorem erases_vContLoopRecorded (matched : List (Fin (n + 1))) (stop : Stop) (actions : List GdbVcont) :
    Erases (vContLoopRecorded matched stop actions : Recorded isa Dev n Unit) (vContLoop matched stop actions) := by
  induction actions generalizing matched stop with
  | nil => exact .beside _
  | cons vcont rest ih =>
    unfold vContLoopRecorded vContLoop
    refine .bind (.beside _) fun _ => ?_
    cases (getThreads vcont.thread.tid : Option (List (Fin (n + 1)))) with
    | none => exact .beside _
    | some threads =>
      exact .note _ (.bind (.beside _) fun _ => .bind (.beside _) fun stop => ih _ stop)

/-- What `vCont` resumes. -/
def resumptions (g : GdbServer isa Dev n) (first : GdbVcont) (rest : List GdbVcont) : List (Resumption n) :=
  ((vContRecorded first rest).run (g, [])).2.2

/-- What the actions resume if all waits end: up to a thread that does not exist, each its harts but those that an
action for one thread has matched. -/
def planned (matched : List (Fin (n + 1))) : List GdbVcont → List (Resumption n)
  | [] => []
  | vcont :: rest =>
      match getThreads vcont.thread.tid with
      | none => []
      | some threads =>
          (threads.filter (· ∉ matched)).map (·, decide (vcont.action = .s)) ++
            planned (if 0 < vcont.thread.tid then threads ++ matched else matched) rest

section Action

variable {vcont : GdbVcont} {matched : List (Fin (n + 1))} {rest : List GdbVcont}

theorem run_vContLoopRecorded_unsupported (unsupported : ¬ (vcont.action = .s ∨ vcont.action = .c)) (stop : Stop)
    (log : List (Resumption n)) :
    (vContLoopRecorded matched stop (vcont :: rest)).run (g, log) = (.error .invalidArgument, (g, log)) := by
  unfold vContLoopRecorded
  rw [Exec.ensure_neg unsupported]
  rfl

theorem run_vContLoopRecorded_unknown (supported : vcont.action = .s ∨ vcont.action = .c)
    (unknown : (getThreads vcont.thread.tid : Option (List (Fin (n + 1)))) = none) (stop : Stop)
    (log : List (Resumption n)) : (vContLoopRecorded matched stop (vcont :: rest)).run (g, log) =
      (Exec.beside _ (sendPacket "E01")).run (g, log) := by
  unfold vContLoopRecorded
  rw [Exec.ensure_pos supported, unknown]
  rfl

/-- The harts of an action are recorded, and then they run. -/
theorem run_vContLoopRecorded_known (supported : vcont.action = .s ∨ vcont.action = .c) {threads : List (Fin (n + 1))}
    (found : getThreads vcont.thread.tid = some threads) (stop : Stop) (log : List (Resumption n)) :
    (vContLoopRecorded matched stop (vcont :: rest)).run (g, log) =
      Exec.run (do
        Exec.beside _ (runThreads (threads.filter (· ∉ matched)) (vcont.action = .s))
        let stop ← Exec.beside _ (collectStops stop (threads.filter (· ∉ matched)))
        vContLoopRecorded (if 0 < vcont.thread.tid then threads ++ matched else matched) stop rest)
        (g, log ++ (threads.filter (· ∉ matched)).map (·, decide (vcont.action = .s))) := by
  conv_lhs => unfold vContLoopRecorded
  rw [Exec.ensure_pos supported, found]
  rfl

theorem planned_unknown (unknown : (getThreads vcont.thread.tid : Option (List (Fin (n + 1)))) = none) :
    planned matched (vcont :: rest) = [] := by
  unfold planned
  rw [unknown]

theorem planned_known {threads : List (Fin (n + 1))} (found : getThreads vcont.thread.tid = some threads) :
    planned matched (vcont :: rest) = (threads.filter (· ∉ matched)).map (·, decide (vcont.action = .s)) ++
      planned (if 0 < vcont.thread.tid then threads ++ matched else matched) rest := by
  conv_lhs => unfold planned
  rw [found]

end Action

/-- Whatever happens, the record is a part of the plan. -/
theorem record_prefix (matched : List (Fin (n + 1))) (stop : Stop) (actions : List GdbVcont)
    (g : GdbServer isa Dev n) (log : List (Resumption n)) :
    ∃ resumed, resumed <+: planned matched actions ∧
      ((vContLoopRecorded matched stop actions).run (g, log)).2.2 = log ++ resumed := by
  induction actions generalizing matched stop g log with
  | nil => exact ⟨[], List.nil_prefix, (List.append_nil log).symm⟩
  | cons vcont rest ih =>
    by_cases supported : vcont.action = .s ∨ vcont.action = .c
    case neg =>
      rw [run_vContLoopRecorded_unsupported supported]
      exact ⟨[], List.nil_prefix, (List.append_nil log).symm⟩
    case pos =>
      cases found : (getThreads vcont.thread.tid : Option (List (Fin (n + 1)))) with
      | none =>
        rw [run_vContLoopRecorded_unknown supported found]
        exact ⟨[], List.nil_prefix, (List.append_nil log).symm⟩
      | some threads =>
        rw [run_vContLoopRecorded_known supported found, planned_known found]
        generalize threads.filter (· ∉ matched) = run
        generalize (if 0 < vcont.thread.tid then threads ++ matched else matched) = matched'
        generalize run.map (·, decide (vcont.action = .s)) = now
        have alone : ∃ resumed, resumed <+: now ++ planned matched' rest ∧ log ++ now = log ++ resumed :=
          ⟨now, List.prefix_append now _, rfl⟩
        cases ran : (runThreads run (vcont.action = .s)).run g with
        | mk result t =>
          cases result with
          | error e =>
            rw [Exec.run_bind_error (Exec.run_beside_error ran _)]
            exact alone
          | ok _ =>
            rw [Exec.run_bind_ok (Exec.run_beside_ok ran _)]
            cases collected : (collectStops stop run).run t with
            | mk result u =>
              cases result with
              | error e =>
                rw [Exec.run_bind_error (Exec.run_beside_error collected _)]
                exact alone
              | ok stop' =>
                rw [Exec.run_bind_ok (Exec.run_beside_ok collected _)]
                obtain ⟨resumed, part, recorded⟩ := ih matched' stop' u (log ++ now)
                exact ⟨now ++ resumed, (List.prefix_append_right_inj now).mpr part,
                  recorded.trans (List.append_assoc log now resumed)⟩

/-! ## Runs in which every wait ends -/

/-- No runner is on its way. -/
def Calm (g : GdbServer isa Dev n) : Prop :=
  ∀ i, (g.harts i).runner = .waiting ∨ (g.harts i).runner = .notified

section Turns

variable (core : Iss isa Unit) (world : SocState Dev)

/-- What a `run_step` leaves, with the runner behind it. -/
def behind (i : Fin (n + 1)) (runner : RunnerState) (g : GdbServer isa Dev n) : GdbServer isa Dev n :=
  { g.setHart i ⟨core, runner⟩ with world := world }

/-- What the turns of a hart lead to: a runner that was notified waits again. -/
def settle (i : Fin (n + 1)) (g : GdbServer isa Dev n) : GdbServer isa Dev n :=
  if (g.harts i).runner = .notified then g.behind core world i .waiting else g

theorem behind_self (runner : RunnerState) : (g.behind core world i runner).harts i = ⟨core, runner⟩ :=
  setHart_self g i _

theorem behind_of_ne (runner : RunnerState) (other : j ≠ i) : (g.behind core world i runner).harts j = g.harts j :=
  setHart_of_ne g other _

/-- The runner goes on without another `run_step`. -/
theorem behind_setHart (runner runner' : RunnerState) :
    (g.behind core world i runner).setHart i ⟨core, runner'⟩ = g.behind core world i runner' := by
  unfold behind setHart
  dsimp only
  rw [Function.update_idem]

theorem status_behind (runner : RunnerState) : (g.behind core world i runner).status i = core.status := by
  unfold GdbServer.status
  rw [behind_self]

theorem settle_notified (notified : (g.harts i).runner = .notified) :
    g.settle core world i = g.behind core world i .waiting := if_pos notified

theorem settle_waiting (waiting : (g.harts i).runner = .waiting) : g.settle core world i = g :=
  if_neg (by rw [waiting]; decide)

theorem settle_of_ne (other : j ≠ i) : (g.settle core world i).harts j = g.harts j := by
  unfold settle
  split
  · exact behind_of_ne core world .waiting other
  · rfl

theorem Calm.settle (calm : g.Calm) (i : Fin (n + 1)) :
    (g.settle core world i).Calm ∧ ((g.settle core world i).harts i).runner = .waiting := by
  have own : ((g.settle core world i).harts i).runner = .waiting := by
    rcases calm i with waiting | notified
    · rw [settle_waiting core world waiting]
      exact waiting
    · rw [settle_notified core world notified, behind_self]
  refine ⟨fun j => ?_, own⟩
  by_cases same : j = i
  · rw [same]
    exact .inl own
  · rw [settle_of_ne core world same]
    exact calm j

variable {core} (hit : core.status = .hitBreakpoint)

include hit

theorem stopRunner_behind (runner : RunnerState) :
    (g.behind core world i runner).stopRunner i = g.behind core world i .waiting := by
  unfold stopRunner
  rw [status_behind, hit, behind_self, if_neg (by decide), behind_setHart]

theorem turn_stepped :
    (g.behind core world i .stepped).turn i core world = (true, g.behind core world i .waiting) := by
  unfold turn
  rw [behind_self]
  dsimp only
  rw [status_behind, hit, if_neg (by decide), stopRunner_behind world hit]

theorem turn_running :
    (g.behind core world i .running).turn i core world = (false, g.behind core world i .syncing) := by
  unfold turn
  rw [behind_self]
  dsimp only
  rw [status_behind, hit, if_neg (by decide), behind_setHart]

theorem turn_syncing :
    (g.behind core world i .syncing).turn i core world = (true, g.behind core world i .waiting) := by
  unfold turn
  rw [behind_self]
  dsimp only
  rw [stopRunner_behind world hit]

/-- Three turns of a hart are enough for a step, and for a run up to a breakpoint. -/
theorem awaitFrom_turns (awaited : List (Fin (n + 1))) (woken : Bool) (turns : List (Turn isa Dev n))
    (calm : g.Calm) :
    g.awaitFrom awaited woken (List.replicate 3 (.hart i core world) ++ turns) =
      (g.settle core world i).awaitFrom awaited
        (woken || ((g.harts i).runner = .notified ∧ i ∈ awaited)) turns := by
  rcases calm i with waiting | notified
  case inl =>
    have still : g.turn i core world = (false, g) := turn_parked core world (.inl waiting)
    rw [settle_waiting core world waiting]
    simp only [List.replicate, List.cons_append, List.nil_append, awaitFrom, still, waiting]
    simp
  case inr =>
    have first : g.turn i core world =
        (false, g.behind core world i (if g.singleRun then .stepped else .running)) := by
      unfold turn behind
      rw [notified]
    have third : (g.behind core world i .waiting).turn i core world = (false, g.behind core world i .waiting) :=
      turn_parked core world (.inl (by rw [behind_self]))
    rw [settle_notified core world notified]
    simp only [List.replicate, List.cons_append, List.nil_append, awaitFrom, first, notified]
    cases g.singleRun with
    | true => simp [turn_stepped world hit, third]
    | false => simp [turn_running world hit, turn_syncing world hit]

end Turns

/-- The turns of some harts, and then one of the server. -/
theorem awaitFrom_round {cores : Fin (n + 1) → Iss isa Unit} (hit : ∀ i, (cores i).status = .hitBreakpoint)
    (world : SocState Dev) {awaited harts : List (Fin (n + 1))} {woken : Bool} {turns : List (Turn isa Dev n)}
    (calm : g.Calm) (wakes : woken = true ∨ ∃ j ∈ harts, j ∈ awaited ∧ (g.harts j).runner = .notified) :
    ∃ t, g.awaitFrom awaited woken
        ((harts.flatMap fun i => List.replicate 3 (.hart i (cores i) world)) ++ .server :: turns) = some t ∧
      t.schedule = turns ∧ t.Calm ∧ (∀ j, (g.harts j).runner = .waiting → t.harts j = g.harts j) ∧
      ∀ j ∈ harts, (g.harts j).runner = .notified → t.status j = .hitBreakpoint := by
  induction harts generalizing g woken with
  | nil =>
    have awake : woken = true := wakes.resolve_right fun ⟨j, among, _⟩ => List.not_mem_nil among
    refine ⟨{ g with schedule := turns }, if_pos awake, rfl, calm, fun _ _ => rfl, fun j among => ?_⟩
    cases among
  | cons i harts ih =>
    rw [List.flatMap_cons, List.append_assoc, awaitFrom_turns world (hit i) _ _ _ calm]
    obtain ⟨calm', own⟩ := calm.settle (cores i) world i
    have wakes' : (woken || ((g.harts i).runner = .notified ∧ i ∈ awaited)) = true ∨
        ∃ j ∈ harts, j ∈ awaited ∧ ((g.settle (cores i) world i).harts j).runner = .notified := by
      rcases wakes with awake | ⟨j, among, waited, notified⟩
      · exact .inl (by rw [awake]; rfl)
      · by_cases same : j = i
        · subst same
          exact .inl (by simp [notified, waited])
        · refine .inr ⟨j, (List.mem_cons.mp among).resolve_left same, waited, ?_⟩
          rw [settle_of_ne (cores i) world same]
          exact notified
    obtain ⟨t, ended, schedule, calm'', kept, stopped⟩ := ih calm' wakes'
    refine ⟨t, ended, schedule, calm'', fun j waiting => ?_, fun j among notified => ?_⟩
    · by_cases same : j = i
      · subst same
        rw [kept j own, settle_waiting (cores j) world waiting]
      · have still := settle_of_ne (g := g) (cores i) world same
        rw [kept j (by rw [still]; exact waiting), still]
    · by_cases same : j = i
      · subst same
        unfold GdbServer.status
        rw [kept j own, settle_notified (cores j) world notified, behind_self]
        exact hit j
      · refine stopped j ((List.mem_cons.mp among).resolve_left same) ?_
        rw [settle_of_ne (cores i) world same]
        exact notified

theorem Calm.notifyRun (calm : g.Calm) (i : Fin (n + 1)) : (g.notifyRun i).Calm ∧
    ∀ j, j = i ∨ (g.harts j).runner = .notified → ((g.notifyRun i).harts j).runner = .notified := by
  unfold GdbServer.notifyRun
  split
  case isTrue waiting =>
    constructor
    · intro j
      by_cases same : j = i
      · rw [same, setHart_self]
        exact .inr rfl
      · rw [setHart_of_ne g same]
        exact calm j
    · intro j notified
      by_cases same : j = i
      · rw [same, setHart_self]
      · rw [setHart_of_ne g same]
        exact notified.resolve_left same
  case isFalse before =>
    refine ⟨calm, fun j notified => ?_⟩
    rcases notified with rfl | notified
    · exact (calm j).resolve_left before
    · exact notified

/-- Every hart that is resumed is notified. -/
theorem Calm.resume (calm : g.Calm) (hartsrun : List (Fin (n + 1))) (single : Bool) :
    (g.resume hartsrun single).Calm ∧ (g.resume hartsrun single).schedule = g.schedule ∧
      ∀ j ∈ hartsrun, ((g.resume hartsrun single).harts j).runner = .notified := by
  have notified (h : GdbServer isa Dev n) (calm : h.Calm) :
      (hartsrun.foldl (fun g i => g.notifyRun i) h).Calm ∧
        (hartsrun.foldl (fun g i => g.notifyRun i) h).schedule = h.schedule ∧
        ∀ j, j ∈ hartsrun ∨ (h.harts j).runner = .notified →
          ((hartsrun.foldl (fun g i => g.notifyRun i) h).harts j).runner = .notified := by
    induction hartsrun generalizing h with
    | nil => exact ⟨calm, rfl, fun j before => before.resolve_left List.not_mem_nil⟩
    | cons i hartsrun ih =>
      obtain ⟨calm', own⟩ := calm.notifyRun i
      obtain ⟨calm'', schedule, later⟩ := ih (h.notifyRun i) calm'
      have same : (h.notifyRun i).schedule = h.schedule := by
        unfold GdbServer.notifyRun
        split <;> rfl
      refine ⟨calm'', schedule.trans same, fun j now => later j ?_⟩
      rcases now with among | before
      · exact (List.mem_cons.mp among).symm.imp_right fun first => own j (.inl first)
      · exact .inr (own j (.inr before))
  obtain ⟨calm', schedule, now⟩ := notified { g with singleRun := single } calm
  exact ⟨calm', schedule, fun j among => now j (.inl among)⟩

/-- Harts that have stopped are not waited for. -/
theorem run_stopHarts_idle {harts : List (Fin (n + 1))} (idle : ∀ i ∈ harts, g.status i ≠ .runnable) :
    ∃ orig, (stopHarts harts).run g = (.ok orig, g) := by
  induction harts with
  | nil => exact ⟨[], rfl⟩
  | cons i harts ih =>
    obtain ⟨own, rest⟩ := List.forall_mem_cons.mp idle
    obtain ⟨orig, ran⟩ := ih rest
    refine ⟨(i, g.status i) :: orig, ?_⟩
    unfold stopHarts
    rw [Exec.run_read_bind, Exec.when_neg own, Exec.run_pure_bind, Exec.run_bind_ok ran]
    rfl

/-- A status is not where a runner is. -/
theorem Calm.setStatus (calm : g.Calm) (i : Fin (n + 1)) (status : CoreExecStatus) :
    (g.setStatus i status).Calm := by
  intro j
  rw [setStatus_runner]
  exact calm j

theorem Calm.restoreStatus (calm : g.Calm) (orig : List (Fin (n + 1) × CoreExecStatus)) :
    (g.restoreStatus orig).Calm ∧ (g.restoreStatus orig).schedule = g.schedule := by
  unfold GdbServer.restoreStatus
  induction orig generalizing g with
  | nil => exact ⟨calm, rfl⟩
  | cons entry orig ih => exact ih (calm.setStatus entry.1 entry.2)

theorem Calm.run_collectStops (calm : g.Calm) (stop : Stop) (harts : List (Fin (n + 1))) :
    ∃ stop' t, (collectStops stop harts).run g = (.ok stop', t) ∧ t.Calm ∧ t.schedule = g.schedule := by
  induction harts generalizing g stop with
  | nil => exact ⟨stop, g, rfl, calm, rfl⟩
  | cons i harts ih =>
    unfold collectStops
    rw [Exec.run_read_bind, Exec.run_read_bind]
    cases g.status i with
    | hitBreakpoint => exact ih (calm.setStatus i .runnable) _
    | terminated => exact ih calm _
    | runnable => exact ih calm stop

/-- One turn of the server, behind enough turns of every hart. -/
def round (cores : Fin (n + 1) → Iss isa Unit) (world : SocState Dev) : List (Turn isa Dev n) :=
  ((List.finRange (n + 1)).flatMap fun i => List.replicate 3 (.hart i (cores i) world)) ++ [.server]

/-- With a round ahead the waits of `run_threads` end. -/
theorem Calm.run_runThreads (calm : g.Calm) {cores : Fin (n + 1) → Iss isa Unit}
    (hit : ∀ i, (cores i).status = .hitBreakpoint) {world : SocState Dev} {turns : List (Turn isa Dev n)}
    (ahead : g.schedule = round cores world ++ turns) (hartsrun : List (Fin (n + 1))) (single : Bool) :
    ∃ t, (runThreads hartsrun single).run g = (.ok (), t) ∧ t.Calm ∧
      (t.schedule = g.schedule ∨ t.schedule = turns) := by
  unfold runThreads
  by_cases empty : hartsrun = []
  · rw [if_pos empty]
    exact ⟨g, rfl, calm, .inl rfl⟩
  rw [if_neg empty]
  obtain ⟨calm', schedule, notified⟩ := calm.resume hartsrun single
  obtain ⟨first, others, same⟩ := List.exists_cons_of_ne_nil empty
  have among : first ∈ hartsrun := same ▸ List.mem_cons_self
  have wakes : false = true ∨ ∃ j ∈ List.finRange (n + 1), j ∈ hartsrun ∧
      ((g.resume hartsrun single).harts j).runner = .notified :=
    .inr ⟨first, List.mem_finRange first, among, notified first among⟩
  obtain ⟨t, ended, schedule', calm'', -, stopped⟩ :=
    @awaitFrom_round isa Dev n (g.resume hartsrun single) cores hit world hartsrun (List.finRange (n + 1)) false turns
      calm' wakes
  have waited : (await hartsrun).run (g.resume hartsrun single) = (.ok (), t) := by
    have turns' : (g.resume hartsrun single).schedule =
        ((List.finRange (n + 1)).flatMap fun i => List.replicate 3 (.hart i (cores i) world)) ++
          .server :: turns := by
      rw [schedule, ahead]
      unfold round
      rw [List.append_assoc]
      rfl
    unfold Exec.run await
    rw [turns', ended]
  have idle : ∀ i ∈ hartsrun, t.status i ≠ .runnable := by
    intro i among
    rw [stopped i (List.mem_finRange i) (notified i among)]
    decide
  obtain ⟨orig, ran⟩ := run_stopHarts_idle idle
  obtain ⟨calm, schedule''⟩ := calm''.restoreStatus orig
  refine ⟨t.restoreStatus orig, ?_, calm, .inr (schedule''.trans schedule')⟩
  rw [Exec.run_update_bind, Exec.run_bind_ok waited, Exec.run_bind_ok ran]
  rfl

/-- With a round ahead for each action, all that is planned is resumed. -/
theorem record_eq_planned {actions : List GdbVcont}
    (supported : ∀ vcont ∈ actions, vcont.action = .s ∨ vcont.action = .c)
    {cores : Fin (n + 1) → Iss isa Unit} (hit : ∀ i, (cores i).status = .hitBreakpoint) (world : SocState Dev)
    (calm : g.Calm) {k : Nat} (enough : actions.length ≤ k)
    (ahead : g.schedule = (List.replicate k (round cores world)).flatten)
    (matched : List (Fin (n + 1))) (stop : Stop) (log : List (Resumption n)) :
    ((vContLoopRecorded matched stop actions).run (g, log)).2.2 = log ++ planned matched actions := by
  induction actions generalizing g k matched stop log with
  | nil => exact (List.append_nil log).symm
  | cons vcont rest ih =>
    obtain ⟨known, later⟩ := List.forall_mem_cons.mp supported
    cases found : (getThreads vcont.thread.tid : Option (List (Fin (n + 1)))) with
    | none =>
      rw [run_vContLoopRecorded_unknown known found, planned_unknown found]
      exact (List.append_nil log).symm
    | some threads =>
      rw [run_vContLoopRecorded_known known found, planned_known found]
      generalize threads.filter (· ∉ matched) = run
      generalize (if 0 < vcont.thread.tid then threads ++ matched else matched) = matched'
      generalize run.map (·, decide (vcont.action = .s)) = now
      have some : k ≠ 0 := Nat.ne_of_gt (Nat.lt_of_lt_of_le (Nat.succ_pos rest.length) enough)
      obtain ⟨k, rfl⟩ := Nat.exists_eq_succ_of_ne_zero some
      have next : g.schedule = round cores world ++ (List.replicate k (round cores world)).flatten := by
        rw [ahead, List.replicate_succ, List.flatten_cons]
      obtain ⟨t, ran, calm', schedule⟩ := calm.run_runThreads hit next run (vcont.action = .s)
      obtain ⟨stop', u, collected, calm'', schedule'⟩ := calm'.run_collectStops stop run
      rw [Exec.run_bind_ok (Exec.run_beside_ok ran _), Exec.run_bind_ok (Exec.run_beside_ok collected _),
        ← List.append_assoc]
      rcases schedule with same | used
      · have still := schedule'.trans (same.trans ahead)
        exact ih later calm'' (Nat.le_of_succ_le enough) still matched' stop' (log ++ now)
      · exact ih later calm'' (Nat.le_of_succ_le_succ enough) (schedule'.trans used) matched' stop' (log ++ now)

/-! ## The leftmost action -/

/-- The action has a hart to apply to. -/
def hasThreads (n : Nat) (vcont : GdbVcont) : Bool :=
  (getThreads vcont.thread.tid : Option (List (Fin (n + 1)))).isSome

/-- The action matches a hart. -/
def selects (i : Fin (n + 1)) (vcont : GdbVcont) : Bool :=
  (getThreads vcont.thread.tid).any fun threads => i ∈ threads

/-- The actions for a hart that `vCont` comes to. -/
def actionsFor (i : Fin (n + 1)) (actions : List GdbVcont) : List GdbVcont :=
  (actions.takeWhile (hasThreads n)).filter (selects i)

/-- No hart is resumed twice, each with the first action that matches it. -/
structure Leftmost (actions : List GdbVcont) (resumed : List (Resumption n)) : Prop where
  once : (resumed.map Prod.fst).Nodup
  first : ∀ i single, (i, single) ∈ resumed →
    ∃ vcont, actions.find? (selects i) = some vcont ∧ single = decide (vcont.action = .s)

/-- An action is the only one, or for one thread. -/
def FirstCounts : List GdbVcont → Prop
  | vcont :: _ :: _ => 0 < vcont.thread.tid
  | _ => True

instance : DecidablePred FirstCounts
  | [] => isTrue trivial
  | [_] => isTrue trivial
  | vcont :: _ :: _ => inferInstanceAs (Decidable (0 < vcont.thread.tid))

/-- What is applied of the actions for a hart: all up to the first one for one thread. -/
def applied : List GdbVcont → List GdbVcont
  | [] => []
  | vcont :: rest => vcont :: if 0 < vcont.thread.tid then [] else applied rest

theorem applied_cons (vcont : GdbVcont) (rest : List GdbVcont) :
    applied (vcont :: rest) = vcont :: if 0 < vcont.thread.tid then [] else applied rest := rfl

theorem applied_of_firstCounts {actions : List GdbVcont} (counts : FirstCounts actions) :
    applied actions = actions.take 1 := by
  match actions with
  | [] => rfl
  | [vcont] =>
    unfold applied applied
    rw [ite_self]
    rfl
  | vcont :: _ :: _ =>
    have single : 0 < vcont.thread.tid := counts
    unfold applied
    rw [if_pos single]
    rfl

theorem firstCounts_iff (actions : List GdbVcont) : FirstCounts actions ↔ (applied actions).length ≤ 1 := by
  constructor
  · intro counts
    rw [applied_of_firstCounts counts]
    exact List.length_take_le 1 actions
  · intro short
    match actions with
    | [] => exact trivial
    | [_] => exact trivial
    | vcont :: next :: rest =>
      show 0 < vcont.thread.tid
      by_contra shared
      unfold applied applied at short
      rw [if_neg shared] at short
      simp at short

/-- A list without repetitions has at most one entry for a hart. -/
theorem filter_run {threads : List (Fin (n + 1))} (distinct : threads.Nodup) (matched : List (Fin (n + 1)))
    (single : Bool) (i : Fin (n + 1)) :
    ((threads.filter (· ∉ matched)).map (·, single)).filter (·.1 = i) =
      if i ∈ threads ∧ i ∉ matched then [(i, single)] else [] := by
  have own : (threads.filter (· ∉ matched)).filter (· = i) = if i ∈ threads ∧ i ∉ matched then [i] else [] := by
    have distinct' : (threads.filter (· ∉ matched)).Nodup := distinct.filter _
    rw [List.filter_eq, distinct'.count]
    simp only [List.mem_filter, decide_eq_true_iff]
    split <;> rfl
  rw [List.filter_map]
  calc ((threads.filter (· ∉ matched)).filter ((fun entry : Resumption n => decide (entry.1 = i)) ∘ (·, single))).map
          (·, single)
      = ((threads.filter (· ∉ matched)).filter (· = i)).map (·, single) := rfl
    _ = if i ∈ threads ∧ i ∉ matched then [(i, single)] else [] := by
        rw [own]
        split <;> rfl

/-- What counts as matched behind an action. -/
theorem mem_matched_iff (tid : Int) (threads matched : List (Fin (n + 1))) :
    i ∈ (if 0 < tid then threads ++ matched else matched) ↔ i ∈ matched ∨ 0 < tid ∧ i ∈ threads := by
  by_cases single : 0 < tid
  · rw [if_pos single, List.mem_append, or_comm, and_iff_right single]
  · rw [if_neg single, or_iff_left fun now => single now.1]

theorem actionsFor_unknown {vcont : GdbVcont}
    (unknown : (getThreads vcont.thread.tid : Option (List (Fin (n + 1)))) = none) (i : Fin (n + 1)) (rest : List GdbVcont) : actionsFor i (vcont :: rest) = [] := by
  have stops : hasThreads n vcont = false := by
    unfold hasThreads
    rw [unknown]
    rfl
  unfold actionsFor
  rw [List.takeWhile_cons_of_neg (by simp [stops])]
  rfl

theorem actionsFor_known {vcont : GdbVcont} {threads : List (Fin (n + 1))}
    (found : getThreads vcont.thread.tid = some threads) (i : Fin (n + 1)) (rest : List GdbVcont) :
    actionsFor i (vcont :: rest) = if i ∈ threads then vcont :: actionsFor i rest else actionsFor i rest := by
  have known : hasThreads n vcont = true := by
    unfold hasThreads
    rw [found]
    rfl
  have own : selects i vcont = decide (i ∈ threads) := by
    unfold selects
    rw [found]
    rfl
  unfold actionsFor
  rw [List.takeWhile_cons_of_pos known, List.filter_cons, own]
  by_cases selected : i ∈ threads
  · rw [if_pos selected, if_pos (decide_eq_true selected)]
  · rw [if_neg selected, if_neg (by simpa using selected)]

/-- What is planned for one hart. -/
theorem filter_planned (matched : List (Fin (n + 1))) (actions : List GdbVcont) (i : Fin (n + 1)) :
    (planned matched actions).filter (·.1 = i) =
      if i ∈ matched then []
      else (applied (actionsFor i actions)).map fun vcont => (i, decide (vcont.action = .s)) := by
  induction actions generalizing matched with
  | nil => exact (ite_self _).symm
  | cons vcont rest ih =>
    cases found : (getThreads vcont.thread.tid : Option (List (Fin (n + 1)))) with
    | none =>
      rw [planned_unknown found, actionsFor_unknown found]
      exact (ite_self _).symm
    | some threads =>
      rw [planned_known found, List.filter_append, filter_run (nodup_getThreads found), ih, actionsFor_known found]
      have later := mem_matched_iff (i := i) vcont.thread.tid threads matched
      by_cases before : i ∈ matched
      case pos =>
        rw [if_pos before, if_pos (later.mpr (.inl before)), if_neg fun now : i ∈ threads ∧ i ∉ matched => now.2 before]
        rfl
      rw [or_iff_right before] at later
      rw [if_neg before]
      by_cases selected : i ∈ threads
      case pos =>
        rw [if_pos ⟨selected, before⟩, if_pos selected, applied_cons]
        by_cases single : 0 < vcont.thread.tid
        · rw [if_pos single, if_pos single, if_pos (List.mem_append_left matched selected)]
          rfl
        · rw [if_neg single, if_neg single, if_neg before]
          rfl
      case neg =>
        have still : i ∉ (if 0 < vcont.thread.tid then threads ++ matched else matched) :=
          fun now => selected (later.mp now).2
        rw [if_neg fun now : i ∈ threads ∧ i ∉ matched => selected now.1, if_neg selected, if_neg still,
          List.nil_append]

/-- Where the first action for a hart is not for one thread, there is no other one. -/
def Clear (n : Nat) (actions : List GdbVcont) : Prop := ∀ i : Fin (n + 1), FirstCounts (actionsFor i actions)

instance (actions : List GdbVcont) : Decidable (Clear n actions) :=
  inferInstanceAs (Decidable (∀ i : Fin (n + 1), FirstCounts (actionsFor i actions)))

theorem once_planned_iff (actions : List GdbVcont) :
    ((planned (n := n) [] actions).map Prod.fst).Nodup ↔ Clear n actions := by
  have count (i : Fin (n + 1)) :
      ((planned [] actions).map Prod.fst).count i = (applied (actionsFor i actions)).length := by
    have own := filter_planned [] actions i
    rw [if_neg List.not_mem_nil] at own
    rw [List.count_eq_countP, List.countP_map, List.countP_eq_length_filter]
    exact (congrArg List.length own).trans (List.length_map _)
  unfold Clear
  rw [List.nodup_iff_count_le_one]
  exact forall_congr' fun i => by rw [count, firstCounts_iff]

theorem find?_of_actionsFor {actions more : List GdbVcont} {vcont : GdbVcont}
    (some : actionsFor i actions = vcont :: more) : actions.find? (selects i) = Option.some vcont := by
  have found : (actions.takeWhile (hasThreads n)).find? (selects i) = Option.some vcont := by
    rw [← List.head?_filter]
    exact congrArg List.head? some
  rw [← List.takeWhile_append_dropWhile (p := hasThreads n) (l := actions), List.find?_append, found]
  rfl

theorem leftmost_planned {actions : List GdbVcont} (clear : Clear n actions) :
    Leftmost actions (planned (n := n) [] actions) where
  once := (once_planned_iff actions).mpr clear
  first i single among := by
    have own := filter_planned [] actions i
    rw [if_neg List.not_mem_nil, applied_of_firstCounts (clear i)] at own
    have here : (i, single) ∈ (planned [] actions).filter (·.1 = i) :=
      List.mem_filter.mpr ⟨among, decide_eq_true rfl⟩
    rw [own] at here
    obtain ⟨vcont, first, same⟩ := List.mem_map.mp here
    cases actionsHere : actionsFor i actions with
    | nil =>
      rw [actionsHere] at first
      cases first
    | cons head more =>
      rw [actionsHere] at first
      cases List.mem_singleton.mp first
      exact ⟨vcont, find?_of_actionsFor actionsHere, (congrArg Prod.snd same).symm⟩

theorem Leftmost.part {actions : List GdbVcont} {resumed all : List (Resumption n)} (leftmost : Leftmost actions all)
    (within : resumed <+: all) : Leftmost actions resumed where
  once := leftmost.once.sublist (within.sublist.map Prod.fst)
  first i single among := leftmost.first i single (within.subset among)

/-- The core of a hart that has come to a breakpoint. -/
def hitCore (isa : Isa) (i : Fin (n + 1)) : Iss isa Unit :=
  { Iss.reset (BitVec.ofNat _ i.val) false 0 0 () with status := .hitBreakpoint }

/-- Harts that wait, and rounds ahead in which all that are resumed come to a breakpoint. -/
def ready (isa : Isa) (world : SocState Dev) (n rounds : Nat) : GdbServer isa Dev n where
  harts i := ⟨Iss.reset (BitVec.ofNat _ i.val) false 0 0 (), .waiting⟩
  world := world
  mmu := false
  threadOps _ := none
  singleRun := false
  prevpkt := none
  pktq := []
  mtx := false
  sent := []
  schedule := (List.replicate rounds (round (hitCore isa) world)).flatten

theorem resumptions_ready (isa : Isa) (world : SocState Dev) {first : GdbVcont} {rest : List GdbVcont}
    (supported : ∀ vcont ∈ first :: rest, vcont.action = .s ∨ vcont.action = .c) :
    resumptions (ready isa world n (first :: rest).length) first rest = planned [] (first :: rest) := by
  have calm : (ready isa world n (first :: rest).length).Calm := fun _ => .inl rfl
  have hit (i : Fin (n + 1)) : (hitCore isa i).status = .hitBreakpoint := rfl
  have recorded := record_eq_planned supported hit world calm (Nat.le_refl _) rfl [] none []
  exact recorded.trans (List.nil_append _)

/-- A system without memories. -/
def bare (Dev : Type) [Inhabited Dev] : SocState Dev := ⟨fun _ => none, default, ⟨false, 0⟩, false⟩

/-- `vCont` applies the leftmost action, in every run, exactly when the actions leave it no other choice: a hart that
several of them match is first matched by one for one thread. -/
theorem leftmost_iff (isa : Isa) (Dev : Type) [Inhabited Dev] (n : Nat) {first : GdbVcont} {rest : List GdbVcont}
    (supported : ∀ vcont ∈ first :: rest, vcont.action = .s ∨ vcont.action = .c) :
    Erases (vContRecorded first rest : Recorded isa Dev n Unit) (vCont first rest) ∧
      ((∀ g : GdbServer isa Dev n, Leftmost (first :: rest) (resumptions g first rest)) ↔
        Clear n (first :: rest)) := by
  refine ⟨erases_vContLoopRecorded [] none (first :: rest), ?_, ?_⟩
  · intro all
    have once := (all (ready isa (bare Dev) n (first :: rest).length)).once
    rw [resumptions_ready isa (bare Dev) supported] at once
    exact (once_planned_iff _).mp once
  · intro clear g
    obtain ⟨resumed, within, recorded⟩ := record_prefix [] none (first :: rest) g []
    have same : resumptions g first rest = resumed := recorded.trans (List.nil_append resumed)
    rw [same]
    exact (leftmost_planned clear).part within

/-- `vCont;s:1;c` for two harts: one makes a step, the other one runs. -/
theorem leftmost_step : Leftmost [⟨.s, -1, ⟨-2, 1⟩⟩, ⟨.c, -1, ⟨-2, -1⟩⟩]
    (resumptions (ready .rv32 (bare Unit) 1 2) ⟨.s, -1, ⟨-2, 1⟩⟩ [⟨.c, -1, ⟨-2, -1⟩⟩]) :=
  (leftmost_iff .rv32 Unit 1 (by decide)).2.mpr (by decide) _

/-- `vCont;s;c:1` for one hart: it makes a step, and then it runs. -/
theorem not_leftmost :
    resumptions (ready .rv32 (bare Unit) 0 2) ⟨.s, -1, ⟨-2, -1⟩⟩ [⟨.c, -1, ⟨-2, 1⟩⟩] = [(0, true), (0, false)] ∧
    ¬ Leftmost [⟨.s, -1, ⟨-2, -1⟩⟩, ⟨.c, -1, ⟨-2, 1⟩⟩]
      (resumptions (ready .rv32 (bare Unit) 0 2) ⟨.s, -1, ⟨-2, -1⟩⟩ [⟨.c, -1, ⟨-2, 1⟩⟩]) := by
  have twice : resumptions (ready .rv32 (bare Unit) 0 2) ⟨.s, -1, ⟨-2, -1⟩⟩ [⟨.c, -1, ⟨-2, 1⟩⟩] =
      [(0, true), (0, false)] := resumptions_ready .rv32 (bare Unit) (by decide)
  refine ⟨twice, fun leftmost => ?_⟩
  have once := leftmost.once
  rw [twice] at once
  exact absurd once (by decide)

end RiscvVp.GdbServer
