/-
# RiscvVp.Gdb.Resume -- harts that are resumed and stopped again

A runner that has notified its stop event does nothing until it is notified itself, so the hart the
server was woken for is as it was when the server looks at it, however the other harts were scheduled.
It has stopped, or the server would wait for it in vain: where the schedule has turns enough for the
runners to report and for the server to go on (`GoesOn`), `vCont` finds a hart to report.
-/
import RiscvVp.Gdb.Replies

namespace RiscvVp.GdbServer

set_option autoImplicit false

open Lib
open LibGdb (Printable bytes)

variable {isa : Isa} {Dev : Type} {n : Nat} {g t : GdbServer isa Dev n} {i j : Fin (n + 1)}

/-! ## What is kept -/

/-- What the client and the thread of `dispatch` see. -/
def line (g : GdbServer isa Dev n) : List GdbMessage × List GdbPacket × Bool := (g.sent, g.pktq, g.mtx)

/-- The runner does nothing until it is notified. -/
def Parked (g : GdbServer isa Dev n) (j : Fin (n + 1)) : Prop :=
  (g.harts j).runner = .waiting ∨ (g.harts j).runner = .ended

/-- The hart has stopped, and its runner leaves it alone. -/
structure Stopped (g : GdbServer isa Dev n) (j : Fin (n + 1)) : Prop where
  status : g.status j ≠ .runnable
  parked : g.Parked j

/-- The numbers of the threads are positive. -/
def Numbered (g : GdbServer isa Dev n) : Prop := ∀ i, 1 ≤ threadNumber (g.harts i).core

/-- ... and stay so, whatever `run_step` does. -/
def TurnsNumbered (turns : List (Turn isa Dev n)) : Prop :=
  ∀ i core world, Turn.hart i core world ∈ turns → 1 ≤ threadNumber core

/-- A stretch of the schedule. -/
structure Keeps (g t : GdbServer isa Dev n) : Prop where
  line : t.line = g.line
  numbered : g.Numbered → t.Numbered
  parked : ∀ j, g.Parked j → t.harts j = g.harts j

theorem Parked.of_keeps (parked : g.Parked j) (keeps : g.Keeps t) : t.Parked j := by
  unfold Parked
  rw [keeps.parked j parked]
  exact parked

theorem Stopped.of_keeps (stopped : g.Stopped j) (keeps : g.Keeps t) : t.Stopped j where
  status := by
    unfold GdbServer.status
    rw [keeps.parked j stopped.parked]
    exact stopped.status
  parked := stopped.parked.of_keeps keeps

theorem Keeps.refl (g : GdbServer isa Dev n) : g.Keeps g := ⟨rfl, id, fun _ _ => rfl⟩

theorem Keeps.trans {u : GdbServer isa Dev n} (first : g.Keeps t) (second : t.Keeps u) : g.Keeps u where
  line := second.line.trans first.line
  numbered := second.numbered ∘ first.numbered
  parked j parked := (second.parked j (parked.of_keeps first)).trans (first.parked j parked)

@[simp] theorem setHart_self (g : GdbServer isa Dev n) (i : Fin (n + 1)) (hart : DebugHart isa) :
    (g.setHart i hart).harts i = hart := Function.update_self ..

theorem setHart_of_ne (g : GdbServer isa Dev n) (other : j ≠ i) (hart : DebugHart isa) :
    (g.setHart i hart).harts j = g.harts j := Function.update_of_ne other ..

@[simp] theorem setStatus_status (g : GdbServer isa Dev n) (i : Fin (n + 1)) (status : CoreExecStatus) :
    (g.setStatus i status).status i = status := by
  unfold GdbServer.status setStatus
  rw [setHart_self]

@[simp] theorem setStatus_runner (g : GdbServer isa Dev n) (i j : Fin (n + 1)) (status : CoreExecStatus) :
    ((g.setStatus i status).harts j).runner = (g.harts j).runner := by
  unfold setStatus
  by_cases same : j = i
  · rw [same, setHart_self]
  · rw [setHart_of_ne g same]

theorem setStatus_of_ne (g : GdbServer isa Dev n) (other : j ≠ i) (status : CoreExecStatus) :
    (g.setStatus i status).status j = g.status j := by
  unfold GdbServer.status setStatus
  rw [setHart_of_ne g other]

@[simp] theorem setStatus_line (g : GdbServer isa Dev n) (i : Fin (n + 1)) (status : CoreExecStatus) :
    (g.setStatus i status).line = g.line := rfl

theorem Numbered.setStatus (numbered : g.Numbered) (i : Fin (n + 1)) (status : CoreExecStatus) :
    (g.setStatus i status).Numbered := by
  intro j
  unfold GdbServer.setStatus
  by_cases same : j = i
  · rw [same, setHart_self]
    exact numbered i
  · rw [setHart_of_ne g same]
    exact numbered j

theorem Parked.setStatus (parked : g.Parked j) (i : Fin (n + 1)) (status : CoreExecStatus) :
    (g.setStatus i status).Parked j := by
  unfold Parked
  rw [setStatus_runner]
  exact parked

/-- Another hart is told to stop. -/
theorem Stopped.setStatus (stopped : g.Stopped j) (other : j ≠ i) (status : CoreExecStatus) :
    (g.setStatus i status).Stopped j where
  status := by
    rw [setStatus_of_ne g other]
    exact stopped.status
  parked := stopped.parked.setStatus i status

/-! ## Turns -/

/-- A turn changes one hart only. -/
theorem turn_others (core : Iss isa Unit) (world : SocState Dev) (other : j ≠ i) :
    (g.turn i core world).2.harts j = g.harts j := by
  unfold turn stopRunner
  split
  · rfl
  · rfl
  · exact setHart_of_ne g other _
  · dsimp only
    rw [setHart_of_ne _ other]
    split
    · exact setHart_of_ne g other _
    · rfl
  · split
    · exact setHart_of_ne g other _
    · exact setHart_of_ne g other _
  · exact setHart_of_ne g other _

/-- ... and not a parked one. -/
theorem turn_parked (core : Iss isa Unit) (world : SocState Dev) (parked : g.Parked i) :
    g.turn i core world = (false, g) := by
  unfold turn
  rcases parked with runner | runner
  · rw [runner]
  · rw [runner]

theorem turn_line (core : Iss isa Unit) (world : SocState Dev) : (g.turn i core world).2.line = g.line := by
  unfold turn stopRunner
  split
  · rfl
  · rfl
  · rfl
  · dsimp only
    split <;> rfl
  · split <;> rfl
  · rfl

/-- The number of a hart is what it was, or what it is behind a `run_step`. -/
theorem turn_hartId (i : Fin (n + 1)) (core : Iss isa Unit) (world : SocState Dev) (g : GdbServer isa Dev n) :
    ((g.turn i core world).2.harts i).core.hartId = core.hartId ∨
      ((g.turn i core world).2.harts i).core.hartId = (g.harts i).core.hartId := by
  unfold turn stopRunner
  split
  · exact .inr rfl
  · exact .inr rfl
  · left
    show ((g.setHart i _).harts i).core.hartId = core.hartId
    rw [setHart_self]
  · right
    dsimp only
    rw [setHart_self]
    split
    · show ((g.setHart i _).harts i).core.hartId = _
      rw [setHart_self]
      rfl
    · rfl
  · split
    · left
      show ((g.setHart i _).harts i).core.hartId = core.hartId
      rw [setHart_self]
    · right
      rw [setHart_self]
  · right
    rw [setHart_self]

theorem turn_number {core : Iss isa Unit} (number : 1 ≤ threadNumber core) (world : SocState Dev)
    (numbered : g.Numbered) : 1 ≤ threadNumber ((g.turn i core world).2.harts i).core := by
  unfold threadNumber
  rcases turn_hartId i core world g with same | same
  · rw [same]
    exact number
  · rw [same]
    exact numbered i

/-- One turn keeps what is parked. -/
theorem keeps_turn {core : Iss isa Unit} (number : 1 ≤ threadNumber core) (world : SocState Dev) :
    g.Keeps (g.turn i core world).2 where
  line := turn_line core world
  numbered numbered j := by
    by_cases same : j = i
    · rw [same]
      exact turn_number number world numbered
    · rw [turn_others core world same]
      exact numbered j
  parked j parked := by
    by_cases same : j = i
    · subst same
      rw [turn_parked core world parked]
    · exact turn_others core world same

/-- A runner that has notified its stop event is parked. -/
theorem parked_stopRunner (g : GdbServer isa Dev n) (i : Fin (n + 1)) : (g.stopRunner i).Parked i := by
  unfold Parked stopRunner
  rw [setHart_self]
  dsimp only
  split
  · exact .inr rfl
  · exact .inl rfl

theorem parked_of_reports (core : Iss isa Unit) (world : SocState Dev)
    (reports : (g.turn i core world).1 = true) : (g.turn i core world).2.Parked i := by
  unfold turn at reports ⊢
  split at reports
  · cases reports
  · cases reports
  · cases reports
  · exact parked_stopRunner _ i
  · split at reports
    · cases reports
    · cases reports
  · exact parked_stopRunner g i

/-! ## Waits -/

/-- What every turn of a hart keeps is so when the server goes on, with the rest of the turns ahead. -/
theorem awaitFrom_invariant {P : Bool → GdbServer isa Dev n → Prop} {awaited : List (Fin (n + 1))} {woken : Bool}
    {turns : List (Turn isa Dev n)}
    (kept : ∀ i core world, Turn.hart i core world ∈ turns → ∀ woken g, P woken g →
      P (woken || ((g.turn i core world).1 && decide (i ∈ awaited))) (g.turn i core world).2)
    (start : P woken g) (ended : g.awaitFrom awaited woken turns = some t) :
    ∃ u rest, P true u ∧ rest ⊆ turns ∧ t = { u with schedule := rest } := by
  induction turns generalizing woken g with
  | nil => cases ended
  | cons next turns ih =>
    have later {woken : Bool} {g : GdbServer isa Dev n} := @ih g woken fun i core world among =>
      kept i core world (List.mem_cons_of_mem next among)
    cases next with
    | server =>
      unfold awaitFrom at ended
      split at ended
      case isTrue awake =>
        cases ended
        rw [awake] at start
        exact ⟨g, turns, start, List.subset_cons_self _ turns, rfl⟩
      case isFalse =>
        obtain ⟨u, rest, holds, part, same⟩ := later start ended
        exact ⟨u, rest, holds, List.subset_cons_of_subset _ part, same⟩
    | hart i core world =>
      unfold awaitFrom at ended
      obtain ⟨u, rest, holds, part, same⟩ := later (kept i core world List.mem_cons_self woken g start) ended
      exact ⟨u, rest, holds, List.subset_cons_of_subset _ part, same⟩

/-- The turns of a wait so far: where one of the harts has notified the server, one is still parked. -/
structure Since (g : GdbServer isa Dev n) (awaited : List (Fin (n + 1))) (woken : Bool) (u : GdbServer isa Dev n) :
    Prop where
  keeps : g.Keeps u
  parked : woken = true → ∃ j ∈ awaited, u.Parked j

/-- The server goes on after one of the harts it waited for has notified it, and that one has not
moved since. -/
theorem awaitFrom_spec {awaited : List (Fin (n + 1))} {turns : List (Turn isa Dev n)}
    (ended : g.awaitFrom awaited false turns = some t) (numbers : TurnsNumbered turns) :
    g.Keeps t ∧ TurnsNumbered t.schedule ∧ ∃ j ∈ awaited, t.Parked j := by
  have kept : ∀ i core world, Turn.hart i core world ∈ turns → ∀ woken u, g.Since awaited woken u →
      g.Since awaited (woken || ((u.turn i core world).1 && decide (i ∈ awaited))) (u.turn i core world).2 := by
    rintro i core world among woken u ⟨keeps, since⟩
    have turned : u.Keeps (u.turn i core world).2 := keeps_turn (numbers i core world among) world
    refine ⟨keeps.trans turned, fun woke => ?_⟩
    rcases Bool.or_eq_true_iff.mp woke with before | now
    · obtain ⟨j, among, parked⟩ := since before
      exact ⟨j, among, parked.of_keeps turned⟩
    · obtain ⟨reported, among⟩ := Bool.and_eq_true_iff.mp now
      exact ⟨i, of_decide_eq_true among, parked_of_reports core world reported⟩
  have start : g.Since awaited false g := ⟨.refl g, nofun⟩
  obtain ⟨u, rest, ⟨keeps, since⟩, part, rfl⟩ := awaitFrom_invariant kept start ended
  exact ⟨⟨keeps.line, keeps.numbered, keeps.parked⟩,
    fun i core world among => numbers i core world (part among), since rfl⟩

/-- Nothing wakes a server that waits for parked runners. -/
theorem awaitFrom_parked {awaited : List (Fin (n + 1))} (turns : List (Turn isa Dev n))
    (parked : ∀ j ∈ awaited, g.Parked j) : g.awaitFrom awaited false turns = none := by
  induction turns generalizing g with
  | nil => rfl
  | cons next turns ih =>
    cases next with
    | server => exact ih parked
    | hart i core world =>
      have silent : ((g.turn i core world).1 && decide (i ∈ awaited)) = false := by
        by_cases among : i ∈ awaited
        · rw [turn_parked core world (parked i among)]
          rfl
        · rw [decide_eq_false among, Bool.and_false]
      unfold awaitFrom
      rw [silent]
      refine ih fun j among => ?_
      by_cases same : j = i
      · subst same
        rw [turn_parked core world (parked j among)]
        exact parked j among
      · unfold Parked
        rw [turn_others core world same]
        exact parked j among

/-- The numbers of all threads are and stay positive. -/
structure Fit (g : GdbServer isa Dev n) : Prop where
  harts : g.Numbered
  turns : TurnsNumbered g.schedule

theorem Fit.setStatus (fit : g.Fit) (i : Fin (n + 1)) (status : CoreExecStatus) : (g.setStatus i status).Fit :=
  ⟨fit.harts.setStatus i status, fit.turns⟩

theorem await_spec {awaited : List (Fin (n + 1))} (fit : g.Fit) (ended : (await awaited).run g = (.ok (), t)) :
    g.Keeps t ∧ t.Fit ∧ ∃ j ∈ awaited, t.Parked j := by
  have found : g.awaitFrom awaited false g.schedule = some t := by
    unfold Exec.run await at ended
    split at ended
    case h_1 u found =>
      cases ended
      exact found
    case h_2 => cases ended
  obtain ⟨keeps, schedule, parked⟩ := awaitFrom_spec found fit.turns
  exact ⟨keeps, ⟨keeps.numbered fit.harts, schedule⟩, parked⟩

theorem not_await_parked {awaited : List (Fin (n + 1))} (parked : ∀ j ∈ awaited, g.Parked j) :
    (await awaited).run g ≠ (.ok (), t) := by
  unfold Exec.run await
  rw [awaitFrom_parked g.schedule parked]
  nofun

/-! ## Schedules -/

/-- The runner of `i` comes to `stop_event->notify()` in these turns, by its own ones among them: behind
the step it was asked for, or in `run` behind a `run_step` that leaves the hart stopped and the `sync`. -/
def Reports (single : Bool) (i : Fin (n + 1)) : RunnerState → CoreExecStatus → List (Turn isa Dev n) → Prop
  | _, _, [] => False
  | runner, status, .server :: turns => Reports single i runner status turns
  | runner, status, .hart j core _ :: turns =>
      if j = i then
        match runner with
        | .waiting | .ended => False
        | .notified => Reports single i (if single then .stepped else .running) core.status turns
        | .stepped | .syncing => True
        | .running =>
            if status = .runnable then Reports single i .running core.status turns
            else Reports single i .syncing status turns
      else Reports single i runner status turns

/-- One of the runners reports in these turns. -/
def Reported (awaited : List (Fin (n + 1))) (g : GdbServer isa Dev n) (turns : List (Turn isa Dev n)) : Prop :=
  ∃ i ∈ awaited, Reports g.singleRun i (g.harts i).runner (g.status i) turns

/-- What the harts leave behind their turns. -/
def passed (g : GdbServer isa Dev n) : List (Turn isa Dev n) → GdbServer isa Dev n
  | [] => g
  | .server :: turns => g.passed turns
  | .hart i core world :: turns => (g.turn i core world).2.passed turns

/-- The schedule has turns in which one of the runners reports, and the next turn of the server is the
one behind them. -/
def GoesOn (awaited : List (Fin (n + 1))) (g t : GdbServer isa Dev n) : Prop :=
  ∃ turns rest, g.schedule = turns ++ .server :: rest ∧ Reported awaited g turns ∧
    (∀ front back, turns = front ++ .server :: back → ¬ Reported awaited g front) ∧
    t = { g.passed turns with schedule := rest }

theorem not_reported_nil (awaited : List (Fin (n + 1))) (g : GdbServer isa Dev n) : ¬ Reported awaited g [] := by
  rintro ⟨i, -, reports⟩
  unfold Reports at reports
  exact reports

theorem reported_server (awaited : List (Fin (n + 1))) (g : GdbServer isa Dev n) (turns : List (Turn isa Dev n)) :
    Reported awaited g (.server :: turns) ↔ Reported awaited g turns := by
  unfold Reported
  refine exists_congr fun i => and_congr_right fun _ => ?_
  conv_lhs => unfold Reports

theorem not_reports_parked {single : Bool} {runner : RunnerState} (parked : runner = .waiting ∨ runner = .ended)
    (status : CoreExecStatus) (turns : List (Turn isa Dev n)) : ¬ Reports single i runner status turns := by
  induction turns with
  | nil =>
    unfold Reports
    exact id
  | cons next turns ih =>
    cases next with
    | server =>
      unfold Reports
      exact ih
    | hart j core world =>
      unfold Reports
      split
      · rcases parked with rfl | rfl <;> exact id
      · exact ih

@[simp] theorem turn_singleRun (core : Iss isa Unit) (world : SocState Dev) :
    (g.turn i core world).2.singleRun = g.singleRun := by
  unfold turn stopRunner
  split
  · rfl
  · rfl
  · rfl
  · dsimp only
    split <;> rfl
  · split <;> rfl
  · rfl

/-- The next turn of a runner: it reports, or goes on to where it does. -/
theorem reports_turn (core : Iss isa Unit) (world : SocState Dev) (turns : List (Turn isa Dev n)) :
    Reports g.singleRun i (g.harts i).runner (g.status i) (.hart i core world :: turns) ↔
      (g.turn i core world).1 = true ∨
        Reports g.singleRun i ((g.turn i core world).2.harts i).runner ((g.turn i core world).2.status i) turns := by
  conv_lhs =>
    unfold Reports
    rw [if_pos rfl]
  unfold turn
  cases runner : (g.harts i).runner with
  | waiting => simp [runner, not_reports_parked (.inl rfl)]
  | ended => simp [runner, not_reports_parked (.inr rfl)]
  | notified => simp [GdbServer.status]
  | stepped => simp
  | syncing => simp
  | running =>
    dsimp only
    split
    case isTrue => simp [GdbServer.status]
    case isFalse => simp [GdbServer.status]

theorem reported_turn (awaited : List (Fin (n + 1))) (core : Iss isa Unit) (world : SocState Dev)
    (turns : List (Turn isa Dev n)) : Reported awaited g (.hart j core world :: turns) ↔
      ((g.turn j core world).1 && decide (j ∈ awaited)) = true ∨ Reported awaited (g.turn j core world).2 turns := by
  have others (i : Fin (n + 1)) (other : i ≠ j) :
      Reports g.singleRun i (g.harts i).runner (g.status i) (.hart j core world :: turns) ↔
        Reports g.singleRun i ((g.turn j core world).2.harts i).runner ((g.turn j core world).2.status i) turns := by
    conv_lhs => unfold Reports
    unfold GdbServer.status
    rw [if_neg (Ne.symm other), turn_others core world other]
  unfold Reported
  rw [turn_singleRun, Bool.and_eq_true, decide_eq_true_iff]
  constructor
  · rintro ⟨i, among, reports⟩
    by_cases same : i = j
    · subst same
      rcases (reports_turn core world turns).mp reports with now | later
      · exact .inl ⟨now, among⟩
      · exact .inr ⟨i, among, later⟩
    · exact .inr ⟨i, among, (others i same).mp reports⟩
  · rintro (⟨now, among⟩ | ⟨i, among, later⟩)
    · exact ⟨j, among, (reports_turn core world turns).mpr (.inl now)⟩
    · refine ⟨i, among, ?_⟩
      by_cases same : i = j
      · subst same
        exact (reports_turn core world turns).mpr (.inr later)
      · exact (others i same).mpr later

/-- `front` is what comes before the first `y` that has `P` in front of it. -/
def Before {α : Type} (P : List α → Prop) (y : α) (xs front rest : List α) : Prop :=
  xs = front ++ y :: rest ∧ P front ∧ ∀ part back, front = part ++ y :: back → ¬ P part

section Before

variable {α : Type} {P : List α → Prop} {x y : α} {xs front rest : List α}

theorem not_before_nil : ¬ Before P y [] front rest := by
  rintro ⟨same, -⟩
  exact List.append_ne_nil_of_right_ne_nil front (List.cons_ne_nil _ rest) same.symm

theorem before_here (ready : P []) : Before P y (y :: xs) front rest ↔ front = [] ∧ rest = xs := by
  constructor
  · rintro ⟨same, -, least⟩
    cases front with
    | nil => exact ⟨rfl, (List.cons_eq_cons.mp same).2.symm⟩
    | cons first front =>
      obtain ⟨rfl, -⟩ := List.cons_eq_cons.mp same
      exact absurd ready (least [] front rfl)
  · rintro ⟨rfl, rfl⟩
    refine ⟨rfl, ready, fun part back none => ?_⟩
    exact absurd none.symm (List.append_ne_nil_of_right_ne_nil part (List.cons_ne_nil _ back))

/-- Where the first element is not the one, the search goes on behind it. -/
theorem exists_before_cons {R : List α → List α → Prop} (unready : x = y → ¬ P []) :
    (∃ front rest, Before P y (x :: xs) front rest ∧ R front rest) ↔
      ∃ front rest, Before (fun part => P (x :: part)) y xs front rest ∧ R (x :: front) rest := by
  constructor
  · rintro ⟨front, rest, ⟨same, holds, least⟩, result⟩
    cases front with
    | nil => exact absurd holds (unready (List.cons_eq_cons.mp same).1)
    | cons first front =>
      obtain ⟨rfl, ahead⟩ := List.cons_eq_cons.mp same
      refine ⟨front, rest, ⟨ahead, holds, fun part back split => ?_⟩, result⟩
      exact least (x :: part) back (by rw [split]; rfl)
  · rintro ⟨front, rest, ⟨rfl, holds, least⟩, result⟩
    refine ⟨x :: front, rest, ⟨rfl, holds, fun part back same => ?_⟩, result⟩
    cases part with
    | nil => exact unready (List.cons_eq_cons.mp same).1
    | cons first part =>
      obtain ⟨rfl, split⟩ := List.cons_eq_cons.mp same
      exact least part back split

end Before

/-- Where a wait ends, in terms of the turns. -/
theorem awaitFrom_iff {awaited : List (Fin (n + 1))} {woken : Bool} {turns : List (Turn isa Dev n)} :
    g.awaitFrom awaited woken turns = some t ↔ ∃ front rest,
      Before (fun part => woken = true ∨ Reported awaited g part) .server turns front rest ∧
        t = { g.passed front with schedule := rest } := by
  induction turns generalizing g woken with
  | nil => exact iff_of_false nofun fun ⟨_, _, before, _⟩ => not_before_nil before
  | cons next turns ih =>
    cases next with
    | server =>
      conv_lhs => unfold awaitFrom
      by_cases awake : woken = true
      · rw [if_pos awake]
        constructor
        · intro same
          exact ⟨[], turns, (before_here (.inl awake)).mpr ⟨rfl, rfl⟩, (Option.some.inj same).symm⟩
        · rintro ⟨front, rest, before, rfl⟩
          obtain ⟨rfl, rfl⟩ := (before_here (.inl awake)).mp before
          rfl
      · have unready : ¬ (woken = true ∨ Reported awaited g []) := not_or.mpr ⟨awake, not_reported_nil awaited g⟩
        rw [if_neg awake, ih, exists_before_cons fun _ => unready]
        simp only [reported_server]
        rfl
    | hart j core world =>
      have moved (front : List (Turn isa Dev n)) : (woken = true ∨ Reported awaited g (.hart j core world :: front)) ↔
          ((woken || ((g.turn j core world).1 && decide (j ∈ awaited))) = true ∨
            Reported awaited (g.turn j core world).2 front) := by
        rw [reported_turn, Bool.or_eq_true, or_assoc]
      conv_lhs => unfold awaitFrom
      rw [ih, exists_before_cons nofun]
      simp only [moved]
      rfl

/-- The server goes on exactly where the turns let it. -/
theorem run_await_iff {awaited : List (Fin (n + 1))} :
    (await awaited).run g = (.ok (), t) ↔ GoesOn awaited g t := by
  have found : (await awaited).run g = (.ok (), t) ↔ g.awaitFrom awaited false g.schedule = some t := by
    unfold Exec.run await
    split
    case h_1 u found => simp [found]
    case h_2 none => simp [none]
  rw [found, awaitFrom_iff]
  unfold GoesOn Before
  simp only [Bool.false_eq_true, false_or, and_assoc]

/-! ## `run_threads` -/

/-- Every hart that is still running gets turns enough to stop when it is told to, one after the other. -/
def StopsAll : List (Fin (n + 1)) → GdbServer isa Dev n → Prop
  | [], _ => True
  | i :: harts, g =>
      if g.status i = .runnable then ∃ t, GoesOn [i] (g.setStatus i .hitBreakpoint) t ∧ StopsAll harts t
      else StopsAll harts g

/-- One of the harts that are resumed comes to a stop, and then the others do. -/
def Comes (hartsrun : List (Fin (n + 1))) (single : Bool) (g : GdbServer isa Dev n) : Prop :=
  hartsrun = [] ∨ ∃ t, GoesOn hartsrun (g.resume hartsrun single) t ∧ StopsAll hartsrun t

/-- What notifying one runner keeps is kept by resuming the harts. -/
theorem resume_invariant {P : GdbServer isa Dev n → Prop} (notified : ∀ i g, P g → P (g.notifyRun i))
    (hartsrun : List (Fin (n + 1))) {single : Bool} (start : P { g with singleRun := single }) :
    P (g.resume hartsrun single) := by
  unfold resume
  generalize ({ g with singleRun := single } : GdbServer isa Dev n) = g at start ⊢
  induction hartsrun generalizing g with
  | nil => exact start
  | cons i hartsrun ih => exact ih (g.notifyRun i) (notified i g start)

theorem resume_ended (hartsrun : List (Fin (n + 1))) (single : Bool) (ended : (g.harts j).runner = .ended) :
    ((g.resume hartsrun single).harts j).runner = .ended := by
  refine resume_invariant (P := fun g => (g.harts j).runner = .ended) (fun i g ended => ?_) hartsrun ended
  unfold notifyRun
  split
  case isTrue waiting =>
    have other : j ≠ i := by
      rintro rfl
      cases ended.symm.trans waiting
    rw [setHart_of_ne g other]
    exact ended
  case isFalse => exact ended

/-- When all the harts that are resumed have terminated, the wait for them never ends. -/
theorem not_comes_of_ended {hartsrun : List (Fin (n + 1))} (single : Bool) (some : hartsrun ≠ [])
    (ended : ∀ j ∈ hartsrun, (g.harts j).runner = .ended) : ¬ Comes hartsrun single g := by
  rintro (none | ⟨t, on, -⟩)
  · exact some none
  · have waited := run_await_iff.mpr on
    exact not_await_parked (fun j among => .inr (resume_ended hartsrun single (ended j among))) waited

/-- A runner in the `sync` behind a run that was already reported notifies the server late, and is
parked while its hart is runnable.  The wait for such a hart never ends. -/
theorem idle_of_stopsAll {harts : List (Fin (n + 1))} (fit : g.Fit) (parked : g.Parked j) (among : j ∈ harts)
    (stops : StopsAll harts g) : g.status j ≠ .runnable := by
  induction harts generalizing g with
  | nil => cases among
  | cons i harts ih =>
    intro runnable
    unfold StopsAll at stops
    by_cases same : j = i
    · subst same
      rw [if_pos runnable] at stops
      obtain ⟨t, on, -⟩ := stops
      refine not_await_parked (fun k here => ?_) (run_await_iff.mpr on)
      cases List.mem_singleton.mp here
      exact parked.setStatus j .hitBreakpoint
    · have later : j ∈ harts := (List.mem_cons.mp among).resolve_left same
      split at stops
      case isTrue =>
        obtain ⟨t, on, rest⟩ := stops
        have waited := run_await_iff.mpr on
        have parked' : (g.setStatus i .hitBreakpoint).Parked j := parked.setStatus i .hitBreakpoint
        obtain ⟨keeps, fit', -⟩ := await_spec (fit.setStatus i .hitBreakpoint) waited
        refine ih fit' (parked'.of_keeps keeps) later rest ?_
        unfold GdbServer.status
        rw [keeps.parked j parked']
        exact (setStatus_of_ne g same .hitBreakpoint).trans runnable
      case isFalse => exact ih fit parked later stops runnable

theorem run_stopHarts {harts : List (Fin (n + 1))} (fit : g.Fit) (stopped : g.Stopped j)
    (stops : StopsAll harts g) : ∃ orig t, (stopHarts harts).run g = (.ok orig, t) ∧ t.line = g.line ∧
      t.Fit ∧ t.Stopped j ∧ ∀ entry ∈ orig, entry.1 = j → entry.2 ≠ .runnable := by
  induction harts generalizing g with
  | nil => exact ⟨[], g, rfl, rfl, fit, stopped, nofun⟩
  | cons i harts ih =>
    have own : (i, g.status i).1 = j → (i, g.status i).2 ≠ .runnable := by
      rintro rfl
      exact stopped.status
    unfold StopsAll at stops
    unfold stopHarts
    rw [Exec.run_read_bind]
    split at stops
    case isTrue runnable =>
      have other : j ≠ i := by
        rintro rfl
        exact stopped.status runnable
      obtain ⟨t, on, rest⟩ := stops
      have waited := run_await_iff.mpr on
      obtain ⟨keeps, fit', -⟩ := await_spec (fit.setStatus i .hitBreakpoint) waited
      obtain ⟨orig, u, ran, line, fit'', stopped', kept⟩ :=
        ih fit' ((stopped.setStatus other .hitBreakpoint).of_keeps keeps) rest
      refine ⟨(i, g.status i) :: orig, u, ?_, line.trans keeps.line, fit'', stopped',
        List.forall_mem_cons.mpr ⟨own, kept⟩⟩
      rw [Exec.when_pos runnable, Exec.run_bind_ok (t := t), Exec.run_bind_ok ran]
      · rfl
      · rw [Exec.run_update_bind]
        exact waited
    case isFalse idle =>
      obtain ⟨orig, u, ran, line, fit', stopped', kept⟩ := ih fit stopped stops
      refine ⟨(i, g.status i) :: orig, u, ?_, line, fit', stopped', List.forall_mem_cons.mpr ⟨own, kept⟩⟩
      rw [Exec.when_neg idle, Exec.run_pure_bind, Exec.run_bind_ok ran]
      rfl

theorem restoreStatus_spec (fit : g.Fit) {orig : List (Fin (n + 1) × CoreExecStatus)}
    (idle : g.status j ≠ .runnable) (kept : ∀ entry ∈ orig, entry.1 = j → entry.2 ≠ .runnable) :
    (g.restoreStatus orig).line = g.line ∧ (g.restoreStatus orig).Fit ∧
      (g.restoreStatus orig).status j ≠ .runnable := by
  unfold restoreStatus
  induction orig generalizing g with
  | nil => exact ⟨rfl, fit, idle⟩
  | cons entry orig ih =>
    obtain ⟨own, rest⟩ := List.forall_mem_cons.mp kept
    have still : (g.setStatus entry.1 entry.2).status j ≠ .runnable := by
      by_cases same : entry.1 = j
      · rw [← same, setStatus_status]
        exact own same
      · rw [setStatus_of_ne g (Ne.symm same)]
        exact idle
    exact ih (fit.setStatus entry.1 entry.2) still rest

/-- Resuming the harts changes nothing but the runners. -/
theorem resume_spec (hartsrun : List (Fin (n + 1))) (single : Bool) (fit : g.Fit) :
    (g.resume hartsrun single).line = g.line ∧ (g.resume hartsrun single).Fit := by
  have notified (i : Fin (n + 1)) (t : GdbServer isa Dev n) (kept : t.line = g.line ∧ t.Fit) :
      (t.notifyRun i).line = g.line ∧ (t.notifyRun i).Fit := by
    unfold notifyRun
    split
    case isTrue =>
      refine ⟨kept.1, fun j => ?_, kept.2.turns⟩
      by_cases same : j = i
      · rw [same, setHart_self]
        exact kept.2.harts i
      · rw [setHart_of_ne t same]
        exact kept.2.harts j
    case isFalse => exact kept
  exact resume_invariant notified hartsrun ⟨rfl, fit.harts, fit.turns⟩

/-- When its waits end, `run_threads` returns, and leaves one of the harts stopped. -/
theorem run_runThreads {hartsrun : List (Fin (n + 1))} {single : Bool} (fit : g.Fit)
    (comes : Comes hartsrun single g) : ∃ t, (runThreads hartsrun single).run g = (.ok (), t) ∧
      t.line = g.line ∧ t.Fit ∧ (hartsrun ≠ [] → ∃ j ∈ hartsrun, t.status j ≠ .runnable) := by
  unfold runThreads
  by_cases empty : hartsrun = []
  · rw [if_pos empty]
    exact ⟨g, rfl, rfl, fit, fun some => absurd empty some⟩
  rw [if_neg empty]
  obtain ⟨t, on, stops⟩ := comes.resolve_left empty
  have waited := run_await_iff.mpr on
  obtain ⟨line, resumed⟩ := resume_spec hartsrun single fit
  obtain ⟨keeps, fit', j, among, parked⟩ := await_spec resumed waited
  have stopped : t.Stopped j := ⟨idle_of_stopsAll fit' parked among stops, parked⟩
  obtain ⟨orig, u, ran, line', fit'', stopped', kept⟩ := run_stopHarts fit' stopped stops
  obtain ⟨line'', fit''', idle⟩ := restoreStatus_spec fit'' stopped'.status kept
  refine ⟨u.restoreStatus orig, ?_, ?_, fit''', fun _ => ⟨j, among, idle⟩⟩
  · rw [Exec.run_update_bind, Exec.run_bind_ok waited, Exec.run_bind_ok ran]
    rfl
  · rw [line'', line', keeps.line, line]

/-! ## `vCont` -/

/-- There is a hart to report. -/
def Found (stop : Stop) : Prop :=
  ∃ reason number, stop = some (reason, number) ∧ (reason = "05" ∨ reason = "03") ∧ 1 ≤ number ∧ number < 2 ^ 31

theorem found_of_fit (fit : g.Fit) (i : Fin (n + 1)) {reason : String} (either : reason = "05" ∨ reason = "03") :
    Found (some (reason, threadNumber (g.harts i).core)) :=
  ⟨_, _, rfl, either, fit.harts i, BitVec.toInt_lt⟩

/-- The reply that reports it can be sent. -/
theorem sendable_stop {reason : String} {number : Int} (either : reason = "05" ∨ reason = "03") (positive : 1 ≤ number)
    (small : number < 2 ^ 31) : Sendable ("T" ++ reason ++ "thread:" ++ toString number ++ ";") := by
  obtain ⟨m, rfl⟩ := Int.eq_ofNat_of_zero_le (show 0 ≤ number by omega)
  have text : toString (m : Int) = toString m := rfl
  have digits := weight_toString_le (show m < 10 ^ 10 by omega)
  have front : Printable (bytes ("T" ++ reason ++ "thread:")) ∧ weight ("T" ++ reason ++ "thread:") ≤ 1000 := by
    rcases either with rfl | rfl <;> decide
  have last : weight ";" ≤ 1000 := by decide
  rw [text]
  refine ⟨printable_append (printable_append front.1 (printable_toString m)) (by decide), ?_⟩
  rw [weight_append, weight_append]
  omega

theorem run_collectStops {stop : Stop} {harts : List (Fin (n + 1))} (fit : g.Fit)
    (some : Found stop ∨ ∃ j ∈ harts, g.status j ≠ .runnable) :
    ∃ stop' t, (collectStops stop harts).run g = (.ok stop', t) ∧ t.line = g.line ∧ t.Fit ∧ Found stop' := by
  induction harts generalizing g stop with
  | nil =>
    refine ⟨stop, g, rfl, rfl, fit, some.resolve_right ?_⟩
    rintro ⟨j, among, -⟩
    cases among
  | cons i harts ih =>
    unfold collectStops
    rw [Exec.run_read_bind, Exec.run_read_bind]
    cases status : g.status i with
    | hitBreakpoint => exact ih (fit.setStatus i .runnable) (.inl (found_of_fit fit i (.inl rfl)))
    | terminated => exact ih fit (.inl (found_of_fit fit i (.inr rfl)))
    | runnable =>
      refine ih fit (some.imp_right ?_)
      rintro ⟨j, among, idle⟩
      rcases List.mem_cons.mp among with rfl | among
      · exact absurd status idle
      · exact ⟨j, among, idle⟩

/-- Up to a thread that does not exist the actions are `c` or `s`, and the waits end. -/
def ActionsFine (matched : List (Fin (n + 1))) : List GdbVcont → GdbServer isa Dev n → Prop
  | [], _ => True
  | vcont :: rest, g =>
      (vcont.action = .s ∨ vcont.action = .c) ∧
        ∀ threads, getThreads vcont.thread.tid = some threads →
          Comes (threads.filter (· ∉ matched)) (vcont.action = .s) g ∧
            ∀ stop stop' t u,
              (runThreads (threads.filter (· ∉ matched)) (vcont.action = .s)).run g = (.ok (), t) →
              (collectStops stop (threads.filter (· ∉ matched))).run t = (.ok stop', u) →
              ActionsFine (if 0 < vcont.thread.tid then threads ++ matched else matched) rest u

/-- Exactly one packet is sent, and the queue and the mutex are left as they were. -/
def RepliesOnce (m : M isa Dev n Unit) (g : GdbServer isa Dev n) : Prop :=
  ∃ reply t, m.run g = (.ok (), t) ∧ t.line = (g.sent ++ [.packet reply], g.pktq, g.mtx)

theorem repliesOnce_sendPacket {data : String} (sendable : Sendable data) (g : GdbServer isa Dev n) :
    RepliesOnce (sendPacket data) g :=
  ⟨data, _, run_sendPacket sendable g, rfl⟩

/-- What comes before the reply. -/
theorem RepliesOnce.bind {α : Type} {m : M isa Dev n α} {f : α → M isa Dev n Unit} {a : α}
    (ran : m.run g = (.ok a, t)) (line : t.line = g.line) (rest : RepliesOnce (f a) t) :
    RepliesOnce (m >>= f) g := by
  obtain ⟨reply, u, replied, line'⟩ := rest
  refine ⟨reply, u, (Exec.run_bind_ok ran).trans replied, line'.trans ?_⟩
  have sent : t.sent = g.sent := congrArg Prod.fst line
  have rest : (t.pktq, t.mtx) = (g.pktq, g.mtx) := congrArg Prod.snd line
  rw [sent, rest]

/-- All the harts are selected, or one: the first, or the one with the number. -/
theorem getThreads_cases {id : Int} {threads : List (Fin (n + 1))} (found : getThreads id = some threads) :
    threads = List.finRange (n + 1) ∨ ∃ i : Fin (n + 1), threads = [i] ∧ (i.val = 0 ∨ id = i.val + 1) := by
  unfold getThreads at found
  dsimp only at found
  generalize number : (if id = GdbThread.any then 1 else id) = chosen at found
  split at found
  case isTrue => exact .inl (Option.some.inj found).symm
  split at found
  case isTrue => cases found
  split at found
  case isTrue small inside =>
    refine .inr ⟨⟨(chosen - 1).toNat, inside⟩, (Option.some.inj found).symm, ?_⟩
    dsimp only
    by_cases any : id = GdbThread.any
    · rw [if_pos any] at number
      exact .inl (by omega)
    · rw [if_neg any] at number
      exact .inr (by omega)
  case isFalse => cases found

theorem getThreads_ne_nil {id : Int} {threads : List (Fin (n + 1))} (found : getThreads id = some threads) :
    threads ≠ [] := by
  rcases getThreads_cases found with rfl | ⟨i, rfl, -⟩
  · exact mt List.length_eq_zero_iff.mpr (by rw [List.length_finRange]; exact Nat.succ_ne_zero n)
  · exact List.cons_ne_nil i []

theorem nodup_getThreads {id : Int} {threads : List (Fin (n + 1))} (found : getThreads id = some threads) :
    threads.Nodup := by
  rcases getThreads_cases found with rfl | ⟨i, rfl, -⟩
  · exact List.nodup_finRange _
  · exact List.nodup_singleton i

theorem repliesOnce_vContLoop {matched : List (Fin (n + 1))} {stop : Stop} {actions : List GdbVcont}
    (fit : g.Fit) (fine : ActionsFine matched actions g)
    (some : Found stop ∨ matched = [] ∧ actions ≠ []) : RepliesOnce (vContLoop matched stop actions) g := by
  induction actions generalizing g matched stop with
  | nil =>
    have found : Found stop := some.resolve_right fun first => first.2 rfl
    obtain ⟨reason, number, rfl, either, positive, small⟩ := found
    unfold vContLoop vContEnd
    dsimp only
    rw [Exec.ensure_pos positive]
    exact repliesOnce_sendPacket (sendable_stop either positive small)
      _
  | cons vcont rest ih =>
    unfold ActionsFine at fine
    unfold vContLoop
    rw [Exec.ensure_pos fine.1]
    cases threads : (getThreads vcont.thread.tid : Option (List (Fin (n + 1)))) with
    | none =>
      have sendable : Sendable "E01" := by decide
      exact repliesOnce_sendPacket sendable g
    | some selected =>
      obtain ⟨comes, next⟩ := fine.2 selected threads
      obtain ⟨t, ran, line, fit', idle⟩ := run_runThreads fit comes
      have found : Found stop ∨ ∃ j ∈ selected.filter (· ∉ matched), t.status j ≠ .runnable := by
        refine some.imp_right ?_
        rintro ⟨rfl, -⟩
        have all : selected.filter (· ∉ ([] : List (Fin (n + 1)))) = selected := by
          rw [List.filter_eq_self]
          simp
        apply idle
        rw [all]
        exact getThreads_ne_nil threads
      obtain ⟨stop', u, collected, line', fit'', good⟩ := run_collectStops fit' found
      have last := ih fit'' (next stop stop' t u ran collected) (.inl good)
      exact RepliesOnce.bind (t := g) rfl rfl
        (RepliesOnce.bind ran line (RepliesOnce.bind collected line' last))

end RiscvVp.GdbServer
