import Mathlib.Data.Nat.Find
import Chifir.Proofs.Machine.Alike
import Chifir.Proofs.Machine.Breakpoints
import Chifir.Proofs.Machine.Iteration
import Chifir.Proofs.Machine.Safety

/-!
# Debugging

Whatever is done for debugging, the program takes the same course.

1. `OnCourse`: a machine is like those that steps make of another. Runs keep to the course
   (`OnCourse.runFrom`), and so do all calls that only debug (`Session.onCourse`).
2. `GoesOn`: runs in turn, each from where the one before has paused.
3. `goesOn`: if enough steps stop a machine, runs in turn stop it too, by induction on the runs that
   are left. A run may perform nothing where it finds a breakpoint, but the next one passes it.
4. `debugging_is_transparent` puts it together.
-/

namespace Chifir

namespace Machine

variable {m m' : Machine}

/-! ## The course of a machine -/

/-- A machine like those that steps make of `start`: it is `Alike` one of them. -/
def OnCourse (m start : Machine) : Prop := ∃ i, m.Alike (step^[i] start)

variable {start : Machine} {pass : Option Word} {budget : Nat}

theorem OnCourse.of_alike (on : m.OnCourse start) (alike : m'.Alike m) : m'.OnCourse start := by
  obtain ⟨i, here⟩ := on
  exact ⟨i, alike.trans here⟩

theorem OnCourse.step (on : m.OnCourse start) : m.step.OnCourse start := by
  obtain ⟨i, here⟩ := on
  refine ⟨i + 1, ?_⟩
  rw [Function.iterate_succ_apply']
  exact here.step

/-- What a stop is about is nothing that programs find. -/
theorem alike_of_stop {reason : StopReason} (stops : m.stopBefore pass = some (reason, m')) :
    m'.Alike m := by
  rcases cases_of_stopBefore stops with ⟨_, rfl⟩ | ⟨_, _, rfl⟩ | ⟨_, _, _, rfl⟩
  · exact .refl m'
  · exact ⟨fun _ => rfl, rfl, rfl, rfl, rfl, rfl⟩
  · exact ⟨fun _ => rfl, rfl, rfl, rfl, rfl, rfl⟩

theorem OnCourse.runFrom (on : m.OnCourse start) (pass : Option Word) (budget : Nat) :
    (m.runFrom pass budget).2.OnCourse start :=
  ends_runFrom (OnCourse · start) (fun _ m => m.OnCourse start) OnCourse.step
    (fun on stops => on.of_alike (alike_of_stop stops)) (fun on _ => on) pass budget on

theorem OnCourse.noted (on : m.OnCourse start) (pass : Option Word) (budget : Nat) :
    ∀ now ∈ (m.runNoting pass budget).1, now.OnCourse start := by
  induction budget generalizing m pass with
  | zero =>
    rw [runNoting]
    split
    · exact List.forall_mem_nil _
    · exact List.forall_mem_nil _
  | succ budget ih =>
    rw [runNoting]
    split
    · exact List.forall_mem_nil _
    · exact List.forall_mem_cons.2 ⟨on, ih on.step none⟩

theorem OnCourse.runFor (on : m.OnCourse start) (budget : Nat) :
    (m.runFor budget).2.OnCourse start ∧ ∀ now ∈ m.performed budget, now.OnCourse start := by
  have unmarked : ({ m with resumeAt := none } : Machine).OnCourse start :=
    on.of_alike ⟨fun _ => rfl, rfl, rfl, rfl, rfl, rfl⟩
  exact ⟨unmarked.runFrom m.resumeAt budget, unmarked.noted m.resumeAt budget⟩

end Machine

/-! ## Debugging sessions -/

/-- Whether a call leaves memory, PC and keys to the program. -/
def Call.debugs : Call → Bool
  | .load .. | .write .. | .press _ | .feed _ | .send _ | .reset => false
  | _ => true

namespace Panel

variable {start : Machine} {p p' : Panel} {c : Call} {answer : CallAnswer}

theorem onCourse_of_call (fetches : p.astray = none) (debugs : c.debugs)
    (called : p.call c = some (answer, p')) (on : p.machine.OnCourse start) :
    p'.machine.OnCourse start ∧ ∀ m ∈ (Event.mk p c answer p').performed, m.OnCourse start := by
  cases c with
  | load | write | press | feed | send | reset => cases debugs
  | step =>
    obtain ⟨m', rfl, outcome⟩ := called_of_call fetches called
    cases outcome with
    | stepped =>
      refine ⟨on.step, fun m performed => ?_⟩
      simp only [Event.performed] at performed
      split at performed
      · rw [List.mem_singleton.1 performed]
        exact on
      · cases performed
    | set sets => cases sets
  | run limit =>
    obtain ⟨m', rfl, outcome⟩ := called_of_call fetches called
    cases outcome with
    | ran => exact on.runFor (p.machine.allowance limit)
    | set sets => cases sets
  | watch n watcher =>
    refine ⟨?_, List.forall_mem_nil _⟩
    rcases cases_of_rewired called with ⟨b, watched, rfl⟩ | ⟨_, _, rfl⟩
    · cases address : Word.address n with
      | error e =>
        rw [address] at watched
        cases watched
      | ok a =>
        rw [address] at watched
        cases watched
        exact on.of_alike ⟨fun _ => rfl, rfl, rfl, rfl, rfl, rfl⟩
    · exact on
  | addBreakpoint | removeBreakpoint | clearBreakpoints | unwatch | unwatchAll | trace | clearTrace
  | requestStop =>
    cases called
    exact ⟨on.of_alike ⟨fun _ => rfl, rfl, rfl, rfl, rfl, rfl⟩, List.forall_mem_nil _⟩

end Panel

theorem Session.onCourse {start : Machine} {first p : Panel} {log : List Event}
    (session : Session first log p) (fetches : first.astray = none)
    (debugs : ∀ e ∈ log, e.call.debugs) (on : first.machine.OnCourse start) :
    p.machine.OnCourse start ∧ ∀ e ∈ log, ∀ m ∈ e.performed, m.OnCourse start := by
  induction session with
  | start => exact ⟨on, List.forall_mem_nil _⟩
  | call earlier called ih =>
    obtain ⟨this, others⟩ := List.forall_mem_cons.1 debugs
    obtain ⟨on, performed⟩ := ih others
    obtain ⟨on', performed'⟩ := Panel.onCourse_of_call (earlier.fetches fetches) this called on
    exact ⟨on', List.forall_mem_cons.2 ⟨performed', performed⟩⟩

/-! ## Going on -/

namespace Machine

variable {m m' : Machine} {limit : Option Int} {reason : StopReason} {j n : Nat}

/-- The outcome of a run, however long it takes: one without a bound is one with any budget that
suffices. -/
def RunsTo (m : Machine) (limit : Option Int) (outcome : StopReason × Machine) : Prop :=
  match m.bound? limit with
  | some budget => m.runFor budget = outcome
  | none => outcome.1 ≠ .timeout ∧ ∃ budget, m.runFor budget = outcome

theorem runsTo_of_run? {outcome : StopReason × Machine} (run : m.run? limit = some outcome) :
    m.RunsTo limit outcome := by
  unfold RunsTo
  split
  · next bound => exact Option.some.inj ((run?_of_bound bound).symm.trans run)
  · next unbounded =>
    obtain ⟨same, other⟩ := (run?_of_unbounded unbounded).1 run
    exact ⟨other, patience, same⟩

theorem Performs.runsTo (unasked : m.stopRequested = false)
    (performs : m.Performs (m.bound? limit) j reason m') :
    m.RunsTo limit (reason, m') := by
  unfold RunsTo
  split
  · next bound =>
    rw [bound] at performs
    exact performs.runFor_eq unasked
  · next unbounded =>
    rw [unbounded] at performs
    obtain ⟨bounded, other⟩ := (performs_none_iff j).1 ⟨performs, Nat.le_refl j⟩
    exact ⟨other, j, bounded.runFor_eq unasked⟩

/-- The outcome of runs in turn with these limits, from the one with number `k` on: each begins
where the one before has ended at a breakpoint or has used its budget up. -/
inductive GoesOn (limits : Nat → Option Int) : Nat → Machine → StopReason × Machine → Prop
  | stops {k : Nat} {m : Machine} {outcome : StopReason × Machine}
      (run : m.RunsTo (limits k) outcome) (stopped : outcome.1 ∈ [.halt, .fault]) :
      GoesOn limits k m outcome
  | resumes {k : Nat} {m m' : Machine} {reason : StopReason} {outcome : StopReason × Machine}
      (run : m.RunsTo (limits k) (reason, m')) (paused : reason ∈ [.breakpoint, .timeout])
      (later : GoesOn limits (k + 1) m' outcome) : GoesOn limits k m outcome

theorem iterate_of_stopped (stopped : m.status.reason? = some reason) (i : Nat) : step^[i] m = m :=
  Function.iterate_fixed (step_of_stopped stopped) i

theorem alike_marked (m : Machine) (mark : Option Word) : (m.marked mark).Alike m :=
  ⟨fun _ => rfl, rfl, rfl, rfl, rfl, rfl⟩

/-- What no step changes is as it was. -/
theorem iterate_keeps {α : Type} {field : Machine → α}
    (kept : ∀ m : Machine, field m.step = field m) (m : Machine) (i : Nat) :
    field (step^[i] m) = field m := by
  induction i with
  | zero => rfl
  | succ i ih => rw [Function.iterate_succ_apply', kept, ih]

theorem exists_endsAt (stopped : (step^[n] m).status.reason? = some reason) (pass : Option Word)
    (bound : Option Nat) :
    ∃ j ≤ n, ∃ reason', m.EndsAt pass bound j reason' := by
  have atLast : m.reasonAt pass bound n ≠ none := by
    rw [reasonAt_of_stopped stopped]
    nofun
  have ended : ∃ i, m.reasonAt pass bound i ≠ none := ⟨n, atLast⟩
  obtain ⟨reason', ends⟩ := Option.ne_none_iff_exists'.1 (Nat.find_spec ended)
  refine ⟨Nat.find ended, Nat.find_min' ended atLast, reason', ends, fun i before => ?_⟩
  exact Classical.not_not.1 (Nat.find_min ended before)

/-- How many runs may be left when `n` instructions are: two for each, of which the first just finds
a breakpoint and marks it, and another one for the end. -/
def runsLeft (m : Machine) (n : Nat) : Nat := 2 * n + if m.resumeAt = some m.pc then 0 else 1

theorem runsLeft_of_meets {left : Nat} (met : m.Meets m.resumeAt j) :
    ((step^[j] m).marked (some (step^[j] m).pc)).runsLeft left < m.runsLeft (left + j) := by
  unfold runsLeft marked
  rw [if_pos rfl]
  cases j with
  | zero =>
    -- nothing was performed, so that the breakpoint was not marked before
    have unmarked : m.resumeAt ≠ some m.pc := fun marked => met.2 ⟨rfl, marked⟩
    rw [if_neg unmarked]
    omega
  | succ j => omega

theorem runsLeft_of_pos {left : Nat} (performed : 0 < j) :
    ((step^[j] m).marked none).runsLeft left < m.runsLeft (left + j) := by
  unfold runsLeft marked
  rw [if_neg nofun]
  omega

section Paused
variable (m : Machine) (j : Nat) (mark : Option Word)

theorem stopRequested_paused : ((step^[j] m).marked mark).stopRequested = m.stopRequested :=
  iterate_keeps stopRequested_step m j

theorem bound?_paused (limit : Option Int) :
    ((step^[j] m).marked mark).bound? limit = m.bound? limit := by
  unfold bound?
  show (_ <|> (step^[j] m).budget) = _
  rw [iterate_keeps budget_step m j]

end Paused

theorem goesOn (limits : Nat → Option Int) (unasked : m.stopRequested = false)
    (allowed : ∀ k, m.bound? (limits k) ≠ some 0)
    (halts : (step^[n] m).status.reason? = some reason) (k : Nat) :
    ∃ m', GoesOn limits k m (reason, m') ∧ m'.Alike (step^[n] m) := by
  induction same : m.runsLeft n using Nat.strongRecOn generalizing m n k with
  | ind left ih =>
    subst same
    -- The first run ends after at most `n` steps, for then the machine has stopped.
    obtain ⟨j, enough, reason', endsAt⟩ := exists_endsAt halts m.resumeAt (m.bound? (limits k))
    have run := endsAt.performs.runsTo unasked
    obtain ⟨rest, rfl⟩ := Nat.exists_eq_add_of_le' enough
    rw [Function.iterate_add_apply] at halts ⊢
    have later (mark : Option Word)
      (shorter : ((step^[j] m).marked mark).runsLeft rest < m.runsLeft (rest + j)) :
        ∃ m', GoesOn limits (k + 1) ((step^[j] m).marked mark) (reason, m') ∧
          m'.Alike (step^[rest] (step^[j] m)) := by
      have unasked' := (stopRequested_paused m j mark).trans unasked
      have allowed' (k : Nat) : ((step^[j] m).marked mark).bound? (limits k) ≠ some 0 := by
        rw [bound?_paused]
        exact allowed k
      have halts' : (step^[rest] ((step^[j] m).marked mark)).status.reason? = some reason := by
        rw [iterate_step_marked]
        exact halts
      obtain ⟨m', onward, alike⟩ := ih _ shorter unasked' allowed' halts' (k + 1) rfl
      rw [iterate_step_marked] at alike
      exact ⟨m', onward, alike.trans (alike_marked _ mark)⟩
    rcases cases_of_reasonAt endsAt.ends with stopped | ⟨_, rfl, met⟩ | ⟨_, rfl, _, reached⟩
    · rw [iterate_of_stopped stopped] at halts ⊢
      obtain rfl : reason' = reason := Option.some.inj (stopped.symm.trans halts)
      exact ⟨_, .stops run (mem_reasons stopped), alike_marked _ _⟩
    · obtain ⟨m', onward, alike⟩ := later (some (step^[j] m).pc) (runsLeft_of_meets met)
      exact ⟨m', .resumes run (by decide) onward, alike⟩
    · have performed : 0 < j := Nat.pos_of_ne_zero fun none => allowed k (none ▸ reached)
      obtain ⟨m', onward, alike⟩ := later none (runsLeft_of_pos performed)
      exact ⟨m', .resumes run (by decide) onward, alike⟩

def undisturbed (m : Machine) : Machine :=
  { m with breakpoints := [], stopRequested := false, budget := none }

theorem ends_of_undisturbed {final : Machine} (run : m.undisturbed.RunsTo none (reason, final)) :
    ∃ n, (step^[n] m).status.reason? = some reason ∧ final.Alike (step^[n] m) := by
  obtain ⟨other, budget, run⟩ := run
  obtain ⟨n, performs⟩ := performs_runFor (m := m.undisturbed) rfl budget
  rw [run] at performs
  have start : m.undisturbed.Alike m := ⟨fun _ => rfl, rfl, rfl, rfl, rfl, rfl⟩
  have alike := start.iterate n
  refine ⟨n, ?_, ?_⟩
  · rw [← alike.status]
    rcases cases_of_reasonAt performs.endsAt.ends with stopped | ⟨_, _, met, _⟩ | ⟨_, timeout, _⟩
    · exact stopped
    · cases met
    · exact absurd timeout other
  · have left : final = _ := performs.left
    rw [left]
    exact (alike_marked _ _).trans alike

/-- Where the course of `start` ends, all machines on it do. -/
theorem alike_of_onCourse (on : m.OnCourse start)
    (stopped : (step^[n] start).status.reason? = some reason) :
    (step^[n] m).Alike (step^[n] start) := by
  obtain ⟨i, here⟩ := on
  have ahead := here.iterate n
  rwa [← Function.iterate_add_apply, Nat.add_comm, Function.iterate_add_apply,
    iterate_of_stopped stopped] at ahead

end Machine

/-- Debugging is transparent. In a session that only debugs, and that begins like `start`,
everything is like what steps make of `start`, whatever breakpoints, watchpoints, traces and
displays there are. And if a run from `start` ends in a halt or a fault when nothing interrupts it,
then runs in turn come to the same end, from wherever the session is. -/
theorem debugging_is_transparent {start m : Machine} {log : List Event} {p : Panel}
    (alike : m.Alike start) (session : Session { machine := m } log p)
    (debugs : ∀ e ∈ log, e.call.debugs) :
    p.machine.OnCourse start ∧ (∀ e ∈ log, ∀ now ∈ e.performed, now.OnCourse start) ∧
      (∀ budget, ∀ now ∈ p.machine.performed budget, now.OnCourse start) ∧
      ∀ reason final, start.undisturbed.RunsTo none (reason, final) →
        p.machine.stopRequested = false → ∀ limits : Nat → Option Int,
          (∀ k, p.machine.bound? (limits k) ≠ some 0) →
            ∃ final', Machine.GoesOn limits 0 p.machine (reason, final') ∧ final'.Alike final := by
  obtain ⟨on, performed⟩ := session.onCourse rfl debugs ⟨0, alike⟩
  refine ⟨on, performed, fun budget => ?_, fun reason final run unasked limits allowed => ?_⟩
  · exact (on.runFor budget).2
  · obtain ⟨n, stopped, same⟩ := Machine.ends_of_undisturbed run
    have ends := Machine.alike_of_onCourse on stopped
    rw [← ends.status] at stopped
    obtain ⟨final', onward, alike⟩ := Machine.goesOn limits unasked allowed stopped 0
    exact ⟨final', onward, (alike.trans ends).trans same.symm⟩

def drawOnce : Machine where
  bus.memory := Machine.cellsAt [(0, 3), (1, 100), (4, 14)]

/-- The same on an engine with a screen, which is traced, and with breakpoints and a watchpoint. -/
def watchedOnce : Machine :=
  { drawOnce with
    bus.watchpoints := [⟨100, "log"⟩]
    display := Config.mini.display
    breakpoints := [0, 4]
    tracing := true }

theorem debugging_is_transparent_drawing :
    ∃ log p final, Session { machine := watchedOnce } log p ∧ p.machine.OnCourse drawOnce ∧
      drawOnce.undisturbed.RunsTo none (.halt, final) ∧
      ∃ final', Machine.GoesOn (fun _ => some 1) 0 p.machine (.halt, final') ∧
        final'.Alike final := by
  have played :
      (({ machine := watchedOnce } : Panel).play [.addBreakpoint 8, .run (some 5), .step]).any
      fun played => (∀ e ∈ played.1, e.call.debugs) ∧ played.2.machine.stopRequested = false := by
    decide +kernel
  have plain : (drawOnce.undisturbed.run? none).any fun outcome => outcome.1 = .halt := by
    decide +kernel
  obtain ⟨⟨log, p⟩, played, found⟩ := (Option.any_eq_true _ _).1 played
  obtain ⟨⟨reason, final⟩, run, halts⟩ := (Option.any_eq_true _ _).1 plain
  rw [decide_eq_true_eq] at found halts
  obtain ⟨debugs, unasked⟩ := found
  subst halts
  have session := Session.of_play played
  have plainly := Machine.runsTo_of_run? run
  have alike : watchedOnce.Alike drawOnce := ⟨fun _ => rfl, rfl, rfl, rfl, rfl, rfl⟩
  obtain ⟨on, _, _, ends⟩ := debugging_is_transparent alike session debugs
  have bounded (k : Nat) : p.machine.bound? (some 1) ≠ some 0 := nofun
  exact ⟨log, p, final, session, on, plainly, ends .halt final plainly unasked _ bounded⟩

open CommandLine

/-- An engine that is run on request, with the program of `drawOnce` in memory. -/
def engineOnce (r : RunRequest) (c : Config) : Machine :=
  { Machine.build c (r.display c) {} with bus := drawOnce.bus }

/-- The display must have been made with whole numbers. With one that was not, a program ends in an
error that halts on a silent engine. -/
theorem fractional_display_shows :
    ∃ c, Config.ofText "m.json" fractionalText none = .ok c ∧
      (engineOnce { silent := true } c).Alike (engineOnce {} c) ∧
      (RunRequest.run { silent := true } c (engineOnce { silent := true } c)).toOption.map
        (·.1) = some .halt ∧
      ((RunRequest.run {} c (engineOnce {} c)).map (·.1)).mapError Failure.report =
        .error "Internal error: can't multiply sequence by non-int of type 'float'" := by
  have fails : (Config.ofText "m.json" fractionalText none).toOption.any fun c =>
      (RunRequest.run { silent := true } c (engineOnce { silent := true } c)).toOption.map
        (·.1) = some .halt ∧
          ((RunRequest.run {} c (engineOnce {} c)).map (·.1)).mapError Failure.report =
            .error "Internal error: can't multiply sequence by non-int of type 'float'" := by
    decide +kernel
  obtain ⟨c, found, fails⟩ := exists_of_any_toOption fails
  rw [decide_eq_true_eq] at fails
  obtain ⟨silently, report⟩ := fails
  exact ⟨c, found, ⟨fun _ => rfl, rfl, rfl, rfl, rfl, rfl⟩, silently, report⟩

end Chifir
