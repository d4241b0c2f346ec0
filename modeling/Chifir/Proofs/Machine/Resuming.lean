import Mathlib.Data.List.Basic
import Chifir.Proofs.Machine.Breakpoints

/-!
# Breaking again

A run that stops at a breakpoint leaves a mark, and the next run takes it away before its first
look. If that run then gives up for another reason, without having performed anything, the one after
it stops at the breakpoint again.

1. `breaks_at_once_iff`: when a run breaks before its first instruction.
2. `WaitsAt.run`, `Session.waitsAt`: a machine waits at a breakpoint as long as nothing is
   performed, and the mark stays as long as no run has given up.
3. `breaks_again_iff`: so a run breaks there again if and only if one in between has given up, as in
   `spent_budget_breaks_again`.
-/

namespace Chifir

namespace Machine

variable {m : Machine} {mark : Option Word} {pc : Word} {budget : Nat}

/-- A run that performs nothing leaves all but the mark `resumeAt` and the request. -/
theorem kept_of_performed_nil (nothing : m.performed budget = []) :
    (m.runFor budget).2 = { m with
      resumeAt := (m.runFor budget).2.resumeAt, stopRequested :=
        (m.runFor budget).2.stopRequested } := by
  rcases cases_of_noted_nil nothing with stops | timeout
  · rcases cases_of_stopBefore stops with ⟨_, left⟩ | ⟨_, _, left⟩ | ⟨_, _, _, left⟩
    · rw [runFor, left]
    · rw [runFor, left]
    · rw [runFor, left]
  · rw [runFor, timeout]

/-- A run breaks before it has performed anything exactly if it finds a breakpoint and no mark
there. -/
theorem breaks_at_once_iff (running : m.status = .running) (budget : Nat) :
    (m.runFor budget).1 = .breakpoint ∧ m.performed budget = [] ↔
      m.stopRequested = false ∧ m.pc ∈ m.breakpoints ∧ m.resumeAt ≠ some m.pc := by
  constructor
  · rintro ⟨breaks, nothing⟩
    rcases cases_of_noted_nil nothing with stops | timeout
    · rcases cases_of_stopBefore stops with ⟨stopped, _⟩ | ⟨_, cancelled, _⟩ | ⟨_, _, met, _⟩
      · rw [running] at stopped
        cases stopped
      · cases breaks.symm.trans cancelled
      · have unasked : m.stopRequested = false := by
          cases asked : m.stopRequested with
          | false => rfl
          | true =>
              cases breaks.symm.trans (congrArg Prod.fst (runFor_of_request asked running budget))
        refine ⟨unasked, met, fun marked => ?_⟩
        cases stops.symm.trans (stopBefore_eq_none.2 ⟨running, unasked, fun _ => marked⟩)
    · cases breaks.symm.trans (congrArg Prod.fst timeout)
  · rintro ⟨unasked, met, unmarked⟩
    have stops : ({ m with resumeAt := none } : Machine).stopBefore m.resumeAt =
        some (.breakpoint, { m with resumeAt := some m.pc }) := by
      simp only [stopBefore, running, Status.reason?, unasked, List.contains_iff_mem]
      rw [if_neg Bool.false_ne_true, if_pos ⟨met, unmarked⟩]
    rw [runFor, performed, runFrom_of_stop stops]
    exact ⟨rfl, noted_of_stop stops budget⟩

theorem running_runFor_iff :
    (m.runFor budget).2.status = .running ↔ (m.runFor budget).1 ∉ [.halt, .fault] := by
  have reason := reason?_runFrom m.resumeAt budget { m with resumeAt := none }
  rw [← runFor] at reason
  constructor
  · intro running stopped
    rw [running, if_pos stopped] at reason
    cases reason
  · intro goes
    rw [if_neg goes] at reason
    cases status : (m.runFor budget).2.status with
    | running => rfl
    | halted | faulted =>
      rw [status] at reason
      cases reason

/-- A machine that goes on at an address, with this mark in `resumeAt`. -/
structure WaitsAt (m : Machine) (pc : Word) (mark : Option Word) : Prop where
  running : m.status = .running
  pc : m.pc = pc
  mark : m.resumeAt = mark

theorem waitsAt_of_break (breaks : (m.runFor budget).1 = .breakpoint) :
    (m.runFor budget).2.WaitsAt (m.runFor budget).2.pc (some (m.runFor budget).2.pc) := by
  have marked := resumeAt_runFor m budget
  rw [if_pos breaks] at marked
  refine ⟨running_runFor_iff.2 ?_, rfl, marked⟩
  rw [breaks]
  decide

/-- A run that performs nothing where it waits, and does not end at a breakpoint, has no budget or
is asked to stop. It takes the mark away. -/
theorem WaitsAt.run (waits : m.WaitsAt pc mark) (nothing : m.performed budget = [])
    (other : (m.runFor budget).1 ≠ .breakpoint) :
    (m.runFor budget).2.WaitsAt pc none ∧
    ((m.runFor budget).1 = .timeout ∨ (m.runFor budget).1 = .cancelled) := by
  have kept := kept_of_performed_nil nothing
  have running : (m.runFor budget).2.status = .running := by rw [kept, waits.running]
  have unmarked := resumeAt_runFor m budget
  rw [if_neg other] at unmarked
  refine ⟨⟨running, by rw [kept, waits.pc], unmarked⟩, ?_⟩
  have goes := running_runFor_iff.1 running
  cases reason : (m.runFor budget).1 with
  | timeout => exact .inl rfl
  | cancelled => exact .inr rfl
  | breakpoint => exact absurd reason other
  | halt | fault =>
    rw [reason] at goes
    exact absurd (by decide) goes

end Machine

/-! ## Sessions that wait -/

namespace Event

def isRun (e : Event) : Bool :=
  match e.call with
  | .run _ => true
  | _ => false

/-- A run that performs nothing and does not end at a breakpoint, or a call that sets something. -/
def Rests (e : Event) : Prop := (e.isRun ∨ e.call.sets) ∧ e.performed = [] ∧ ¬ e.isBreak

instance (e : Event) : Decidable e.Rests :=
  inferInstanceAs (Decidable ((e.isRun ∨ e.call.sets) ∧ e.performed = [] ∧ ¬ e.isBreak))

def givesUp (e : Event) : Bool :=
  match e.call, e.answer with
  | .run _, .ok (some .timeout) | .run _, .ok (some .cancelled) => true
  | _, _ => false

theorem reason_of_isBreak {before after : Panel} {limit : Option Int} {reason : StopReason}
    (breaks : (Event.mk before (.run limit) (.ok (some reason)) after).isBreak) :
    reason = .breakpoint := by
  cases reason with
  | breakpoint => rfl
  | halt | fault | timeout | cancelled => cases breaks

end Event

variable {start p p' : Panel} {between older : List Event} {pc : Word} {mark : Option Word}
    {stop again : Event}

theorem Panel.waitsAt_of_break {c : Call} {answer : CallAnswer} (fetches : p.astray = none)
    (called : p.call c = some (answer, p')) (stopped : (Event.mk p c answer p').BreaksAt pc) :
    p'.machine.WaitsAt pc (some pc) := by
  obtain ⟨limit, ran⟩ := Event.isRun_of_isBreak stopped.1
  obtain ⟨m', rfl, outcome⟩ := called_of_call fetches called
  cases outcome with
  | loaded | stepped | reset => cases ran
  | ran limit =>
    generalize p.machine.allowance limit = budget at stopped ⊢
    have waits := Machine.waitsAt_of_break (Event.reason_of_isBreak stopped.1)
    rw [← stopped.2]
    exact waits
  | set sets =>
    subst ran
    cases sets

/-- A call that leaves the machine where it waits takes the mark away if it is a run, which gives
up. -/
theorem Panel.waitsAt_of_call {c : Call} {answer : CallAnswer} (fetches : p.astray = none)
    (called : p.call c = some (answer, p')) (rests : (Event.mk p c answer p').Rests)
    (waits : p.machine.WaitsAt pc mark) :
    p'.machine.WaitsAt pc (if (Event.mk p c answer p').givesUp then none else mark) := by
  obtain ⟨m', rfl, outcome⟩ := called_of_call fetches called
  obtain ⟨rested, nothing, other⟩ := rests
  cases outcome with
  | loaded | stepped | reset =>
    rcases rested with run | sets
    · cases run
    · cases sets
  | ran limit =>
    have other : (p.machine.runFor (p.machine.allowance limit)).1 ≠ .breakpoint := by
      intro breaks
      exact other (by rw [Event.isBreak, breaks])
    obtain ⟨waits, reason | reason⟩ := waits.run nothing other
    · rw [reason]
      exact waits
    · rw [reason]
      exact waits
  | set sets _ kept =>
    have stays : (Event.mk p c answer { machine := m' }).givesUp = false := by
      cases c with
      | run => cases sets
      | _ => rfl
    rw [stays]
    exact ⟨by rw [kept, waits.running], by rw [kept, waits.pc], by rw [kept, waits.mark]; rfl⟩

/-- After a run that ended at a breakpoint, and calls that leave the machine there, it still waits.
The mark is there as long as none of the calls was a run. -/
theorem Session.waitsAt (session : Session start (between ++ stop :: older) p)
    (fetches : start.astray = none) (stopped : stop.BreaksAt pc) (rests : ∀ e ∈ between, e.Rests) :
    p.machine.WaitsAt pc (if between.any Event.givesUp then none else some pc) := by
  induction between generalizing p with
  | nil =>
    cases session with
    | call earlier called => exact Panel.waitsAt_of_break (earlier.fetches fetches) called stopped
  | cons e between ih =>
    cases session with
    | call earlier called =>
      obtain ⟨rested, others⟩ := List.forall_mem_cons.1 rests
      have waits :=
        Panel.waitsAt_of_call (earlier.fetches fetches) called rested (ih earlier others)
      rw [List.any_cons]
      cases ran : (Event.mk _ _ _ _).givesUp with
      | true =>
        rw [ran] at waits
        exact waits
      | false =>
        rw [ran] at waits
        exact waits

/-- Where a run has ended at a breakpoint, and nothing was performed since, a run ends there again
before it performs anything exactly if one came in between that gave up: it took the mark away
without going on. -/
theorem breaks_again_iff (session : Session start (again :: between ++ stop :: older) p)
    (fetches : start.astray = none) (stopped : stop.BreaksAt pc) (rests : ∀ e ∈ between, e.Rests)
    (run : again.isRun) :
    again.BreaksAt pc ∧ again.performed = [] ↔
      again.before.machine.stopRequested = false ∧ pc ∈ again.before.machine.breakpoints ∧
        ∃ e ∈ between, e.givesUp := by
  cases session with
  | @call _ before after c answer earlier called =>
    obtain ⟨running, rfl, mark⟩ := earlier.waitsAt fetches stopped rests
    obtain ⟨m', rfl, outcome⟩ := Panel.called_of_call (earlier.fetches fetches) called
    have unmarked : before.machine.resumeAt ≠ some before.machine.pc ↔
        ∃ e ∈ between, e.givesUp := by
      rw [mark, ← List.any_eq_true]
      cases between.any Event.givesUp with
      | true => simp
      | false => simp
    cases outcome with
    | loaded | stepped | reset => cases run
    | set sets =>
      cases c with
      | run => cases sets
      | _ => cases run
    | ran limit =>
      have once := before.machine.breaks_at_once_iff running (before.machine.allowance limit)
      rw [unmarked] at once
      show _ ∧ before.machine.performed (before.machine.allowance limit) = [] ↔ _
      rw [← once]
      generalize before.machine.allowance limit = budget
      constructor
      · rintro ⟨breaks, nothing⟩
        exact ⟨Event.reason_of_isBreak breaks.1, nothing⟩
      · rintro ⟨breaks, nothing⟩
        refine ⟨⟨by rw [Event.isBreak, breaks], ?_⟩, nothing⟩
        show (before.machine.runFor budget).2.pc = _
        rw [Machine.kept_of_performed_nil nothing]

theorem cancelled_run_breaks_again :
    ∃ p again between stop older, Session { machine := {} } (again :: between ++ stop :: older) p ∧
      stop.BreaksAt 0 ∧ (∀ e ∈ between, e.Rests) ∧ again.BreaksAt 0 ∧ again.performed = [] := by
  have played :
      (({ machine := {} } : Panel).play
        (stopping ++ [.requestStop, .run (some 3), .run (some 3)])).any fun played =>
      played.1[0]?.any fun again => played.1[1]?.any fun cancelled =>
        played.1[2]?.any fun asked => played.1[3]?.any fun stop =>
          stop.BreaksAt 0 ∧ (∀ e ∈ [cancelled, asked], e.Rests) ∧ again.isRun ∧
            again.before.machine.stopRequested = false ∧ 0 ∈ again.before.machine.breakpoints ∧
              cancelled.givesUp := by
    decide +kernel
  obtain ⟨⟨log, p⟩, played, found⟩ := (Option.any_eq_true _ _).1 played
  rcases log with _ | ⟨again, _ | ⟨cancelled, _ | ⟨asked, _ | ⟨stop, older⟩⟩⟩⟩
  · cases found
  · cases found
  · cases found
  · cases found
  · obtain ⟨stopped, rests, run, unasked, met, givesUp⟩ := of_decide_eq_true found
    have breaks := (breaks_again_iff (Session.of_play played) rfl stopped rests run).2
      ⟨unasked, met, cancelled, List.mem_cons_self, givesUp⟩
    exact ⟨p, again, _, stop, older, Session.of_play played, stopped, rests, breaks⟩

/-- Such a run may just have had no budget: nothing was `performed` between the two breaks. -/
theorem spent_budget_breaks_again :
    ∃ p again spent stop older, Session { machine := {} } (again :: spent :: stop :: older) p ∧
      stop.BreaksAt 0 ∧ spent.answer = .ok (some .timeout) ∧ spent.performed = [] ∧
        again.BreaksAt 0 ∧ again.performed = [] := by
  have played : (({ machine := {} } : Panel).play (stopping ++ [.run (some 0), .run (some 1)])).any
      fun played => played.1[0]?.any fun again => played.1[1]?.any fun spent =>
        played.1[2]?.any fun stop =>
        stop.BreaksAt 0 ∧ spent.answer = .ok (some .timeout) ∧ spent.performed = [] ∧
          again.BreaksAt 0 ∧ again.performed = [] := by
    decide +kernel
  obtain ⟨⟨log, p⟩, played, found⟩ := (Option.any_eq_true _ _).1 played
  rcases log with _ | ⟨again, _ | ⟨spent, _ | ⟨stop, older⟩⟩⟩
  · cases found
  · cases found
  · cases found
  · exact ⟨p, again, spent, stop, older, Session.of_play played, of_decide_eq_true found⟩

end Chifir
