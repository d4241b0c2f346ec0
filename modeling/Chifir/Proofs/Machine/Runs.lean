import Chifir.Machine.Run

/-!
# Runs, one instruction at a time

Before each instruction a run looks at the machine. Something may stop it there; otherwise it
performs the instruction, if the budget allows, and looks again.

1. `runFrom_of_stop`, `runFrom_zero`, `runFrom_succ`: what a run does after such a look.
2. `ends_runFrom`: an induction over a run that says how it ends.
-/

namespace Chifir.Machine

/-- What stops a run before the next instruction, apart from the budget. The breakpoint at `pass`
does not. -/
def stopBefore (pass : Option Word) (m : Machine) : Option (StopReason × Machine) :=
  match m.status.reason? with
  | some reason => some (reason, m)
  | none =>
    if m.stopRequested then some (.cancelled, { m with stopRequested := false })
    else if m.breakpoints.contains m.pc ∧ pass ≠ some m.pc then
      some (.breakpoint, { m with resumeAt := some m.pc })
    else none

variable {m m' : Machine} {pass : Option Word} {reason : StopReason}

theorem runFrom_eq (pass : Option Word) (budget : Nat) (m : Machine) :
    m.runFrom pass budget =
      match m.stopBefore pass with
      | some stop => stop
      | none =>
        match budget with
        | 0 => (.timeout, m)
        | budget + 1 => m.step.runFrom none budget := by
  rw [runFrom.eq_def, stopBefore]
  cases m.status.reason? with
  | some reason => rfl
  | none =>
    dsimp only
    split
    · rfl
    · split
      · rfl
      · rfl

theorem runFrom_of_stop {stop : StopReason × Machine} (stops : m.stopBefore pass = some stop)
    (budget : Nat) :
    m.runFrom pass budget = stop := by
  rw [runFrom_eq, stops]

theorem runFrom_zero (goes : m.stopBefore pass = none) : m.runFrom pass 0 = (.timeout, m) := by
  rw [runFrom_eq, goes]

theorem runFrom_succ (goes : m.stopBefore pass = none) (budget : Nat) :
    m.runFrom pass (budget + 1) = m.step.runFrom none budget := by
  rw [runFrom_eq, goes]

theorem step_of_stopped (stopped : m.status.reason? = some reason) : m.step = m := by
  unfold step
  cases status : m.status with
  | running =>
    rw [status] at stopped
    cases stopped
  | halted | faulted => rfl

theorem exists_reason (stopped : m.status ≠ .running) :
    ∃ reason, m.status.reason? = some reason := by
  cases status : m.status with
  | running => exact absurd status stopped
  | halted | faulted => exact ⟨_, rfl⟩

theorem stopBefore_of_stopped (stopped : m.status.reason? = some reason) (pass : Option Word) :
    m.stopBefore pass = some (reason, m) := by
  rw [stopBefore, stopped]

/-- Nothing stops a running machine without a request, unless it stands at a breakpoint that is not
passed. -/
theorem stopBefore_eq_none :
    m.stopBefore pass = none ↔
      m.status = .running ∧ m.stopRequested = false ∧
        (m.pc ∈ m.breakpoints → pass = some m.pc) := by
  have met : (m.breakpoints.contains m.pc ∧ pass ≠ some m.pc) ↔
      ¬ (m.pc ∈ m.breakpoints → pass = some m.pc) := by
    rw [Classical.not_imp, List.contains_iff_mem]
  rw [stopBefore]
  simp only [met]
  cases m.status with
  | halted | faulted => simp only [Status.reason?, reduceCtorEq, false_and]
  | running =>
    cases m.stopRequested with
    | true => simp only [Status.reason?, if_true, reduceCtorEq, false_and, and_false]
    | false => simp [Status.reason?]

/-- Where a run stops it leaves the machine as it is, but for the request or the mark that the stop
is about. -/
theorem cases_of_stopBefore (stops : m.stopBefore pass = some (reason, m')) :
    m.status.reason? = some reason ∧ m' = m ∨
      m.status = .running ∧ reason = .cancelled ∧ m' = { m with stopRequested := false } ∨
      m.status = .running ∧ reason = .breakpoint ∧ m.pc ∈ m.breakpoints ∧
        m' = { m with resumeAt := some m.pc } := by
  rw [stopBefore] at stops
  cases status : m.status with
  | halted | faulted =>
    simp only [status, Status.reason?] at stops
    cases stops
    exact .inl ⟨rfl, rfl⟩
  | running =>
    simp only [status, Status.reason?] at stops
    split at stops
    · cases stops
      exact .inr (.inl ⟨rfl, rfl, rfl⟩)
    · split at stops
      · next met =>
        cases stops
        exact .inr (.inr ⟨rfl, rfl, List.contains_iff_mem.1 met.1, rfl⟩)
      · cases stops

/-- How a run ends, if every step keeps what holds at its start: as a stop of a machine that the run
comes by, or before such a machine with the budget used up. -/
theorem ends_runFrom (Holds : Machine → Prop) (Ends : StopReason → Machine → Prop)
    (steps : ∀ {m}, Holds m → Holds m.step)
    (stops : ∀ {m pass reason m'}, Holds m → m.stopBefore pass = some (reason, m') → Ends reason m')
    (timeouts : ∀ {m pass}, Holds m → m.stopBefore pass = none → Ends .timeout m)
    (pass : Option Word) (budget : Nat) (holds : Holds m) :
    Ends (m.runFrom pass budget).1 (m.runFrom pass budget).2 := by
  -- `pass` changes with the first step: only the first look may pass a breakpoint.
  induction budget generalizing m pass with
  | zero =>
    cases stop : m.stopBefore pass with
    | some outcome =>
      rw [runFrom_of_stop stop]
      exact stops holds stop
    | none =>
      rw [runFrom_zero stop]
      exact timeouts holds stop
  | succ budget ih =>
    cases stop : m.stopBefore pass with
    | some outcome =>
      rw [runFrom_of_stop stop]
      exact stops holds stop
    | none =>
      rw [runFrom_succ stop]
      exact ih none (steps holds)

theorem mem_reasons {s : Status} (stopped : s.reason? = some reason) :
    reason ∈ [.halt, .fault] := by
  cases s with
  | running => cases stopped
  | halted =>
    cases stopped
    decide
  | faulted =>
    cases stopped
    decide

theorem ne_timeout_of_stop (stops : m.stopBefore pass = some (reason, m')) : reason ≠ .timeout := by
  rintro rfl
  rcases cases_of_stopBefore stops with ⟨stopped, _⟩ | ⟨_, cancelled, _⟩ | ⟨_, breaks, _⟩
  · exact absurd (mem_reasons stopped) (by decide)
  · cases cancelled
  · cases breaks

theorem runFor_of_request (asked : m.stopRequested = true) (running : m.status = .running)
    (budget : Nat) :
    m.runFor budget = (.cancelled, { m with stopRequested := false, resumeAt := none }) := by
  apply runFrom_of_stop
  simp only [stopBefore, running, Status.reason?, asked, if_true]

/-- A run gives a halt or a fault as its reason exactly if the machine has halted or faulted. -/
theorem reason?_runFrom (pass : Option Word) (budget : Nat) (m : Machine) :
    (m.runFrom pass budget).2.status.reason? =
      if (m.runFrom pass budget).1 ∈ [.halt, .fault] then some (m.runFrom pass budget).1
        else none := by
  refine ends_runFrom (fun _ => True)
    (fun reason m => m.status.reason? = if reason ∈ [.halt, .fault] then some reason else none)
    (fun _ => trivial) (fun _ stops => ?_) (fun _ goes => ?_) pass budget trivial
  · obtain ⟨stopped, rfl⟩ | ⟨running, rfl, rfl⟩ | ⟨running, rfl, _, rfl⟩ :=
      cases_of_stopBefore stops
    · rw [stopped, if_pos (mem_reasons stopped)]
    · simp only [running]
      rfl
    · simp only [running]
      rfl
  · rw [(stopBefore_eq_none.1 goes).1]
    rfl

/-! ## What a run performs -/

/-- A run that also lists the machines as they are before each instruction it performs. -/
def runNoting (pass : Option Word) (budget : Nat) (m : Machine) :
    List Machine × StopReason × Machine :=
  match m.stopBefore pass with
  | some stop => ([], stop)
  | none =>
    match budget with
    | 0 => ([], .timeout, m)
    | budget + 1 =>
      let (later, outcome) := m.step.runNoting none budget
      (m :: later, outcome)

/-- The list changes nothing about the run. -/
theorem runNoting_outcome (pass : Option Word) (budget : Nat) (m : Machine) :
    (m.runNoting pass budget).2 = m.runFrom pass budget := by
  induction budget generalizing pass m with
  | zero =>
    rw [runNoting, runFrom_eq]
    cases m.stopBefore pass with
    | some stop => rfl
    | none => rfl
  | succ budget ih =>
    rw [runNoting, runFrom_eq]
    cases m.stopBefore pass with
    | some stop => rfl
    | none => exact ih none m.step

/-- The machines that a run of at most `budget` instructions comes by, before each instruction that
it performs. -/
def performed (m : Machine) (budget : Nat) : List Machine :=
  ({ m with resumeAt := none }.runNoting m.resumeAt budget).1

/-- The run that `performed` lists the machines of is `runFor`. -/
theorem runNoting_performed (m : Machine) (budget : Nat) :
    { m with resumeAt := none }.runNoting m.resumeAt budget =
      (m.performed budget, m.runFor budget) :=
  Prod.ext rfl (runNoting_outcome m.resumeAt budget { m with resumeAt := none })

/-- A run performs the instruction at a breakpoint only as its first one, and only if it may pass
it. -/
theorem first_of_noted {budget i : Nat} (noted : (m.runNoting pass budget).1[i]? = some m')
    (met : m'.pc ∈ m'.breakpoints) : i = 0 ∧ m' = m ∧ pass = some m.pc := by
  induction budget generalizing pass m i with
  | zero =>
    rw [runNoting] at noted
    split at noted
    · cases noted
    · cases noted
  | succ budget ih =>
    rw [runNoting] at noted
    split at noted
    · cases noted
    · next goes =>
      cases i with
      | zero =>
        cases noted
        exact ⟨rfl, rfl, (stopBefore_eq_none.1 goes).2.2 met⟩
      | succ i =>
        -- Later instructions are performed without a breakpoint that may be passed.
        obtain ⟨_, _, none⟩ := ih noted
        cases none

theorem noted_of_stop {stop : StopReason × Machine} (stops : m.stopBefore pass = some stop)
    (budget : Nat) :
    (m.runNoting pass budget).1 = [] := by
  rw [runNoting.eq_def, stops]

theorem cases_of_noted_nil {budget : Nat} (nothing : (m.runNoting pass budget).1 = []) :
    m.stopBefore pass = some (m.runFrom pass budget) ∨ m.runFrom pass budget = (.timeout, m) := by
  cases stop : m.stopBefore pass with
  | some outcome =>
    left
    rw [runFrom_of_stop stop]
  | none =>
    cases budget with
    | zero =>
      right
      exact runFrom_zero stop
    | succ budget =>
      rw [runNoting, stop] at nothing
      cases nothing

/-! ## Bounds -/

/-- The bound of a run: the limit that it is given, none at all if that is negative, else the
machine's own. -/
def bound? (m : Machine) (limit : Option Int) : Option Nat := limit.map Int.toNat <|> m.budget

/-- How many instructions a run performs at most. -/
def allowance (m : Machine) (limit : Option Int) : Nat :=
  (limit.map Int.toNat <|> m.budget).getD patience

/-- The outcome of a run is that of `runFor` with its `allowance`. -/
theorem runFor_of_run? {limit : Option Int} {outcome : StopReason × Machine}
    (run : m.run? limit = some outcome) :
    m.runFor (m.allowance limit) = outcome := by
  rw [run?] at run
  rw [allowance]
  split at run
  · next bound =>
    rw [bound]
    exact Option.some.inj run
  · next bound =>
    rw [bound]
    split at run
    · cases run
    · exact Option.some.inj run

theorem run?_of_bound {limit : Option Int} {budget : Nat} (bound : m.bound? limit = some budget) :
    m.run? limit = some (m.runFor budget) := by
  unfold bound? at bound
  rw [run?, bound]

theorem run?_of_unbounded {limit : Option Int} {outcome : StopReason × Machine}
    (unbounded : m.bound? limit = none) :
    m.run? limit = some outcome ↔ m.runFor patience = outcome ∧ outcome.1 ≠ .timeout := by
  unfold bound? at unbounded
  rw [run?, unbounded]
  dsimp only
  split
  · next timeout =>
    rw [timeout]
    exact ⟨nofun, fun ⟨same, other⟩ => absurd (congrArg Prod.fst same).symm other⟩
  · next other =>
    rw [Option.some.injEq]
    refine ⟨fun same => ⟨same, fun timeout => ?_⟩, And.left⟩
    exact other _ (Prod.ext (same ▸ timeout) rfl)

end Chifir.Machine
