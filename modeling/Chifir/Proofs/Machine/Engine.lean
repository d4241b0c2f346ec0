import Chifir.Proofs.Machine.Iteration

/-!
# Engines with a state and a record

A `Status` says at once whether a machine goes on and what it has faulted at. An `Engine` keeps the
two apart, as a state and the record of a fault, and each is written by itself.

1. `Engine.of` is the engine of a machine. An engine does what its machine does: in a step
   (`step_of`), in a run by induction on its budget (`runFrom_of`), at a call (`call_of`), and in a
   whole session (`callAll_of_session`).
2. `Engine.Consistent`: an engine has faulted exactly if it keeps a record. Steps, runs and calls
   preserve that, and so `faulted_iff_recorded` holds whatever is called.
3. `exists_of`: the consistent engines are those of machines.
-/

namespace Chifir

/-- Whether an engine goes on. -/
inductive EngineState
  | running
  | halted
  | faulted
deriving DecidableEq, Repr

def EngineState.reason? : EngineState → Option StopReason
  | running => none
  | halted => some .halt
  | faulted => some .fault

/-- A machine whose `state` and whose record of a `fault` are kept beside it, each a field of its
own. The `status` of the machine is not looked at. -/
structure Engine where
  machine : Machine := {}
  state : EngineState := .running
  fault : Option Fault := none

def Status.state : Status → EngineState
  | running => .running
  | halted => .halted
  | faulted _ => .faulted

namespace Engine

/-! ## What engines do -/

/-- Keeps the record of a fault, and stops. -/
def raise (e : Engine) (kind : FaultKind) (culprit : Instruction Word) : Engine :=
  { e with fault := some ⟨kind, culprit⟩, state := .faulted }

def perform (e : Engine) (i : Instruction Word) (op : Opcode) : Engine :=
  let m := e.machine
  match op with
  | .brk => { e with machine := { m with steps := m.steps + 1 }, state := .halted }
  | .div =>
    if m.get i.quad.c = 0 then e.raise .divideByZero i else { e with machine := m.perform i .div }
  | .mod =>
    if m.get i.quad.c = 0 then e.raise .moduloByZero i else { e with machine := m.perform i .mod }
  | op => { e with machine := m.perform i op }

def step (e : Engine) : Engine :=
  match e.state with
  | .running =>
    let i := e.machine.current
    let e := { e with machine := e.machine.record i }
    match Opcode.ofWord? i.quad.opcode with
    | some op => e.perform i op
    | none => e.raise .illegalOpcode i
  | _ => e

/-- What stops a run before the next instruction, apart from the budget. -/
def stopBefore (pass : Option Word) (e : Engine) : Option (StopReason × Engine) :=
  let m := e.machine
  match e.state.reason? with
  | some reason => some (reason, e)
  | none =>
    if m.stopRequested then
      some (.cancelled, { e with machine := { m with stopRequested := false } })
    else if m.breakpoints.contains m.pc ∧ pass ≠ some m.pc then
      some (.breakpoint, { e with machine := m.marked m.pc })
    else none

/-- A run with so many instructions to go, which ends with the reason that a step gives. -/
def runFrom (pass : Option Word) (budget : Nat) (e : Engine) : StopReason × Engine :=
  match e.stopBefore pass with
  | some stop => stop
  | none =>
    match budget with
    | 0 => (.timeout, e)
    | budget + 1 =>
      match e.step.state.reason? with
      | some reason => (reason, e.step)
      | none => runFrom none budget e.step

def runFor (e : Engine) (budget : Nat) : StopReason × Engine :=
  runFrom e.machine.resumeAt budget { e with machine := e.machine.marked none }

def run? (e : Engine) (limit : Option Int) : Option (StopReason × Engine) :=
  match e.machine.bound? limit with
  | some budget => some (e.runFor budget)
  | none =>
    match e.runFor Machine.patience with
    | (.timeout, _) => none
    | outcome => some outcome

def reset (e : Engine) : Engine :=
  { machine := { e.machine.reset with status := e.machine.status }, state := .running,
    fault := none }

/-- A call that leaves state and record alone. -/
def callAround (e : Engine) (c : Call) : Option (CallAnswer × Engine) :=
  (({ machine := e.machine } : Panel).call c).map fun (answer, p) =>
    (answer, { e with machine := p.machine })

/-- The outcome of a call of an engine, as `Panel.call` has it for machines. -/
def call (e : Engine) : Call → Option (CallAnswer × Engine)
  | .step => some (.ok e.step.state.reason?, e.step)
  | .run limit => (e.run? limit).map fun (reason, e) => (.ok (some reason), e)
  | .reset => some (.ok none, e.reset)
  | c => e.callAround c

def callAll (e : Engine) (calls : List Call) : Option Engine :=
  calls.foldlM (fun e c => (e.call c).map (·.2)) e

/-! ## Machines as engines -/

/-- The engine of a machine, whose `status` says both what the `state` is and which fault is on
record. -/
def of (m : Machine) : Engine where
  machine := { m with status := .running }
  state := m.status.state
  fault := m.status.fault?

variable {m : Machine} {e e' : Engine}

theorem reason?_state (s : Status) : s.state.reason? = s.reason? := by
  cases s with
  | running | halted | faulted => rfl

theorem of_running (running : m.status = .running) : of m = { machine := m } := by
  cases m
  cases running
  rfl

theorem of_fail (running : m.status = .running) (kind : FaultKind) (i : Instruction Word) :
    of (m.fail kind i) = ({ machine := m } : Engine).raise kind i := by
  cases m
  cases running
  rfl

theorem status_perform {op : Opcode} {i : Instruction Word} (plain : op ≠ .brk)
    (divisor : op.Divides → m.get i.quad.c ≠ 0) : (m.perform i op).status = m.status := by
  rw [m.perform_eq_follow i divisor]
  exact if_neg plain

theorem perform_of (running : m.status = .running) (i : Instruction Word) (op : Opcode) :
    ({ machine := m } : Engine).perform i op = of (m.perform i op) := by
  have plain {op : Opcode} (plain : op ≠ .brk) (divisor : op.Divides → m.get i.quad.c ≠ 0) :
      ({ machine := m.perform i op } : Engine) = of (m.perform i op) :=
    (of_running ((status_perform plain divisor).trans running)).symm
  cases op with
  | brk =>
    cases m
    cases running
    rfl
  | div | mod =>
    simp only [perform]
    split
    · next zero => rw [Machine.perform, if_pos zero, of_fail running]
    · next divisor => exact plain (by decide) fun _ => divisor
  | lpc | beq | spc | lea | lra | sra | add | sub | mul | cmp | nad | drw | key | nop =>
    exact plain (by decide) fun divides => absurd divides (by decide)

/-- An engine steps as its machine does: `of` commutes with `step`. -/
theorem step_of (m : Machine) : (of m).step = of m.step := by
  cases status : m.status with
  | halted | faulted =>
    have still : m.step = m := Machine.step_of_stopped (by rw [status]; rfl)
    rw [still, step, of, status]
    rfl
  | running =>
    rw [of_running status, step, Machine.step, status]
    dsimp only
    rw [Machine.attempt]
    have recorded : (m.record m.current).status = .running := (m.status_record _).trans status
    cases Opcode.ofWord? m.current.quad.opcode with
    | none => exact (of_fail recorded _ _).symm
    | some op => exact perform_of recorded _ op

theorem stopBefore_of_stopped {reason : StopReason} (stopped : e.state.reason? = some reason)
    (pass : Option Word) : e.stopBefore pass = some (reason, e) := by
  rw [stopBefore, stopped]

theorem stopBefore_of (pass : Option Word) (m : Machine) :
    (of m).stopBefore pass = (m.stopBefore pass).map fun (reason, m) => (reason, of m) := by
  by_cases running : m.status = .running
  · cases m
    cases running
    unfold stopBefore Machine.stopBefore
    dsimp only [of, Status.state, EngineState.reason?, Status.reason?]
    split
    · rfl
    split
    · rfl
    · rfl
  · obtain ⟨reason, stopped⟩ := Machine.exists_reason running
    rw [stopBefore_of_stopped ((reason?_state m.status).trans stopped),
      Machine.stopBefore_of_stopped stopped]
    rfl

theorem runFrom_of (pass : Option Word) (budget : Nat) (m : Machine) :
    (of m).runFrom pass budget = ((m.runFrom pass budget).1, of (m.runFrom pass budget).2) := by
  induction budget generalizing pass m with
  | zero =>
    rw [runFrom.eq_def, stopBefore_of, Machine.runFrom_eq]
    cases m.stopBefore pass with
    | some stop => rfl
    | none => rfl
  | succ budget ih =>
    rw [runFrom.eq_def, stopBefore_of, Machine.runFrom_eq]
    cases m.stopBefore pass with
    | some stop => rfl
    | none =>
      simp only [Option.map_none, step_of]
      -- The engine stops with the reason that a step gives, the machine at its next look.
      show (match m.step.status.state.reason? with | some reason => _ | none => _) = _
      rw [reason?_state]
      cases stopped : m.step.status.reason? with
      | some reason =>
        rw [Machine.runFrom_of_stop (Machine.stopBefore_of_stopped stopped none)]
      | none => exact ih none m.step

theorem runFor_of (m : Machine) (budget : Nat) :
    (of m).runFor budget = ((m.runFor budget).1, of (m.runFor budget).2) :=
  runFrom_of m.resumeAt budget (m.marked none)

theorem run?_of (m : Machine) (limit : Option Int) :
    (of m).run? limit = (m.run? limit).map fun (reason, m) => (reason, of m) := by
  have same : (of m).machine.bound? limit = m.bound? limit := rfl
  simp only [run?, same, runFor_of]
  cases bound : m.bound? limit with
  | some budget =>
    rw [Machine.run?_of_bound bound]
    rfl
  | none =>
    unfold Machine.bound? at bound
    rw [Machine.run?, bound]
    dsimp only
    rcases m.runFor Machine.patience with ⟨reason, m'⟩
    cases reason with
    | timeout | halt | fault | breakpoint | cancelled => rfl

/-- What is called of a machine is called of its engine, with the same answer. -/
theorem call_of (c : Call) (m : Machine) :
    (of m).call c = (({ machine := m } : Panel).call c).map fun (answer, p) =>
      (answer, of p.machine) := by
  cases c with
  | step =>
    rw [call, step_of, Panel.call, Panel.step_machine]
    exact congrArg (fun reason => some (Except.ok reason, of m.step)) (reason?_state m.step.status)
  | run limit =>
    rw [call, run?_of, Panel.call, Panel.run?_machine]
    cases m.run? limit with
    | none => rfl
    | some outcome => rfl
  | reset => rfl
  | load words base =>
    simp only [call, callAround, Panel.call, Panel.load_machine, of, Machine.load]
    rcases m.bus.load words base with ⟨bus, refused⟩
    cases refused with
    | none => rfl
    | some e => rfl
  | write n v =>
    simp only [call, callAround, Panel.call, of]
    cases m.bus.write n v with
    | error e => rfl
    | ok bus => rfl
  | watch n watcher =>
    simp only [call, callAround, Panel.call, of]
    cases Word.address n with
    | error e => rfl
    | ok a => rfl
  | press code =>
    simp only [call, callAround, Panel.call, of]
    cases m.keyboard.press code with
    | error e => rfl
    | ok k => rfl
  | _ => rfl

/-- An engine does what its machine does, one call after another, so what holds of sessions holds of
engines. -/
theorem callAll_of_session {start : Machine} {log : List Event} {p : Panel}
    (session : Session { machine := start } log p) :
    (of start).callAll (log.reverse.map (·.call)) = some (of p.machine) := by
  induction session with
  | start => rfl
  | @call log p p' c answer earlier called ih =>
    have machine : p = { machine := p.machine } := Panel.eq_of_fetches (earlier.fetches rfl)
    rw [machine] at called
    rw [List.reverse_cons, List.map_append, callAll, List.foldlM_append]
    refine Option.bind_eq_some_iff.2 ⟨of p.machine, ih, ?_⟩
    show (((of p.machine).call c).map (·.2) >>= pure) = _
    rw [call_of, called]
    rfl

/-! ## The state and the record -/

/-- An engine has faulted exactly if it keeps the record of a fault. -/
def Consistent (e : Engine) : Prop := e.state = .faulted ↔ e.fault.isSome

theorem consistent_raise (e : Engine) (kind : FaultKind) (i : Instruction Word) :
    (e.raise kind i).Consistent :=
  iff_of_true rfl rfl

theorem consistent_perform (sound : e.fault = none) (running : e.state = .running)
    (i : Instruction Word) (op : Opcode) : (e.perform i op).Consistent := by
  have plain (m : Machine) : ({ e with machine := m } : Engine).Consistent := by
    simp [Consistent, sound, running]
  cases op with
  | brk => simp [Consistent, perform, sound]
  | div | mod =>
    simp only [perform]
    split
    · exact consistent_raise e _ i
    · exact plain _
  | _ => exact plain _

theorem Consistent.sound (consistent : e.Consistent) (other : e.state ≠ .faulted) :
    e.fault = none :=
  Option.not_isSome_iff_eq_none.1 fun recorded => other (consistent.2 recorded)

theorem Consistent.step (consistent : e.Consistent) : e.step.Consistent := by
  unfold Engine.step
  split
  · next running =>
    dsimp only
    split
    · next op _ =>
      exact consistent_perform (e := { e with machine := e.machine.record e.machine.current })
        (consistent.sound (by rw [running]; nofun)) running _ op
    · exact consistent_raise _ _ _
  · exact consistent

theorem Consistent.stopBefore {pass : Option Word} {outcome : StopReason × Engine}
    (consistent : e.Consistent) (stops : e.stopBefore pass = some outcome) :
    outcome.2.Consistent := by
  unfold Engine.stopBefore at stops
  split at stops
  · cases stops
    exact consistent
  · dsimp only at stops
    split at stops
    · cases stops
      exact consistent
    split at stops
    · cases stops
      exact consistent
    · cases stops

theorem Consistent.runFrom (consistent : e.Consistent) (pass : Option Word) (budget : Nat) :
    (e.runFrom pass budget).2.Consistent := by
  induction budget generalizing pass e with
  | zero =>
    rw [Engine.runFrom.eq_def]
    cases stop : e.stopBefore pass with
    | some outcome => exact consistent.stopBefore stop
    | none => exact consistent
  | succ budget ih =>
    rw [Engine.runFrom.eq_def]
    cases stop : e.stopBefore pass with
    | some outcome => exact consistent.stopBefore stop
    | none =>
      dsimp only
      split
      · exact consistent.step
      · exact ih consistent.step none

theorem Consistent.run? {limit : Option Int} {reason : StopReason} (consistent : e.Consistent)
    (ran : e.run? limit = some (reason, e')) : e'.Consistent := by
  have ends (budget : Nat) : (e.runFor budget).2.Consistent :=
    Consistent.runFrom (e := { e with machine := e.machine.marked none }) consistent _ budget
  unfold Engine.run? at ran
  split at ran
  · next budget _ =>
    have ended := ends budget
    rw [Option.some.inj ran] at ended
    exact ended
  · split at ran
    · cases ran
    · next outcome _ =>
      have ended := ends Machine.patience
      rw [Option.some.inj ran] at ended
      exact ended

theorem Consistent.callAround {c : Call} {answer : CallAnswer} (consistent : e.Consistent)
    (called : e.callAround c = some (answer, e')) : e'.Consistent := by
  obtain ⟨⟨_, p⟩, _, same⟩ := Option.map_eq_some_iff.1 called
  cases same
  exact consistent

theorem Consistent.call {c : Call} {answer : CallAnswer} (consistent : e.Consistent)
    (called : e.call c = some (answer, e')) : e'.Consistent := by
  cases c with
  | step =>
    cases called
    exact consistent.step
  | run limit =>
    obtain ⟨⟨reason, e''⟩, ran, same⟩ := Option.map_eq_some_iff.1 called
    cases same
    exact consistent.run? ran
  | reset =>
    cases called
    exact iff_of_false nofun nofun
  | _ => exact consistent.callAround called

theorem Consistent.callAll {calls : List Call} (consistent : e.Consistent)
    (called : e.callAll calls = some e') : e'.Consistent := by
  induction calls generalizing e with
  | nil =>
    cases called
    exact consistent
  | cons c calls ih =>
    rw [Engine.callAll, List.foldlM_cons] at called
    obtain ⟨_, first, rest⟩ := Option.bind_eq_some_iff.1 called
    obtain ⟨⟨answer, next⟩, called, rfl⟩ := Option.map_eq_some_iff.1 first
    exact ih (consistent.call called) rest

/-- Whatever is called of a fresh engine, it has faulted exactly if it keeps a record. -/
theorem faulted_iff_recorded {calls : List Call} {machine : Machine}
    (called : ({ machine } : Engine).callAll calls = some e) :
    e.state = .faulted ↔ e.fault.isSome := by
  have fresh : ({ machine } : Engine).Consistent := iff_of_false nofun nofun
  exact fresh.callAll called

/-- A consistent engine is that of a machine: a `Status` leaves none of them out. -/
theorem exists_of (consistent : e.Consistent) (unread : e.machine.status = .running) :
    ∃ m, of m = e := by
  obtain ⟨machine, state, fault⟩ := e
  cases state with
  | running =>
    obtain rfl : fault = none := consistent.sound nofun
    exact ⟨machine, of_running unread⟩
  | halted =>
    obtain rfl : fault = none := consistent.sound nofun
    refine ⟨{ machine with status := .halted }, ?_⟩
    cases machine
    cases unread
    rfl
  | faulted =>
    obtain ⟨fault, rfl⟩ := Option.isSome_iff_exists.1 (consistent.1 rfl)
    refine ⟨{ machine with status := .faulted fault }, ?_⟩
    cases machine
    cases unread
    rfl

end Engine

end Chifir
