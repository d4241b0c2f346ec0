import Chifir.Proofs.Machine.Iteration
import Chifir.Proofs.Memory.Histories

/-!
# Machines that have stopped

A machine that has halted or faulted has stopped for good, and only a reset changes that.

1. `Act` is whatever can be done with an engine and its memory. `Panel.exists_act`: it leaves the
   status of a stopped machine alone, unless it is a reset. `exists_actAll`: so it is with one act
   after another, by induction on them.
2. `Panel.exists_playFrom`: steps and runs, as many as there are, only tell why the machine has
   stopped. All that they change is where the next run would start.
3. `stopped_until_reset` puts it together, with what a reset does to any machine.
-/

namespace Chifir

/-- What is done with an engine: it is called, its memory is accessed, or its PC is set by hand. -/
inductive Act
  | call (c : Call)
  | access (x : Access)
  | setPc (n : Int)
deriving DecidableEq, Repr

def Call.executes : Call → Bool
  | .step | .run _ => true
  | _ => false

namespace Machine

variable {m : Machine} {reason : StopReason}

theorem status_load (m : Machine) (words : List Int) (base : Int) :
    (m.load words base).1.status = m.status := by
  rw [load]
  split
  · rfl
  · rfl

theorem runFor_of_stopped (stopped : m.status.reason? = some reason) (budget : Nat) :
    m.runFor budget = (reason, m.marked none) :=
  runFrom_of_stop (stopBefore_of_stopped (m := m.marked none) stopped _) budget

theorem run?_of_stopped (stopped : m.status.reason? = some reason) (limit : Option Int) :
    m.run? limit = some (reason, m.marked none) := by
  cases bound : m.bound? limit with
  | some budget => rw [run?_of_bound bound, runFor_of_stopped stopped]
  | none =>
    refine (run?_of_unbounded bound).2 ⟨runFor_of_stopped stopped patience, ?_⟩
    rintro rfl
    exact absurd (mem_reasons stopped) (by decide)

end Machine

namespace Panel

variable {p : Panel} {reason : StopReason}

/-- The panel after something was done, unless that is a run that does not end. -/
def act (p : Panel) : Act → Option Panel
  | .call c => (p.call c).map (·.2)
  | .access x => some (p.modify fun m => { m with bus := (m.bus.access x).2 })
  | .setPc n => some (p.setPc n)

/-- The panel after one act after another, if every run among them ends (`Panel.act`). -/
def actAll (p : Panel) (acts : List Act) : Option Panel := acts.foldlM act p

/-! ## Steps and runs -/

theorem step_of_stopped (stopped : p.machine.status.reason? = some reason) :
    p.step = .ok (some reason, p) := by
  rw [step, stopped]

theorem run?_of_stopped (stopped : p.machine.status.reason? = some reason) (limit : Option Int) :
    p.run? limit = some (.ok reason, p.modify (·.marked none)) := by
  cases astray : p.astray with
  | none =>
    obtain ⟨m, rfl⟩ : ∃ m, p = { machine := m } := ⟨_, eq_of_fetches astray⟩
    rw [run?_machine, Machine.run?_of_stopped stopped]
    rfl
  | some a => rw [run?_eq_of_astray astray, stopped]

/-- A call to go on changes nothing but the mark that a breakpoint has left. -/
theorem exists_executed {c : Call} (stopped : p.machine.status.reason? = some reason)
    (executes : c.executes) :
    ∃ mark, p.call c = some (.ok (some reason), p.modify (·.marked mark)) := by
  cases c with
  | step =>
    refine ⟨p.machine.resumeAt, ?_⟩
    rw [call, step_of_stopped stopped]
    rfl
  | run limit =>
    refine ⟨none, ?_⟩
    rw [call, run?_of_stopped stopped]
    rfl
  | _ => cases executes

theorem exists_playFrom {calls : List Call} (stopped : p.machine.status.reason? = some reason)
    (executes : ∀ c ∈ calls, c.executes) (past : List Event) :
    ∃ log mark, p.playFrom past calls = some (log ++ past, p.modify (·.marked mark)) ∧
      log.map (·.answer) = List.replicate calls.length (.ok (some reason)) := by
  induction calls generalizing p past with
  | nil => exact ⟨[], p.machine.resumeAt, rfl, rfl⟩
  | cons c calls ih =>
    obtain ⟨first, others⟩ := List.forall_mem_cons.1 executes
    obtain ⟨mark, called⟩ := exists_executed stopped first
    let event : Event := ⟨p, c, .ok (some reason), p.modify (·.marked mark)⟩
    obtain ⟨log, mark', played, answers⟩ :=
      ih (p := p.modify (·.marked mark)) stopped others (event :: past)
    refine ⟨log ++ [event], mark', ?_, ?_⟩
    · rw [playFrom, called, List.append_assoc]
      exact played
    · rw [List.map_append, answers, List.length_cons, List.replicate_succ']
      rfl

/-! ## All that can be done -/

theorem status_of_rewired {bus : Except AddressError Bus} :
    ∃ answer p', p.rewired bus = some (answer, p') ∧ p'.machine.status = p.machine.status := by
  cases bus with
  | ok b => exact ⟨_, _, rfl, rfl⟩
  | error e => exact ⟨_, _, rfl, rfl⟩

theorem status_load (p : Panel) (words : List Int) (base : Int) :
    (p.load words base).1.machine.status = p.machine.status := by
  rw [← p.machine.status_load words base, load]
  split
  · next loaded => rw [loaded]
  · next loaded => rw [loaded]

theorem exists_call {c : Call} (stopped : p.machine.status.reason? = some reason)
    (other : c ≠ .reset) :
    ∃ answer p', p.call c = some (answer, p') ∧ p'.machine.status = p.machine.status := by
  cases c with
  | reset => exact absurd rfl other
  | step =>
    obtain ⟨mark, called⟩ := exists_executed (c := .step) stopped rfl
    exact ⟨_, _, called, rfl⟩
  | run limit =>
    obtain ⟨mark, called⟩ := exists_executed (c := .run limit) stopped rfl
    exact ⟨_, _, called, rfl⟩
  | load words base => exact ⟨_, _, rfl, p.status_load words base⟩
  | write | watch => exact status_of_rewired
  | press code =>
    rw [call]
    split
    · exact ⟨_, _, rfl, rfl⟩
    · exact ⟨_, _, rfl, rfl⟩
  | feed | send | addBreakpoint | removeBreakpoint | clearBreakpoints | unwatch | unwatchAll | trace
      | clearTrace
  | requestStop => exact ⟨_, _, rfl, rfl⟩

theorem status_setPc (p : Panel) (n : Int) : (p.setPc n).machine.status = p.machine.status := by
  rw [setPc]
  split
  · rfl
  · rfl

theorem exists_act {a : Act} (stopped : p.machine.status.reason? = some reason)
    (other : a ≠ .call .reset) :
    ∃ p', p.act a = some p' ∧ p'.machine.status = p.machine.status := by
  cases a with
  | call c =>
    obtain ⟨_, p', called, kept⟩ := exists_call stopped fun same => other (congrArg Act.call same)
    exact ⟨p', by rw [act, called]; rfl, kept⟩
  | access x => exact ⟨_, rfl, rfl⟩
  | setPc n => exact ⟨_, rfl, p.status_setPc n⟩

theorem exists_actAll {acts : List Act} (stopped : p.machine.status.reason? = some reason)
    (others : .call .reset ∉ acts) :
    ∃ p', p.actAll acts = some p' ∧ p'.machine.status = p.machine.status := by
  induction acts generalizing p with
  | nil => exact ⟨p, rfl, rfl⟩
  | cons a acts ih =>
    obtain ⟨other, others⟩ := List.ne_and_not_mem_of_not_mem_cons others
    obtain ⟨p₁, acted, kept⟩ := exists_act stopped (Ne.symm other)
    obtain ⟨p₂, rest, kept'⟩ := ih (p := p₁) (by rw [kept, stopped]) others
    refine ⟨p₂, ?_, kept'.trans kept⟩
    rw [actAll, List.foldlM_cons, acted]
    exact rest

/-! ## Resets -/

/-- The panel `p'` is `p` at its start again. -/
structure Restarted (p p' : Panel) : Prop where
  running : p'.machine.status = .running
  sound : p'.machine.fault? = none
  pc : p'.pc = 0
  steps : p'.machine.steps = 0
  trace : p'.machine.trace = #[]
  unasked : p'.machine.stopRequested = false
  key : p'.machine.keyboard.last = none
  frames : p'.machine.display.frames = 0
  /-- Memory and those who watch it. -/
  bus : p'.machine.bus = p.machine.bus
  breakpoints : p'.machine.breakpoints = p.machine.breakpoints

end Panel

theorem Status.name_eq_faulted {s : Status} :
    s.name = "FAULTED" ↔ ∃ fault, s.fault? = some fault := by
  cases s with
  | running | halted => simp [name, fault?]
  | faulted fault => exact ⟨fun _ => ⟨fault, rfl⟩, fun _ => rfl⟩

/-- A machine, whatever was done with it, has faulted exactly if it keeps the record of a fault.
Once it has halted or faulted, whatever is done but a reset changes neither, and calls to go on give
that as their reason and leave everything as it is, but for the mark of the breakpoint that the next
run would pass. A reset always starts it again. -/
theorem stopped_until_reset (p : Panel) :
    (p.machine.status.name = "FAULTED" ↔ ∃ fault, p.machine.fault? = some fault) ∧
      (∀ reason, p.machine.status.reason? = some reason →
        (∀ acts, .call .reset ∉ acts →
          ∃ p', p.actAll acts = some p' ∧ p'.machine.status = p.machine.status) ∧
        ∀ calls, (∀ c ∈ calls, c.executes) →
          ∃ log mark, p.play calls = some (log, p.modify (·.marked mark)) ∧
            log.map (·.answer) = List.replicate calls.length (.ok (some reason))) ∧
      ∃ p', p.call .reset = some (.ok none, p') ∧ p.Restarted p' := by
  refine ⟨Status.name_eq_faulted,
    fun reason stopped => ⟨fun acts => Panel.exists_actAll stopped, ?_⟩, ?_⟩
  · intro calls executes
    obtain ⟨log, mark, played, answers⟩ := Panel.exists_playFrom stopped executes []
    rw [List.append_nil] at played
    exact ⟨log, mark, played, answers⟩
  · exact ⟨p.reset, rfl, rfl, rfl, rfl, rfl, rfl, rfl, rfl, rfl, rfl, rfl⟩

/-- A machine that has met a word that is no operation stays at it, though the word goes, a stop is
requested, and the next run would meet a breakpoint. Then it is started again. -/
theorem stopped_until_reset_illegal :
    ∃ log p, ({ machine := {} } : Panel).play
      [.load [17] 0, .addBreakpoint 0, .step, .requestStop] = some (log, p) ∧
      p.machine.status.reason? = some .fault ∧
      (∃ p', p.actAll [.access .clear, .setPc (-1), .call (.load [0] 0), .call (.run none),
        .call .clearBreakpoints] = some p' ∧ p'.machine.status = p.machine.status) ∧
      (∃ log' mark,
        p.play [.step, .run (some 0), .run none] = some (log', p.modify (·.marked mark)) ∧
        log'.map (·.answer) = [.ok (some .fault), .ok (some .fault), .ok (some .fault)]) ∧
      ∃ p', p.call .reset = some (.ok none, p') ∧ p.Restarted p' := by
  have found :
      (({ machine := {} } : Panel).play [.load [17] 0, .addBreakpoint 0, .step, .requestStop]).any
      fun played => played.2.machine.status.reason? = some .fault := by
    decide +kernel
  obtain ⟨⟨log, p⟩, played, stopped⟩ := (Option.any_eq_true _ _).1 found
  rw [decide_eq_true_eq] at stopped
  obtain ⟨_, final, restarts⟩ := stopped_until_reset p
  obtain ⟨kept, answered⟩ := final .fault stopped
  exact ⟨log, p, played, stopped, kept _ (by decide), answered _ (by decide), restarts⟩

end Chifir
