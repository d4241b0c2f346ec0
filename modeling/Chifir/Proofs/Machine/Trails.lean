import Chifir.Proofs.Except
import Chifir.Proofs.Machine.Breakpoints
import Chifir.Proofs.Memory.Writes

/-!
# Trails

Whatever performs instructions leaves a trail: the machines as they were before each of them, which
steps lead through.

1. `trail_runFor`, `Panel.trail_of_call`: a run leaves a trail, and so does every call that leaves
   memory and PC to the program.
2. `Session.follows`: what every step carries on, and what nothing else disturbs, holds throughout a
   session of such calls.
3. `write?` is the write that an instruction makes. `Trail.writes`, `Trail.notices`: the writes of a
   trail are all that becomes of memory, and each of them is told to those who watch its address.
-/

namespace Chifir

namespace Machine

variable {m m' now : Machine} {ms : List Machine} {pass : Option Word} {reason : StopReason}

/-- Steps lead from `m` through these machines to `m'`, and each of them performs an instruction. -/
inductive Trail : Machine → List Machine → Machine → Prop
  | nil (m : Machine) : Trail m [] m
  | cons {m m' : Machine} {ms : List Machine} (running : m.status = .running)
      (later : Trail m.step ms m') :
      Trail m (m :: ms) m'

/-- What every step carries on holds where a trail ends, if it holds where it begins. The last
machine comes first. -/
theorem Trail.holds {Holds : List Machine → Machine → Prop} {past : List Machine}
    (trail : Trail m ms m')
    (steps : ∀ {past m}, Holds past m → m.status = .running → Holds (m :: past) m.step)
    (first : Holds past m) :
    Holds (ms.reverse ++ past) m' := by
  induction trail generalizing past with
  | nil => exact first
  | cons running _ ih =>
    rw [List.reverse_cons, List.append_assoc]
    exact ih (steps first running)

theorem Trail.keeps {Holds : Machine → Prop} (trail : Trail m ms m')
    (steps : ∀ {m}, Holds m → Holds m.step) (first : Holds m) : Holds m' := by
  induction trail with
  | nil => exact first
  | cons _ _ ih => exact ih (steps first)

/-! ## Runs -/

/-- A stop changes nothing but the mark `resumeAt` and the request. -/
theorem kept_of_stop (stops : m.stopBefore pass = some (reason, m')) :
    m' = { m with resumeAt := m'.resumeAt, stopRequested := m'.stopRequested } := by
  rcases cases_of_stopBefore stops with ⟨_, rfl⟩ | ⟨_, _, rfl⟩ | ⟨_, _, _, rfl⟩
  · rfl
  · rfl
  · rfl

theorem trail_runNoting (pass : Option Word) (budget : Nat) (m : Machine) :
    ∃ now, Trail m (m.runNoting pass budget).1 now ∧
      (m.runNoting pass budget).2.2 = { now with
        resumeAt := (m.runNoting pass budget).2.2.resumeAt
        stopRequested := (m.runNoting pass budget).2.2.stopRequested } := by
  induction budget generalizing pass m with
  | zero =>
    rw [runNoting]
    cases stop : m.stopBefore pass with
    | some outcome => exact ⟨m, .nil m, kept_of_stop stop⟩
    | none => exact ⟨m, .nil m, rfl⟩
  | succ budget ih =>
    rw [runNoting]
    cases stop : m.stopBefore pass with
    | some outcome => exact ⟨m, .nil m, kept_of_stop stop⟩
    | none =>
      obtain ⟨now, trail, left⟩ := ih none m.step
      exact ⟨now, .cons (stopBefore_eq_none.1 stop).1 trail, left⟩

/-- The machines that a run lists as `performed` lead to the one that it ends with. -/
theorem trail_runFor (m : Machine) (budget : Nat) :
    ∃ now, { m with resumeAt := none }.Trail (m.performed budget) now ∧
      (m.runFor budget).2 = { now with
        resumeAt := (m.runFor budget).2.resumeAt
        stopRequested := (m.runFor budget).2.stopRequested } := by
  have trail := trail_runNoting m.resumeAt budget { m with resumeAt := none }
  rwa [runNoting_performed] at trail

/-! ## Writes -/

/-- The write that the instruction at PC makes, if it makes one: the row of its operation says where
and what. -/
def write? (m : Machine) : Option Write :=
  match Opcode.ofWord? (m.get m.pc) with
  | none => none
  | some op =>
    if op.Divides ∧ m.get (m.get (m.pc + 3)) = 0 then none
    else (m.row op).change.map fun (a, n) => ⟨a, m.get a, Word.ofInt n⟩

theorem write?_before {w : Write} (writes : m.write? = some w) : w.before = m.get w.address := by
  unfold write? at writes
  split at writes
  · cases writes
  · split at writes
    · cases writes
    · obtain ⟨change, _, rfl⟩ := Option.map_eq_some_iff.1 writes
      rfl

theorem bus_step (running : m.status = .running) :
    m.step.bus = match m.write? with
      | none => m.bus
      | some w => m.bus.set w.address w.after := by
  have outcome := stepped running
  generalize m.step = m' at outcome
  cases outcome with
  | followed op fetched divisor =>
    have performed : ¬ (op.Divides ∧ m.get (m.get (m.pc + 3)) = 0) :=
      fun ⟨divides, zero⟩ => divisor divides zero
    unfold write?
    rw [fetched, Opcode.ofWord?_word]
    dsimp only
    rw [if_neg performed]
    simp only [follow, bus_record]
    cases (m.row op).change with
    | none => rfl
    | some change => rfl
  | illegal unknown =>
    have undecoded : Opcode.ofWord? (m.get m.pc) = none := by
      refine Option.eq_none_iff_forall_ne_some.2 fun op decoded => ?_
      exact unknown op (Opcode.ofWord?_eq_some.1 decoded)
    unfold write?
    rw [undecoded]
    exact bus_record m _
  | divided fetched zero =>
    unfold write?
    rw [fetched, Opcode.ofWord?_word]
    dsimp only
    rw [if_pos ⟨.inl rfl, zero⟩]
    exact bus_record m _
  | reduced fetched zero =>
    unfold write?
    rw [fetched, Opcode.ofWord?_word]
    dsimp only
    rw [if_pos ⟨.inr rfl, zero⟩]
    exact bus_record m _

theorem watchpoints_step (m : Machine) : m.step.bus.watchpoints = m.bus.watchpoints := by
  refine of_step (P := fun m' => m'.bus.watchpoints = m.bus.watchpoints) rfl (fun running op => ?_)
    fun cause => ?_
  · exact (follows running op _).watchpoints
  · rw [fail, bus_record]

theorem Trail.watchpoints (trail : Trail m ms m') : m'.bus.watchpoints = m.bus.watchpoints :=
  trail.keeps (fun {m} same => (watchpoints_step m).trans same) rfl

theorem Trail.writes (trail : Trail m ms m') :
    m.bus.memory.Writes (ms.filterMap write?) m'.bus.memory := by
  induction trail with
  | nil m => exact .nil _
  | @cons m m' ms running _ ih =>
    rw [List.filterMap_cons]
    have next := bus_step running
    cases writes : m.write? with
    | none =>
      rw [writes] at next
      rw [next] at ih
      exact ih
    | some w =>
      rw [writes] at next
      rw [next, Bus.memory_set] at ih
      exact .cons (write?_before writes) ih

/-- Each write of a trail sends its notices, in order, and no other notice is sent. -/
theorem Trail.notices (trail : Trail m ms m') :
    m'.bus.notices.toList =
      m.bus.notices.toList ++ (ms.filterMap write?).flatMap (·.notices m.bus.watchpoints) := by
  induction trail with
  | nil => simp
  | @cons m m' ms running _ ih =>
    rw [ih, watchpoints_step, List.filterMap_cons]
    have next := bus_step running
    cases writes : m.write? with
    | none =>
      rw [writes] at next
      rw [next]
    | some w =>
      have sent : m.bus.noticesOf w.address w.after = w.notices m.bus.watchpoints := by
        rw [Bus.noticesOf, Write.notices, write?_before writes]
        rfl
      rw [writes] at next
      rw [next, Bus.notices_set, sent, List.flatMap_cons, Array.toList_appendList,
        List.append_assoc]

/-! ## Sessions -/

/-- All that a program works with is the same, but keys may have come. -/
structure Untouched (m m' : Machine) : Prop where
  memory : m'.bus.memory = m.bus.memory
  pc : m'.pc = m.pc
  status : m'.status = m.status
  steps : m'.steps = m.steps

end Machine

/-- Whether a call leaves memory and PC to the program. Keys may come. -/
def Call.attends : Call → Bool
  | .load .. | .write .. | .reset => false
  | _ => true

namespace Panel

variable {p p' : Panel} {c : Call} {answer : CallAnswer}

/-- A call performs the instructions of a trail, and apart from that it leaves what programs work
with. -/
theorem trail_of_call (fetches : p.astray = none) (attends : c.attends)
    (called : p.call c = some (answer, p')) :
    ∃ first now, p.machine.Untouched first ∧ first.Trail (Event.mk p c answer p').performed now ∧
      now.Untouched p'.machine := by
  have still : p.machine.Untouched p.machine := ⟨rfl, rfl, rfl, rfl⟩
  cases c with
  | load | write | reset => cases attends
  | step =>
    obtain ⟨m', rfl, outcome⟩ := called_of_call fetches called
    cases outcome with
    | stepped =>
      refine ⟨p.machine, p.machine.step, still, ?_, ⟨rfl, rfl, rfl, rfl⟩⟩
      simp only [Event.performed]
      split
      · next running => exact .cons running (.nil _)
      · next stopped =>
        obtain ⟨reason, ends⟩ := Machine.exists_reason stopped
        rw [Machine.step_of_stopped ends]
        exact .nil _
    | set sets => cases sets
  | run limit =>
    obtain ⟨m', rfl, outcome⟩ := called_of_call fetches called
    cases outcome with
    | ran =>
      obtain ⟨now, trail, left⟩ := p.machine.trail_runFor (p.machine.allowance limit)
      refine ⟨{ p.machine with resumeAt := none }, now, ⟨rfl, rfl, rfl, rfl⟩, trail, ?_⟩
      rw [left]
      exact ⟨rfl, rfl, rfl, rfl⟩
    | set sets => cases sets
  | watch n watcher =>
    refine ⟨p.machine, p.machine, still, .nil _, ?_⟩
    rcases cases_of_rewired called with ⟨b, watched, rfl⟩ | ⟨_, _, rfl⟩
    · obtain ⟨a, _, rfl⟩ := map_eq_ok.1 watched
      exact ⟨rfl, rfl, rfl, rfl⟩
    · exact still
  | press code =>
    refine ⟨p.machine, p.machine, still, .nil _, ?_⟩
    rw [call] at called
    split at called
    · cases called
      exact ⟨rfl, rfl, rfl, rfl⟩
    · cases called
      exact still
  | feed | send | addBreakpoint | removeBreakpoint | clearBreakpoints | unwatch | unwatchAll | trace
      | clearTrace
  | requestStop =>
    cases called
    exact ⟨p.machine, p.machine, still, .nil _, ⟨rfl, rfl, rfl, rfl⟩⟩

end Panel

/-- The machines before each instruction that was `performed` in a session, the last one first. -/
def performedBefore (log : List Event) : List Machine := log.flatMap fun e => e.performed.reverse

/-- Whatever every step carries on, and every machine keeps that is left `Untouched`, holds
throughout a session of calls that leave memory and PC to the program. -/
theorem Session.follows {m : Machine} {log : List Event} {p : Panel}
    {Holds : List Machine → Machine → Prop} (session : Session { machine := m } log p)
    (attends : ∀ e ∈ log, e.call.attends) (first : Holds [] m) (steps : ∀ {past m}, Holds past m →
      m.status = .running → Holds (m :: past) m.step)
    (kept : ∀ {past m m'}, Holds past m → m.Untouched m' → Holds past m') :
    Holds (performedBefore log) p.machine := by
  induction session with
  | start => exact first
  | call earlier called ih =>
    obtain ⟨this, others⟩ := List.forall_mem_cons.1 attends
    obtain ⟨_, _, before, trail, after⟩ := Panel.trail_of_call (earlier.fetches rfl) this called
    rw [performedBefore, List.flatMap_cons]
    exact kept (trail.holds steps (kept (ih others) before)) after

end Chifir
