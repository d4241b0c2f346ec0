import Chifir.Proofs.Machine.Sessions
import Chifir.Proofs.Machine.Table

/-!
# Passing breakpoints

A run that stops at a breakpoint marks it, and the next run may pass the breakpoint that is marked.
It is meant to resume the stop.

1. `Session.resumeAt_eq`: the mark is a function of the calls. The last run has left it, and a reset
   takes it away.
2. `breakpoint_passed`: a run passes a breakpoint only with its first instruction, and only one at
   which the last run has stopped. It resumes that stop if and only if nothing was performed or
   loaded in between.
3. `stale_mark_passes`: steps in between do not take the mark away, so that a breakpoint is passed
   at which nothing has stopped.
-/

namespace Chifir

/-! ## Sessions as runs see them -/

namespace Event

def isBreak (e : Event) : Bool :=
  match e.call, e.answer with
  | .run _, .ok (some .breakpoint) => true
  | _, _ => false

def isLoad (e : Event) : Bool :=
  match e.call, e.answer with
  | .load .., .ok _ => true
  | _, _ => false

/-- The machines before each instruction that a call performs: those of `Machine.performed` for a
run, and one for a step at most. -/
def performed (e : Event) : List Machine :=
  match e.call with
  | .step => if e.before.machine.status = .running then [e.before.machine] else []
  | .run limit => e.before.machine.performed (e.before.machine.allowance limit)
  | _ => []

/-- A run that ended at the breakpoint at `pc`, with the machine standing there. -/
def BreaksAt (e : Event) (pc : Word) : Prop := e.isBreak ∧ e.after.machine.pc = pc

/-- A call that neither performs an instruction nor loads an image. -/
def IsIdle (e : Event) : Prop := e.performed = [] ∧ ¬ e.isLoad

instance (e : Event) (pc : Word) : Decidable (e.BreaksAt pc) :=
  inferInstanceAs (Decidable (e.isBreak ∧ e.after.machine.pc = pc))

instance (e : Event) : Decidable e.IsIdle :=
  inferInstanceAs (Decidable (e.performed = [] ∧ ¬ e.isLoad))

end Event

/-- The last run that ended at a breakpoint ended at `pc`, and every call since was idle. -/
def ResumesBreak (pc : Word) : List Event → Prop
  | [] => False
  | e :: log => e.BreaksAt pc ∨ e.IsIdle ∧ ¬ e.isBreak ∧ ResumesBreak pc log

instance decidableResumesBreak (pc : Word) : DecidablePred (ResumesBreak pc)
  | [] => isFalse id
  | e :: log =>
    have := decidableResumesBreak pc log
    inferInstanceAs (Decidable (e.BreaksAt pc ∨ e.IsIdle ∧ ¬ e.isBreak ∧ ResumesBreak pc log))

/-! ## The mark -/

/-- The breakpoint that is marked after a call: the one that a run ended at, none after other runs
and after a reset, and else the one that was marked before. -/
def Event.mark (e : Event) (marked : Option Word) : Option Word :=
  match e.call with
  | .run _ => if e.isBreak then some e.after.machine.pc else none
  | .reset => none
  | _ => marked

namespace Machine

theorem resumeAt_load (m : Machine) (words : List Int) (base : Int) :
    (m.load words base).1.resumeAt = m.resumeAt := by
  rw [load]
  split
  · rfl
  · rfl

/-- A run leaves a mark (`resumeAt`) if it ends at a breakpoint, and else none. -/
theorem resumeAt_runFor (m : Machine) (budget : Nat) :
    (m.runFor budget).2.resumeAt =
      if (m.runFor budget).1 = .breakpoint then some (m.runFor budget).2.pc else none := by
  -- The mark is taken away before the first look, and no step puts it back.
  refine ends_runFrom (fun m => m.resumeAt = none)
    (fun reason m => m.resumeAt = if reason = .breakpoint then some m.pc else none)
    (fun {m} unmarked => (resumeAt_step m).trans unmarked) (fun unmarked stops => ?_)
      (fun unmarked _ => unmarked)
    m.resumeAt budget rfl
  obtain ⟨stopped, rfl⟩ | ⟨_, rfl, rfl⟩ | ⟨_, rfl, _, rfl⟩ := cases_of_stopBefore stops
  · rw [unmarked, if_neg]
    rintro rfl
    exact absurd (mem_reasons stopped) (by decide)
  · exact unmarked
  · rfl

end Machine

theorem Event.mark_of_sets {e : Event} (sets : e.call.sets) (marked : Option Word) :
    e.mark marked = marked := by
  rw [mark]
  split
  · next called =>
    rw [called] at sets
    cases sets
  · next called =>
    rw [called] at sets
    cases sets
  · rfl

theorem Panel.resumeAt_of_call {p p' : Panel} {c : Call} {answer : CallAnswer}
    (fetches : p.astray = none) (called : p.call c = some (answer, p')) :
    p'.machine.resumeAt = (Event.mk p c answer p').mark p.machine.resumeAt := by
  obtain ⟨m', rfl, outcome⟩ := called_of_call fetches called
  cases outcome with
  | loaded words base => exact p.machine.resumeAt_load words base
  | stepped => exact p.machine.resumeAt_step
  | ran limit =>
    rw [Machine.resumeAt_runFor, Event.mark, Event.isBreak]
    cases (p.machine.runFor (p.machine.allowance limit)).1 with
    | breakpoint => rfl
    | halt | fault | timeout | cancelled => rfl
  | reset => rfl
  | set sets _ kept => rw [Event.mark_of_sets sets, kept]

theorem Session.resumeAt_eq {start p : Panel} {log : List Event} (session : Session start log p)
    (fetches : start.astray = none) (unmarked : start.machine.resumeAt = none) :
    p.machine.resumeAt = log.foldr Event.mark none := by
  induction session with
  | start => exact unmarked
  | call earlier called ih =>
      rw [Panel.resumeAt_of_call (earlier.fetches fetches) called, ih, List.foldr_cons]

/-! ## Passing a breakpoint -/

theorem Event.isRun_of_isBreak {e : Event} (ended : e.isBreak) : ∃ limit, e.call = .run limit := by
  rw [isBreak] at ended
  split at ended
  · next limit called _ => exact ⟨limit, called⟩
  · cases ended

/-- A mark comes from a run that ended there, and neither a run nor a reset came after it. -/
theorem exists_of_mark {log : List Event} {pc : Word}
    (marked : log.foldr Event.mark none = some pc) :
    ∃ between stop older, log = between ++ stop :: older ∧ stop.BreaksAt pc ∧
      (∀ e ∈ between, e.call ≠ .reset ∧ ∀ limit, e.call ≠ .run limit) ∧
      (ResumesBreak pc log ↔ ∀ e ∈ between, e.IsIdle) := by
  induction log with
  | nil => cases marked
  | cons e log ih =>
    rw [List.foldr_cons, Event.mark] at marked
    split at marked
    · -- the last call was a run: it has left the mark, if there is one
      split at marked
      · next ended =>
        cases marked
        have breaks : e.BreaksAt e.after.machine.pc := ⟨ended, rfl⟩
        exact ⟨[], e, log, rfl, breaks, List.forall_mem_nil _, fun _ => List.forall_mem_nil _,
          fun _ => .inl breaks⟩
      · cases marked
    · cases marked
    · -- the last call was neither a run nor a reset: the mark was there before
      next notRun notReset =>
      obtain ⟨between, stop, older, rfl, breaks, quiet, resumes⟩ := ih marked
      have goes : ¬ e.isBreak := fun ended => by
        obtain ⟨limit, called⟩ := Event.isRun_of_isBreak ended
        exact notRun limit called
      refine ⟨e :: between, stop, older, rfl, breaks,
        List.forall_mem_cons.2 ⟨⟨notReset, notRun⟩, quiet⟩, ?_⟩
      rw [List.forall_mem_cons, ← resumes, ResumesBreak]
      constructor
      · rintro (breaks | ⟨idle, _, resumes⟩)
        · exact absurd breaks.1 goes
        · exact ⟨idle, resumes⟩
      · rintro ⟨idle, resumes⟩
        exact .inr ⟨idle, goes, resumes⟩

/-- A run performs the instruction at a breakpoint only as its first one, and only after a run that
ended there. In between there was no run and no reset. But there may have been steps and loads: the
run resumes the one that ended there if and only if there were none that performed an instruction or
loaded an image. -/
theorem breakpoint_passed {start p : Panel} {log : List Event} {budget i : Nat} {m : Machine}
    (session : Session start log p) (fetches : start.astray = none)
    (unmarked : start.machine.resumeAt = none)
    (performed : (p.machine.performed budget)[i]? = some m) (met : m.pc ∈ m.breakpoints) :
    i = 0 ∧ ∃ between stop older, log = between ++ stop :: older ∧ stop.BreaksAt m.pc ∧
      (∀ e ∈ between, e.call ≠ .reset ∧ ∀ limit, e.call ≠ .run limit) ∧
      (ResumesBreak m.pc log ↔ ∀ e ∈ between, e.IsIdle) := by
  obtain ⟨rfl, rfl, marked⟩ := Machine.first_of_noted performed met
  rw [session.resumeAt_eq fetches unmarked] at marked
  exact ⟨rfl, exists_of_mark marked⟩

def stopping : List Call :=
  [.load [16, 0, 0, 0, 1, 7, 0, 0] 0, .addBreakpoint 0, .run (some 5)]

theorem breakpoint_passed_resuming :
    ∃ log p m, Session { machine := {} } log p ∧ (p.machine.performed 3)[0]? = some m ∧
      m.pc ∈ m.breakpoints ∧ ∃ between stop older, log = between ++ stop :: older ∧
        stop.BreaksAt m.pc ∧ ∀ e ∈ between, e.IsIdle := by
  have passes : (({ machine := {} } : Panel).play (stopping ++ [.press 65])).any fun (log, p) =>
      (p.machine.performed 3)[0]?.any fun m => m.pc ∈ m.breakpoints ∧ ResumesBreak m.pc log := by
    decide +kernel
  obtain ⟨⟨log, p⟩, played, passes⟩ := (Option.any_eq_true _ _).1 passes
  obtain ⟨m, performed, passes⟩ := (Option.any_eq_true _ _).1 passes
  rw [decide_eq_true_eq] at passes
  obtain ⟨met, resumes⟩ := passes
  have session := Session.of_play played
  obtain ⟨_, between, stop, older, same, breaks, _, idle⟩ :=
    breakpoint_passed session rfl rfl performed met
  exact ⟨log, p, m, session, performed, met, between, stop, older, same, breaks, idle.1 resumes⟩

/-- Two steps lead around the loop and back to the breakpoint. The mark is still there, so that the
next run passes the breakpoint, although none has stopped there since. -/
theorem stale_mark_passes :
    ∃ log p m, Session { machine := {} } log p ∧ (p.machine.performed 1)[0]? = some m ∧
      m.pc ∈ m.breakpoints ∧ ¬ ResumesBreak m.pc log := by
  have passes : (({ machine := {} } : Panel).play (stopping ++ [.step, .step])).any fun (log, p) =>
      (p.machine.performed 1)[0]?.any fun m => m.pc ∈ m.breakpoints ∧ ¬ ResumesBreak m.pc log := by
    decide +kernel
  obtain ⟨⟨log, p⟩, played, passes⟩ := (Option.any_eq_true _ _).1 passes
  obtain ⟨m, performed, passes⟩ := (Option.any_eq_true _ _).1 passes
  rw [decide_eq_true_eq] at passes
  exact ⟨log, p, m, Session.of_play played, performed, passes⟩

end Chifir
