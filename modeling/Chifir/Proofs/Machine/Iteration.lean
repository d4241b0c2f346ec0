import Mathlib.Data.List.Basic
import Mathlib.Logic.Function.Iterate
import Chifir.Proofs.Machine.Sessions
import Chifir.Proofs.Machine.Table

/-!
# Runs as iterated steps

A run is so many steps, and how many is the first number of them after which there is a reason to
end.

1. `commute_step_marked`: a step neither reads the mark that a breakpoint has left nor changes it.
2. `reasonAt` is the reason to end after so many steps, in the order in which a run looks for one.
   `EndsAt` is its first occurrence, and `endsAt_runFrom` shows by induction on the budget that runs
   end there.
3. `steps_iterate`: what the machine counts.
4. `run_iterates_step` puts it together, for runs with a bound and without one.
-/

namespace Chifir

namespace Machine

/-! ## The mark is nothing to a step -/

def marked (m : Machine) (mark : Option Word) : Machine := { m with resumeAt := mark }

section Marked
variable (m : Machine) (mark : Option Word)

theorem record_marked (i : Instruction Word) :
    (m.marked mark).record i = (m.record i).marked mark := by
  unfold record
  split
  · next tracing =>
    rw [if_pos (show m.tracing from tracing)]
    rfl
  · next tracing => rw [if_neg (show ¬ m.tracing from tracing)]

theorem perform_marked (i : Instruction Word) (op : Opcode) :
    (m.marked mark).perform i op = (m.perform i op).marked mark := by
  cases op with
  | beq | div | mod =>
    simp only [perform]
    show (if m.get _ = 0 then _ else _) = _
    split
    · rfl
    · rfl
  | _ => rfl

theorem current_marked : (m.marked mark).current = m.current := rfl

theorem status_marked : (m.marked mark).status = m.status := rfl

theorem attempt_marked : (m.marked mark).attempt = m.attempt.marked mark := by
  unfold attempt
  simp only [current_marked, record_marked]
  cases Opcode.ofWord? m.current.quad.opcode with
  | none => rfl
  | some op => exact perform_marked _ mark _ op

theorem commute_step_marked : Function.Commute step (marked · mark) := by
  intro m
  unfold step
  rw [status_marked]
  cases m.status with
  | halted | faulted => rfl
  | running => exact attempt_marked m mark

theorem iterate_step_marked (j : Nat) : step^[j] (m.marked mark) = (step^[j] m).marked mark :=
  (commute_step_marked mark).iterate_left j m

end Marked

/-! ## Why a run ends -/

/-- After `i` steps a run is at a breakpoint, and that is not the one at `pass` where it starts. -/
def Meets (m : Machine) (pass : Option Word) (i : Nat) : Prop :=
  (step^[i] m).pc ∈ m.breakpoints ∧ ¬ (i = 0 ∧ pass = some (step^[i] m).pc)

instance (m : Machine) (pass : Option Word) (i : Nat) : Decidable (m.Meets pass i) :=
  inferInstanceAs
    (Decidable ((step^[i] m).pc ∈ m.breakpoints ∧ ¬ (i = 0 ∧ pass = some (step^[i] m).pc)))

/-- The reason to end after `i` steps, if there is one: the machine has stopped, a breakpoint is
met, or the bound is reached. Of several reasons the first in this order counts. -/
def reasonAt (m : Machine) (pass : Option Word) (bound : Option Nat) (i : Nat) :
    Option StopReason :=
  match (step^[i] m).status.reason? with
  | some reason => some reason
  | none =>
      if m.Meets pass i then some .breakpoint else if bound = some i then some .timeout else none

variable {m m' : Machine} {pass : Option Word} {bound : Option Nat} {reason : StopReason}
    {budget i j : Nat}

theorem reasonAt_of_stopped (stopped : (step^[i] m).status.reason? = some reason)
    (pass : Option Word) (bound : Option Nat) : m.reasonAt pass bound i = some reason := by
  rw [reasonAt, stopped]

theorem reasonAt_of_running (running : (step^[i] m).status = .running) (pass : Option Word)
    (bound : Option Nat) :
    m.reasonAt pass bound i =
      if m.Meets pass i then some .breakpoint else if bound = some i then some .timeout
        else none := by
  rw [reasonAt, running]
  rfl

theorem cases_of_reasonAt (ends : m.reasonAt pass bound i = some reason) :
    (step^[i] m).status.reason? = some reason ∨
      (step^[i] m).status = .running ∧ reason = .breakpoint ∧ m.Meets pass i ∨
      (step^[i] m).status = .running ∧ reason = .timeout ∧ ¬ m.Meets pass i ∧ bound = some i := by
  cases status : (step^[i] m).status with
  | halted | faulted =>
    rw [reasonAt, status] at ends
    exact .inl ends
  | running =>
    rw [reasonAt_of_running status] at ends
    split at ends
    · next met =>
      cases ends
      exact .inr (.inl ⟨rfl, rfl, met⟩)
    · next passes =>
      split at ends
      · next reached =>
        cases ends
        exact .inr (.inr ⟨rfl, rfl, passes, reached⟩)
      · cases ends

theorem reasonAt_eq_none :
    m.reasonAt pass bound i = none ↔
      (step^[i] m).status = .running ∧ ¬ m.Meets pass i ∧ bound ≠ some i := by
  cases status : (step^[i] m).status with
  | halted | faulted => simp only [reasonAt, status, Status.reason?, reduceCtorEq, false_and]
  | running =>
    rw [reasonAt_of_running status]
    split
    · next met => simp only [reduceCtorEq, met, not_true_eq_false, false_and, and_false]
    · next passes =>
      split
      · next reached => simp only [reduceCtorEq, reached, ne_eq, not_true_eq_false, and_false]
      · next short => simp only [passes, short, ne_eq, not_false_eq_true, and_self]

theorem reasonAt_of_ne_timeout (ends : m.reasonAt pass bound i = some reason)
    (other : reason ≠ .timeout) (bound' : Option Nat) : m.reasonAt pass bound' i = some reason := by
  rcases cases_of_reasonAt ends with stopped | ⟨running, rfl, met⟩ | ⟨_, timeout, _⟩
  · exact reasonAt_of_stopped stopped pass bound'
  · rw [reasonAt_of_running running, if_pos met]
  · exact absurd timeout other

/-- After its first step a run goes on as one that passes no breakpoint. -/
theorem reasonAt_succ (pass : Option Word) (m : Machine) (i : Nat) :
    m.reasonAt pass (some (budget + 1)) (i + 1) = m.step.reasonAt none (some budget) i := by
  have notFirst : ¬ (i + 1 = 0 ∧ pass = some (step^[i] m.step).pc) :=
    fun first => Nat.succ_ne_zero i first.1
  have unmarked : ¬ (i = 0 ∧ none = some (step^[i] m.step).pc) := fun first => nomatch first.2
  simp only [reasonAt, Meets, Function.iterate_succ_apply, breakpoints_step, notFirst, unmarked,
    Option.some.injEq, Nat.add_right_cancel_iff]

theorem reasonAt_marked (mark pass : Option Word) (bound : Option Nat) (m : Machine) (i : Nat) :
    (m.marked mark).reasonAt pass bound i = m.reasonAt pass bound i := by
  simp only [reasonAt, Meets, iterate_step_marked]
  rfl

theorem reasonAt_zero (unasked : m.stopRequested = false) (pass : Option Word)
    (bound : Option Nat) :
    m.reasonAt pass bound 0 =
      match m.stopBefore pass with
      | some (reason, _) => some reason
      | none => if bound = some 0 then some .timeout else none := by
  simp only [reasonAt, Meets, stopBefore, Function.iterate_zero, id_eq, unasked, true_and,
    List.contains_iff_mem, Bool.false_eq_true, if_false]
  cases m.status.reason? with
  | some reason => rfl
  | none =>
    dsimp only
    split
    · rfl
    · rfl

/-- A machine as a run leaves it that ends there for this reason. Only a breakpoint changes the
mark. -/
def endedBy (m : Machine) (reason : StopReason) (mark : Option Word) : Machine :=
  m.marked (if reason = .breakpoint then some m.pc else mark)

/-- After `j` steps, and not before, there is a reason to end, which is this one. -/
structure EndsAt (m : Machine) (pass : Option Word) (bound : Option Nat) (j : Nat)
    (reason : StopReason) : Prop where
  ends : m.reasonAt pass bound j = some reason
  first : ∀ i < j, m.reasonAt pass bound i = none

theorem EndsAt.succ (goes : m.reasonAt pass (some (budget + 1)) 0 = none)
    (later : m.step.EndsAt none (some budget) j reason) :
    m.EndsAt pass (some (budget + 1)) (j + 1) reason := by
  refine ⟨(reasonAt_succ pass m j).trans later.ends, fun i before => ?_⟩
  cases i with
  | zero => exact goes
  | succ i => exact (reasonAt_succ pass m i).trans (later.first i (Nat.lt_of_succ_lt_succ before))

theorem endsAt_of_stop (unasked : m.stopRequested = false)
    (stops : m.stopBefore pass = some (reason, m')) (bound : Option Nat) :
    m.EndsAt pass bound 0 reason ∧ m' = m.endedBy reason m.resumeAt := by
  have look := reasonAt_zero unasked pass bound
  rw [stops] at look
  refine ⟨⟨look, nofun⟩, ?_⟩
  rcases cases_of_stopBefore stops with ⟨stopped, rfl⟩ | ⟨_, rfl, rfl⟩ | ⟨_, rfl, _, rfl⟩
  · rw [endedBy, if_neg]
    · rfl
    · rintro rfl
      exact absurd (mem_reasons stopped) (by decide)
  · -- nothing was asked for, so that nothing is withdrawn
    cases m
    cases unasked
    rfl
  · rfl

/-- A run ends as what steps make of its machine: `EndsAt` tells after how many. -/
theorem endsAt_runFrom (unasked : m.stopRequested = false) (pass : Option Word) (budget : Nat) :
    ∃ j, m.EndsAt pass (some budget) j (m.runFrom pass budget).1 ∧
      (m.runFrom pass budget).2 = (step^[j] m).endedBy (m.runFrom pass budget).1 m.resumeAt := by
  induction budget generalizing m pass with
  | zero =>
    cases stop : m.stopBefore pass with
    | some outcome =>
      rw [runFrom_of_stop stop]
      exact ⟨0, endsAt_of_stop unasked stop _⟩
    | none =>
      have look := reasonAt_zero unasked pass (some 0)
      rw [stop] at look
      rw [runFrom_zero stop]
      exact ⟨0, ⟨look, nofun⟩, rfl⟩
  | succ budget ih =>
    cases stop : m.stopBefore pass with
    | some outcome =>
      rw [runFrom_of_stop stop]
      exact ⟨0, endsAt_of_stop unasked stop _⟩
    | none =>
      have look := reasonAt_zero unasked pass (some (budget + 1))
      rw [stop] at look
      rw [runFrom_succ stop]
      obtain ⟨j, later, left⟩ := ih ((stopRequested_step m).trans unasked) none
      refine ⟨j + 1, later.succ look, ?_⟩
      rw [left, resumeAt_step, Function.iterate_succ_apply]

/-! ## How many steps are counted -/

theorem steps_step (running : m.status = .running) :
    m.step.steps + (if m.step.status.reason? = some .fault then 1 else 0) = m.steps + 1 := by
  have outcome := stepped running
  generalize m.step = m' at outcome
  cases outcome with
  | followed op _ _ =>
    have follows := follows running op (m.row op)
    rw [follows.counted, if_neg]
    rw [follows.status]
    split
    · decide
    · decide
  | illegal | divided | reduced =>
    show (m.record m.current).steps + 1 = _
    rw [steps_record]

/-- Steps that go on are counted, and so is the one that ends them, unless it faults. -/
theorem steps_iterate (goes : ∀ i < j, (step^[i] m).status = .running) :
    (step^[j] m).steps + (if (step^[j] m).status.reason? = some .fault ∧ 0 < j then 1 else 0) =
      m.steps + j := by
  induction j with
  | zero =>
      simp only [Function.iterate_zero, id_eq, Nat.lt_irrefl, and_false, if_false, Nat.add_zero]
  | succ j ih =>
    have running := goes j (Nat.lt_succ_self j)
    have earlier := ih fun i before => goes i (Nat.lt_succ_of_lt before)
    rw [running, if_neg nofun] at earlier
    have counted := steps_step running
    simp only [Function.iterate_succ_apply', Nat.zero_lt_succ, and_true]
    omega

theorem EndsAt.faulted_iff (endsAt : m.EndsAt pass bound j reason) :
    (step^[j] m).status.reason? = some .fault ↔ reason = .fault := by
  rcases cases_of_reasonAt endsAt.ends with stopped | ⟨running, rfl, _⟩ | ⟨running, rfl, _⟩
  · rw [stopped, Option.some.injEq]
  · rw [running]
    decide
  · rw [running]
    decide

/-! ## Runs -/

/-- A run of `m` with this bound performs `j` steps, and ends for this reason as `m'`. -/
structure Performs (m : Machine) (bound : Option Nat) (j : Nat) (reason : StopReason)
    (m' : Machine) : Prop where
  endsAt : m.EndsAt m.resumeAt bound j reason
  left : m' = (step^[j] m).endedBy reason none
  /-- A step that faults is not counted. -/
  counted : m'.steps + (if reason = .fault ∧ 0 < j then 1 else 0) = m.steps + j

theorem EndsAt.performs (endsAt : m.EndsAt m.resumeAt bound j reason) :
    m.Performs bound j reason ((step^[j] m).endedBy reason none) := by
  refine ⟨endsAt, rfl, ?_⟩
  have counted := steps_iterate fun i before => (reasonAt_eq_none.1 (endsAt.first i before)).1
  simp only [endsAt.faulted_iff] at counted
  exact counted

theorem performs_runFor (unasked : m.stopRequested = false) (budget : Nat) :
    ∃ j, m.Performs (some budget) j (m.runFor budget).1 (m.runFor budget).2 := by
  -- the run takes the mark away before its first look
  obtain ⟨j, ⟨ends, first⟩, left⟩ := endsAt_runFrom (m := m.marked none) unasked m.resumeAt budget
  simp only [reasonAt_marked] at ends first
  rw [iterate_step_marked] at left
  refine ⟨j, ?_⟩
  have performs := EndsAt.performs ⟨ends, first⟩
  rwa [show (step^[j] m).endedBy _ none = (m.runFor budget).2 from left.symm] at performs

theorem Performs.unique {i : Nat} {reason' : StopReason} {m'' : Machine}
    (performs : m.Performs bound j reason m') (other : m.Performs bound i reason' m'') :
    i = j ∧ reason' = reason ∧ m'' = m' := by
  obtain ⟨⟨ends, first⟩, left, _⟩ := performs
  obtain ⟨⟨ends', first'⟩, left', _⟩ := other
  obtain rfl : i = j := by
    rcases Nat.lt_trichotomy i j with before | same | after
    · rw [first i before] at ends'
      cases ends'
    · exact same
    · rw [first' j after] at ends
      cases ends
  obtain rfl : reason' = reason := Option.some.inj (ends'.symm.trans ends)
  exact ⟨rfl, rfl, left'.trans left.symm⟩

theorem Performs.runFor_eq (unasked : m.stopRequested = false)
    (performs : m.Performs (some budget) j reason m') :
    m.runFor budget = (reason, m') := by
  obtain ⟨i, run⟩ := performs_runFor unasked budget
  obtain ⟨_, same, left⟩ := performs.unique run
  exact Prod.ext same left

/-- A run without a bound is one with any bound that suffices, so `Performs none` needs no budget of
its own. -/
theorem performs_none_iff (bound : Nat) :
    m.Performs none j reason m' ∧ j ≤ bound ↔ m.Performs (some bound) j reason m' ∧
      reason ≠ .timeout := by
  constructor
  · rintro ⟨⟨⟨ends, first⟩, left, counted⟩, enough⟩
    have other : reason ≠ .timeout := by
      rintro rfl
      rcases cases_of_reasonAt ends with stopped | ⟨_, breaks, _⟩ | ⟨_, _, _, reached⟩
      · exact absurd (mem_reasons stopped) (by decide)
      · cases breaks
      · cases reached
    refine ⟨⟨⟨reasonAt_of_ne_timeout ends other _, fun i before => ?_⟩, left, counted⟩, other⟩
    obtain ⟨running, passes, _⟩ := reasonAt_eq_none.1 (first i before)
    refine reasonAt_eq_none.2 ⟨running, passes, fun same => ?_⟩
    cases same
    omega
  · rintro ⟨⟨⟨ends, first⟩, left, counted⟩, other⟩
    refine ⟨⟨⟨reasonAt_of_ne_timeout ends other _, fun i before => ?_⟩, left, counted⟩, ?_⟩
    · obtain ⟨running, passes, _⟩ := reasonAt_eq_none.1 (first i before)
      exact reasonAt_eq_none.2 ⟨running, passes, nofun⟩
    · by_contra short
      -- then the bound would have been a reason before
      obtain ⟨_, _, unbounded⟩ := reasonAt_eq_none.1 (first bound (Nat.lt_of_not_le short))
      exact unbounded rfl

theorem runFor_patience_iff (unasked : m.stopRequested = false) :
    m.runFor patience = (reason, m') ∧ reason ≠ .timeout ↔
      ∃ j ≤ patience, m.Performs none j reason m' := by
  constructor
  · rintro ⟨same, other⟩
    obtain ⟨j, performs⟩ := performs_runFor unasked patience
    rw [same] at performs
    obtain ⟨run, enough⟩ := (performs_none_iff patience).2 ⟨performs, other⟩
    exact ⟨j, enough, run⟩
  · rintro ⟨j, enough, run⟩
    obtain ⟨performs, other⟩ := (performs_none_iff patience).1 ⟨run, enough⟩
    exact ⟨performs.runFor_eq unasked, other⟩

end Machine

namespace Panel

variable {p : Panel} {limit : Option Int}

theorem run?_machine (m : Machine) (limit : Option Int) :
    ({ machine := m } : Panel).run? limit = (m.run? limit).map fun (reason, m') =>
    (.ok reason, { machine := m' }) :=
  rfl

theorem run?_eq_of_astray {a : Int} (astray : p.astray = some a) (limit : Option Int) :
    p.run? limit =
      match p.machine.status.reason? with
      | some reason => some (.ok reason, p.modify (·.marked none))
      | none =>
        if p.machine.stopRequested then
          some (.ok .cancelled, p.modify ({ · with stopRequested := false, resumeAt := none }))
        else if p.machine.bound? limit = some 0 then some (.ok .timeout, p.modify (·.marked none))
        else some (.error (.outOfRange a), p.modify (·.marked none)) := by
  unfold run?
  rw [astray]
  rfl

/-- With PC astray a run ends as the first step would, unless its budget ends it before. -/
theorem run?_astray {a : Int} (astray : p.astray = some a)
    (unasked : p.machine.stopRequested = false) (limit : Option Int) :
    ∃ answer, p.run? limit = some (answer, p.modify (·.marked none)) ∧
      answer.map some =
        if p.machine.status = .running ∧ p.machine.bound? limit = some 0 then .ok (some .timeout)
        else p.step.map (·.1) := by
  rw [run?_eq_of_astray astray, unasked, step, fetching, astray]
  cases p.machine.status with
  | halted => exact ⟨.ok .halt, rfl, rfl⟩
  | faulted fault => exact ⟨.ok .fault, rfl, rfl⟩
  | running =>
    by_cases spent : p.machine.bound? limit = some 0
    · exact ⟨.ok .timeout, if_pos spent, (if_pos ⟨rfl, spent⟩).symm⟩
    · exact ⟨.error (.outOfRange a), if_neg spent, (if_neg fun reached => spent reached.2).symm⟩

theorem run?_of_request (asked : p.machine.stopRequested = true)
    (running : p.machine.status = .running) (limit : Option Int) :
    p.run? limit =
      some (.ok .cancelled, p.modify ({ · with stopRequested := false, resumeAt := none })) := by
  cases astray : p.astray with
  | none =>
    obtain ⟨m, rfl⟩ : ∃ m, p = { machine := m } := ⟨_, eq_of_fetches astray⟩
    have cancelled := Machine.runFor_of_request asked running
    rw [run?_machine]
    cases bound : m.bound? limit with
    | some n =>
      rw [Machine.run?_of_bound bound, cancelled]
      rfl
    | none =>
      rw [(Machine.run?_of_unbounded bound).2 ⟨cancelled Machine.patience, nofun⟩]
      rfl
  | some a =>
    rw [run?_eq_of_astray astray, running]
    exact if_pos asked

end Panel

/-- Without a request to stop, a run performs steps until there is a reason to end, and the first
such reason is its answer. A run without a bound does so if it ends at all. With PC astray there is
no first step, so that the run ends or fails where it is. With a request, a running machine performs
nothing. -/
theorem run_iterates_step (p : Panel) (limit : Option Int) :
    (p.machine.stopRequested = false →
      (p.astray = none →
        (∀ n, p.machine.bound? limit = some n → ∃ j reason m',
          p.run? limit = some (.ok reason, { machine := m' }) ∧
            p.machine.Performs (some n) j reason m') ∧
        (p.machine.bound? limit = none → ∀ reason m',
          p.run? limit = some (.ok reason, { machine := m' }) ↔
            ∃ j ≤ Machine.patience, p.machine.Performs none j reason m')) ∧
      ∀ a, p.astray = some a → ∃ answer, p.run? limit = some (answer, p.modify (·.marked none)) ∧
        answer.map some =
          if p.machine.status = .running ∧ p.machine.bound? limit = some 0 then .ok (some .timeout)
          else p.step.map (·.1)) ∧
    (p.machine.stopRequested = true → p.machine.status = .running →
      p.run? limit =
        some (.ok .cancelled, p.modify ({ · with stopRequested := false, resumeAt := none }))) := by
  refine ⟨fun unasked =>
    ⟨fun fetches => ?_, fun a astray => Panel.run?_astray astray unasked limit⟩,
    fun asked running => Panel.run?_of_request asked running limit⟩
  obtain ⟨m, rfl⟩ : ∃ m, p = { machine := m } := ⟨_, Panel.eq_of_fetches fetches⟩
  refine ⟨fun n bound => ?_, fun unbounded reason m' => ?_⟩
  · obtain ⟨j, performs⟩ := Machine.performs_runFor unasked n
    refine ⟨j, _, _, ?_, performs⟩
    rw [Panel.run?_machine, Machine.run?_of_bound bound]
    rfl
  · have same : ({ machine := m } : Panel).run? limit = some (.ok reason, { machine := m' }) ↔
        m.run? limit = some (reason, m') := by
      rw [Panel.run?_machine, Option.map_eq_some_iff]
      constructor
      · rintro ⟨_, run, same⟩
        cases same
        exact run
      · intro run
        exact ⟨_, run, rfl⟩
    rw [same, Machine.run?_of_unbounded unbounded, Machine.runFor_patience_iff unasked]

/-- A machine before a `nop` and a `brk`. -/
def nopBrk : Machine where
  bus.memory := Machine.cellsAt [(0, 16)]

/-- With a breakpoint after the first step, a budget of one step is used up there, but the
breakpoint counts. Without it and without a bound the run ends at the halt. With PC astray it fails,
and with a request it performs nothing. -/
theorem run_iterates_step_tied :
    (∃ m', ({ machine := { nopBrk with breakpoints := [4] } } : Panel).run? (some 1) =
        some (.ok .breakpoint, { machine := m' }) ∧
      { nopBrk with breakpoints := [4] }.Performs (some 1) 1 .breakpoint m') ∧
    (∃ j ≤ Machine.patience, ∃ m', nopBrk.Performs none j .halt m') ∧
    (∃ answer p',
      ({ machine := nopBrk, astray := some (-1) } : Panel).run? none = some (answer, p') ∧
      answer.map some = .error (.outOfRange (-1))) ∧
    ({ machine := { nopBrk with stopRequested := true } } : Panel).run? none =
      some (.ok .cancelled, { machine := nopBrk }) := by
  refine ⟨?_, ?_, ?_, ?_⟩
  · have found : (({ machine := { nopBrk with breakpoints := [4] } } : Panel).run? (some 1)).any
        fun outcome => outcome.1 = .ok .breakpoint ∧ outcome.2.machine.steps = 1 := by
      decide +kernel
    obtain ⟨bounded, _⟩ :=
      ((run_iterates_step { machine := { nopBrk with breakpoints := [4] } } (some 1)).1 rfl).1 rfl
    obtain ⟨j, reason, m', run, performs⟩ := bounded 1 rfl
    rw [run, Option.any_some, decide_eq_true_eq] at found
    obtain ⟨breaks, counted⟩ := found
    cases breaks
    have once : 1 = 0 + j := counted.symm.trans performs.counted
    obtain rfl : 1 = j := by omega
    exact ⟨m', run, performs⟩
  · have found : (({ machine := nopBrk } : Panel).run? none).any fun outcome =>
        outcome.1 = .ok .halt ∧ outcome.2.astray = none := by
      decide +kernel
    obtain ⟨⟨answer, p⟩, run, ends⟩ := (Option.any_eq_true _ _).1 found
    rw [decide_eq_true_eq] at ends
    obtain ⟨rfl, fetches⟩ := ends
    obtain ⟨m', rfl⟩ : ∃ m', p = { machine := m' } := ⟨_, Panel.eq_of_fetches fetches⟩
    obtain ⟨_, unbounded⟩ := ((run_iterates_step { machine := nopBrk } none).1 rfl).1 rfl
    obtain ⟨j, enough, performs⟩ := (unbounded rfl _ _).1 run
    exact ⟨j, enough, _, performs⟩
  · obtain ⟨_, astray⟩ := (run_iterates_step { machine := nopBrk, astray := some (-1) } none).1 rfl
    obtain ⟨answer, run, ends⟩ := astray (-1) rfl
    rw [if_neg fun spent => nomatch spent.2] at ends
    exact ⟨answer, _, run, ends⟩
  · exact (run_iterates_step { machine := { nopBrk with stopRequested := true } } none).2 rfl rfl

end Chifir
