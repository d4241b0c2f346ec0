import Chifir.Proofs.Machine.Breakpoints
import Chifir.Proofs.Machine.Iteration

/-!
# Budgets in parts

A run whose budget is used up can be taken up again. `runFrom_add` splits a run where the first part
of its budget ends, by induction on that part, and `run_budgets_add` says it of two runs in turn.
The second begins without a mark, like the rest of a run that has performed something.
-/

namespace Chifir

namespace Machine

variable {m : Machine} {pass : Option Word} {budget : Nat}

/-- A run splits where a part of its `budget` ends. The breakpoint at `pass` must be behind it then.
-/
theorem runFrom_add (behind : pass = none ∨ 0 < budget) (more : Nat) :
    m.runFrom pass (budget + more) =
      if (m.runFrom pass budget).1 = .timeout then (m.runFrom pass budget).2.runFrom none more
      else m.runFrom pass budget := by
  induction budget generalizing m pass with
  | zero =>
    obtain rfl : pass = none := behind.resolve_right (Nat.lt_irrefl 0)
    cases stop : m.stopBefore none with
    | some outcome =>
        rw [runFrom_of_stop stop, runFrom_of_stop stop, if_neg (ne_timeout_of_stop stop)]
    | none => rw [runFrom_zero stop, if_pos rfl, Nat.zero_add]
  | succ budget ih =>
    cases stop : m.stopBefore pass with
    | some outcome =>
        rw [runFrom_of_stop stop, runFrom_of_stop stop, if_neg (ne_timeout_of_stop stop)]
    | none =>
      rw [Nat.add_right_comm, runFrom_succ stop, runFrom_succ stop]
      exact ih (.inl rfl)

theorem runFor_of_unmarked (unmarked : m.resumeAt = none) (budget : Nat) :
    m.runFor budget = m.runFrom none budget := by
  cases m
  cases unmarked
  rfl

theorem runFor_add (positive : 0 < budget) (more : Nat) :
    m.runFor (budget + more) =
      if (m.runFor budget).1 = .timeout then (m.runFor budget).2.runFor more
        else m.runFor budget := by
  unfold runFor
  rw [runFrom_add (.inr positive)]
  split
  · next timeout =>
    -- a run that times out leaves no mark, so that the next one passes nothing
    have unmarked := resumeAt_runFor m budget
    unfold runFor at unmarked
    rw [timeout, if_neg nofun] at unmarked
    exact (runFor_of_unmarked unmarked more).symm
  · rfl

end Machine

namespace Panel

theorem run?_budget (m : Machine) (budget : Nat) :
    ({ machine := m } : Panel).run? (some budget) =
      some (.ok (m.runFor budget).1, { machine := (m.runFor budget).2 }) :=
  rfl

theorem run?_positive {p : Panel} {a : Int} (astray : p.astray = some a) :
    ∃ answer p', answer ≠ .ok .timeout ∧ ∀ budget :
      Nat, 0 < budget → p.run? (some budget) = some (answer, p') := by
  simp only [run?_eq_of_astray astray]
  cases p.machine.status with
  | halted => exact ⟨.ok .halt, _, nofun, fun _ _ => rfl⟩
  | faulted fault => exact ⟨.ok .fault, _, nofun, fun _ _ => rfl⟩
  | running =>
    cases p.machine.stopRequested with
    | true => exact ⟨.ok .cancelled, _, nofun, fun _ _ => rfl⟩
    | false =>
      refine ⟨.error (.outOfRange a), p.modify (·.marked none), nofun, fun budget positive => ?_⟩
      show (if p.machine.bound? (some (budget : Int)) = some 0 then _ else _) = _
      refine if_neg fun spent => ?_
      have none : budget = 0 := Option.some.inj spent
      omega

end Panel

/-- Two runs in turn do what one does with both budgets, if the first has used up its own: they give
the same answer and leave the same machine. If the first ends for another reason, it does so with
any larger budget. -/
theorem run_budgets_add (p : Panel) {n : Nat} (positive : 0 < n) (k : Nat) :
    ∃ answer p', p.run? (some n) = some (answer, p') ∧
      (answer = .ok .timeout → p.run? (some ↑(n + k)) = p'.run? (some k)) ∧
      (answer ≠ .ok .timeout → p.run? (some ↑(n + k)) = some (answer, p')) := by
  cases astray : p.astray with
  | none =>
    obtain ⟨m, rfl⟩ : ∃ m, p = { machine := m } := ⟨_, Panel.eq_of_fetches astray⟩
    refine ⟨_, _, Panel.run?_budget m n, fun timeout => ?_, fun other => ?_⟩
    · rw [Panel.run?_budget, Panel.run?_budget, Machine.runFor_add positive,
        if_pos (Except.ok.inj timeout)]
    · have other : (m.runFor n).1 ≠ .timeout := fun timeout => other (congrArg Except.ok timeout)
      rw [Panel.run?_budget, Machine.runFor_add positive, if_neg other]
  | some a =>
    obtain ⟨answer, p', other, ran⟩ := Panel.run?_positive astray
    refine ⟨answer, p', ran n positive, fun timeout => absurd timeout other, fun _ => ?_⟩
    exact ran (n + k) (Nat.add_pos_left positive k)

/-- A budget that is used up before the halt, and one that is not. -/
theorem run_budgets_add_nopBrk :
    (∃ p', ({ machine := nopBrk } : Panel).run? (some 1) = some (.ok .timeout, p') ∧
      ({ machine := nopBrk } : Panel).run? (some 4) = p'.run? (some 3)) ∧
    ∃ p', ({ machine := nopBrk } : Panel).run? (some 2) = some (.ok .halt, p') ∧
      ({ machine := nopBrk } : Panel).run? (some 5) = some (.ok .halt, p') := by
  constructor
  · have spent : (({ machine := nopBrk } : Panel).run? (some 1)).any
        fun outcome => outcome.1 = .ok .timeout := by
      decide +kernel
    obtain ⟨answer, p', run, onward, _⟩ :=
      run_budgets_add { machine := nopBrk } (n := 1) (by decide) 3
    have first : ({ machine := nopBrk } : Panel).run? (some 1) = some (answer, p') := run
    rw [first, Option.any_some, decide_eq_true_eq] at spent
    subst spent
    exact ⟨p', first, onward rfl⟩
  · have halts : (({ machine := nopBrk } : Panel).run? (some 2)).any
        fun outcome => outcome.1 = .ok .halt := by
      decide +kernel
    obtain ⟨answer, p', run, _, final⟩ :=
      run_budgets_add { machine := nopBrk } (n := 2) (by decide) 3
    have first : ({ machine := nopBrk } : Panel).run? (some 2) = some (answer, p') := run
    rw [first, Option.any_some, decide_eq_true_eq] at halts
    subst halts
    exact ⟨p', first, final nofun⟩

end Chifir
