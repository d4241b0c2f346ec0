import Mathlib.Logic.Function.Iterate
import Chifir.Machine.Basic

/-!
# Steps that go on

What a running machine does in one step, as far as the program can see it: where it goes on and what
its cells hold then. `Runs` says this of several steps at once, and says that the machine does not
stop on the way.

1. `Runs.append`: runs are put together at the machine where they meet.
2. `runs_lpc`, `runs_beq`, `runs_store`: the step of a jump, of a branch, and of any operation that
   writes a word.
-/

namespace Chifir.Machine

/-- The machine performs `n` instructions without a halt or a fault. Then it is at `pc`, and every
address `a` holds `cells a`. -/
structure Runs (m : Machine) (n : Nat) (pc : Word) (cells : Word → Word) : Prop where
  running : ∀ j ≤ n, (step^[j] m).status = .running
  counted : (step^[n] m).steps = m.steps + n
  arrives : (step^[n] m).pc = pc
  holds : (step^[n] m).get = cells

/-- A memory that holds these words at these addresses, and zero elsewhere. -/
def cellsAt (cells : List (Word × Word)) : Memory :=
  cells.foldr (fun cell memory => memory.set cell.1 cell.2) .empty

theorem get_cellsAt (cells : List (Word × Word)) (a : Word) :
    (cellsAt cells).get a = (cells.lookup a).getD 0 := by
  induction cells with
  | nil => exact Memory.get_empty a
  | cons cell cells ih =>
    rw [cellsAt, List.foldr_cons, Memory.get_set, ← cellsAt, ih, List.lookup_cons]
    by_cases here : a = cell.1
    · rw [if_pos here.symm, here, beq_self_eq_true]
      rfl
    · rw [if_neg (Ne.symm here), beq_eq_false_iff_ne.2 here]

theorem get_set_bus (m : Machine) (a v : Word) :
    ({ m with bus := m.bus.set a v } : Machine).get = Function.update m.get a v := by
  funext c
  simp only [get, Bus.get_set, Function.update_apply, eq_comm]

/-! ## Tracing changes nothing that a program sees -/

section Record
variable (m : Machine) (i : Instruction Word)

@[simp] theorem get_record : (m.record i).get = m.get := by
  unfold record
  split <;> rfl

@[simp] theorem pc_record : (m.record i).pc = m.pc := by
  unfold record
  split <;> rfl

@[simp] theorem status_record : (m.record i).status = m.status := by
  unfold record
  split <;> rfl

@[simp] theorem steps_record : (m.record i).steps = m.steps := by
  unfold record
  split <;> rfl

end Record

/-! ## One step -/

/-- A running machine performs the operation whose number stands at PC, once the trace has its line
(`record`). -/
theorem step_eq_perform {m : Machine} {op : Opcode} (running : m.status = .running)
    (fetched : m.get m.pc = op.word) :
    m.step = (m.record m.current).perform m.current op := by
  have decoded : Opcode.ofWord? m.current.quad.opcode = some op := by
    rw [show m.current.quad.opcode = m.get m.pc from rfl, fetched, Opcode.ofWord?_word]
  rw [step, running]
  simp only [attempt, decoded]

/-- One step is a run if it counts and leaves the machine running: `Runs` with one instruction. -/
theorem runs_one {m : Machine} {pc : Word} {cells : Word → Word} (running : m.status = .running)
    (goes : m.step.status = .running) (counted : m.step.steps = m.steps + 1)
    (arrives : m.step.pc = pc) (holds : m.step.get = cells) : m.Runs 1 pc cells := by
  refine ⟨fun j hj => ?_, counted, arrives, holds⟩
  rcases Nat.le_one_iff_eq_zero_or_eq_one.1 hj with rfl | rfl
  · exact running
  · exact goes

theorem runs_lpc {m : Machine} (running : m.status = .running)
    (fetched : m.get m.pc = Opcode.lpc.word) :
    m.Runs 1 (m.get (m.get (m.pc + 1))) m.get := by
  have performed := step_eq_perform running fetched
  apply runs_one running <;> rw [performed] <;> simp only [perform, continueAt]
  · rw [status_record, running]
  · rw [steps_record]
  · rw [get_record]
    rfl
  · exact get_record m _

theorem runs_beq {m : Machine} (running : m.status = .running)
    (fetched : m.get m.pc = Opcode.beq.word) :
    m.Runs 1 (if m.get (m.get (m.pc + 2)) = 0 then m.get (m.get (m.pc + 1)) else m.pc + 4)
      m.get := by
  have performed := step_eq_perform running fetched
  have target : m.step = (m.record m.current).continueAt
      (if m.get (m.get (m.pc + 2)) = 0 then m.get (m.get (m.pc + 1)) else m.pc + 4) := by
    rw [performed]
    simp only [perform, advance, get_record, pc_record]
    show (if m.get (m.get (m.pc + 2)) = 0 then _ else _) = _
    split
    · rfl
    · rfl
  apply runs_one running <;> rw [target] <;> simp only [continueAt]
  · rw [status_record, running]
  · rw [steps_record]
  · exact get_record m _

/-- An operation that stores a word changes that cell and goes on at the next instruction, as `Runs`
of one step. -/
theorem runs_store {m : Machine} {op : Opcode} {a v : Word} (running : m.status = .running)
    (fetched : m.get m.pc = op.word)
    (stores : (m.record m.current).perform m.current op = (m.record m.current).store a v) :
    m.Runs 1 (m.pc + 4) (Function.update m.get a v) := by
  have performed := step_eq_perform running fetched
  apply runs_one running <;> rw [performed, stores] <;> simp only [store, advance, continueAt]
  · rw [status_record, running]
  · rw [steps_record]
  · rw [pc_record]
  · rw [← get_record m m.current, ← get_set_bus]
    rfl

/-! ## Several steps -/

/-- A run goes on with the run of the machine that it ends with, so `Runs` composes. -/
theorem Runs.append {m : Machine} {n n' : Nat} {pc pc' : Word} {cells cells' : Word → Word}
    (first : m.Runs n pc cells) (second : (step^[n] m).Runs n' pc' cells') :
    m.Runs (n + n') pc' cells' := by
  have shift : ∀ j, step^[n + j] m = step^[j] (step^[n] m) := fun j => by
    rw [Nat.add_comm, Function.iterate_add_apply]
  refine ⟨fun j hj => ?_, ?_, ?_, ?_⟩
  · rcases Nat.lt_or_ge j n with before | after
    · exact first.running j (Nat.le_of_lt before)
    · obtain ⟨i, rfl⟩ := Nat.exists_eq_add_of_le after
      rw [shift]
      exact second.running i (by omega)
  · rw [shift, second.counted, first.counted, Nat.add_assoc]
  · rw [shift, second.arrives]
  · rw [shift, second.holds]

end Chifir.Machine
