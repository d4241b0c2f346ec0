import Chifir.Proofs.Machine.Checked

/-!
# Faults

An instruction fails for three reasons, and all of them show before it has done anything.

1. `Machine.Fails`: the reasons, read off the words at PC and at the address in its third operand.
2. `step_of_fails`, `exists_fails`: a step fails where there is a reason, and nowhere else.
3. `step_faults_exactly`: so it is for a machine and for checked execution, whatever they show. What
   a fault leaves behind is its record, and a line in the trace.
-/

namespace Chifir

/-- No operation has a `number` above sixteen, and every number up to it is that of one. -/
theorem Opcode.forall_ne_word {w : Word} : (∀ op : Opcode, w ≠ op.word) ↔ 16 < w.toNat := by
  constructor
  · intro unknown
    by_contra known
    have inside : w.toNat < all.length := Nat.lt_succ_of_le (Nat.le_of_not_lt known)
    have decoded : ofWord? w = some all[w.toNat] := List.getElem?_eq_getElem inside
    exact unknown _ (ofWord?_eq_some.1 decoded)
  · intro above op same
    have small : op.number ≤ 16 := by cases op <;> decide
    have numbered := eq_word_iff.1 same
    omega

namespace Machine

/-- Why the instruction at PC cannot be performed. -/
inductive Fails (m : Machine) : FaultKind → Prop
  | illegalOpcode (unknown : 16 < (m.get m.pc).toNat) : Fails m .illegalOpcode
  | divideByZero (opcode : (m.get m.pc).toNat = 10) (divisor : m.get (m.get (m.pc + 3)) = 0) :
      Fails m .divideByZero
  | moduloByZero (opcode : (m.get m.pc).toNat = 11) (divisor : m.get (m.get (m.pc + 3)) = 0) :
      Fails m .moduloByZero

variable {m : Machine} {kind : FaultKind}

theorem step_of_fails (running : m.status = .running) (fails : m.Fails kind) :
    m.step = (m.record m.current).fail kind m.current := by
  cases fails with
  | illegalOpcode unknown => exact step_of_unknown running (Opcode.forall_ne_word.2 unknown)
  | divideByZero opcode divisor =>
    have fetched : m.get m.pc = Opcode.div.word := Opcode.eq_word_iff.2 opcode
    rw [step_eq_perform running fetched, perform, get_record]
    exact if_pos divisor
  | moduloByZero opcode divisor =>
    have fetched : m.get m.pc = Opcode.mod.word := Opcode.eq_word_iff.2 opcode
    rw [step_eq_perform running fetched, perform, get_record]
    exact if_pos divisor

theorem exists_fails (running : m.status = .running)
    (faulted : m.step.status.reason? = some .fault) :
    ∃ kind, m.Fails kind := by
  have outcome := stepped running
  generalize m.step = m' at outcome faulted
  cases outcome with
  | followed op _ _ =>
    -- What follows the table goes on or halts.
    rw [(follows running op _).status] at faulted
    split at faulted
    · cases faulted
    · cases faulted
  | illegal unknown => exact ⟨_, .illegalOpcode (Opcode.forall_ne_word.1 unknown)⟩
  | divided fetched zero => exact ⟨_, .divideByZero (Opcode.eq_word_iff.1 fetched) zero⟩
  | reduced fetched zero => exact ⟨_, .moduloByZero (Opcode.eq_word_iff.1 fetched) zero⟩

theorem step_fault_iff (running : m.status = .running) :
    m.step.status.reason? = some .fault ↔ ∃ kind, m.Fails kind := by
  refine ⟨exists_fails running, ?_⟩
  rintro ⟨kind, fails⟩
  rw [step_of_fails running fails]
  rfl

theorem Fails.ne_drw (fails : m.Fails kind) : m.get m.pc ≠ Opcode.drw.word := by
  intro draws
  have number : (m.get m.pc).toNat = 14 := Opcode.eq_word_iff.1 draws
  cases fails with
  | illegalOpcode unknown => omega
  | divideByZero opcode _ => omega
  | moduloByZero opcode _ => omega

theorem fail_record (m : Machine) (kind : FaultKind) (i : Instruction Word) :
    (m.record i).fail kind i = { m with
      status := .faulted ⟨kind, i⟩
      trace := if m.tracing then m.trace.push i.toInt.text else m.trace } := by
  unfold record
  split
  · rfl
  · rfl

end Machine

namespace Panel

variable {p p' : Panel} {m : Machine} {showing : Option Showing}

theorem status_goOnChecked (p : Panel) (n : Int) :
    (p.goOnChecked n).machine.status = p.machine.status := by
  rw [goOnChecked, setPc]
  split
  · rfl
  · rfl

theorem status_of_drawn {i : Instruction Word} (drawn : p.performChecked showing i .drw = .ok p') :
    p'.machine.status = p.machine.status := by
  obtain ⟨display, _, drawn⟩ := bind_eq_ok.1 drawn
  rw [← Except.ok.inj drawn, status_goOnChecked]
  rfl

theorem not_fault_of_draws (running : m.status = .running) (draws : m.get m.pc = Opcode.drw.word) :
    ({ machine := m } : Panel).stepChecked showing ≠ .ok (some .fault, p') := by
  intro faulted
  have decoded : Opcode.ofWord? m.current.quad.opcode = some .drw := Opcode.ofWord?_eq_some.2 draws
  simp only [stepChecked, running, Status.reason?, fetchChecked_machine, ok_bind, decoded]
    at faulted
  obtain ⟨after, performed, stopped⟩ := bind_eq_ok.1 faulted
  have status : after.machine.status = .running := by
    rw [status_of_drawn performed, modify, Machine.status_record, running]
  rw [status] at stopped
  cases stopped

theorem answers_fault_iff {ε : Type} {answer : Option StopReason} :
    (∃ p', (Except.ok (answer, p) : Except ε (Option StopReason × Panel)) = .ok (some .fault, p')) ↔
      answer = some .fault := by
  simp

theorem stepChecked_fault_iff (running : m.status = .running) :
    (∃ p', ({ machine := m } : Panel).stepChecked showing = .ok (some .fault, p')) ↔
      ∃ kind, m.Fails kind := by
  by_cases draws : m.get m.pc = Opcode.drw.word
  · refine ⟨fun ⟨_, faulted⟩ => absurd faulted (not_fault_of_draws running draws), ?_⟩
    rintro ⟨kind, fails⟩
    exact absurd draws fails.ne_drw
  · rw [stepChecked_eq fun same => absurd same draws, answers_fault_iff,
      Machine.step_fault_iff running]

end Panel

/-- Faults are exact and leave the machine as it was. A step of a running machine faults exactly if
no operation has the number at PC, or the divisor of a division is zero. Nothing becomes of it but
the record, which is about the words at PC, and a line in the trace. Checked execution does the
same, whatever is shown. -/
theorem step_faults_exactly {m : Machine} (running : m.status = .running)
    (showing : Option Showing) :
    let p : Panel := { machine := m }
    let culprit : Instruction Word :=
      ⟨m.pc, m.get m.pc, m.get (m.pc + 1), m.get (m.pc + 2), m.get (m.pc + 3)⟩
    ((∃ p', p.step = .ok (some .fault, p')) ↔ ∃ kind, m.Fails kind) ∧
      ((∃ p', p.stepChecked showing = .ok (some .fault, p')) ↔ ∃ kind, m.Fails kind) ∧
      ∀ kind, m.Fails kind →
        let faulted : Machine := { m with
          status := .faulted ⟨kind, culprit⟩
          trace := if m.tracing then m.trace.push culprit.toInt.text else m.trace }
        p.step = .ok (some .fault, { machine := faulted }) ∧
          p.stepChecked showing = .ok (some .fault, { machine := faulted }) := by
  refine ⟨?_, Panel.stepChecked_fault_iff running, fun kind fails => ?_⟩
  · rw [Panel.step_machine, Panel.answers_fault_iff, Machine.step_fault_iff running]
  · have stepped := Machine.step_of_fails running fails
    rw [Machine.fail_record] at stepped
    refine ⟨?_, ?_⟩
    · rw [Panel.step_machine, stepped]
      rfl
    · rw [Panel.stepChecked_eq fun draws => absurd draws fails.ne_drw, stepped]
      rfl

/-- A division from two words below the top of memory on. The cell for its quotient is its own third
operand, and the divisor was never written. -/
def dividingCells : List (Word × Word) :=
  [(0xFFFFFFFE, 10), (0xFFFFFFFF, 1), (0, 1), (1, 0x100)]

def dividing : Machine where
  pc := 0xFFFFFFFE
  bus.memory := Machine.cellsAt dividingCells
  bus.watchpoints := [⟨1, "log"⟩]
  breakpoints := [0xFFFFFFFE]
  tracing := true

theorem step_faults_exactly_dividing :
    dividing.status = .running ∧ dividing.Fails .divideByZero ∧
      ({ machine := dividing } : Panel).step = .ok (some .fault, { machine := { dividing with
        status := .faulted ⟨.divideByZero, 0xFFFFFFFE, 10, 1, 1, 0x100⟩
        trace := #["FFFFFFFE: div 1 1 100"] } }) := by
  have cells : dividing.get = fun a => (dividingCells.lookup a).getD 0 :=
    funext fun a => Machine.get_cellsAt dividingCells a
  have fails : dividing.Fails .divideByZero := by
    refine .divideByZero ?_ ?_
    · rw [cells]
      decide
    · rw [cells]
      decide
  have words : Instruction.mk dividing.pc ⟨dividing.get dividing.pc, dividing.get (dividing.pc + 1),
      dividing.get (dividing.pc + 2), dividing.get (dividing.pc + 3)⟩ =
        ⟨0xFFFFFFFE, 10, 1, 1, 0x100⟩ := by
    rw [cells]
    decide
  have line :
      (⟨0xFFFFFFFE, 10, 1, 1, 0x100⟩ : Instruction Word).toInt.text = "FFFFFFFE: div 1 1 100" := by
    decide +kernel
  obtain ⟨_, _, faults⟩ := step_faults_exactly (m := dividing) rfl none
  obtain ⟨stepped, _⟩ := faults _ fails
  simp only [words, line] at stepped
  exact ⟨rfl, fails, stepped⟩

end Chifir
