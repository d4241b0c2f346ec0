import Chifir.Assembly.Macro
import Chifir.Proofs.Machine.Step

/-!
# What macros do

A macro is code that jumps through its own words. `Macro.outcome?` says what each macro is for, in
terms of the cells before it runs; `run_expansion` says that its instructions do just that at every
address, the top of memory included, and whichever cells its operands name, its own words among
them.

The comparing jump writes one of its own words. What that word held before does not matter, so the
instructions can run again and again (`Macro.scratch?`).
-/

namespace Chifir

namespace Macro

/-- What a macro does: the number of steps, where the machine then goes on, and what the cells then
hold. -/
structure Outcome where
  steps : Nat
  next : Word
  cells : Word → Word

/-- What a macro at `k` is for, given the cells before it runs; `none` if the number of operands is
wrong. -/
def outcome? (k : Word) (cells : Word → Word) : Macro → List Word → Option Outcome
  | jmp, [t] => some ⟨1, t, cells⟩
  | jeq, [t, x] => some ⟨1, if cells x = 0 then t else k + 4, cells⟩
  | jne, [t, x] => some (if cells x = 0 then ⟨1, k + 8, cells⟩ else ⟨2, t, cells⟩)
  | jlt, [t, x, y] =>
      some (if cells x < cells y then ⟨3, t, Function.update cells (k + 10) 1⟩
        else ⟨2, k + 12, Function.update cells (k + 10) 0⟩)
  | ldi, [a, v] => some ⟨1, k + 4, Function.update cells a v⟩
  | _, _ => none

/-- The word of an expansion that may hold anything when it starts to run. -/
def scratch? : Macro → Option Nat
  | jlt => some 10
  | _ => none

/-- Instructions stand in the cells from `k` on, the scratch word of their macro excepted. -/
def StandsAt (which : Macro) (quads : List (Quad Word)) (k : Word) (cells : Word → Word) : Prop :=
  let words := quads.flatMap Quad.toList
  ∀ i (h : i < words.length), which.scratch? ≠ some i → cells (k + UInt32.ofNat i) = words[i]

instance (which : Macro) (quads : List (Quad Word)) (k : Word) (cells : Word → Word) :
    Decidable (which.StandsAt quads k cells) := Nat.decidableBallLT _ _

theorem StandsAt.word {which : Macro} {quads : List (Quad Word)} {k : Word} {cells : Word → Word}
    (standing : which.StandsAt quads k cells) (i : Nat) {w : Word}
    (found : (quads.flatMap Quad.toList)[i]? = some w) (fixed : which.scratch? ≠ some i) :
    cells (k + UInt32.ofNat i) = w := by
  obtain ⟨inside, rfl⟩ := List.getElem?_eq_some_iff.1 found
  exact standing i inside fixed

theorem StandsAt.first {which : Macro} {quads : List (Quad Word)} {k : Word} {cells : Word → Word}
    (standing : which.StandsAt quads k cells) {w : Word}
    (found : (quads.flatMap Quad.toList)[0]? = some w) (fixed : which.scratch? ≠ some 0) :
    cells k = w := by
  have word := standing.word 0 found fixed
  rwa [show k + UInt32.ofNat 0 = k from UInt32.add_zero k] at word

theorem expand_eq_ok {which : Macro} {k : Word} {operands : List Word} {quads : List (Quad Word)} :
    which.expand k operands = .ok quads ↔ which.instructions? k operands = some quads := by
  unfold expand
  cases which.instructions? k operands <;> simp

end Macro

namespace Machine

variable {m : Machine}

/-- The run of `lpc k+3 b t`. -/
theorem runs_jump {t : Word} (running : m.status = .running)
    (opcode : m.get m.pc = Opcode.lpc.word) (pointer : m.get (m.pc + 1) = m.pc + 3)
    (target : m.get (m.pc + 3) = t) : m.Runs 1 t m.get := by
  have jumped := runs_lpc running opcode
  rwa [pointer, target] at jumped

/-- The run of `beq k+3 x t`. -/
theorem runs_branch {x t : Word} (running : m.status = .running)
    (opcode : m.get m.pc = Opcode.beq.word) (pointer : m.get (m.pc + 1) = m.pc + 3)
    (tested : m.get (m.pc + 2) = x) (target : m.get (m.pc + 3) = t) :
    m.Runs 1 (if m.get x = 0 then t else m.pc + 4) m.get := by
  have branched := runs_beq running opcode
  rwa [pointer, target, tested] at branched

/-- The run of `lea a k+3 v`. -/
theorem runs_put {a v : Word} (running : m.status = .running)
    (opcode : m.get m.pc = Opcode.lea.word) (destination : m.get (m.pc + 1) = a)
    (pointer : m.get (m.pc + 2) = m.pc + 3) (value : m.get (m.pc + 3) = v) :
    m.Runs 1 (m.pc + 4) (Function.update m.get a v) := by
  refine runs_store running opcode ?_
  show (m.record m.current).store (m.get (m.pc + 1))
    ((m.record m.current).get (m.get (m.pc + 2))) = _
  rw [get_record, destination, pointer, value]

/-- The run of `cmp a x y`. -/
theorem runs_compare {a x y : Word} (running : m.status = .running)
    (opcode : m.get m.pc = Opcode.cmp.word) (destination : m.get (m.pc + 1) = a)
    (left : m.get (m.pc + 2) = x) (right : m.get (m.pc + 3) = y) :
    m.Runs 1 (m.pc + 4) (Function.update m.get a (if m.get x < m.get y then 1 else 0)) := by
  refine runs_store running opcode ?_
  show (m.record m.current).store (m.get (m.pc + 1))
    (if (m.record m.current).get (m.get (m.pc + 2)) < (m.record m.current).get (m.get (m.pc + 3))
      then 1 else 0) = _
  rw [get_record, destination, left, right]

/-- The run of `beq k+3 x k+8`, `lpc k+7 b t`: the second instruction is reached if the cell is not
zero. -/
theorem runs_branch_jump {x t : Word} (running : m.status = .running)
    (opcode : m.get m.pc = Opcode.beq.word) (pointer : m.get (m.pc + 1) = m.pc + 3)
    (tested : m.get (m.pc + 2) = x) (skip : m.get (m.pc + 3) = m.pc + 8)
    (opcode' : m.get (m.pc + 4) = Opcode.lpc.word) (pointer' : m.get (m.pc + 5) = m.pc + 7)
    (target : m.get (m.pc + 7) = t) :
    if m.get x = 0 then m.Runs 1 (m.pc + 8) m.get else m.Runs 2 t m.get := by
  have first := runs_branch running opcode pointer tested skip
  split <;> rename_i zero
  · rwa [if_pos zero] at first
  · rw [if_neg zero] at first
    show m.Runs (1 + 1) t m.get
    refine first.append ?_
    rw [← first.holds]
    have shift : ∀ d, m.pc + 4 + d = m.pc + (4 + d) := fun d => UInt32.add_assoc _ _ _
    refine runs_jump (first.running 1 (Nat.le_refl 1)) ?_ ?_ ?_ <;>
      simp only [first.arrives, first.holds, shift]
    · exact opcode'
    · exact pointer'
    · exact target

/-- The run of `cmp k+10 x y`, `beq k+7 k+10 k+12`, `lpc k+11 b t`. The comparison goes to the idle
word B of the jump, and no other word of the three instructions changes, so the branch and the jump
are still there to run. -/
theorem runs_compare_branch_jump {x y t : Word} (running : m.status = .running)
    (opcode : m.get m.pc = Opcode.cmp.word) (destination : m.get (m.pc + 1) = m.pc + 10)
    (left : m.get (m.pc + 2) = x) (right : m.get (m.pc + 3) = y)
    (branch : m.get (m.pc + 4) = Opcode.beq.word) (pointer : m.get (m.pc + 5) = m.pc + 7)
    (tested : m.get (m.pc + 6) = m.pc + 10) (skip : m.get (m.pc + 7) = m.pc + 12)
    (jump : m.get (m.pc + 8) = Opcode.lpc.word) (pointer' : m.get (m.pc + 9) = m.pc + 11)
    (target : m.get (m.pc + 11) = t) :
    if m.get x < m.get y then m.Runs 3 t (Function.update m.get (m.pc + 10) 1)
      else m.Runs 2 (m.pc + 12) (Function.update m.get (m.pc + 10) 0) := by
  have first := runs_compare running opcode destination left right
  generalize result : (if m.get x < m.get y then (1 : Word) else 0) = r at first
  have shift : ∀ d, m.pc + 4 + d = m.pc + (4 + d) := fun d => UInt32.add_assoc _ _ _
  have kept : ∀ d, d ≠ 10 → (step^[1] m).get (m.pc + d) = m.get (m.pc + d) := fun d hd => by
    rw [first.holds, Function.update_of_ne (mt (UInt32.add_right_inj _).1 hd)]
  have scratch : (step^[1] m).get (m.pc + 10) = r := by
    rw [first.holds, Function.update_self]
  have rest : if (step^[1] m).get (m.pc + 10) = 0 then
      (step^[1] m).Runs 1 ((step^[1] m).pc + 8) (step^[1] m).get
      else (step^[1] m).Runs 2 t (step^[1] m).get := by
    apply runs_branch_jump (first.running 1 (Nat.le_refl 1)) <;> simp only [first.arrives, shift]
    · exact (kept 4 (by decide)).trans branch
    · exact (kept 5 (by decide)).trans pointer
    · exact (kept 6 (by decide)).trans tested
    · exact (kept 7 (by decide)).trans skip
    · exact (kept 8 (by decide)).trans jump
    · exact (kept 9 (by decide)).trans pointer'
    · exact (kept 11 (by decide)).trans target
  rw [scratch, first.arrives, first.holds, shift] at rest
  split at result <;> rename_i less
  · subst result
    rw [if_neg (by decide)] at rest
    rw [if_pos less]
    exact first.append rest
  · subst result
    rw [if_pos rfl] at rest
    rw [if_neg less]
    exact first.append rest

end Machine

open Machine

/-! ## Every macro -/

/-- Every macro that is given as many operands as it takes expands, and its instructions do what the
macro is for, wherever they stand: in as many steps as the macro takes, none of which halts or
faults, the machine gets to where the macro leads, and the cells are those before the macro but for
the one it writes. -/
theorem run_expansion {which : Macro} {k : Word} {operands : List Word}
    (counted : operands.length = which.arity) :
    ∃ quads, which.expand k operands = .ok quads ∧
      ∀ m : Machine, m.status = .running → m.pc = k → which.StandsAt quads k m.get →
        ∃ o, which.outcome? k m.get operands = some o ∧ m.Runs o.steps o.next o.cells := by
  obtain ⟨quads, expanded⟩ := Option.isSome_iff_exists.1
    ((which.isSome_instructions? k operands).2 counted)
  refine ⟨quads, Macro.expand_eq_ok.2 expanded, fun m running entry standing => ?_⟩
  subst entry
  have first {w : Word} := standing.first (w := w)
  have word (i : Nat) {w : Word} := standing.word i (w := w)
  unfold Macro.instructions? at expanded
  split at expanded <;> cases expanded
  · exact ⟨_, rfl, runs_jump running (first rfl nofun) (word 1 rfl nofun) (word 3 rfl nofun)⟩
  · exact ⟨_, rfl, runs_branch running (first rfl nofun) (word 1 rfl nofun) (word 2 rfl nofun)
      (word 3 rfl nofun)⟩
  · have run := runs_branch_jump running (first rfl nofun) (word 1 rfl nofun) (word 2 rfl nofun)
      (word 3 rfl nofun) (word 4 rfl nofun) (word 5 rfl nofun) (word 7 rfl nofun)
    refine ⟨_, rfl, ?_⟩
    split at run <;> rename_i zero <;> simp only [zero, if_true, if_false] <;> exact run
  · have run := runs_compare_branch_jump running (first rfl nofun) (word 1 rfl nofun)
      (word 2 rfl nofun) (word 3 rfl nofun) (word 4 rfl nofun) (word 5 rfl nofun)
      (word 6 rfl nofun) (word 7 rfl nofun) (word 8 rfl nofun) (word 9 rfl nofun)
      (word 11 rfl nofun)
    refine ⟨_, rfl, ?_⟩
    split at run <;> rename_i less <;> simp only [less, if_true, if_false] <;> exact run
  · exact ⟨_, rfl, runs_put running (first rfl nofun) (word 1 rfl nofun) (word 2 rfl nofun)
      (word 3 rfl nofun)⟩

/-- A comparing jump from six words below the top of memory on. The cell compared first is the
scratch word of the macro, the other one is the word that names it. -/
def straddlingCells : List (Word × Word) :=
  [(0xFFFFFFFA, 12), (0xFFFFFFFB, 4), (0xFFFFFFFC, 4), (0xFFFFFFFD, 0xFFFFFFFD),
    (0xFFFFFFFE, 2), (0xFFFFFFFF, 1), (0, 4), (1, 6),
    (2, 1), (3, 5), (4, 7), (5, 0x100)]

def straddling : Machine where
  pc := 0xFFFFFFFA
  bus.memory := cellsAt straddlingCells

theorem get_straddling : straddling.get = fun a => (straddlingCells.lookup a).getD 0 :=
  funext fun a => get_cellsAt straddlingCells a

theorem run_expansion_straddling :
    [0x100, 4, 0xFFFFFFFD].length = Macro.jlt.arity ∧
      straddling.Runs 3 0x100 (Function.update straddling.get 4 1) := by
  refine ⟨rfl, ?_⟩
  obtain ⟨quads, expanded, runs⟩ :=
    @run_expansion .jlt 0xFFFFFFFA [0x100, 4, 0xFFFFFFFD] rfl
  cases expanded
  have less : straddling.get 4 < straddling.get 0xFFFFFFFD := by
    rw [get_straddling]
    decide
  obtain ⟨o, outcome, run⟩ := runs straddling rfl rfl (by
    rw [get_straddling]
    decide)
  rw [Macro.outcome?, if_pos less] at outcome
  cases outcome
  exact run

end Chifir
