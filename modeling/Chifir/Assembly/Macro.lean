import Chifir.Instruction.Basic

/-!
# Macros

Operands are addresses, and jumps take their target from memory. A macro writes its target into a
word of its own instructions and points the jump there; `k` is the address of its first instruction.

| macro | instructions | |---|---| | `jmp T` | `lpc k+3 0 T` | | `jeq T X` | `beq k+3 X T` | | `jne
T X` | `beq k+3 X k+8`, `lpc k+7 0 T` | | `jlt T X Y` | `cmp k+10 X Y`, `beq k+7 k+10 k+12`, `lpc
k+11 0 T` | | `ldi A V` | `lea A k+3 V` |

`jlt` keeps the result of its comparison in the idle word B of its own `lpc`.
-/

namespace Chifir

/-- The macros. -/
inductive Macro
  /-- Jump. -/
  | jmp
  /-- Jump if a cell is zero. -/
  | jeq
  /-- Jump if a cell is not zero. -/
  | jne
  /-- Jump if a cell is below another. -/
  | jlt
  /-- Put a number into a cell. -/
  | ldi
deriving DecidableEq, Repr

structure MacroArityError where
  which : Macro
  given : Nat
deriving DecidableEq, Repr

namespace Macro

def all : List Macro := [jmp, jeq, jne, jlt, ldi]

def name : Macro → String
  | jmp => "jmp"
  | jeq => "jeq"
  | jne => "jne"
  | jlt => "jlt"
  | ldi => "ldi"

def ofName? (name : String) : Option Macro := all.find? (·.name == name)

/-- How many operands the macro takes, neither more nor fewer. -/
def arity : Macro → Nat
  | jmp => 1
  | jeq => 2
  | jne => 2
  | jlt => 3
  | ldi => 2

/-- How many instructions the macro stands for. -/
def length : Macro → Nat
  | jmp => 1
  | jeq => 1
  | jne => 2
  | jlt => 3
  | ldi => 1

/-- The instructions at `k`; `none` if the number of operands is wrong. -/
def instructions? (k : Word) : Macro → List Word → Option (List (Quad Word))
  | jmp, [t] => some [⟨Opcode.lpc.word, k + 3, 0, t⟩]
  | jeq, [t, x] => some [⟨Opcode.beq.word, k + 3, x, t⟩]
  | jne, [t, x] => some [⟨Opcode.beq.word, k + 3, x, k + 8⟩, ⟨Opcode.lpc.word, k + 7, 0, t⟩]
  | jlt, [t, x, y] => some
      [⟨Opcode.cmp.word, k + 10, x, y⟩, ⟨Opcode.beq.word, k + 7, k + 10, k + 12⟩,
        ⟨Opcode.lpc.word, k + 11, 0, t⟩]
  | ldi, [a, v] => some [⟨Opcode.lea.word, a, k + 3, v⟩]
  | _, _ => none

/-- What `instructions?` gives, or the complaint that the number of operands is wrong. -/
def expand (m : Macro) (k : Word) (operands : List Word) :
    Except MacroArityError (List (Quad Word)) :=
  match m.instructions? k operands with
  | some quads => .ok quads
  | none => .error ⟨m, operands.length⟩

theorem ofName?_name (m : Macro) : ofName? m.name = some m := by cases m <;> decide +kernel

/-- A macro has `instructions?` exactly for as many operands as it takes. -/
theorem isSome_instructions? (m : Macro) (k : Word) (operands : List Word) :
    (m.instructions? k operands).isSome ↔ operands.length = m.arity := by
  cases m <;> rcases operands with _ | ⟨_, _ | ⟨_, _ | ⟨_, _ | _⟩⟩⟩ <;>
    simp [instructions?, arity]

theorem length_of_instructions? {m : Macro} {k : Word} {operands : List Word}
    {quads : List (Quad Word)} (h : m.instructions? k operands = some quads) :
    quads.length = m.length := by
  cases m <;> rcases operands with _ | ⟨_, _ | ⟨_, _ | ⟨_, _ | _⟩⟩⟩ <;>
    simp [instructions?] at h <;> subst h <;> rfl

end Macro

def MacroArityError.message (e : MacroArityError) : String :=
  s!"{e.which.name} takes {e.which.arity} operand(s), got {e.given}"

end Chifir
