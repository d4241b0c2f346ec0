import Chifir.Assembly.Operand
import Chifir.Text.LetterCase

/-!
# Operations

A mnemonic, whatever its letter case, is an opcode, else a macro, else hexadecimal digits that stand
for the first word themselves.

1. `Operation.size` counts the instructions of an operation with so many operands.
2. `Operation.encode` gives those instructions (`length_encode`).
-/

namespace Chifir.Assembly

open Text

/-- What a mnemonic stands for: an instruction, the `expansion` of a macro, or a literal whose
digits are in lower case. -/
inductive Operation
  | instruction (opcode : Opcode)
  | expansion (which : Macro)
  | literal (digits : List Char)
deriving DecidableEq, Repr

namespace Operation

/-- How a mnemonic is read: as an opcode, a macro or a literal, in this order. -/
def read? (mnemonic : String) : Option Operation :=
  let name := lowered mnemonic
  match Opcode.ofName? name, Macro.ofName? name with
  | some opcode, _ => some (instruction opcode)
  | none, some which => some (expansion which)
  | none, none => if isHex name.toList then some (literal name.toList) else none

/-- How many instructions the operation has, if it can have that many operands. -/
def size (operation : Operation) (mnemonic : String) (operands : Nat) : Except Defect Nat :=
  match operation with
  | instruction _ =>
    if operandLimit < operands then .error (.excessOperands mnemonic operands) else .ok 1
  | literal digits =>
    if operandLimit < operands then .error (.excessOperands mnemonic operands)
    else (literalWord digits).map fun _ => 1
  | expansion which =>
    if operands < which.arity then .error (.missingMacroOperands which operands)
    else if which.arity < operands then .error (.excessMacroOperands which operands)
    else .ok which.length

/-- A first word and up to three operands, zero where none is given. -/
def quad (first : Word) (values : List Word) : Quad Word :=
  ⟨first, values.getD 0 0, values.getD 1 0, values.getD 2 0⟩

/-- The instructions of an operation at `k`. -/
def encode (operation : Operation) (k : Word) (values : List Word) :
    Except Defect (List (Quad Word)) :=
  match operation with
  | instruction opcode => .ok [quad opcode.word values]
  | literal digits => (literalWord digits).map fun w => [quad w values]
  | expansion which => .ok ((which.instructions? k values).getD [])

/-- What `encode` gives has the `size` that the walk before it has counted. -/
theorem length_encode {operation : Operation} {mnemonic : String} {k : Word} {values : List Word}
    {n : Nat} (h : operation.size mnemonic values.length = .ok n) :
    ∃ quads, operation.encode k values = .ok quads ∧ quads.length = n := by
  cases operation with
  | instruction opcode =>
    simp only [size] at h
    split at h
    · cases h
    · cases h
      exact ⟨_, rfl, rfl⟩
  | literal digits =>
    simp only [size] at h
    split at h
    · cases h
    · cases hw : literalWord digits with
      | error d => rw [hw] at h; cases h
      | ok w =>
        rw [hw] at h
        cases h
        exact ⟨_, by rw [encode, hw]; rfl, rfl⟩
  | expansion which =>
    simp only [size] at h
    split at h
    · cases h
    · split at h
      · cases h
      · cases h
        obtain ⟨quads, hq⟩ := Option.isSome_iff_exists.1
          ((which.isSome_instructions? k values).2 (by omega))
        exact ⟨quads, by simp [encode, hq], which.length_of_instructions? hq⟩

end Operation

end Chifir.Assembly
