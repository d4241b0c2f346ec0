import Chifir.Word

/-!
# Opcodes

Seventeen operations, numbered from zero. `Opcode.ofInt?` reads a number and `Opcode.ofName?` a
mnemonic; each undoes its printer (`ofInt?_number`, `ofName?_name`).
-/

namespace Chifir

/-- The operations; A, B and C are the operand words of the instruction, M is memory. -/
inductive Opcode
  /-- Halt. -/
  | brk
  /-- Continue at M[A]. -/
  | lpc
  /-- Continue at M[A] if M[B] is zero. -/
  | beq
  /-- M[A] becomes the address of the instruction. -/
  | spc
  /-- M[A] becomes M[B]. -/
  | lea
  /-- M[A] becomes M[M[B]]. -/
  | lra
  /-- M[M[B]] becomes M[A]. -/
  | sra
  /-- M[A] becomes M[B] + M[C]. -/
  | add
  /-- M[A] becomes M[B] − M[C]. -/
  | sub
  /-- M[A] becomes M[B] × M[C]. -/
  | mul
  /-- M[A] becomes the quotient of M[B] by M[C]. -/
  | div
  /-- M[A] becomes the remainder of M[B] by M[C]. -/
  | mod
  /-- M[A] becomes 1 if M[B] < M[C], else 0. -/
  | cmp
  /-- M[A] becomes the complement of the bits that M[B] and M[C] share. -/
  | nad
  /-- Refresh the display. -/
  | drw
  /-- M[A] becomes the last key. -/
  | key
  /-- Nothing. -/
  | nop
deriving DecidableEq, Repr

namespace Opcode

def all : List Opcode :=
  [brk, lpc, beq, spc, lea, lra, sra, add, sub, mul, div, mod, cmp, nad, drw, key, nop]

def number (op : Opcode) : Nat := op.ctorIdx

def word (op : Opcode) : Word := UInt32.ofNat op.number

def name : Opcode → String
  | brk => "brk"
  | lpc => "lpc"
  | beq => "beq"
  | spc => "spc"
  | lea => "lea"
  | lra => "lra"
  | sra => "sra"
  | add => "add"
  | sub => "sub"
  | mul => "mul"
  | div => "div"
  | mod => "mod"
  | cmp => "cmp"
  | nad => "nad"
  | drw => "drw"
  | key => "key"
  | nop => "nop"

/-- The opcode that a number stands for, which is that of its place in `all`. -/
def ofInt? (n : Int) : Option Opcode := if 0 ≤ n then all[n.toNat]? else none

def ofWord? (w : Word) : Option Opcode := all[w.toNat]?

def ofName? (name : String) : Option Opcode := all.find? (·.name == name)

theorem ofInt?_number (op : Opcode) : ofInt? op.number = some op := by cases op <;> rfl

theorem ofWord?_word (op : Opcode) : ofWord? op.word = some op := by cases op <;> rfl

theorem toNat_word (op : Opcode) : op.word.toNat = op.number := by cases op <;> rfl

/-- A word is that of an opcode exactly if it has its `number`. -/
theorem eq_word_iff {w : Word} {op : Opcode} : w = op.word ↔ w.toNat = op.number := by
  rw [← UInt32.toNat_inj, toNat_word]

theorem word_inj {op op' : Opcode} : op.word = op'.word ↔ op = op' := by
  refine ⟨fun same => ?_, congrArg word⟩
  have found := ofWord?_word op
  rw [same, ofWord?_word] at found
  exact (Option.some.inj found).symm

theorem ofWord?_eq_some {w : Word} {op : Opcode} : ofWord? w = some op ↔ w = op.word := by
  refine ⟨fun decoded => ?_, fun same => same ▸ ofWord?_word op⟩
  have numbered : ∀ n < 17, ∀ op : Opcode, all[n]? = some op → n = op.number := by decide
  obtain ⟨inside, _⟩ := List.getElem?_eq_some_iff.1 decoded
  exact eq_word_iff.2 (numbered w.toNat inside op decoded)

theorem ofName?_name (op : Opcode) : ofName? op.name = some op := by cases op <;> decide +kernel

end Opcode

end Chifir
