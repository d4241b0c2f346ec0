import Chifir.Instruction.Opcode
import Chifir.Memory.Basic

/-!
# Instructions

An instruction is four words: an opcode and the operands A, B and C.

1. `Memory.decode` takes the instruction at an address; the address wraps at the top of memory.
2. `Instruction.text` is its line of text: mnemonic and operands, or `.word` and four words if no
   operation has that number.
-/

namespace Chifir

/-- Four numbers in the order of an instruction; `ω` is words in memory and integers when written by
hand. -/
structure Quad (ω : Type) where
  opcode : ω
  a : ω
  b : ω
  c : ω
deriving DecidableEq, Repr

namespace Quad

variable {ω ω' : Type}

def map (f : ω → ω') (q : Quad ω) : Quad ω' := ⟨f q.opcode, f q.a, f q.b, f q.c⟩

def toList (q : Quad ω) : List ω := [q.opcode, q.a, q.b, q.c]

end Quad

structure Instruction (ω : Type) where
  address : ω
  quad : Quad ω
deriving DecidableEq, Repr

structure IllegalOpcode where
  opcode : Int
  address : Int
deriving DecidableEq, Repr

open Text in
def IllegalOpcode.message (e : IllegalOpcode) : String :=
  s!"Unknown opcode {hexPrefixed e.opcode} at {hex8 e.address}"

namespace Instruction

def toInt (i : Instruction Word) : Instruction Int := ⟨Word.toInt i.address, i.quad.map Word.toInt⟩

def operation? (i : Instruction Int) : Option Opcode := Opcode.ofInt? i.quad.opcode

def mnemonic (i : Instruction Int) : Except IllegalOpcode String :=
  match i.operation? with
  | some op => .ok op.name
  | none => .error ⟨i.quad.opcode, i.address⟩

open Text in
/-- The line of text: the address, then a `mnemonic` and three operands, or `.word` and all four
numbers. -/
def text (i : Instruction Int) : String :=
  let q := i.quad
  match i.operation? with
  | some op => s!"{hex8 i.address}: {op.name} {hex q.a} {hex q.b} {hex q.c}"
  | none => s!"{hex8 i.address}: .word {hex q.opcode} {hex q.a} {hex q.b} {hex q.c}"

end Instruction

namespace Memory

/-- The instruction at an address: its word and the three behind it, which may wrap around. -/
def decode (m : Memory) (a : Word) : Instruction Word :=
  ⟨a, m.get a, m.get (a + 1), m.get (a + 2), m.get (a + 3)⟩

def decodeAt (m : Memory) (n : Int) : Except AddressError (Instruction Word) :=
  return m.decode (← Word.address n)

end Memory

end Chifir
