import Chifir.Instruction.Basic
import Chifir.Text.Lines

/-!
# Disassembly

Instructions are taken four words apart from a start that may be any integer; addresses wrap. Memory
has no end, so there the count must be given; a list of words ends with the instruction that holds
its last word.
-/

namespace Chifir

inductive DisassemblyError
  | countMissing
deriving DecidableEq, Repr

def DisassemblyError.message : DisassemblyError → String
  | countMissing => "count is required when disassembling from Memory"

def Memory.instructions (m : Memory) (start : Int) (count : Nat) : List (Instruction Word) :=
  (List.range count).map fun (i : Nat) => m.decode (Word.ofInt (start + 4 * i))

/-- The instructions of memory, of which a request must say how many: there is no end to count to.
-/
def disassembleMemory (m : Memory) (start : Int) :
    Option Int → Except DisassemblyError (List (Instruction Word))
  | some count => .ok (m.instructions start count.toNat)
  | none => .error .countMissing

/-- How many instructions reach from `start` to the end of `length` words. -/
def instructionsTo (length : Nat) (start : Int) : Int := (length - start + 3) / 4

/-- The instructions of a list of words that starts at address 0. -/
def disassembleWords (words : List Int) (start : Int) (count : Option Int) :
    List (Instruction Word) :=
  (Memory.empty.load words 0).1.instructions start
    (count.getD (instructionsTo words.length start)).toNat

/-- The instructions of an image, if memory has room for it. The `count` is that of `instructionsTo`
unless it is given. -/
def disassembleImage (words : List Int) (start : Int) (count : Option Int) :
    Except AddressError (List (Instruction Word)) :=
  match (Memory.empty.load words 0).2 with
  | none => .ok (disassembleWords words start count)
  | some error => .error error

def disassemblyText (instructions : List (Instruction Word)) : String :=
  Text.joinLines (instructions.map fun i => i.toInt.text)

end Chifir
