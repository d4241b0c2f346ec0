import Chifir.Memory.Basic
import Chifir.Text.Lines

/-!
# Dumps

Words are shown four to a row, as many as an instruction has. `Memory.hexdump` puts the address of
its first word before each row; `imageRows` shows words alone.
-/

namespace Chifir

/-- A list cut into fours; the last piece may be shorter. -/
def inFours {α : Type} : List α → List (List α)
  | a :: b :: c :: d :: r => [a, b, c, d] :: inFours r
  | [] => []
  | r => [r]

def spaced (texts : List String) : String := " ".intercalate texts

/-- Rows of words as eight upper-case digits each, with the address of each row. -/
def dumpRows (start : Nat) : List (List Word) → List String
  | [] => []
  | row :: rows => s!"{Text.hex8 start}  {spaced (row.map Word.hex8)}" :: dumpRows (start + 4) rows

/-- The words of a block; the first sixteen of memory unless it is said which. -/
def Memory.dump (m : Memory) (start : Int := 0) (length : Int := 16) :
    Except AddressError (Array Word) :=
  m.readBlock start length

/-- The words of a block, four to a row, as `dumpRows` lays them out. -/
def Memory.hexdump (m : Memory) (start length : Int) : Except AddressError String := do
  let words ← m.readBlock start length
  return Text.joinLines (dumpRows start.toNat (inFours words.toList))

def imageRows (words : List Int) : String :=
  Text.joinLines ((inFours words).map fun row => spaced (row.map Text.hex8Lower))

end Chifir
