import Chifir.Assembly.Emission
import Chifir.Memory.Dump

/-!
# Listings

A listing shows two header lines, then each instruction beside its address with the source at the
first instruction of a line, the remaining lines of source below each other in the source column,
and at the end the labels by address.
-/

namespace Chifir.Assembly

open Text

def sourceWidth : Nat := 40

def wordsWidth : Nat := 35

def listingHeader : List String :=
  ["    ADDR  WORDS                                SOURCE", String.ofList (List.replicate 72 '-')]

/-- The first `sourceWidth` characters of a line of source. -/
def shownSource (source : String) : List Char := (trim source.toList).take sourceWidth

/-- Three columns; blanks at the end are dropped. -/
def listingRow (address : Word) (quad : Quad Word) (source : List Char) : String :=
  let row := s!"{Word.hex8 address}  {spaced (quad.toList.map Word.hex8)}  "
  String.ofList (trimEnd (row.toList ++ source))

/-- The instructions from an address on, none with source beside it. -/
def instructionRows (address : Word) : List (Quad Word) → List String
  | [] => []
  | quad :: rest => listingRow address quad [] :: instructionRows (address + 4) rest

/-- The rows of one line of source; a blank line without instructions has none. -/
def Placed.rows (p : Placed) : List String :=
  let source := shownSource p.statement.source
  match p.emitted with
  | [] =>
    if source.isEmpty then []
    else [String.ofList (List.replicate (8 + 2 + wordsWidth + 2) ' ' ++ source)]
  | quad :: rest => listingRow p.address quad source :: instructionRows (p.address + 4) rest

/-- The order of the labels in a listing: by address, then by name. -/
def symbolBefore (x y : String × Word) : Bool := x.2 < y.2 || (x.2 == y.2 && x.1 ≤ y.1)

/-- The rows of the labels in the order of `symbolBefore`, under an empty line and a title; none
without labels. -/
def symbolRows (symbols : Symbols) : List String :=
  if symbols.isEmpty then []
  else "" :: "SYMBOLS" :: (symbols.mergeSort symbolBefore).map fun s => s!"{Word.hex8 s.2}  {s.1}"

end Assembly

/-- The listing of what was assembled: the header, the rows of all lines, and those of `symbolRows`.
-/
def Assembly.listing (a : Assembly) : String :=
  Text.joinLines (Assembly.listingHeader ++ a.lines.flatMap Assembly.Placed.rows ++
    Assembly.symbolRows a.symbols)

end Chifir
