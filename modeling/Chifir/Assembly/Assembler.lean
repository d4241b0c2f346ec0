import Mathlib.Data.List.ModifyLast
import Chifir.Assembly.Image
import Chifir.Assembly.Listing

/-!
# Assemblers

An assembler is used for one source after another. It keeps its lines, labels, address counter and
image, and changes them one by one while it walks over a source, so an error leaves what was
reached. `Assembly` is the same of one source without an assembler.
-/

namespace Chifir

open Assembly

/-- What an assembler keeps from one source to the next. `assemble` sets all of it back before it
looks at a source. -/
structure Assembler where
  symbols : Symbols := []
  pc : Word := 0
  words : List Word := []
  lines : List Placed := []

namespace Assembler

abbrev Job (α : Type) := EStateM SourceError Assembler α

/-- Raises a defect of the statement `s` as the error `s.fail defect`. -/
def settle {α : Type} (s : Statement) : Except Defect α → Job α
  | .ok a => pure a
  | .error defect => throw (s.fail defect)

def revise (a : Assembler) (change : Placed → Placed) : Assembler :=
  { a with lines := a.lines.modifyLast change }

/-- Lays out a statement behind the newest line. The line is kept even if its label, its `size` or
one of its operands is wrong, with as much of it as was found by then. -/
def lay (s : Statement) : Job Unit := do
  modify fun a => { a with lines := a.lines ++ [{ statement := s }] }
  let a ← get
  let symbols ← settle s (s.bind a.symbols a.pc)
  modify ({ · with symbols })
  match s.mnemonic with
  | none => pure ()
  | some mnemonic =>
    let size ← settle s (s.count mnemonic)
    modify (revise · ({ · with size }))
    settle s (s.operands.forM checkOperand)
    modify fun a => a.revise ({ · with address := a.pc })
    modify fun a => { a with pc := a.pc + 4 * UInt32.ofNat size }

/-- The first walk over lines, of which the first has the given `number`. -/
def layFrom (number : Nat) : List String → Job Unit
  | [] => pure ()
  | source :: rest => do
    match Statement.parse number source with
    | .error defect => throw ⟨number, source, defect⟩
    | .ok s =>
      lay s
      layFrom (number + 1) rest

/-- The second walk over lines from the one at `i` on; `image` is that of the lines before. -/
def encodeFrom (i : Nat) (image : List Word) : List Placed → Job (List Word)
  | [] => pure image
  | p :: rest =>
    match p.statement.mnemonic with
    | none => encodeFrom (i + 1) image rest
    | some _ => do
      let a ← get
      let emitted ← settle p.statement (p.encode a.symbols)
      modify fun a => { a with lines := a.lines.set i { p with emitted } }
      encodeFrom (i + 1) (image ++ emitted.flatMap Quad.toList) rest

/-- Assembles a source and gives its image. -/
def assemble (source : String) : Job (List Word) := do
  modify ({ · with symbols := [] })
  modify ({ · with words := [] })
  modify ({ · with lines := [] })
  modify ({ · with pc := 0 })
  layFrom 1 (Text.linesOf source)
  let a ← get
  let words ← encodeFrom 0 [] a.lines
  modify ({ · with words })
  return words

/-- The image, or the error that was raised. -/
def answer {α : Type} : EStateM.Result SourceError Assembler α → Except SourceError α
  | .ok a _ => .ok a
  | .error e _ => .error e

def kept {α : Type} : EStateM.Result SourceError Assembler α → Assembler
  | .ok _ a => a
  | .error _ a => a

/-- An assembler that was used for these `sources`, the first one first, whatever became of them. -/
def usedFor (sources : List String) : Assembler :=
  sources.foldl (fun a source => kept (assemble source a)) {}

/-- What became of the last source, as the `Assembly` that `Assembly.ofSource` makes of one source
alone. -/
def reached (a : Assembler) : Assembly :=
  { lines := a.lines, symbols := a.symbols, pc := a.pc, words := a.words }

def listing (a : Assembler) : String := a.reached.listing

def bytes (a : Assembler) : List UInt8 := Image.encode a.words

def load (a : Assembler) (memory : Memory) (base : Int) : Memory × Option AddressError :=
  a.reached.load memory base

end Assembler

end Chifir
