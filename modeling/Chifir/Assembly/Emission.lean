import Chifir.Assembly.Layout
import Chifir.Text.Lines

/-!
# Assembly

The second walk encodes every statement at its address with all labels known; the image is the
instructions in the order of the lines. The first defect of either walk ends the assembly: then
there is no image, and what was built until then stays visible.
-/

namespace Chifir.Assembly

/-- The instructions of a statement, whose operands are looked up in `symbols`. -/
def Placed.encode (p : Placed) (symbols : Symbols) : Except Defect (List (Quad Word)) :=
  match p.statement.mnemonic with
  | none => .ok []
  | some mnemonic => do
    let values ← p.statement.operands.mapM (symbols.value p.address)
    match Operation.read? mnemonic with
    | none => .error (.unknownMnemonic mnemonic)
    | some operation => operation.encode p.address values

/-- Encodes lines in order. The first one that cannot be encoded is left as it is, and so are all
behind it. -/
def emit (symbols : Symbols) : List Placed → List Placed × Option SourceError
  | [] => ([], none)
  | p :: rest =>
    match p.encode symbols with
    | .error defect => (p :: rest, some (p.statement.fail defect))
    | .ok emitted =>
      let (rest, error) := emit symbols rest
      ({ p with emitted } :: rest, error)

end Assembly

open Assembly

/-- What becomes of a source: its lines, its labels, the address `pc` behind the last instruction,
the image, and the error if there is one. -/
structure Assembly where
  lines : List Placed := []
  symbols : Symbols := []
  pc : Word := 0
  words : List Word := []
  error : Option SourceError := none

namespace Assembly

/-- The words of the instructions that lines were encoded to, as far as they were. -/
def imageOf (lines : List Placed) : List Word :=
  lines.flatMap fun p => p.emitted.flatMap Quad.toList

/-- Assembles a source: `layout` binds the labels, `emit` encodes, and the image is filled only if
both got through. -/
def ofSource (source : String) : Assembly :=
  let laid := layout (Text.linesOf source)
  let found : Assembly := { lines := laid.lines, symbols := laid.symbols, pc := laid.pc }
  match laid.error with
  | some error => { found with error }
  | none =>
    let (lines, error) := emit laid.symbols laid.lines
    match error with
    | some error => { found with lines, error }
    | none => { found with lines, words := imageOf lines }

def result (a : Assembly) : Except SourceError (List Word) :=
  match a.error with
  | some error => .error error
  | none => .ok a.words

def symbolsByName (a : Assembly) : Symbols := a.symbols.mergeSort fun x y => x.1 ≤ y.1

/-- Writes the image into memory from `base` on. -/
def load (a : Assembly) (memory : Memory) (base : Int) : Memory × Option AddressError :=
  memory.load (a.words.map Word.toInt) base

end Assembly

/-- The image of a source, or the error of `ofSource`. -/
def assemble (source : String) : Except SourceError (List Word) := (Assembly.ofSource source).result

end Chifir
