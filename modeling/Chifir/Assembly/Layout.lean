import Chifir.Assembly.Operation

/-!
# Layout

The first walk over the source gives every statement its address and every label the address of the
instruction that follows it. It checks all that can be checked before the labels are known, and
stops at the first defect; what was laid out until then stays visible.
-/

namespace Chifir.Assembly

/-- A statement with its address, the number of its instructions, and the instructions once they are
known. -/
structure Placed where
  statement : Statement
  address : Word := 0
  size : Nat := 0
  emitted : List (Quad Word) := []
deriving DecidableEq, Repr

/-- The outcome of a walk: the lines laid out, the labels, the address `pc` behind them, and the
`error` that ended it early. -/
structure Layout where
  lines : List Placed
  symbols : Symbols
  pc : Word
  error : Option SourceError := none
deriving DecidableEq, Repr

namespace Statement

def fail (s : Statement) (defect : Defect) : SourceError := ⟨s.number, s.source, defect⟩

/-- The labels behind a statement at `pc`. A label that is in `symbols` already cannot be bound
again. -/
def bind (s : Statement) (symbols : Symbols) (pc : Word) : Except Defect Symbols :=
  match s.label with
  | none => .ok symbols
  | some name =>
    match symbols.lookup name with
    | some address => .error (.duplicateLabel name address)
    | none => .ok ((name, pc) :: symbols)

/-- How many instructions a statement with this mnemonic has. -/
def count (s : Statement) (mnemonic : String) : Except Defect Nat :=
  match Operation.read? mnemonic with
  | none => .error (.unknownMnemonic mnemonic)
  | some operation => operation.size mnemonic s.operands.length

/-- Lays out one statement at `pc`, given the labels before it. -/
def place (s : Statement) (symbols : Symbols) (pc : Word) : Layout :=
  let placed : Placed := { statement := s }
  match s.bind symbols pc with
  | .error defect => ⟨[placed], symbols, pc, s.fail defect⟩
  | .ok symbols =>
    match s.mnemonic with
    | none => { lines := [placed], symbols, pc }
    | some mnemonic =>
      match s.count mnemonic with
      | .error defect => ⟨[placed], symbols, pc, s.fail defect⟩
      | .ok size =>
        match s.operands.forM checkOperand with
        | .error defect => ⟨[{ placed with size }], symbols, pc, s.fail defect⟩
        | .ok () =>
          { lines := [{ placed with size, address := pc }], symbols
            pc := pc + 4 * UInt32.ofNat size }

end Statement

/-- Lays out lines of which the first has this `number` and stands at `pc`. -/
def layoutFrom (symbols : Symbols) (pc : Word) (number : Nat) : List String → Layout
  | [] => { lines := [], symbols, pc }
  | source :: rest =>
    match Statement.parse number source with
    | .error defect => { lines := [], symbols, pc, error := some ⟨number, source, defect⟩ }
    | .ok statement =>
      let first := statement.place symbols pc
      if first.error.isSome then first
      else
        let others := layoutFrom first.symbols first.pc (number + 1) rest
        { others with lines := first.lines ++ others.lines }

/-- The layout of a source: `layoutFrom` with no labels, at address 0 and line 1. -/
def layout (lines : List String) : Layout := layoutFrom [] 0 1 lines

end Chifir.Assembly
