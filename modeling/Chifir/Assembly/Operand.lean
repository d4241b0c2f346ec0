import Chifir.Assembly.Statement

/-!
# Operands

1. An operand is a name, hexadecimal digits, or relative: a slash, perhaps a minus, and digits
   (`Operand.read?`).
2. A token that is the name of a label stands for its address, whatever else it could be read as
   (`Symbols.value`).
3. Literals have at most 32 bits; a relative operand counts instructions from the line's own
   address, and wraps.
-/

namespace Chifir.Assembly

open Text

/-- The labels bound so far with their addresses, the newest first. No name occurs twice. -/
abbrev Symbols := List (String × Word)

/-- The ways to write an operand. The `digits` of a `relative` one, which counts from its
instruction, and of a `literal` are hexadecimal. -/
inductive Operand
  | relative (backward : Bool) (digits : List Char)
  | literal (digits : List Char)
  | name
deriving DecidableEq, Repr

namespace Operand

/-- How a token is read as an operand. What can be both digits and a name is read as digits. -/
def read? (token : List Char) : Option Operand :=
  match token with
  | '/' :: '-' :: r => if isHex r then some (relative true r) else none
  | '/' :: r => if isHex r then some (relative false r) else none
  | _ => if isHex token then some (literal token) else if isName token then some name else none

end Operand

/-- The word that hexadecimal digits denote. Digits of more than 32 bits are refused. -/
def literalWord (digits : List Char) : Except Defect Word :=
  let n := hexToNat digits
  if n < addressLimit then .ok (UInt32.ofNat n) else .error (.wideLiteral (String.ofList digits))

/-- Refuses a token that `Operand.read?` does not know. Labels are looked up only by
`Symbols.value`. -/
def checkOperand (token : String) : Except Defect Unit :=
  if (Operand.read? token.toList).isSome then .ok () else .error (.malformedOperand token)

/-- The value of an operand of the instruction at `k`, from which `relative` ones count. -/
def Symbols.value (symbols : Symbols) (k : Word) (token : String) : Except Defect Word :=
  match symbols.lookup token with
  | some address => .ok address
  | none =>
    match Operand.read? token.toList with
    | some (.relative backward digits) =>
      (literalWord digits).map fun n => if backward then k - 4 * n else k + 4 * n
    | some (.literal digits) => literalWord digits
    | some .name => .error (.undefinedLabel token)
    | none => .error (.malformedOperand token)

end Chifir.Assembly
