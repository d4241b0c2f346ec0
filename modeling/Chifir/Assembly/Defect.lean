import Chifir.Assembly.Macro

/-!
# Defects

What can be wrong with a line of source, and the error that names the line.
-/

namespace Chifir.Assembly

/-- What is wrong with a line. Tokens are as they stand in the source unless said otherwise. -/
inductive Defect
  | malformedLabel (token : String)
  | duplicateLabel (name : String) (address : Word)
  | unknownMnemonic (token : String)
  | excessOperands (mnemonic : String) (given : Nat)
  | missingMacroOperands (which : Macro) (given : Nat)
  | excessMacroOperands (which : Macro) (given : Nat)
  | malformedOperand (token : String)
  /-- `digits` are without slash and sign, and those of a mnemonic in lower case. -/
  | wideLiteral (digits : String)
  | undefinedLabel (name : String)
deriving DecidableEq, Repr

def operandLimit : Nat := 3

def Defect.message : Defect → String
  | malformedLabel token => s!"Malformed label '{token}'"
  | duplicateLabel name address => s!"Duplicate label '{name}' (already at {Word.hex8 address})"
  | unknownMnemonic token => s!"Unknown mnemonic '{token}'"
  | excessOperands mnemonic given =>
    s!"Too many operands for '{mnemonic}' (max {operandLimit}, got {given})"
  | missingMacroOperands which given =>
    s!"Missing operands for macro '{which.name}' (needs {which.arity}, got {given})"
  | excessMacroOperands which given =>
    s!"Too many operands for macro '{which.name}' (takes {which.arity}, got {given})"
  | malformedOperand token => s!"Malformed operand '{token}'"
  | wideLiteral digits => s!"Hex literal '{digits}' does not fit in 32 bits"
  | undefinedLabel name => s!"Undefined label '{name}'"

/-- A defect, the number of its line counted from one, and the line as it stands in the source. -/
structure SourceError where
  line : Nat
  source : String
  defect : Defect
deriving DecidableEq, Repr

def SourceError.message (e : SourceError) : String := s!"Line {e.line}: {e.defect.message}"

end Chifir.Assembly
