import Chifir.Assembly.Defect
import Chifir.Text.Blank

/-!
# Statements

A line of source is a label, a mnemonic with operands, and a comment, all optional. A semicolon
starts the comment, blanks separate the tokens before it, and a first token that ends in a colon is
a label.
-/

namespace Chifir.Assembly

open Text

def isNameStart (c : Char) : Bool := c.isAlpha || c == '_' || c == '.'

def isNamePart (c : Char) : Bool := isNameStart c || c.isDigit || c == '-'

def isName : List Char → Bool
  | [] => false
  | c :: r => isNameStart c && r.all isNamePart

/-- A line of source taken apart; `number` counts from one. -/
structure Statement where
  number : Nat
  source : String
  label : Option String := none
  mnemonic : Option String := none
  operands : List String := []
  comment : Option String := none
deriving DecidableEq, Repr

namespace Statement

/-- The comment of a line: what follows its first semicolon, without the blanks around it. -/
def commentOf (line : List Char) : Option (List Char) :=
  match line.dropWhile (· != ';') with
  | [] => none
  | _ :: r => some (trim r)

/-- The tokens of a line: the words before its first semicolon. -/
def tokensOf (line : List Char) : List (List Char) := words (line.takeWhile (· != ';'))

def withTokens (s : Statement) : List (List Char) → Statement
  | [] => s
  | mnemonic :: operands =>
    { s with mnemonic := some (String.ofList mnemonic), operands := operands.map String.ofList }

/-- The name of a token that claims to be a label. -/
def labelOf? (token : List Char) : Option (List Char) :=
  if token.getLast? = some ':' then some token.dropLast else none

/-- Takes a line apart. The one thing that can be wrong is its label, since `labelOf?` asks only for
the colon. -/
def parse (number : Nat) (source : String) : Except Defect Statement :=
  let line := source.toList
  let blank : Statement := { number, source, comment := (commentOf line).map String.ofList }
  match tokensOf line with
  | [] => .ok blank
  | token :: rest =>
    match labelOf? token with
    | none => .ok (blank.withTokens (token :: rest))
    | some name =>
      if isName name then .ok ({ blank with label := some (String.ofList name) }.withTokens rest)
      else .error (.malformedLabel (String.ofList token))

end Statement

end Chifir.Assembly
