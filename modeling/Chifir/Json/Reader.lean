import Chifir.Json.Value

/-!
# Reading JSON

`Json.read` takes a whole text. It is strict: names are quoted, no comma comes before a closing
bracket, a number has no superfluous zero, and a text holds no control character. Beyond the
standard, the spellings of infinity and of the undefined number are taken. Of equal names in an
object the last counts. Lists and objects may lie in each other up to `nestingLimit`.

An error has the position at which reading stopped; its words also give the line and the column.
-/

namespace Chifir.Json

inductive Problem
  | byteOrderMark
  | value
  | nameQuote
  | colon
  | comma
  | extraData
  | unterminated
  | controlCharacter
  | escape
  | codeEscape
deriving DecidableEq, Repr

inductive Container
  | list
  | object
deriving DecidableEq, Repr

/-- What is wrong with a text: the grammar, at a position, a number that is too long, or a list or
an object that lies too deep. -/
inductive ReadError
  | malformed (problem : Problem) (position : Nat)
  | number (error : Text.NumeralError)
  | tooDeep (container : Container)
deriving DecidableEq, Repr

def Problem.message : Problem → String
  | byteOrderMark => "Unexpected UTF-8 BOM (decode using utf-8-sig)"
  | value => "Expecting value"
  | nameQuote => "Expecting property name enclosed in double quotes"
  | colon => "Expecting ':' delimiter"
  | comma => "Expecting ',' delimiter"
  | extraData => "Extra data"
  | unterminated => "Unterminated string starting at"
  | controlCharacter => "Invalid control character at"
  | escape => "Invalid \\escape"
  | codeEscape => "Invalid \\uXXXX escape"

def Container.name : Container → String
  | list => "array"
  | object => "object"

def ReadError.message (text : String) : ReadError → String
  | malformed problem position =>
    let before := text.toList.take position
    let line := before.countP (· == '\n') + 1
    let column := (before.reverse.takeWhile (· != '\n')).length + 1
    s!"{problem.message}: line {line} column {column} (char {position})"
  | number error => error.message
  | tooDeep container =>
    s!"maximum recursion depth exceeded while decoding a JSON {container.name} " ++
      "from a unicode string"

/-- The part of a text that is still to be read, and how many characters are read already. -/
structure Cursor where
  position : Nat
  rest : List Char

namespace Cursor

def skip (c : Cursor) (count : Nat) : Cursor := ⟨c.position + count, c.rest.drop count⟩

def skipBlanks (c : Cursor) : Cursor :=
  c.skip (c.rest.takeWhile fun x => x == ' ' || x == '\t' || x == '\n' || x == '\r').length

def fail {α : Type} (c : Cursor) (problem : Problem) : Except ReadError α :=
  .error (.malformed problem c.position)

/-- Past a word, if it stands here. -/
def word? (c : Cursor) (word : String) : Option Cursor :=
  if word.toList.isPrefixOf c.rest then some (c.skip word.length) else none

end Cursor

/-! ## Numbers -/

def leadingDigits (s : List Char) : List Char := s.takeWhile Char.isDigit

/-- How many characters the whole part of a number takes, its sign included; 0 if there is none. -/
def wholeLength (s : List Char) : Nat :=
  let sign := if s.head? = some '-' then 1 else 0
  match s.drop sign with
  | '0' :: _ => sign + 1
  | r => if (leadingDigits r).isEmpty then 0 else sign + (leadingDigits r).length

def fractionLength : List Char → Nat
  | '.' :: r => if (leadingDigits r).isEmpty then 0 else 1 + (leadingDigits r).length
  | _ => 0

def exponentLength : List Char → Nat
  | e :: r =>
    if e == 'e' || e == 'E' then
      let sign := if r.head? = some '+' ∨ r.head? = some '-' then 1 else 0
      let digits := leadingDigits (r.drop sign)
      if digits.isEmpty then 0 else 1 + sign + digits.length
    else 0
  | [] => 0

/-- The number that a text spells whose whole part, fraction and exponent have so many characters.
-/
def realOf (s : List Char) (whole fraction exponent : Nat) : Binary64 :=
  let digits := ((s.take (whole + fraction)).filter Char.isDigit)
  let places : Int := fraction - 1
  let power := (s.drop (whole + fraction)).take exponent
  let magnitude : Int := Text.digitsToNat 10 (power.filter Char.isDigit)
  let power := if power.contains '-' then -magnitude else magnitude
  Binary64.ofDecimal (s.head? = some '-') ⟨Text.digitsToNat 10 digits, power - max places 0⟩

/-- Reads a number: an integer if it has neither fraction nor exponent, else a binary64 number
(`realOf`). -/
def readNumber (c : Cursor) : Except ReadError (Value × Cursor) :=
  let whole := wholeLength c.rest
  if whole = 0 then c.fail .value
  else
    let fraction := fractionLength (c.rest.drop whole)
    let exponent := exponentLength (c.rest.drop (whole + fraction))
    if fraction + exponent = 0 then
      -- Only the number of digits can be wrong here.
      match Text.readInt .ten (String.ofList (c.rest.take whole)) with
      | .ok n => .ok (.number n, c.skip whole)
      | .error e => .error (.number e)
    else
      .ok (.real (realOf c.rest whole fraction exponent), c.skip (whole + fraction + exponent))

/-! ## Texts -/

def fourDigits? (s : List Char) : Option Nat :=
  let digits := s.take 4
  if digits.length = 4 && Text.isHex digits then some (Text.hexToNat digits) else none

/-- Whether a number is the first half of a pair that stands for one character. -/
def isHighHalf (n : Nat) : Bool := 0xD800 ≤ n && n < 0xDC00

/-- Whether a number is the second half of such a pair. -/
def isLowHalf (n : Nat) : Bool := 0xDC00 ≤ n && n < 0xE000

def symbolOf (n : Nat) : Symbol :=
  if isHighHalf n || isLowHalf n then .half n else .char (Char.ofNat n)

def pairOf (high low : Nat) : Char :=
  Char.ofNat (0x10000 + (high - 0xD800) * 0x400 + (low - 0xDC00))

def shortEscape? (c : Char) : Option Char :=
  match c with
  | '\x22' => some '\x22'
  | '\\' => some '\\'
  | '/' => some '/'
  | 'b' => some '\x08'
  | 'f' => some '\x0c'
  | 'n' => some '\n'
  | 'r' => some '\r'
  | 't' => some '\t'
  | _ => none

/-- Reads a symbol by its number; the cursor is past backslash and letter. A second half is taken
along if more text follows it (`pairOf`). -/
def readCodeEscape (c : Cursor) : Except ReadError (Symbol × Cursor) :=
  let wrong (c : Cursor) : Except ReadError (Symbol × Cursor) :=
    .error (.malformed .codeEscape (c.position - 1))
  if c.rest.length < 5 then wrong c
  else
    match fourDigits? c.rest with
    | none => wrong c
    | some n =>
      let next := c.skip 4
      match next.rest with
      | '\\' :: 'u' :: r =>
        if isHighHalf n && 4 < r.length then
          match fourDigits? r with
          | none => wrong (next.skip 2)
          | some low =>
            if isLowHalf low then
              .ok (.char (pairOf n low), next.skip 6)
            else .ok (symbolOf n, next)
        else .ok (symbolOf n, next)
      | _ => .ok (symbolOf n, next)

/-- Reads the rest of a text, whose quote stands at `start`; `done` are the symbols read, newest
first. -/
def readTextFrom (start : Nat) : Nat → List Symbol → Cursor → Except ReadError (Str × Cursor)
  | 0, _, _ => .error (.malformed .unterminated start)
  | fuel + 1, done, c =>
    match c.rest with
    | [] => .error (.malformed .unterminated start)
    | '\x22' :: _ => .ok (.ofSymbols done.reverse, c.skip 1)
    | '\\' :: 'u' :: _ => do
      let (symbol, c) ← readCodeEscape (c.skip 2)
      readTextFrom start fuel (symbol :: done) c
    | '\\' :: e :: _ =>
      match shortEscape? e with
      | some char => readTextFrom start fuel (.char char :: done) (c.skip 2)
      | none => c.fail .escape
    | '\\' :: [] => .error (.malformed .unterminated start)
    | x :: _ =>
      if x.toNat < 0x20 then c.fail .controlCharacter
      else readTextFrom start fuel (.char x :: done) (c.skip 1)

/-- Reads a text; the cursor is at its quote. -/
def readText (c : Cursor) : Except ReadError (Str × Cursor) :=
  readTextFrom c.position (c.rest.length + 1) [] (c.skip 1)

/-! ## Values -/

def readWord? (c : Cursor) : Option (Value × Cursor) :=
  let found (word : String) (value : Value) := (c.word? word).map (value, ·)
  found "null" .null <|> found "true" (.truth true) <|> found "false" (.truth false) <|>
    found "NaN" (.real .undefined) <|> found "Infinity" (.real (.infinite false)) <|>
    found "-Infinity" (.real (.infinite true))

def nestingLimit : Nat := 988

mutual
/-- Reads a value; `depth` more containers may lie in each other. -/
def readValue : Nat → Nat → Cursor → Except ReadError (Value × Cursor)
  | 0, _, c => c.fail .value
  | fuel + 1, depth, c =>
    match c.rest, depth with
    | '\x22' :: _, _ => (readText c).map fun (s, c) => (.text s, c)
    | '\x7b' :: _, 0 => .error (.tooDeep .object)
    | '\x7b' :: _, depth + 1 =>
      let c := (c.skip 1).skipBlanks
      if c.rest.head? = some '\x7d' then .ok (.object [], c.skip 1)
      else readMembers fuel depth [] c
    | '[' :: _, 0 => .error (.tooDeep .list)
    | '[' :: _, depth + 1 =>
      let c := (c.skip 1).skipBlanks
      if c.rest.head? = some ']' then .ok (.list [], c.skip 1) else readItems fuel depth [] c
    | _, _ =>
      match readWord? c with
      | some reading => .ok reading
      | none => readNumber c

/-- Reads the items of a list up to its bracket; `items` are those read, newest first. -/
def readItems : Nat → Nat → List Value → Cursor → Except ReadError (Value × Cursor)
  | 0, _, _, c => c.fail .value
  | fuel + 1, depth, items, c => do
    let (item, c) ← readValue fuel depth c
    let items := item :: items
    let c := c.skipBlanks
    match c.rest with
    | ']' :: _ => return (.list items.reverse, c.skip 1)
    | ',' :: _ => readItems fuel depth items (c.skip 1).skipBlanks
    | _ => c.fail .comma

/-- Reads the members of an object up to its brace. -/
def readMembers : Nat → Nat → Members → Cursor → Except ReadError (Value × Cursor)
  | 0, _, _, c => c.fail .value
  | fuel + 1, depth, members, c => do
    if c.rest.head? ≠ some '\x22' then c.fail .nameQuote
    else
      let (name, c) ← readText c
      let c := c.skipBlanks
      if c.rest.head? ≠ some ':' then c.fail .colon
      else
        let (value, c) ← readValue fuel depth (c.skip 1).skipBlanks
        let members := setMember members name value
        let c := c.skipBlanks
        match c.rest with
        | '\x7d' :: _ => return (.object members, c.skip 1)
        | ',' :: _ => readMembers fuel depth members (c.skip 1).skipBlanks
        | _ => c.fail .comma
end

/-- Reads a whole text: one value, and nothing but blanks around it. -/
def read (text : String) : Except ReadError Value := do
  let chars := text.toList
  let start : Cursor := ⟨0, chars⟩
  if chars.head? = some '\ufeff' then start.fail .byteOrderMark
  else
    let (value, c) ← readValue (2 * chars.length + 2) nestingLimit start.skipBlanks
    let c := c.skipBlanks
    if c.rest.isEmpty then return value else c.fail .extraData

end Chifir.Json
