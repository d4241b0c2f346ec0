import Chifir.Text.Blank
import Chifir.Text.Hexadecimal
import Chifir.Text.Quoted

/-!
# Numerals

The spellings of integers in arguments and settings.

1. A numeral may have blanks around it and one sign; digits may be separated by single underscores.
2. The decimal digits of every script count as digits (`digitValue?`).
3. With base `any`, `0x`, `0o` and `0b` name the base, and a plain numeral may start with zero only
   if it is zero; with base `sixteen`, `0x` may stand before the digits.
4. A decimal numeral has at most 4300 digits.
5. `readArgument` takes decimal numerals unless `0x` or `$` says otherwise; `readHex` takes
   hexadecimal ones.
-/

namespace Chifir.Text

/-- How the base of a numeral is found. -/
inductive Base
  /-- Named in the numeral, ten if it is not. -/
  | any
  | ten
  | sixteen
deriving DecidableEq, Repr

def Base.number : Base → Nat
  | any => 0
  | ten => 10
  | sixteen => 16

/-- Why a text is not a numeral: it is `malformed` in its base, or has too many decimal digits. -/
inductive NumeralError
  | malformed (base : Base) (text : String)
  | tooLong (digits : Nat)
deriving DecidableEq, Repr

def decimalDigitLimit : Nat := 4300

/-- How much of a quoted text a message shows. -/
def shownLimit : Nat := 200

def malformedMessage (base : Base) (quotedText : String) : String :=
  let shown := String.ofList (quotedText.toList.take shownLimit)
  s!"invalid literal for int() with base {base.number}: {shown}"

def NumeralError.message : NumeralError → String
  | malformed base text => malformedMessage base (quoted text)
  | tooLong digits =>
    s!"Exceeds the limit ({decimalDigitLimit} digits) for integer string conversion: " ++
      s!"value has {digits} digits; use sys.set_int_max_str_digits() to increase the limit"

/-- The zeros of the scripts that have decimal digits; the nine digits that follow each are its
others. -/
def decimalZeros : List Nat := [
    0x30, 0x660, 0x6F0, 0x7C0, 0x966, 0x9E6, 0xA66, 0xAE6, 0xB66, 0xBE6, 0xC66, 0xCE6, 0xD66,
    0xDE6, 0xE50, 0xED0, 0xF20, 0x1040, 0x1090, 0x17E0, 0x1810, 0x1946, 0x19D0, 0x1A80, 0x1A90,
    0x1B50, 0x1BB0, 0x1C40, 0x1C50, 0xA620, 0xA8D0, 0xA900, 0xA9D0, 0xA9F0, 0xAA50, 0xABF0,
    0xFF10, 0x104A0, 0x10D30, 0x11066, 0x110F0, 0x11136, 0x111D0, 0x112F0, 0x11450, 0x114D0,
    0x11650, 0x116C0, 0x11730, 0x118E0, 0x11950, 0x11C50, 0x11D50, 0x11DA0, 0x16A60, 0x16AC0,
    0x16B50, 0x1D7CE, 0x1D7D8, 0x1D7E2, 0x1D7EC, 0x1D7F6, 0x1E140, 0x1E2F0, 0x1E950, 0x1FBF0]

/-- The value of a decimal digit of any script. -/
def decimalValue? (c : Char) : Option Nat :=
  (decimalZeros.find? fun z => z ≤ c.toNat && c.toNat < z + 10).map (c.toNat - ·)

/-- The value of a digit: a decimal digit of any script, or one of the letters a to f. -/
def digitValue? (c : Char) : Option Nat := hexValue? c <|> decimalValue? c

def isDigitIn (radix : Nat) (c : Char) : Bool := (digitValue? c).any (· < radix)

/-- Blanks that may stand around a numeral: all but the four separator controls. -/
def isNumeralBlank (c : Char) : Bool := isBlank c && ! (0x1C ≤ c.toNat && c.toNat ≤ 0x1F)

/-- Whether every underscore stands between two digits. -/
def wellSpaced : List Char → Bool
  | [] => false
  | '_' :: _ => false
  | [_] => true
  | _ :: '_' :: r => wellSpaced r
  | _ :: r => wellSpaced r

/-- The number that digits denote, underscores left out. -/
def digitsToNat (radix : Nat) (s : List Char) : Nat :=
  s.foldl (fun n c => if c == '_' then n else n * radix + (digitValue? c).getD 0) 0

/-- The sign of a numeral and what follows it. -/
def takeSign : List Char → Bool × List Char
  | '-' :: r => (true, r)
  | '+' :: r => (false, r)
  | s => (false, s)

def isZeroDigit (c : Char) : Bool := digitValue? c == some 0

/-- The base that the letter after a leading zero names. -/
def radixOfLetter? (c : Char) : Option Nat :=
  if c == 'x' || c == 'X' then some 16
  else if c == 'o' || c == 'O' then some 8
  else if c == 'b' || c == 'B' then some 2
  else none

/-- A numeral without its sign: radix, digits, and whether it must be zero. -/
structure Magnitude where
  radix : Nat
  digits : List Char
  zeroOnly : Bool

def dropUnderscore : List Char → List Char
  | '_' :: r => r
  | s => s

/-- Finds the base of a numeral and drops the mark that names it. -/
def Base.split (base : Base) (s : List Char) : Magnitude :=
  let unmarked : Magnitude :=
    match base with
    | any => ⟨10, s, s.head?.any isZeroDigit⟩
    | ten => ⟨10, s, false⟩
    | sixteen => ⟨16, s, false⟩
  match s with
  | z :: x :: r =>
    if isZeroDigit z then
      match base, radixOfLetter? x with
      | any, some radix => ⟨radix, dropUnderscore r, false⟩
      | sixteen, some 16 => ⟨16, dropUnderscore r, false⟩
      | _, _ => unmarked
    else unmarked
  | _ => unmarked

/-- The natural number that a magnitude denotes, or the `error` if it denotes none. -/
def Magnitude.value (m : Magnitude) (error : NumeralError) : Except NumeralError Nat :=
  let inside (c : Char) := isDigitIn m.radix c || c == '_'
  let run := m.digits.takeWhile inside
  let count := run.countP (· != '_')
  if ! wellSpaced run then .error error
  -- The digits are counted before what stands behind them is looked at.
  else if m.radix == 10 && decimalDigitLimit < count then .error (.tooLong count)
  else if run.length < m.digits.length then .error error
  else
    let n := digitsToNat m.radix run
    if m.zeroOnly && n != 0 then .error error else .ok n

/-- The integer that a text spells: `Base.split` finds the base, and `Magnitude.value` reads the
digits. -/
def readInt (base : Base) (text : String) : Except NumeralError Int := do
  let inner := text.toList.dropWhile isNumeralBlank
  let inner := (inner.reverse.dropWhile isNumeralBlank).reverse
  let (negative, rest) := takeSign inner
  let n ← (base.split rest).value (.malformed base text)
  return if negative then - (n : Int) else n

/-- A number argument: hexadecimal after `0x` or `$`, decimal otherwise. -/
def readArgument (text : String) : Except NumeralError Int :=
  match trim text.toList with
  | '0' :: x :: r =>
    readInt (if x == 'x' || x == 'X' then .sixteen else .ten) (String.ofList ('0' :: x :: r))
  | '$' :: r => readInt .sixteen (String.ofList r)
  | s => readInt .ten (String.ofList s)

/-- An address argument: hexadecimal, with or without `0x` or `$` before it. -/
def readHex (text : String) : Except NumeralError Int :=
  match trim text.toList with
  | '$' :: r => readInt .sixteen (String.ofList r)
  | s => readInt .sixteen (String.ofList s)

example : (readInt .any "0_0").toOption = some 0 := by decide +kernel
example : (readInt .any " -0x_1F ").toOption = some (-31) := by decide +kernel
example : (readInt .any "010").toOption = none := by decide +kernel
example : (readArgument "$10").toOption = some 16 := by decide +kernel
example : (readHex "0b1").toOption = some 177 := by decide +kernel

end Chifir.Text
