import Chifir.Text.Printable
import Chifir.Text.Hexadecimal

/-!
# Quoted text

Error messages show the text they complain about between quotes.

1. Single quotes are used unless the text holds a single quote and no double one (`quoteMark`).
2. The quote in use and the backslash follow a backslash; the tab and the two common breaks have
   letters.
3. Other characters that are not printable are written by their number in two, four or eight
   hexadecimal digits.
-/

namespace Chifir.Text

def quoteMark (s : List Char) : Char :=
  if s.contains '\x27' && ! s.contains '\x22' then '\x22' else '\x27'

def escaped (n : Nat) : List Char :=
  if n < 0x100 then '\\' :: 'x' :: padLeft '0' 2 (hexDigits n)
  else if n < 0x10000 then '\\' :: 'u' :: padLeft '0' 4 (hexDigits n)
  else '\\' :: 'U' :: padLeft '0' 8 (hexDigits n)

/-- One character of a text between `mark`s. -/
def quotedChar (mark c : Char) : List Char :=
  if c == mark || c == '\\' then ['\\', c]
  else if c == '\t' then ['\\', 't']
  else if c == '\n' then ['\\', 'n']
  else if c == '\r' then ['\\', 'r']
  else if isPrintable c then [c]
  else escaped c.toNat

def quote (s : List Char) : List Char :=
  let mark := quoteMark s
  mark :: s.flatMap (quotedChar mark) ++ [mark]

def quoted (s : String) : String := String.ofList (quote s.toList)

example : quoted "it's" = "\x22it's\x22" := by decide +kernel
example : quoted "a\\b\n\ufeff" = "'a\\\\b\\n\\ufeff'" := by decide +kernel

end Chifir.Text
