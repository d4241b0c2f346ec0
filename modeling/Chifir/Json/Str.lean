import Chifir.Text.Quoted

/-!
# Texts in JSON

JSON can spell half of a pair that together stands for one character. A text that holds such a half
by itself is *torn*; every other text is a string.

1. `Str.ofSymbols` makes a text of its symbols, and `Str.symbols` gives them back.
2. `Str.quoted` shows a text between quotes and `Str.plain` without; both write a half by its
   number.
-/

namespace Chifir.Json

/-- A part of a text: a character, or half of a pair. -/
inductive Symbol
  | char (c : Char)
  | half (n : Nat)
deriving DecidableEq, Repr

namespace Symbol

def char? : Symbol → Option Char
  | char c => some c
  | half _ => none

def code : Symbol → Nat
  | char c => c.toNat
  | half n => n

/-- A symbol as it stands in a text: a half is written by its number. -/
def plain : Symbol → List Char
  | char c => [c]
  | half n => Text.escaped n

/-- A symbol in a text between `mark`s. -/
def quoted (mark : Char) : Symbol → List Char
  | char c => Text.quotedChar mark c
  | half n => Text.escaped n

end Symbol

/-- A text. -/
inductive Str
  | whole (s : String)
  /-- A text with a half in it. -/
  | torn (symbols : List Symbol)
deriving DecidableEq, Repr

namespace Str

instance : Inhabited Str := ⟨whole ""⟩

instance : Coe String Str := ⟨whole⟩

/-- The text of some symbols, which is `torn` if one of them is half of a pair. -/
def ofSymbols (symbols : List Symbol) : Str :=
  match symbols.mapM Symbol.char? with
  | some chars => whole (String.ofList chars)
  | none => torn symbols

def symbols : Str → List Symbol
  | whole s => s.toList.map .char
  | torn symbols => symbols

/-- Texts one after another. Halves that meet are not put together. -/
def join (parts : List Str) : Str := ofSymbols (parts.flatMap symbols)

/-- The numbers of the symbols, by which texts are ordered. -/
def codes (s : Str) : List Nat := s.symbols.map Symbol.code

def plain (s : Str) : String :=
  match s with
  | whole s => s
  | torn symbols => String.ofList (symbols.flatMap Symbol.plain)

def quoted (s : Str) : String :=
  match s with
  | whole s => Text.quoted s
  | torn symbols =>
    let mark := Text.quoteMark (symbols.filterMap Symbol.char?)
    String.ofList (mark :: symbols.flatMap (Symbol.quoted mark) ++ [mark])

example : (ofSymbols [.half 0xD83D, .char 'A']).quoted = "'\\ud83dA'" := by decide +kernel

end Str

end Chifir.Json
