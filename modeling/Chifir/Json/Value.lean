import Chifir.Json.Str
import Chifir.Number

/-!
# JSON values

The values that a configuration file can hold, and the text that messages show them by:
`Value.render` writes lists in brackets, objects in braces, texts between quotes.
-/

namespace Chifir.Json

/-- A JSON value. The members of an object are in the order of their first occurrence, and no name
occurs twice. -/
inductive Value
  | null
  | truth (b : Bool)
  | number (n : Int)
  /-- A number with a fraction or an exponent, or one that is not finite. -/
  | real (x : Binary64)
  | text (s : Str)
  | list (items : List Value)
  | object (members : List (Str × Value))
deriving Repr

abbrev Members := List (Str × Value)

namespace Value

instance : Inhabited Value := ⟨null⟩

/-- The number of a value; a truth value counts as 0 or 1. -/
def asNumber? : Value → Option Number
  | number n => some (.whole n)
  | real x => some (.real x)
  | truth b => some (.whole (if b then 1 else 0))
  | _ => none

/-- The word for the kind of a value. -/
def kind : Value → String
  | null => "NoneType"
  | truth _ => "bool"
  | number _ => "int"
  | real _ => "float"
  | text _ => "str"
  | list _ => "list"
  | object _ => "dict"

mutual
def render : Value → String
  | null => "None"
  | truth b => if b then "True" else "False"
  | number n => Text.decimal n
  | real x => x.text
  | text s => s.quoted
  | list items => "[" ++ ", ".intercalate (showItems items) ++ "]"
  | object members => "\x7b" ++ ", ".intercalate (showMembers members) ++ "\x7d"

def showItems : List Value → List String
  | [] => []
  | item :: rest => item.render :: showItems rest

def showMembers : List (Str × Value) → List String
  | [] => []
  | (name, value) :: rest => (name.quoted ++ ": " ++ value.render) :: showMembers rest
end

/-- The text of a value where a text stands for itself. -/
def plain : Value → Str
  | text s => s
  | value => value.render

end Value

/-- Sets a member: in its place if the name occurs, else at the end. -/
def setMember (members : Members) (name : Str) (value : Value) : Members :=
  if members.any (·.1 == name) then
    members.map fun member => if member.1 == name then (name, value) else member
  else members ++ [(name, value)]

example : (Value.object [("k", .list [.null, .number 1, .text "a"])]).render =
    "\x7b'k': [None, 1, 'a']\x7d" := by decide +kernel

end Chifir.Json
