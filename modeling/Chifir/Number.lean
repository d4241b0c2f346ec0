import Chifir.Binary64.Decimal
import Chifir.Text.Decimal

/-!
# Numbers

A number is whole, of any size, or a binary64 number. Comparisons are exact. A sum or product is
whole if both parts are; otherwise both parts become binary64 numbers first.
-/

namespace Chifir

/-- A number: a `whole` one, or a binary64 number, which may be undefined or infinite. -/
inductive Number
  | whole (n : Int)
  | real (x : Binary64)
deriving DecidableEq, Repr

instance : Inhabited Number := ⟨.whole 0⟩

namespace Number

def isReal : Number → Bool
  | whole _ => false
  | real _ => true

def isUndefined : Number → Bool
  | real .undefined => true
  | _ => false

/-- The exact value of a number, as a numerator over a denominator; 0 if it is not finite. -/
def fraction : Number → Int × Nat
  | whole n => (n, 1)
  | real x => x.fraction

/-- Whether one number is less than another; an undefined one is not, nor is any less than it. -/
def lt (a b : Number) : Bool :=
  match a, b with
  | whole m, whole n => m < n
  | real .undefined, _ => false
  | _, real .undefined => false
  | real (.infinite s), real (.infinite t) => s && ! t
  | real (.infinite s), _ => s
  | _, real (.infinite t) => ! t
  | a, b => a.fraction.1 * b.fraction.2 < b.fraction.1 * a.fraction.2

/-- Whether one number is at most another; an undefined one is not, nor is any at most it. -/
def le (a b : Number) : Bool := ! a.isUndefined && ! b.isUndefined && ! b.lt a

/-- An integer without a binary64 number near it. -/
inductive Overflow
  | tooLarge
deriving DecidableEq, Repr

/-- A number as a binary64 number. -/
def toBinary64 : Number → Except Overflow Binary64
  | real x => .ok x
  | whole n =>
    match Binary64.ofInt n with
    | .infinite _ => .error .tooLarge
    | x => .ok x

/-- The product. With one factor that is `real`, both are taken as binary64 numbers. -/
def mul : Number → Number → Except Overflow Number
  | whole m, whole n => .ok (whole (m * n))
  | a, b => return real ((← a.toBinary64).mul (← b.toBinary64))

/-- The sum. With one term that is `real`, both are taken as binary64 numbers. -/
def add : Number → Number → Except Overflow Number
  | whole m, whole n => .ok (whole (m + n))
  | a, b => return real ((← a.toBinary64).add (← b.toBinary64))

/-- The least natural number that is not below a number; none if there is no such. -/
def ceil? : Number → Option Nat
  | whole n => some n.toNat
  | real (.finite false mantissa exponent) =>
    let den := Binary64.shiftUp 1 (-exponent)
    some ((Binary64.shiftUp mantissa exponent + (den - 1)) / den)
  | real (.finite true ..) => some 0
  | real (.infinite true) => some 0
  | real _ => none

def text : Number → String
  | whole n => Text.decimal n
  | real x => x.text

@[simp] theorem lt_whole (m n : Int) : (whole m).lt (whole n) = decide (m < n) := rfl

@[simp] theorem le_whole (m n : Int) : (whole m).le (whole n) = decide (m ≤ n) := by
  by_cases h : n < m
  · simp [le, isUndefined, h]
  · simp [le, isUndefined, h, Int.not_lt.1 h]

@[simp] theorem mul_whole (m n : Int) : (whole m).mul (whole n) = .ok (whole (m * n)) := rfl

@[simp] theorem add_whole (m n : Int) : (whole m).add (whole n) = .ok (whole (m + n)) := rfl

@[simp] theorem ceil?_whole (n : Int) : (whole n).ceil? = some n.toNat := rfl

end Number

end Chifir
