/-!
# Binary64 numbers

A binary64 number is a mantissa of at most 53 bits times a power of two, or infinite, or undefined.

1. `Binary64.round` is the number nearest to a fraction; halfway between two, the one with the even
   mantissa.
2. Sums and products are worked out exactly and rounded once.
3. `Binary64.fraction` is the exact value of a finite number.
-/

namespace Chifir

/-- A binary64 number. A finite one is `mantissa * 2 ^ exponent`, below zero if `negative`. -/
inductive Binary64
  | finite (negative : Bool) (mantissa : Nat) (exponent : Int)
  | infinite (negative : Bool)
  /-- The result of an operation that has none. -/
  | undefined
deriving DecidableEq, Repr

namespace Binary64

def mantissaBits : Nat := 53

def leastExponent : Int := -1074

def greatestExponent : Int := 971

/-- `n * 2 ^ e` if `e` is not negative, and `n` otherwise. -/
def shiftUp (n : Nat) (e : Int) : Nat := n <<< e.toNat

/-- The exponent that the number nearest to a fraction has: as small as its mantissa allows. -/
def exponentFor (num den : Nat) : Int :=
  if num = 0 then leastExponent
  else
    -- The fraction lies between two to the power of `log - 1` and of `log + 1`.
    let log : Int := (num.log2 : Int) - den.log2
    let floor := if shiftUp num (-log) < shiftUp den log then log - 1 else log
    max (floor - (mantissaBits - 1)) leastExponent

/-- The integer nearest to a fraction. Halfway between two it is the even one. -/
def nearestEven (num den : Nat) : Nat :=
  let quotient := num / den
  match compare (2 * (num % den)) den with
  | .lt => quotient
  | .gt => quotient + 1
  | .eq => quotient + quotient % 2

/-- The number nearest to a fraction, with a minus if `negative`: `nearestEven` at the exponent that
`exponentFor` finds. -/
def round (negative : Bool) (num den : Nat) : Binary64 :=
  let exponent := exponentFor num den
  let mantissa := nearestEven (shiftUp num (-exponent)) (shiftUp den exponent)
  -- Rounding up may need one bit more.
  let (mantissa, exponent) :=
    if mantissa = 1 <<< mantissaBits then (1 <<< (mantissaBits - 1), exponent + 1)
    else (mantissa, exponent)
  if greatestExponent < exponent then infinite negative else finite negative mantissa exponent

def signed (negative : Bool) (n : Nat) : Int := if negative then - (n : Int) else n

/-- The exact value of a finite number, as a numerator over a denominator; 0 for the others. -/
def fraction : Binary64 → Int × Nat
  | finite negative mantissa exponent =>
    (signed negative (shiftUp mantissa exponent), shiftUp 1 (-exponent))
  | _ => (0, 1)

def ofInt (n : Int) : Binary64 := round (n < 0) n.natAbs 1

/-- The product, rounded to the nearest number. -/
def mul : Binary64 → Binary64 → Binary64
  | undefined, _ => undefined
  | _, undefined => undefined
  | infinite s, infinite t => infinite (s != t)
  | infinite s, finite t m _ => if m = 0 then undefined else infinite (s != t)
  | finite s m _, infinite t => if m = 0 then undefined else infinite (s != t)
  | finite s m e, finite t n f =>
    round (s != t) (shiftUp (m * n) (e + f)) (shiftUp 1 (-(e + f)))

/-- The sum, rounded to the nearest number. -/
def add : Binary64 → Binary64 → Binary64
  | undefined, _ => undefined
  | _, undefined => undefined
  | infinite s, infinite t => if s = t then infinite s else undefined
  | infinite s, finite .. => infinite s
  | finite .., infinite t => infinite t
  | finite s m e, finite t n f =>
    let (x, k) := fraction (finite s m e)
    let (y, l) := fraction (finite t n f)
    let sum := x * l + y * k
    round (if sum = 0 then s && t else sum < 0) sum.natAbs (k * l)

example : mul (ofInt 3) (ofInt 7) = ofInt 21 ∧ add (ofInt (-3)) (ofInt 7) = ofInt 4 := by
  decide +kernel

/-- Above two to the power of 53 not every integer is a number, and `ofInt` goes to an even one. -/
example : ofInt (2 ^ 53 + 1) = ofInt (2 ^ 53) ∧ ofInt (2 ^ 53 + 3) = ofInt (2 ^ 53 + 4) := by
  decide +kernel

end Binary64

end Chifir
