import Chifir.Binary64.Basic

/-!
# Binary64 numbers in decimal

1. `Binary64.ofDecimal` is the number nearest to a decimal.
2. `Binary64.shortest` is the decimal of the fewest digits that reads back as a number; of several,
   the one nearest to the number.
3. `Binary64.text` lays it out: with a point from 10⁻⁴ up to 10¹⁶, with an exponent outside of that.
-/

namespace Chifir.Binary64

/-- `digits * 10 ^ exponent`. -/
structure Decimal where
  digits : Nat
  exponent : Int
deriving DecidableEq, Repr

namespace Decimal

def size (n : Nat) : Nat := (Nat.toDigits 10 n).length

def fraction (d : Decimal) : Nat × Nat :=
  (d.digits * Nat.pow 10 d.exponent.toNat, Nat.pow 10 (-d.exponent).toNat)

/-- Moves zeros at the end of `digits` into the exponent; `fuel` bounds their number. -/
def strip : Nat → Decimal → Decimal
  | 0, d => d
  | fuel + 1, d => if d.digits % 10 = 0 then strip fuel ⟨d.digits / 10, d.exponent + 1⟩ else d

end Decimal

/-- Past this power of ten `ofDecimal` gives an infinite number, and before its inverse zero. -/
def decimalRange : Int := 400

/-- The number nearest to a decimal, with a minus if `negative`. -/
def ofDecimal (negative : Bool) (d : Decimal) : Binary64 :=
  let size : Int := Decimal.size d.digits
  if d.digits = 0 then finite negative 0 leastExponent
  else if decimalRange < size + d.exponent then infinite negative
  else if size + d.exponent < -decimalRange then finite negative 0 leastExponent
  else
    let (num, den) := d.fraction
    round negative num den

/-! ## The fewest digits -/

/-- The least `k` such that a fraction above zero is less than `10 ^ k`. -/
def decimalPlaces (num den : Nat) : Int :=
  if den ≤ num then Decimal.size (num / den)
  else
    let size := Decimal.size (den / num)
    if den ≤ num * Nat.pow 10 (size - 1) then 2 - (size : Int) else 1 - size

/-- The decimal with `count` digits that reads back as the number `num / den`; of two the nearer,
and of two as near the one with an even digit at its end. -/
def decimalOf? (num den : Nat) (count : Nat) : Option Decimal :=
  let grid := decimalPlaces num den - count
  let num' := num * Nat.pow 10 (-grid).toNat
  let den' := den * Nat.pow 10 grid.toNat
  let below : Decimal := ⟨num' / den', grid⟩
  let above : Decimal := ⟨num' / den' + 1, grid⟩
  let readsBack (d : Decimal) : Bool := ofDecimal false d == round false num den
  match readsBack below, readsBack above with
  | true, true => some ⟨nearestEven num' den', grid⟩
  | true, false => some below
  | false, true => some above
  | false, false => none

def mostDigits : Nat := 17

/-- The decimal of the fewest digits that reads back as `num / den`, a number above zero. With
`mostDigits` there always is one. -/
def shortest (num den : Nat) : Decimal :=
  let found := (List.range mostDigits).findSome? fun n => decimalOf? num den (n + 1)
  let d := found.getD ⟨num, 0⟩
  d.strip (Decimal.size d.digits)

/-! ## Layout -/

def zeros (n : Int) : String := String.ofList (List.replicate n.toNat '0')

def exponentText (e : Int) : String :=
  let digits := toString e.natAbs
  let sign := if e < 0 then '-' else '+'
  s!"e{sign}{zeros (2 - digits.length)}{digits}"

/-- A decimal laid out: with a point if its exponent is near zero, else with `exponentText` behind
its digits. -/
def Decimal.text (d : Decimal) : String :=
  let digits := toString d.digits
  let size : Int := digits.length
  -- The point stands behind so many digits.
  let point := size + d.exponent
  let cut (n : Nat) : String × String :=
    (String.ofList (digits.toList.take n), String.ofList (digits.toList.drop n))
  if -4 < point ∧ point ≤ 16 then
    if 0 ≤ d.exponent then s!"{digits}{zeros d.exponent}.0"
    else if 0 < point then
      let (whole, rest) := cut point.toNat
      s!"{whole}.{rest}"
    else s!"0.{zeros (-point)}{digits}"
  else
    let (first, rest) := cut 1
    let tail := if rest.isEmpty then "" else s!".{rest}"
    s!"{first}{tail}{exponentText (point - 1)}"

def text : Binary64 → String
  | undefined => "nan"
  | infinite negative => if negative then "-inf" else "inf"
  | finite negative mantissa exponent =>
    let sign := if negative then "-" else ""
    if mantissa = 0 then s!"{sign}0.0"
    else s!"{sign}{(shortest (shiftUp mantissa exponent) (shiftUp 1 (-exponent))).text}"

/-- A number, as an exponent and a point would write it. -/
example : (ofDecimal false ⟨1, 16⟩).text = "1e+16" ∧ (ofDecimal false ⟨25, -1⟩).text = "2.5" ∧
    (ofDecimal true ⟨1, -5⟩).text = "-1e-05" := by decide +kernel

/-- The smallest number above zero, and one past the largest, which is infinite. -/
example : (ofDecimal false ⟨3, -324⟩).text = "5e-324" ∧
    (ofDecimal false ⟨18, 307⟩).text = "inf" := by
  decide +kernel

end Chifir.Binary64
