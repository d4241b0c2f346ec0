import Mathlib.Logic.Function.Basic
import Chifir.Word

/-!
# Words as numbers

The arithmetic of words is that of numbers, reduced to a word. `ofInt_eq` is how a word is
recognised by its number.
-/

namespace Chifir

namespace Word

theorem ofInt_eq {n : Int} {w : Word} (same : n % 0x100000000 = toInt w) : ofInt n = w := by
  rw [← ofInt_toInt w, ← same, ← toInt_ofInt, ofInt_toInt]

theorem ofInt_add (x y : Word) : ofInt (toInt x + toInt y) = x + y := by
  apply ofInt_eq
  simp only [toInt, UInt32.toNat_add]
  omega

theorem ofInt_sub (x y : Word) : ofInt (toInt x - toInt y) = x - y := by
  have small := y.toNat_lt
  apply ofInt_eq
  simp only [toInt, UInt32.toNat_sub]
  omega

theorem ofInt_mul (x y : Word) : ofInt (toInt x * toInt y) = x * y := by
  apply ofInt_eq
  rw [toInt, toInt, toInt, UInt32.toNat_mul, Int.natCast_emod, Int.natCast_mul]
  rfl

theorem ofInt_div (x y : Word) : ofInt (toInt x / toInt y) = x / y := by
  have quotient : toInt x / toInt y = toInt (x / y) := by
    rw [toInt, toInt, toInt, UInt32.toNat_div, Int.natCast_ediv]
  rw [quotient, ofInt_toInt]

theorem ofInt_mod (x y : Word) : ofInt (toInt x % toInt y) = x % y := by
  have remainder : toInt x % toInt y = toInt (x % y) := by
    rw [toInt, toInt, toInt, UInt32.toNat_mod, Int.natCast_emod]
  rw [remainder, ofInt_toInt]

theorem ofInt_nand (x y : Word) :
    ofInt (0xFFFFFFFF - ((x.toNat &&& y.toNat : Nat) : Int)) = ~~~ (x &&& y) := by
  have small := (x &&& y).toNat_lt
  apply ofInt_eq
  simp only [toInt, UInt32.toNat_not, UInt32.toNat_and, UInt32.size] at small ⊢
  omega

theorem ofInt_byte (b : UInt8) : ofInt b.toNat = b.toUInt32 := by
  have small := b.toNat_lt
  apply ofInt_eq
  simp only [toInt, UInt8.toNat_toUInt32]
  omega

theorem toInt_lt (x y : Word) : toInt x < toInt y ↔ x < y := by
  rw [toInt, toInt, Int.ofNat_lt, UInt32.lt_iff_toNat_lt]

theorem toInt_injective : Function.Injective toInt := Function.LeftInverse.injective ofInt_toInt

theorem toInt_eq_zero {w : Word} : toInt w = 0 ↔ w = 0 := by
  rw [toInt, Int.natCast_eq_zero, ← UInt32.toNat_inj]
  rfl

theorem toInt_add (x y : Word) : toInt (x + y) = (toInt x + toInt y) % addressLimit := by
  rw [← ofInt_add, toInt_ofInt]
  rfl

theorem ofInt_add_natCast (n : Int) (k : Nat) : ofInt (n + k) = ofInt n + UInt32.ofNat k := by
  apply ofInt_eq
  have reduced := toInt_ofInt n
  simp only [toInt, UInt32.toNat_add, UInt32.toNat_ofNat'] at reduced ⊢
  omega

theorem ofInt_not_and (x y : Word) :
    ofInt (~~~ (((toInt x).toNat &&& (toInt y).toNat : Nat) : Int)) = ~~~ (x &&& y) := by
  rw [← ofInt_nand]
  apply ofInt_eq
  -- The complement of a natural number is negative, and counts down from the largest word when it
  -- is reduced.
  show (Int.negSucc (x.toNat &&& y.toNat)) % 0x100000000 = _
  rw [toInt_ofInt]
  omega

end Word

end Chifir
