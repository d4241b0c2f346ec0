import Chifir.Text.Hexadecimal

/-!
# Words and addresses

Every cell of the machine holds a word of 32 bits, and every address is a word. Numbers from outside
are integers of any size: a value is reduced (`Word.ofInt`), an address is checked (`Word.address`).
-/

namespace Chifir

/-- 32 bits; arithmetic wraps. -/
abbrev Word := UInt32

def addressLimit : Nat := 0x100000000

inductive AddressError
  | outOfRange (address : Int)
  | blockTooLong (start length : Int)
deriving DecidableEq, Repr

open Text in
def AddressError.message : AddressError → String
  | outOfRange address => s!"Address out of range: {hexPrefixed address}"
  | blockTooLong start length =>
    s!"Block {hexPrefixed start}+{hexPrefixed length} exceeds address space"

namespace Word

/-- The word that a number becomes modulo 2³². -/
def ofInt (n : Int) : Word := UInt32.ofInt n

/-- The number that a word stands for, never negative. -/
def toInt (w : Word) : Int := w.toNat

/-- The address that a number names, if it names one. -/
def address (n : Int) : Except AddressError Word :=
  if 0 ≤ n ∧ n < addressLimit then .ok (ofInt n) else .error (.outOfRange n)

def hex8 (w : Word) : String := Text.hex8 (toInt w)

theorem toInt_ofInt (n : Int) : toInt (ofInt n) = n % 0x100000000 := by
  simp only [toInt, ofInt, UInt32.ofInt, UInt32.toNat_ofNat']
  omega

theorem ofInt_toInt (w : Word) : ofInt (toInt w) = w := by
  apply UInt32.toNat_inj.1
  have h := toInt_ofInt (toInt w)
  have hw := w.toNat_lt
  simp only [toInt] at h ⊢
  omega

theorem address_toInt (w : Word) : address (toInt w) = .ok w := by
  have hw := w.toNat_lt
  rw [address, if_pos ⟨by simp [toInt], by simp only [toInt, addressLimit]; omega⟩, ofInt_toInt]

/-- Exactly the numbers of words are addresses: `toInt` is the inverse of `address`. -/
theorem address_eq_ok {n : Int} {w : Word} : address n = .ok w ↔ n = toInt w := by
  constructor
  · intro h
    rw [address] at h
    split at h <;> rename_i hn
    · cases h
      rw [toInt_ofInt, Int.emod_eq_of_lt hn.1 (by simpa [addressLimit] using hn.2)]
    · cases h
  · rintro rfl
    exact address_toInt w

end Word

end Chifir
