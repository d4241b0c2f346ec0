/-!
# Hexadecimal text

1. `hexDigits` are the digits of a natural number, most significant first, and none is superfluous.
2. `hex` writes any integer with a leading minus; `hexPrefixed` puts `0x` before the digits.
3. `hex8` is the address form: upper case, padded with zeros to eight characters, the minus counted
   among them.
-/

namespace Chifir.Text

def hexDigit (n : Nat) : Char :=
  if n < 10 then Char.ofNat ('0'.toNat + n) else Char.ofNat ('a'.toNat + (n - 10))

def hexDigits (n : Nat) : List Char :=
  if n < 16 then [hexDigit n] else hexDigits (n / 16) ++ [hexDigit (n % 16)]
termination_by n
decreasing_by omega

/-- At least `width` characters, filled up on the left. -/
def padLeft (fill : Char) (width : Nat) (s : List Char) : List Char :=
  List.replicate (width - s.length) fill ++ s

/-- The value of one hexadecimal digit, either case. -/
def hexValue? (c : Char) : Option Nat :=
  if '0' ≤ c ∧ c ≤ '9' then some (c.toNat - '0'.toNat)
  else if 'a' ≤ c ∧ c ≤ 'f' then some (c.toNat - 'a'.toNat + 10)
  else if 'A' ≤ c ∧ c ≤ 'F' then some (c.toNat - 'A'.toNat + 10)
  else none

def isHex (s : List Char) : Bool := ! s.isEmpty && s.all fun c => (hexValue? c).isSome

def hexToNat (s : List Char) : Nat := s.foldl (fun n c => n * 16 + (hexValue? c).getD 0) 0

def minus (n : Int) : List Char := if n < 0 then ['-'] else []

/-- Lower-case digits after the sign. -/
def hex (n : Int) : String := String.ofList (minus n ++ hexDigits n.natAbs)

/-- Lower-case digits after the sign and `0x`. -/
def hexPrefixed (n : Int) : String :=
  String.ofList (minus n ++ '0' :: 'x' :: hexDigits n.natAbs)

/-- Upper-case digits, eight characters with the sign, or as many as are needed. -/
def hex8 (n : Int) : String :=
  let sign := minus n
  String.ofList (sign ++ padLeft '0' (8 - sign.length) ((hexDigits n.natAbs).map Char.toUpper))

/-- Lower-case digits, eight characters with the sign, or as many as are needed. -/
def hex8Lower (n : Int) : String :=
  let sign := minus n
  String.ofList (sign ++ padLeft '0' (8 - sign.length) (hexDigits n.natAbs))

theorem hexDigits_ne_nil (n : Nat) : hexDigits n ≠ [] := by
  rw [hexDigits]
  split <;> simp

theorem hexValue?_hexDigit {n : Nat} (h : n < 16) : hexValue? (hexDigit n) = some n := by
  revert n
  decide

theorem hexToNat_append_singleton (s : List Char) (c : Char) :
    hexToNat (s ++ [c]) = hexToNat s * 16 + (hexValue? c).getD 0 := by
  simp [hexToNat]

/-- Reading the digits of a number with `hexToNat` gives the number. -/
theorem hexToNat_hexDigits (n : Nat) : hexToNat (hexDigits n) = n := by
  induction n using hexDigits.induct with
  | case1 n h =>
    rw [hexDigits, if_pos h]
    simp [hexToNat, hexValue?_hexDigit h]
  | case2 n h ih =>
    rw [hexDigits, if_neg h, hexToNat_append_singleton, ih, hexValue?_hexDigit (by omega)]
    simp
    omega

example : hex8 (-5) = "-0000005" ∧ hexPrefixed (-1) = "-0x1" ∧ hex 0xADD = "add" :=
  ⟨by cbv, by cbv, by cbv⟩

end Chifir.Text
