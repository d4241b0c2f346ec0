import Chifir.Word

/-!
# Display windows

The display shows a window of memory, row by row, a word for each pixel. A window has at least one
pixel and lies in memory as a whole; the type says so.
-/

namespace Chifir

/-- A window of memory: `height` rows of `width` words from `address` on, all of them below
`addressLimit`. -/
structure Window where
  address : Nat
  width : Nat
  height : Nat
  width_pos : 0 < width := by decide
  height_pos : 0 < height := by decide
  fits : address + width * height ≤ addressLimit := by decide
deriving DecidableEq

def Window.words (w : Window) : Nat := w.width * w.height

/-- The window of the reference machine: 512 × 684 pixels. -/
def Window.tablet : Window := { address := 0x100000, width := 512, height := 684 }

instance : Inhabited Window := ⟨.tablet⟩

/-- Numbers that are no window: `Window.of` refuses their `size` or their `place`. -/
inductive WindowError
  | size (width height : Int)
  | place (address words : Int)
deriving DecidableEq, Repr

open Text in
def WindowError.message : WindowError → String
  | size width height => s!"Display size must be positive, got {width}x{height}"
  | place address words =>
    s!"Display window {hexPrefixed address}+{hexPrefixed words} exceeds address space"

/-- The window of some numbers, if they are the `address`, `width` and `height` of one. -/
def Window.of (address width height : Int) : Except WindowError Window :=
  if hs : width ≤ 0 ∨ height ≤ 0 then .error (.size width height)
  else if hp : address < 0 ∨ addressLimit < address + width * height then
    .error (.place address (width * height))
  else
    .ok {
      address := address.toNat
      width := width.toNat
      height := height.toNat
      width_pos := by omega
      height_pos := by omega
      fits := by
        obtain ⟨w, rfl⟩ := Int.eq_ofNat_of_zero_le (a := width) (by omega)
        obtain ⟨h, rfl⟩ := Int.eq_ofNat_of_zero_le (a := height) (by omega)
        obtain ⟨a, rfl⟩ := Int.eq_ofNat_of_zero_le (a := address) (by omega)
        simp only [Int.toNat_natCast, not_or, Int.not_lt] at hp ⊢
        exact_mod_cast hp.2 }

end Chifir
