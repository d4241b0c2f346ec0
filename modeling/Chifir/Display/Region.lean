import Chifir.Display.Window
import Chifir.Except
import Chifir.Memory.Basic
import Chifir.Number

/-!
# Display regions

A display may be given any numbers. If all are whole they are a window or they are rejected
(`Window.of`). Binary64 numbers pass under the same conditions, but nothing can be painted from
them: they are an `InexactWindow`, and `InexactWindow.paintError` is what painting runs into.
-/

namespace Chifir

/-- Numbers that pass for a window and are not all whole. -/
structure InexactWindow where
  address : Number
  width : Number
  height : Number
  /-- Where the window ends: its address and its words together. -/
  stop : Number
deriving DecidableEq, Repr

/-- What the display shows: a `window` of memory, or an `inexact` one, which cannot be painted. -/
inductive Region
  | window (window : Window)
  | inexact (window : InexactWindow)
deriving DecidableEq

instance : Inhabited Region := ⟨.window .tablet⟩

/-- Numbers that are no region: `Region.of` refuses their `size`, their `place`, or a product that
is too large. -/
inductive RegionError
  | size
  | place (address words : Number)
  | overflow (error : Number.Overflow)
deriving DecidableEq, Repr

namespace Region

/-- The region of some numbers, if a display takes them. Whole numbers are left to `Window.of`. -/
def of (address width height : Number) : Except RegionError Region :=
  match address, width, height with
  | .whole a, .whole w, .whole h =>
    match Window.of a w h with
    | .ok w => .ok (.window w)
    | .error (.size ..) => .error .size
    | .error (.place a n) => .error (.place (.whole a) (.whole n))
  | address, width, height => do
    if width.le (.whole 0) || height.le (.whole 0) then throw .size
    let words ← (width.mul height).mapError .overflow
    if address.lt (.whole 0) then throw (.place address words)
    let stop ← (address.add words).mapError .overflow
    if (Number.whole addressLimit).lt stop then throw (.place address words)
    return .inexact { address, width, height, stop }

/-- A display takes numbers whose words are counted and whose `stop` is known, if the window has a
size, begins at zero or above, and ends with memory or before. -/
theorem exists_of {address width height words stop : Number} (wide : width.le (.whole 0) = false)
    (high : height.le (.whole 0) = false) (above : address.lt (.whole 0) = false)
    (counted : width.mul height = .ok words) (ends : address.add words = .ok stop)
    (fits : (Number.whole addressLimit).lt stop = false) :
    ∃ region, of address width height = .ok region := by
  unfold of
  split
  · next a w h =>
    cases counted
    cases ends
    simp only [Number.le_whole, Number.lt_whole, decide_eq_false_iff_not] at wide high above fits
    have accepted : ∃ window, Window.of a w h = .ok window := by
      unfold Window.of
      rw [dif_neg (by omega), dif_neg (by omega)]
      exact ⟨_, rfl⟩
    obtain ⟨window, accepted⟩ := accepted
    rw [accepted]
    exact ⟨_, rfl⟩
  · refine ⟨.inexact { address, width, height, stop }, ?_⟩
    simp only [wide, high, above, counted, ends, fits, mapError_ok, ok_bind]
    rfl

end Region

/-- Why an inexact window cannot be painted. -/
inductive PaintError
  /-- The page of an address that is not whole. -/
  | addressPage
  /-- A piece of a page that exists. -/
  | pagePiece
  /-- As many zeros or border characters as a number that is not whole. -/
  | repetition
  /-- Rows or columns up to a number that is not whole. -/
  | extent
deriving DecidableEq, Repr

def PaintError.message : PaintError → String
  | addressPage => "unsupported operand type(s) for >>: 'float' and 'int'"
  | pagePiece => "slice indices must be integers or None or have an __index__ method"
  | repetition => "can't multiply sequence by non-int of type 'float'"
  | extent => "'float' object cannot be interpreted as an integer"

/-- What painting an inexact window runs into: a piece of memory whose length is not whole, unless
the window is empty or ends with a page; then the picture itself (`repetition` with a border, else
`extent`). -/
def InexactWindow.paintError (w : InexactWindow) (border : Bool) (m : Memory) : PaintError :=
  let (num, den) := w.stop.fraction
  let pieces := num.toNat / (den * pageSize)
  if w.address.lt w.stop && w.address.isReal then .addressPage
  else if w.address.lt w.stop && num.toNat % (den * pageSize) != 0 then
    if m.hasPage pieces then .pagePiece else .repetition
  else if border && w.width.isReal then .repetition
  else .extent

end Chifir
