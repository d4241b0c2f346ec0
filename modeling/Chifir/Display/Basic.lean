import Chifir.Display.Sixel
import Chifir.Display.Window
import Chifir.Memory.Basic

/-!
# Displays

A display counts its refreshes. One with a screen also paints its window, keeps the frame, and sends
it to the output that is bound to it.
-/

namespace Chifir

/-- What a display paints: a `window` of memory, with a border around it or without. -/
structure Screen where
  window : Window
  border : Bool := false
deriving DecidableEq

/-- A display. Without a `screen` it only counts its `frames`. -/
structure Display where
  screen : Option Screen := none
  frames : Nat := 0
  lastFrame : String := ""
  /-- All that a bound output has received. -/
  output : Option String := none

instance : Inhabited Display := ⟨{}⟩

def Screen.paint (s : Screen) (m : Memory) : String :=
  let w := s.window
  Sixel.frame ((m.block w.address w.words).map (· != 0)) w.width w.height s.border

namespace Display

/-- Shows memory as it is now. -/
def refresh (d : Display) (m : Memory) : Display :=
  match d.screen with
  | none => { d with frames := d.frames + 1 }
  | some screen =>
    let frame := screen.paint m
    { d with
      frames := d.frames + 1
      lastFrame := frame
      output := d.output.map (· ++ frame) }

def reset (d : Display) : Display := { d with frames := 0, lastFrame := "" }

end Display

end Chifir
