import Chifir.Config.Basic
import Chifir.Machine.Run

/-!
# Building machines

A configuration decides the budget of runs and whether they are traced; the devices are chosen
beside it.
-/

namespace Chifir

/-- The display of a configuration, with its `screen?` and nothing bound to it. -/
def Config.display (c : Config) : Display := { screen := c.screen? }

def Machine.build (c : Config) (display : Display) (keyboard : Keyboard) : Machine :=
  { display, keyboard, budget := c.budget, tracing := c.settings.trace }

end Chifir
