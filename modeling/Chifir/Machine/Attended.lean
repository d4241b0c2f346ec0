import Chifir.Machine.Run

/-!
# Attended runs

A run with somebody at the keys. Before each `key` instruction the source of the keys is asked for
the bytes that have come since it was last asked (`Machine.hear`); they wait in the keyboard then,
and the instruction polls it. The source may fail, and that ends the run. So does the first frame if
frames cannot be painted.
-/

namespace Chifir

/-- How an attended run ends. -/
inductive Ending (ε : Type)
  | stopped (reason : StopReason)
  /-- The source of the keys has failed. -/
  | unheard (error : ε)
  /-- A frame was shown that cannot be painted. -/
  | unpainted

namespace Machine

variable {ε : Type}

/-- The next step is a `key` instruction, so `step` polls the keyboard. -/
def asksKey (m : Machine) : Bool :=
  m.status == .running && Opcode.ofWord? m.current.quad.opcode == some .key

/-- Asks for keys if the next step does: `keys n` is what the source gives when it was asked `n`
times before. The number of times that it has been asked comes first in the result. -/
def hear (keys : Nat → Except ε (List UInt8)) (asked : Nat) (m : Machine) :
    Except ε (Nat × Machine) :=
  if m.asksKey then
    (keys asked).map fun bytes => (asked + 1, { m with keyboard := m.keyboard.send bytes })
  else .ok (asked, m)

/-- A run of at most so many instructions, one after another, with keys from a source that was asked
`asked` times before. Where it ends early, the machine is as it was before the instruction that the
source has failed at, or as the frame has left it. -/
def runAttended (keys : Nat → Except ε (List UInt8)) (paints : Bool) :
    Nat → Nat → Machine → Ending ε × Machine
  | _, 0, m =>
    let (reason, m) := m.runFor 0
    (.stopped reason, m)
  | asked, budget + 1, m =>
    match m.hear keys asked with
    | .error error => (.unheard error, m)
    | .ok (asked, m) =>
      match m.runFor 1 with
      | (.timeout, m) =>
        if paints || m.display.frames == 0 then runAttended keys paints asked budget m
        else (.unpainted, m)
      | (reason, m) => (.stopped reason, m)

end Machine

end Chifir
