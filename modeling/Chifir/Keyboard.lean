import Chifir.Text.Hexadecimal

/-!
# Keyboards

A keyboard remembers the last key since it was last asked. Asking first collects the bytes that wait
in its source; the last of them counts as the last key. Sources differ in how they are drained, and
not in what they deliver.
-/

namespace Chifir

/-- Where the bytes of a keyboard come from. -/
inductive KeySource
  /-- Nowhere: keys are only pressed. -/
  | direct
  /-- A stream that gives all it has at one read. -/
  | stream
  /-- A terminal or pipe, read piece by piece until nothing is left. -/
  | terminal
  /-- A serial line, which tells how many bytes wait. -/
  | serial
deriving DecidableEq, Repr

/-- A keyboard: its source, the bytes waiting there, and the last key. -/
structure Keyboard where
  source : KeySource := .direct
  waiting : List UInt8 := []
  last : Option UInt8 := none
deriving DecidableEq, Repr

inductive KeyboardError
  | codeOutOfRange (code : Int)
  | noLine
deriving DecidableEq, Repr

def KeyboardError.message : KeyboardError → String
  | codeOutOfRange code => s!"Key code out of range: {Text.hexPrefixed code}"
  | noLine => "SerialKeyboard needs a url or an open port"

/-- How many bytes a terminal gives at one read. -/
def terminalChunk : Nat := 1024

/-- Reads pieces of `terminalChunk` bytes until nothing is left. -/
def drainInChunks (waiting : List UInt8) : List (List UInt8) :=
  if waiting.isEmpty then []
  else waiting.take terminalChunk :: drainInChunks (waiting.drop terminalChunk)
termination_by waiting.length
decreasing_by
  rename_i h
  have : waiting ≠ [] := by simpa using h
  have := List.length_pos_iff.2 this
  simp [terminalChunk]
  omega

namespace Keyboard

/-- A keyboard on a serial line, which must be named. -/
def onLine (line : Option String) : Except KeyboardError Keyboard :=
  match line with
  | some _ => .ok { source := .serial }
  | none => .error .noLine

/-- Presses a key, the code of which is a byte. Any other code is refused, and `last` stays. -/
def press (k : Keyboard) (code : Int) : Except KeyboardError Keyboard :=
  if 0 ≤ code ∧ code ≤ 0xFF then .ok { k with last := some (UInt8.ofNat code.toNat) }
  else .error (.codeOutOfRange code)

/-- Presses the keys of some bytes one after another, so that the last one is remembered. -/
def feed (k : Keyboard) (bytes : List UInt8) : Keyboard :=
  { k with last := bytes.getLast? <|> k.last }

/-- Puts bytes into the source, behind those that wait there. -/
def send (k : Keyboard) (bytes : List UInt8) : Keyboard :=
  match k.source with
  | .direct => k
  | _ => { k with waiting := k.waiting ++ bytes }

/-- The bytes that a source gives up, and those that stay. With any source but `direct` all that
waits there is given up (`Keyboard.drain_eq`). -/
def drain (k : Keyboard) : List UInt8 × List UInt8 :=
  match k.source with
  | .direct => ([], k.waiting)
  | .stream => (k.waiting, [])
  | .terminal => ((drainInChunks k.waiting).flatten, [])
  | .serial => (k.waiting.take k.waiting.length, k.waiting.drop k.waiting.length)

/-- The last key since the last poll, 0 if there was none. The source is drained first, and `last`
is forgotten. -/
def poll (k : Keyboard) : UInt8 × Keyboard :=
  let (bytes, waiting) := k.drain
  let fed := k.feed bytes
  (fed.last.getD 0, { fed with waiting, last := none })

/-- Forgets the `last` key; what waits in the source still comes. -/
def reset (k : Keyboard) : Keyboard := { k with last := none }

end Keyboard

theorem flatten_drainInChunks (waiting : List UInt8) :
    (drainInChunks waiting).flatten = waiting := by
  fun_induction drainInChunks waiting with
  | case1 w h => exact (List.isEmpty_iff.1 h).symm
  | case2 w h ih => rw [List.flatten_cons, ih, List.take_append_drop]

/-- A source gives up all that waits in it, also where `drainInChunks` reads it. -/
theorem Keyboard.drain_eq (k : Keyboard) (h : k.source ≠ .direct) : k.drain = (k.waiting, []) := by
  unfold Keyboard.drain
  split <;> simp_all [flatten_drainInChunks]

end Chifir
