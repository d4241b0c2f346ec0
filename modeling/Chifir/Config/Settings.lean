import Chifir.Display.Region
import Chifir.Json.Value
import Chifir.Text.LetterCase

/-!
# Settings

The six settings of a machine as they were given: integers may be spelled as text, truth values too,
and a truth value counts as an integer. `Settings.check` finds the budget that settings mean, or
what is wrong with them as a whole. It looks at the window by itself, before there is a display;
what it accepts a display takes as well (`isSome_region?`).
-/

namespace Chifir

open Json (Value)

/-- The settings, each as given. -/
structure Settings where
  address : Value
  width : Value
  height : Value
  border : Bool := false
  /-- How many instructions a run performs; `null` is without bound. -/
  maxSteps : Value := .null
  trace : Bool := false

/-- What is wrong with settings. -/
inductive SettingsError
  /-- A value that a comparison with an integer refuses; `flipped` tells that the integer stands
  before it. -/
  | notNumber (comparison : String) (value : Value) (flipped : Bool)
  | addressOutOfRange (address : Number)
  | size (width height : Value)
  | window (address words : Number)
  | overflow (error : Number.Overflow)
  | negativeSteps (steps : Number)

namespace SettingsError

def written : SettingsError → List Value
  | size width height => [width, height]
  | negativeSteps (.whole steps) => [.number steps]
  | _ => []

def isWritable : Value → Bool
  | .number n => Text.isWritable n
  | _ => true

def hexadecimal : SettingsError → List Number
  | addressOutOfRange address => [address]
  | window address words => [address, words]
  | _ => []

def noHexadecimal : String := "Unknown format code 'x' for object of type 'float'"

def hex : Number → String
  | .whole n => Text.hexPrefixed n
  | .real _ => noHexadecimal

/-- The words for an error. A number that cannot be written as they want it makes other words of
them (`Text.tooLongToWrite`, `noHexadecimal`). -/
def message (e : SettingsError) : String :=
  if ! e.written.all isWritable then Text.tooLongToWrite
  else if e.hexadecimal.any Number.isReal then noHexadecimal
  else
    match e with
    | notNumber comparison value flipped =>
      let (first, second) := if flipped then ("int", value.kind) else (value.kind, "int")
      s!"'{comparison}' not supported between instances of '{first}' and '{second}'"
    | addressOutOfRange address => s!"display_address out of range: {hex address}"
    | size width height => s!"display size must be positive, got {width.render}x{height.render}"
    | window address words =>
      s!"display window {hex address}+{hex words} runs past the top of memory"
    | overflow .tooLarge => "int too large to convert to float"
    | negativeSteps steps => s!"max_steps must be >= 0, got {steps.text}"

end SettingsError

namespace Settings

/-- The number of a value that is compared with an integer: `asNumber?` gives it for integers,
binary64 numbers and truth values. -/
def numberOf (value : Value) (comparison : String) (flipped : Bool) :
    Except SettingsError Number :=
  match value.asNumber? with
  | some n => .ok n
  | none => .error (.notNumber comparison value flipped)

/-- The address, which is checked first and on its own. -/
def checkAddress (s : Settings) : Except SettingsError Number := do
  let address ← numberOf s.address "<=" true
  if (Number.whole 0).le address && address.le (.whole 0xFFFFFFFF) then return address
  throw (.addressOutOfRange address)

def checkSize (s : Settings) : Except SettingsError (Number × Number) := do
  let width ← numberOf s.width "<=" false
  if width.le (.whole 0) then throw (.size s.width s.height)
  let height ← numberOf s.height "<=" false
  if height.le (.whole 0) then throw (.size s.width s.height)
  return (width, height)

/-- The budget, which must not be negative. One that is not whole allows for as many instructions as
the next integer. -/
def checkBudget (s : Settings) : Except SettingsError (Option Nat) :=
  match s.maxSteps with
  | .null => return none
  | value => do
    let steps ← numberOf value "<" false
    if steps.lt (.whole 0) then throw (.negativeSteps steps)
    -- A run goes on as long as it is below the number.
    return steps.ceil?

def checkTop (address width height : Number) : Except SettingsError Unit := do
  let words ← (width.mul height).mapError .overflow
  let top ← (address.add words).mapError .overflow
  if (Number.whole addressLimit).lt top then throw (.window address words)

/-- The budget that settings mean, if `checkAddress`, `checkSize`, `checkTop` and `checkBudget` all
pass, in this order. -/
def check (s : Settings) : Except SettingsError (Option Nat) := do
  let address ← s.checkAddress
  let (width, height) ← s.checkSize
  checkTop address width height
  s.checkBudget

/-- What a display shows that takes the numbers of the settings. -/
def region? (s : Settings) : Option Region := do
  let address ← s.address.asNumber?
  let width ← s.width.asNumber?
  let height ← s.height.asNumber?
  (Region.of address width height).toOption

/-- How many words the region has; 0 if its size is none. -/
def displayWords (s : Settings) : Number :=
  match s.width.asNumber?, s.height.asNumber? with
  | some width, some height => (width.mul height).toOption.getD (.whole 0)
  | _, _ => .whole 0

/-! ## What passes -/

section Passed
variable {s : Settings} {address width height : Number}

theorem numberOf_eq_ok {value : Value} {comparison : String} {flipped : Bool} {n : Number} :
    numberOf value comparison flipped = .ok n ↔ value.asNumber? = some n := by
  unfold numberOf
  split
  · next given => rw [given, Except.ok.injEq, Option.some.injEq]
  · next given => exact iff_of_false (by rintro ⟨⟩) (by rw [given]; rintro ⟨⟩)

theorem of_checkAddress (passed : s.checkAddress = .ok address) :
    s.address.asNumber? = some address ∧ address.lt (.whole 0) = false := by
  obtain ⟨n, given, passed⟩ := bind_eq_ok.1 passed
  split at passed
  · next inside =>
    cases passed
    simp only [Number.le, Bool.and_eq_true, Bool.not_eq_true'] at inside
    exact ⟨numberOf_eq_ok.1 given, inside.1.2⟩
  · cases passed

theorem of_checkSize (passed : s.checkSize = .ok (width, height)) :
    s.width.asNumber? = some width ∧ s.height.asNumber? = some height ∧
      width.le (.whole 0) = false ∧ height.le (.whole 0) = false := by
  obtain ⟨w, givenWidth, passed⟩ := bind_eq_ok.1 passed
  dsimp only at passed
  split at passed
  · cases passed
  next wide =>
    obtain ⟨h, givenHeight, passed⟩ := bind_eq_ok.1 passed
    split at passed
    · cases passed
    next high =>
      cases passed
      exact ⟨numberOf_eq_ok.1 givenWidth, numberOf_eq_ok.1 givenHeight, Bool.eq_false_iff.2 wide,
        Bool.eq_false_iff.2 high⟩

theorem of_checkTop (passed : checkTop address width height = .ok ()) :
    ∃ words top, width.mul height = .ok words ∧ address.add words = .ok top ∧
      (Number.whole addressLimit).lt top = false := by
  obtain ⟨words, counted, passed⟩ := bind_eq_ok.1 passed
  obtain ⟨top, ends, passed⟩ := bind_eq_ok.1 passed
  split at passed
  · cases passed
  next fits =>
    exact ⟨words, top, mapError_eq_ok.1 counted, mapError_eq_ok.1 ends, Bool.eq_false_iff.2 fits⟩

/-- A display takes the numbers of settings that pass. `check` and `Region.of` are written apart,
and what the first one accepts the second one does too. -/
theorem isSome_region? {budget : Option Nat} (passed : s.check = .ok budget) :
    s.region?.isSome := by
  obtain ⟨address, placed, passed⟩ := bind_eq_ok.1 passed
  obtain ⟨⟨width, height⟩, sized, passed⟩ := bind_eq_ok.1 passed
  obtain ⟨_, ended, _⟩ := bind_eq_ok.1 passed
  obtain ⟨givenAddress, above⟩ := of_checkAddress placed
  obtain ⟨givenWidth, givenHeight, wide, high⟩ := of_checkSize sized
  obtain ⟨words, top, counted, ends, fits⟩ := of_checkTop ended
  obtain ⟨region, made⟩ := Region.exists_of wide high above counted ends fits
  simp [region?, givenAddress, givenWidth, givenHeight, made, Except.toOption]

end Passed

end Settings

end Chifir
