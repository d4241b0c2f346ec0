import Chifir.Config.Settings
import Chifir.Display.Basic
import Chifir.Json.Reader

/-!
# Configurations

1. A `Config` is settings that passed their check, with the region and the budget they mean.
2. A profile is a named configuration.
3. `Config.override` lays the members of an object over a configuration: the profile they name, if
   any, replaces it first; then each setting that is named replaces the one below; then the whole is
   checked.
4. `Config.ofText` does so for the text of a file.
-/

namespace Chifir

open Json (Members Str Value)

/-- Settings that passed their check, with the budget that the check finds and the region that a
display shows. -/
structure Config where
  settings : Settings
  region : Region
  budget : Option Nat
  checked : settings.check = .ok budget
  shown : settings.region? = some region

namespace Config

/-- The configuration of some settings, if they pass `Settings.check`. Their region is there by
`Settings.isSome_region?`. -/
def ofSettings (settings : Settings) : Except SettingsError Config :=
  match h : settings.check with
  | .ok budget => .ok {
      settings
      region := settings.region?.get (Settings.isSome_region? h)
      budget
      checked := h
      shown := (Option.some_get _).symm }
  | .error e => .error e

def sized (address width height : Int) : Settings :=
  { address := .number address, width := .number width, height := .number height }

/-- The reference machine: 512 × 684 pixels. -/
def tablet : Config := ⟨sized 0x100000 512 684, .window .tablet, none, rfl, rfl⟩

/-- A small screen for demonstrations: 16 × 16 pixels. -/
def mini : Config :=
  ⟨sized 0x10000 16 16, .window { address := 0x10000, width := 16, height := 16 }, none, rfl, rfl⟩

/-- One band of pixels, for runs that nobody looks at: 8 × 6. -/
def headless : Config :=
  ⟨sized 0x10000 8 6, .window { address := 0x10000, width := 8, height := 6 }, none, rfl, rfl⟩

instance : Inhabited Config := ⟨tablet⟩

/-- The profiles in the order of their names. -/
def profiles : List (String × Config) :=
  [("headless", headless), ("mini", mini), ("tablet", tablet)]

def profileNames : List String := profiles.map (·.1)

end Config

inductive ConfigError
  | unknownProfile (name : Str)
  | profileKind (value : Value)
  | unknownKeys (keys : List Str)
  | notTruth (key : String) (value : Value)
  | numeral (error : Text.NumeralError)
  /-- A text that is torn and so no numeral. -/
  | tornNumeral (text : Str)
  | settings (error : SettingsError)
  | document (text : String) (error : Json.ReadError)
  | notObject (file : String)

def ConfigError.wording : ConfigError → Str
  | unknownProfile name =>
    let known := ", ".intercalate Config.profileNames
    .join ["Unknown profile '", name, s!"' (valid: {known})"]
  | profileKind value => s!"unhashable type: '{value.kind}'"
  | unknownKeys keys => .join ("Unknown config keys: " :: keys.intersperse ", ")
  | notTruth key value => s!"{key} must be true or false, got {value.render}"
  | numeral error => error.message
  | tornNumeral text => Text.malformedMessage .any text.quoted
  | settings error => error.message
  | document text error => error.message text
  | notObject file => s!"{file}: config must be a JSON object"

def ConfigError.message (e : ConfigError) : String := e.wording.plain

namespace Config

def profile (name : String) : Except ConfigError Config :=
  match profiles.lookup name with
  | some config => .ok config
  | none => .error (.unknownProfile name)

def profileOfText : Str → Except ConfigError Config
  | .whole name => profile name
  | name => .error (.unknownProfile name)

/-- The profile that a value names; `null` names none. -/
def profileOf (value : Value) : Except ConfigError (Option Config) :=
  match value with
  | .null => .ok none
  | .list _ => .error (.profileKind value)
  | .object _ => .error (.profileKind value)
  | _ => some <$> profileOfText value.plain

/-- A truth value, which may be spelled as text in any letter case with blanks around it. -/
def truthOf (key : String) (value : Value) : Except ConfigError Bool :=
  match value with
  | .truth b => .ok b
  | .text (.whole s) =>
    match String.ofList (Text.lower (Text.trim s.toList)) with
    | "true" => .ok true
    | "false" => .ok false
    | _ => .error (.notTruth key value)
  | _ => .error (.notTruth key value)

/-- A value for an integer setting: text is read as a numeral, and all else is left to
`Settings.check`. -/
def integerOf (value : Value) : Except ConfigError Value :=
  match value with
  | .text (.whole s) =>
    match Text.readInt .any s with
    | .ok n => .ok (.number n)
    | .error e => .error (.numeral e)
  | .text s => .error (.tornNumeral s)
  | _ => .ok value

def settingKeys : List String :=
  ["display_address", "display_width", "display_height", "display_border", "max_steps", "trace"]

/-- Replaces the setting that a key names. The value is read as its kind asks, by `integerOf` or
`truthOf`. -/
def assign (s : Settings) (key : Str) (value : Value) : Except ConfigError Settings :=
  match key with
  | .whole "display_address" => do return { s with address := ← integerOf value }
  | .whole "display_width" => do return { s with width := ← integerOf value }
  | .whole "display_height" => do return { s with height := ← integerOf value }
  | .whole "display_border" => do return { s with border := ← truthOf "display_border" value }
  | .whole "max_steps" => do return { s with maxSteps := ← integerOf value }
  | .whole "trace" => do return { s with trace := ← truthOf "trace" value }
  | key => .error (.unknownKeys [key])

def unknownKeys (members : Members) : List Str :=
  ((members.map (·.1)).filter (! (settingKeys.map Str.whole).contains ·)).mergeSort
    fun x y => ! y.codes.lex x.codes (· < ·)

/-- Lays the members of an object over a configuration: the profile they name, then each setting,
then the check of the whole. -/
def override (base : Config) (members : Members) : Except ConfigError Config := do
  let named ← profileOf ((members.lookup (Str.whole "profile")).getD .null)
  let below := named.getD base
  let members := members.filter (·.1 != Str.whole "profile")
  let unknown := unknownKeys members
  if ! unknown.isEmpty then throw (.unknownKeys unknown)
  -- Settings may be wrong on the way; only the whole is checked.
  let settings ← members.foldlM (fun s member => assign s member.1 member.2) below.settings
  (ofSettings settings).mapError .settings

/-- The configuration of a file, over the profile of that name if one is given and over the `tablet`
otherwise. -/
def ofText (file text : String) (profileName : Option String) : Except ConfigError Config := do
  match ← (Json.read text).mapError (.document text) with
  | .object members =>
    let base ←
      match profileName with
      | none => pure tablet
      | some "" => pure tablet
      | some name => profile name
    base.override members
  | _ => throw (.notObject file)

/-- The screen of a configuration, if its region can be painted. -/
def screen? (c : Config) : Option Screen :=
  match c.region with
  | .window window => some { window, border := c.settings.border }
  | .inexact _ => none

end Config

end Chifir
