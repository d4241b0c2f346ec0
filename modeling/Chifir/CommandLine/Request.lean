import Chifir.CommandLine.Options
import Chifir.Config.Basic

/-!
# Requests

What a command line asks for. `Request.read` takes the arguments; a wrong number, an unknown profile
or format, an unknown option or a missing program are refused there.
-/

namespace Chifir.CommandLine

inductive Format
  | binary
  | hex
  | listing
deriving DecidableEq, Repr

def Format.ofName? : String → Option Format
  | "bin" => some binary
  | "hex" => some hex
  | "listing" => some listing
  | _ => none

/-- Assemble a source; an empty output is the standard one. -/
structure AssembleRequest where
  input : String := ""
  output : String := ""
  format : Option Format := none

structure RunRequest where
  program : String := ""
  profile : Given String := .value "tablet"
  config : String := ""
  maxSteps : Option (Given Int) := none
  serialPort : String := ""
  baud : Given Int := .value 9600
  silent : Bool := false
  trace : Bool := false

structure DisassembleRequest where
  program : String := ""
  start : Given String := .value "0"
  count : Option (Given Int) := none

structure MonitorRequest where
  program : String := ""
  profile : Given String := .value "headless"

/-- What a command line asks for, with its arguments read and not yet looked at. -/
inductive Request
  | assemble (r : AssembleRequest)
  | run (r : RunRequest)
  | disassemble (r : DisassembleRequest)
  | monitor (r : MonitorRequest)

/-! ## Options -/

variable {σ : Type}

def textOption (names : List String) (act : σ → Given String → σ) : OptionSpec σ :=
  { names, action := .value fun s text => .ok (act s text) }

/-- An option whose text `read` makes a value of, or refuses. -/
def readOption {α : Type} (names : List String) (read : String → Option α)
    (act : σ → Given α → σ) : OptionSpec σ :=
  { names
    action := .value fun s given =>
      match given with
      | .nothing => .ok (act s .nothing)
      | .value text =>
        match read text with
        | some value => .ok (act s (.value value))
        | none => .error .usage }

def flagOption (names : List String) (act : σ → σ) : OptionSpec σ :=
  { names, action := .flag fun s => .ok (act s) }

def helpOption : OptionSpec σ :=
  { names := ["-h", "--help"], action := .flag fun _ => .error .help }

/-- The option `--verbose`, which changes nothing that is printed. -/
def verboseOption : OptionSpec σ := flagOption ["-v", "--verbose"] id

def profileName? (name : String) : Option String :=
  if Config.profileNames.contains name then some name else none

def numberArgument? (text : String) : Option Int := (Text.readArgument text).toOption

def assembleGrammar : Grammar AssembleRequest :=
  { options := [helpOption,
      textOption ["-o", "--output"] fun r output => { r with output := output.getD "" },
      readOption ["--format"] (fun s => some <$> Format.ofName? s) fun r format =>
        { r with format := format.getD none }] }

def runGrammar : Grammar RunRequest :=
  { options := [helpOption,
      readOption ["--profile"] profileName? fun r profile => { r with profile },
      textOption ["--config"] fun r config => { r with config := config.getD "" },
      readOption ["--max-steps"] numberArgument? fun r n => { r with maxSteps := some n },
      textOption ["--serial-port"] fun r port => { r with serialPort := port.getD "" },
      readOption ["--baud"] (fun s => (Text.readInt .ten s).toOption) fun r baud => { r with baud },
      flagOption ["--no-display"] fun r => { r with silent := true },
      flagOption ["--trace"] fun r => { r with trace := true },
      verboseOption] }

def disassembleGrammar : Grammar DisassembleRequest :=
  { options := [helpOption,
      textOption ["--start"] fun r start => { r with start },
      readOption ["--count"] numberArgument? fun r n => { r with count := some n }] }

def monitorGrammar : Grammar MonitorRequest :=
  { options := [helpOption,
      readOption ["--profile"] profileName? fun r profile => { r with profile }] }

/-- The options before the command. What they set is for messages only, so it is not kept. -/
def leadingGrammar : Grammar Unit :=
  { options := [helpOption,
      { names := ["--version"], action := .flag fun _ => .error .version },
      verboseOption,
      textOption ["--log-dir"] fun s _ => s] }

namespace Request

/-- Reads the arguments of a command. -/
def ofCommand (command : String) (arguments : List String) : Except Refusal Request :=
  match command with
  | "assemble" =>
    .assemble <$> assembleGrammar.read (fun r input => { r with input }) {} arguments
  | "run" => .run <$> runGrammar.read (fun r program => { r with program }) {} arguments
  | "disasm" =>
    .disassemble <$> disassembleGrammar.read (fun r program => { r with program }) {} arguments
  | "monitor" =>
    .monitor <$> monitorGrammar.read (fun r program => { r with program }) {} arguments
  | _ => .error .usage

/-- Reads a whole command line: `leadingGrammar`, then the command, then its own grammar. Without a
command it asks for help. -/
def read (arguments : List String) : Except Refusal Request := do
  let ((), extras, rest) ← leadingGrammar.readLeading () arguments
  match rest with
  | [] => throw (if extras then .usage else .help)
  | command :: arguments =>
    let request ← ofCommand command arguments
    if extras then throw .usage else return request

end Request

end Chifir.CommandLine
