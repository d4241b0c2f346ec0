import Chifir.Assembly.Image
import Chifir.Assembly.Listing
import Chifir.CommandLine.Host
import Chifir.CommandLine.Request
import Chifir.Instruction.Disassembly
import Chifir.Machine.Attended
import Chifir.Machine.Build
import Chifir.Monitor

/-!
# Commands

`execute` carries out a request on a host and its disk and gives all that it writes. `answer` takes
a whole command line.

An exit status is 0 for success, also of a run that its budget ended; 1 if a file is missing, a
source is rejected or a program faults; 2 for every other failure.
-/

namespace Chifir.CommandLine

/-- Why a command fails. -/
inductive Failure
  | file (error : FileError)
  | source (error : Assembly.SourceError)
  | fault (fault : Fault)
  | encoding (error : Text.Utf8Error)
  | image (error : Image.LengthError)
  | numeral (error : Text.NumeralError)
  | config (error : ConfigError)
  | window (error : WindowError)
  | address (error : AddressError)
  /-- What a serial line or a terminal fails with. -/
  | line (message : String)
  | paint (error : PaintError)
  /-- An address to start at that is no text. -/
  | noStart
  /-- A count that is no number. -/
  | noCount
  /-- A run without a bound was given up. -/
  | endless

namespace Failure

/-- The words for a failure, without those that `report` begins with. -/
def detail : Failure → String
  | file error => error.message
  | source error => error.message
  | fault culprit => culprit.message
  | encoding error => error.message
  | image error => error.message
  | numeral error => error.message
  | config (.unknownProfile name) => (ConfigError.unknownProfile name).wording.quoted
  | config error => error.message
  | window error => error.message
  | address error => error.message
  | line message => message
  | paint error => error.message
  | noStart => "'list' object has no attribute 'strip'"
  | noCount => "'list' object cannot be interpreted as an integer"
  | endless => "the run does not end"

def report : Failure → String
  | file (.notFound path) => s!"Error: File not found: {path}"
  | source error => s!"Assembler error: {error.message}"
  | fault culprit => s!"Execution error: {culprit.message}"
  | failure => s!"Internal error: {failure.detail}"

def status : Failure → Nat
  | file (.notFound _) => 1
  | source _ => 1
  | fault _ => 1
  | _ => 2

end Failure

/-- The failure of a command whose line fails. A file that is `missing` counts as one that the
command was given. -/
def LineError.failure : LineError → Failure
  | missing path => .file (.notFound path)
  | other message => .line message

/-- What a command writes: on both streams, and the files that it has `written`. -/
structure Output where
  stdout : Content := .text ""
  stderr : String := ""
  written : Files := []

structure Exit where
  status : Nat
  output : Output

/-- The answer to a command line. -/
inductive Answer
  | exit (exit : Exit)
  /-- The arguments are against the rules. -/
  | usage

def line (text : String) : String := text ++ "\n"

/-! ## Programs -/

/-- A program: its words and the addresses of its labels. -/
structure Program where
  words : List Word
  symbols : Assembly.Symbols := []

namespace Program

def numbers (p : Program) : List Int := p.words.map Word.toInt

def readSource (disk : Disk) (path : String) : Except Failure String := do
  let content ← (disk.read path).mapError .file
  content.asText.mapError .encoding

/-- The program in a file: an image if the `extension` of its path is that of one, else a source. -/
def read (disk : Disk) (path : String) : Except Failure Program := do
  if extension path == ".bin" then
    let content ← (disk.read path).mapError .file
    return { words := ← (Image.decode content.asBytes).mapError .image }
  else
    let assembly := Assembly.ofSource (← readSource disk path)
    return { words := ← assembly.result.mapError .source, symbols := assembly.symbols }

end Program

/-! ## Assembling -/

namespace AssembleRequest

/-- The format that is asked for, else the one that the `extension` of the output stands for. -/
def chosenFormat (r : AssembleRequest) : Format :=
  match r.format with
  | some format => format
  | none =>
    match extension r.output with
    | ".bin" => .binary
    | ".lst" => .listing
    | _ => .hex

def render (format : Format) (assembly : Assembly) : Content :=
  match format with
  | .binary => .bytes (Image.encode assembly.words)
  | .listing => .text (line assembly.listing)
  | .hex => .text (line (imageRows (assembly.words.map Word.toInt)))

/-- Assembles a source and writes the result: onto the standard output, or to the output that is
named. -/
def execute (r : AssembleRequest) (disk : Disk) : Except Failure Output := do
  let assembly := Assembly.ofSource (← Program.readSource disk r.input)
  let words ← assembly.result.mapError .source
  let content := render r.chosenFormat assembly
  if r.output.isEmpty then return { stdout := content }
  else
    let name ← (disk.target r.output).mapError .file
    return {
      stderr := line s!"Assembled {words.length} words -> {r.output}"
      written := [(name, content)] }

end AssembleRequest

/-! ## Running -/

def chosenProfile (profile : Given String) : Except Failure Config :=
  (match profile with
    | .value name => Config.profile name
    | .nothing => .error (.profileKind (.list []))).mapError .config

namespace RunRequest

/-- What the arguments say of the settings, as members that `Config.override` lays over a
configuration. -/
def overrides (r : RunRequest) : Json.Members :=
  let steps (n : Given Int) : Json.Value :=
    match n with
    | .value n => .number n
    | .nothing => .list []
  (r.maxSteps.map fun n => (Json.Str.whole "max_steps", steps n)).toList ++
    if r.trace then [(Json.Str.whole "trace", .truth true)] else []

/-- The profile that a file is laid over. -/
def profileUnder (r : RunRequest) : Option String :=
  match r.profile with
  | .value name => some name
  | .nothing => none

/-- The configuration of a run: `overrides` over the file that is named, over the profile. -/
def configuration (r : RunRequest) (disk : Disk) : Except Failure Config := do
  let config ←
    if r.config.isEmpty then chosenProfile r.profile
    else
      let path := shortPath r.config
      let content ← (disk.read path).mapError .file
      let text ← content.asText.mapError .encoding
      (Config.ofText path text r.profileUnder).mapError .config
  (config.override r.overrides).mapError .config

/-- The line that the keys of a run come over: the serial line that is named, else the `terminal` of
the host if somebody is at it. What is written to open the line comes with it. -/
def connect (r : RunRequest) (host : Host) (disk : Disk) :
    Except LineError (Option Line) × Files :=
  if r.serialPort.isEmpty then (.ok host.terminal, [])
  else
    let (outcome, written) := (host.serial r.serialPort r.baud).on disk
    (outcome.map some, written)

/-- The display of a run, which sends its frames to the standard output unless it is silent. -/
def display (r : RunRequest) (config : Config) : Display :=
  if r.silent then {} else { config.display with output := some "" }

/-- A run whose frames are painted, or shown by nobody. -/
def runPainted (m : Machine) : Except Failure (StopReason × Machine) :=
  match m.run? none with
  | some result => .ok result
  | none => .error .endless

/-- A run that the first frame ends, since nothing can be painted from an `InexactWindow`. -/
def runUnpainted (window : InexactWindow) (border : Bool) (m : Machine) :
    Except Failure (StopReason × Machine) :=
  match m.runToFrame (m.budget.getD Machine.patience) with
  | (none, m) => .error (.paint (window.paintError border m.bus.memory))
  | (some reason, after) =>
    if reason = .timeout ∧ m.budget.isNone then .error .endless else .ok (reason, after)

def run (r : RunRequest) (config : Config) (m : Machine) : Except Failure (StopReason × Machine) :=
  match config.region, r.silent with
  | .inexact window, false => runUnpainted window config.settings.border m
  | _, _ => runPainted m

def shown (m : Machine) : Output := { stdout := .text (m.display.output.getD "") }

/-- What a run that has ended leaves: the frames of `shown`, a summary, and its fault if it ends
with one. -/
def concluded (reason : StopReason) (m : Machine) : Output × Option Failure :=
  ({ shown m with stderr := line s!"{reason.name}: {m.summary}" },
    if reason = .fault then m.fault?.map .fault else none)

/-- Runs a program with nobody at the keys, so that `key` gets zero each time. -/
def runAlone (r : RunRequest) (config : Config) (program : Program) :
    Except Failure (Output × Option Failure) :=
  match (Machine.build config (r.display config) {}).load program.numbers 0 with
  | (_, some error) => .error (.address error)
  | (m, none) => (r.run config m).map fun (reason, m) => concluded reason m

/-- Why the first frame of a run cannot be painted, if it cannot. -/
def paintError? (r : RunRequest) (config : Config) (m : Machine) : Option PaintError :=
  match config.region, r.silent with
  | .inexact window, false => some (window.paintError config.settings.border m.bus.memory)
  | _, _ => none

/-- Runs a program with keys from a line, as `Machine.runAttended` does. When the line fails, the
frames until then were shown. -/
def runAlong (r : RunRequest) (line : Line) (config : Config) (program : Program) :
    Output × Option Failure :=
  let keyboard : Keyboard := { source := line.source }
  match (Machine.build config (r.display config) keyboard).load program.numbers 0 with
  | (_, some error) => ({}, some (.address error))
  | (m, none) =>
    let paints := (r.paintError? config m).isNone
    match m.runAttended line.asked paints 0 (m.budget.getD Machine.patience) with
    | (.stopped .timeout, after) =>
      if m.budget.isNone then ({}, some .endless) else concluded .timeout after
    | (.stopped reason, after) => concluded reason after
    | (.unheard error, after) => (shown after, some error.failure)
    | (.unpainted, after) => ({}, (r.paintError? config after).map .paint)

/-- Closes a line behind a run. If that fails, nothing else is reported. -/
def closing (line : Line) (ran : Output × Option Failure) : Output × Option Failure :=
  match line.closed with
  | .ok () => ran
  | .error error => ({ ran.1 with stderr := "" }, some error.failure)

/-- Runs a program: the configuration, then the line, then `runAlone` or `runAlong`. What was
written by then stays with a failure. -/
def execute (r : RunRequest) (host : Host) (disk : Disk) :
    Except Failure (Output × Option Failure) := do
  let program ← Program.read disk r.program
  let config ← r.configuration disk
  match r.connect host disk with
  | (.ok none, _) => r.runAlone config program
  | (.ok (some line), written) =>
    let (output, failure?) := closing line (r.runAlong line config program)
    return ({ output with written }, failure?)
  | (.error error, written) => return ({ written }, some error.failure)

end RunRequest

/-! ## Looking at programs -/

namespace DisassembleRequest

def startAddress (r : DisassembleRequest) : Except Failure Int :=
  match r.start with
  | .value text => (Text.readHex text).mapError .numeral
  | .nothing => .error .noStart

def limit (r : DisassembleRequest) : Except Failure (Option Int) :=
  match r.count with
  | some (.value n) => .ok (some n)
  | some .nothing => .error .noCount
  | none => .ok none

def execute (r : DisassembleRequest) (disk : Disk) : Except Failure Output := do
  let program ← Program.read disk r.program
  let start ← r.startAddress
  let instructions ← (disassembleImage program.numbers start (← r.limit)).mapError .address
  return { stdout := .text (line (disassemblyText instructions)) }

end DisassembleRequest

/-- The monitor of a request before its first line. -/
def MonitorRequest.start (r : MonitorRequest) (disk : Disk) : Except Failure Monitor := do
  let program ← Program.read disk r.program
  let config ← chosenProfile r.profile
  let symbols := program.symbols.map fun (name, address) => (name, Word.toInt address)
  return Monitor.start (Machine.build config config.display {}) program.numbers symbols

/-- Debugs a program with the lines of the input. -/
def MonitorRequest.execute (r : MonitorRequest) (disk : Disk) (stdin : String) :
    Except Failure Output := do
  let monitor ← r.start disk
  return { stdout := .text (monitor.session (Text.inputLines stdin)) }

/-! ## Whole command lines -/

def failed (failure : Failure) (output : Output := {}) : Exit :=
  { status := failure.status
    output := { output with stderr := output.stderr ++ line failure.report } }

def finished : Except Failure Output → Exit
  | .ok output => { status := 0, output }
  | .error failure => failed failure

/-- Carries out a request on a host. `Request.Fails` of the theory says which failure comes first.
-/
def execute (host : Host) (disk : Disk) (stdin : String) : Request → Exit
  | .assemble r => finished (r.execute disk)
  | .disassemble r => finished (r.execute disk)
  | .monitor r => finished (r.execute disk stdin)
  | .run r =>
    match r.execute host disk with
    | .error failure => failed failure
    | .ok (output, none) => { status := 0, output }
    | .ok (output, some failure) => failed failure output

def versionText : String := "chifir 0.1.0"

def usageText : String :=
  Text.joinLines [
    "usage: chifir assemble INPUT [-o OUTPUT] [--format bin|hex|listing]",
    "       chifir run PROGRAM [--profile NAME] [--config FILE] [--max-steps N]",
    "                  [--serial-port NAME] [--baud N] [--no-display] [--trace]",
    "       chifir disasm PROGRAM [--start ADDRESS] [--count N]",
    "       chifir monitor PROGRAM [--profile NAME]"]

/-- How a command line ends whose arguments are not carried out. -/
def refused : Refusal → Exit
  | .usage => { status := 2, output := { stderr := line usageText } }
  | .help => { status := 0, output := { stdout := .text (line usageText) } }
  | .version => { status := 0, output := { stdout := .text (line versionText) } }

/-- The answer to a command line: `Request.read` takes the arguments apart, and `Request.execute`
does what they ask for. -/
def answer (host : Host) (arguments : List String) (disk : Disk) (stdin : String) : Answer :=
  match Request.read arguments with
  | .ok request => .exit (execute host disk stdin request)
  | .error .usage => .usage
  | .error refusal => .exit (refused refusal)

end Chifir.CommandLine
