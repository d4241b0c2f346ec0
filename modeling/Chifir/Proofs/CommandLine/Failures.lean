import Chifir.CommandLine.Command
import Chifir.Proofs.Except

/-!
# What fails first

A command goes through stages, each of which needs what the one before has made: a file is opened,
its bytes are decoded, a source is assembled, a configuration is put together, a machine is run.
Here is one relation for each kind of work. It has a constructor for each stage that can fail, which
says what has been made until then and why it goes no further.

1. `TextFails`, `ProgramFails`, `Misconfigured`: reading a text, a program and a configuration.
2. `AssembleRequest.Fails`, `DisassembleRequest.Fails`, `RunRequest.Fails`: the commands.
3. `Request.failure?_eq_some`: a command reports a failure exactly if that is what fails first.
-/

namespace Chifir.CommandLine

open Text

/-! ## Texts and programs -/

/-- The text that a path leads to: there is a file, and `Content.asText` decodes it. -/
def HasText (disk : Disk) (path text : String) : Prop :=
  ∃ content, disk.read path = .ok content ∧ content.asText = .ok text

/-- What fails first when a text is read. -/
inductive TextFails (disk : Disk) (path : String) : Failure → Prop
  | unopened {error : FileError} (refused : disk.read path = .error error) :
      TextFails disk path (.file error)
  | undecoded {content : Content} {error : Utf8Error} (found : disk.read path = .ok content)
      (malformed : content.asText = .error error) : TextFails disk path (.encoding error)

/-- What fails first when a program is read: the file, its text or its length, and the source in it.
-/
inductive ProgramFails (disk : Disk) (path : String) : Failure → Prop
  | unopened {error : FileError} (image : extension path = ".bin")
      (refused : disk.read path = .error error) :
      ProgramFails disk path (.file error)
  | length {content : Content} (image : extension path = ".bin")
      (found : disk.read path = .ok content) (odd : content.asBytes.length % 4 ≠ 0) :
      ProgramFails disk path (.image ⟨content.asBytes.length⟩)
  | text {failure : Failure} (source : extension path ≠ ".bin")
      (fails : TextFails disk path failure) :
      ProgramFails disk path failure
  | rejected {text : String} {error : Assembly.SourceError} (source : extension path ≠ ".bin")
      (has : HasText disk path text) (rejected : assemble text = .error error) :
      ProgramFails disk path (.source error)

section Reading
variable {disk : Disk} {path text : String} {failure : Failure}

theorem readSource_eq_ok : Program.readSource disk path = .ok text ↔ HasText disk path text := by
  simp only [Program.readSource, bind_eq_ok, mapError_eq_ok, HasText]

theorem readSource_eq_error :
    Program.readSource disk path = .error failure ↔ TextFails disk path failure := by
  simp only [Program.readSource, bind_eq_error, mapError_eq_error, mapError_eq_ok]
  constructor
  · rintro (⟨_, refused, rfl⟩ | ⟨content, found, _, malformed, rfl⟩)
    · exact .unopened refused
    · exact .undecoded found malformed
  · rintro (refused | ⟨found, malformed⟩)
    · exact .inl ⟨_, refused, rfl⟩
    · exact .inr ⟨_, found, _, malformed, rfl⟩

theorem decode_eq_error {bytes : List UInt8} {error : Image.LengthError} :
    Image.decode bytes = .error error ↔ bytes.length % 4 ≠ 0 ∧ error = ⟨bytes.length⟩ := by
  rw [Image.decode]
  split
  case isTrue whole => exact ⟨fun failed => (by cases failed), fun other => absurd whole other.1⟩
  case isFalse odd => exact ⟨fun same => ⟨odd, (Except.error.inj same).symm⟩,
    fun other => other.2 ▸ rfl⟩

theorem program_eq_error :
    Program.read disk path = .error failure ↔ ProgramFails disk path failure := by
  unfold Program.read
  split
  case isTrue image =>
    have image : extension path = ".bin" := by simpa using image
    simp only [bind_eq_error, mapError_eq_error, mapError_eq_ok, decode_eq_error, pure, Except.pure]
    constructor
    · rintro (⟨_, refused, rfl⟩ | ⟨content, found, ⟨_, ⟨odd, rfl⟩, rfl⟩ | ⟨_, _, impossible⟩⟩)
      · exact .unopened image refused
      · exact .length image found odd
      · cases impossible
    · rintro (⟨_, refused⟩ | ⟨_, found, odd⟩ | ⟨source, _⟩ | ⟨source, _, _⟩)
      · exact .inl ⟨_, refused, rfl⟩
      · exact .inr ⟨_, found, .inl ⟨_, ⟨odd, rfl⟩, rfl⟩⟩
      · exact absurd image source
      · exact absurd image source
  case isFalse source =>
    have source : extension path ≠ ".bin" := by simpa using source
    simp only [bind_eq_error, mapError_eq_error, readSource_eq_error, readSource_eq_ok, pure,
      Except.pure]
    constructor
    · rintro (fails | ⟨text, has, ⟨_, rejected, rfl⟩ | ⟨_, _, impossible⟩⟩)
      · exact .text source fails
      · exact .rejected source has rejected
      · cases impossible
    · rintro (⟨image, _⟩ | ⟨image, _, _⟩ | ⟨_, fails⟩ | ⟨_, has, rejected⟩)
      · exact absurd image source
      · exact absurd image source
      · exact .inl fails
      · exact .inr ⟨_, has, .inl ⟨_, rejected, rfl⟩⟩

end Reading

/-! ## Assembling and disassembling -/

/-- What fails first when the source of a request is read and assembled. -/
inductive AssembleRequest.Unassembled (r : AssembleRequest) (disk : Disk) : Failure → Prop
  | text {failure : Failure} (fails : TextFails disk r.input failure) : r.Unassembled disk failure
  | rejected {text : String} {error : Assembly.SourceError} (has : HasText disk r.input text)
      (rejected : assemble text = .error error) : r.Unassembled disk (.source error)

/-- What fails first in assembling. The output is looked for when there is something to write. -/
inductive AssembleRequest.Fails (r : AssembleRequest) (disk : Disk) : Failure → Prop
  | unassembled {failure : Failure} (fails : r.Unassembled disk failure) : r.Fails disk failure
  | target {text : String} {words : List Word} {error : FileError} (has : HasText disk r.input text)
      (accepted : assemble text = .ok words) (file : r.output ≠ "")
      (refused : disk.target r.output = .error error) :
      r.Fails disk (.file error)

/-- What fails first in disassembling: the program, or an argument that is no number. -/
inductive DisassembleRequest.Fails (r : DisassembleRequest) (disk : Disk) : Failure → Prop
  | program {failure : Failure} (fails : ProgramFails disk r.program failure) : r.Fails disk failure
  | start {program : Program} {text : String} {error : NumeralError}
      (has : Program.read disk r.program = .ok program) (given : r.start = .value text)
      (malformed : readHex text = .error error) : r.Fails disk (.numeral error)
  | noStart {program : Program} (has : Program.read disk r.program = .ok program)
      (given : r.start = .nothing) :
      r.Fails disk .noStart
  | noCount {program : Program} {start : Int} (has : Program.read disk r.program = .ok program)
      (starts : r.startAddress = .ok start) (given : r.count = some .nothing) :
      r.Fails disk .noCount
  | room {program : Program} {start : Int} {count : Option Int} {error : AddressError}
      (has : Program.read disk r.program = .ok program) (starts : r.startAddress = .ok start)
      (counts : r.limit = .ok count)
      (refused : disassembleImage program.numbers start count = .error error) :
      r.Fails disk (.address error)

section Commands
variable {disk : Disk} {failure : Failure}

theorem AssembleRequest.execute_eq_error {r : AssembleRequest} :
    r.execute disk = .error failure ↔ r.Fails disk failure := by
  simp only [execute, bind_eq_error, mapError_eq_error, mapError_eq_ok, readSource_eq_error,
    readSource_eq_ok]
  constructor
  · rintro (fails | ⟨text, has, ⟨_, rejected, rfl⟩ | ⟨words, accepted, later⟩⟩)
    · exact .unassembled (.text fails)
    · exact .unassembled (.rejected has rejected)
    · by_cases none : r.output.isEmpty = true
      · rw [if_pos none] at later
        cases later
      · rw [if_neg none, bind_eq_error, mapError_eq_error] at later
        obtain ⟨_, refused, rfl⟩ | ⟨_, _, impossible⟩ := later
        · exact .target has accepted (by simpa using none) refused
        · cases impossible
  · rintro (⟨fails | ⟨has, rejected⟩⟩ | ⟨has, accepted, file, refused⟩)
    · exact .inl fails
    · exact .inr ⟨_, has, .inl ⟨_, rejected, rfl⟩⟩
    · refine .inr ⟨_, has, .inr ⟨_, accepted, ?_⟩⟩
      rw [if_neg (by simpa using file), bind_eq_error, mapError_eq_error]
      exact .inl ⟨_, refused, rfl⟩

theorem DisassembleRequest.startAddress_eq_error {r : DisassembleRequest} :
    r.startAddress = .error failure ↔
      (∃ text error, r.start = .value text ∧ readHex text = .error error ∧
        failure = .numeral error) ∨
        r.start = .nothing ∧ failure = .noStart := by
  unfold startAddress
  cases r.start with
  | value text =>
    simp only [mapError_eq_error, Given.value.injEq, reduceCtorEq, false_and, or_false]
    constructor
    · rintro ⟨error, malformed, rfl⟩
      exact ⟨text, error, rfl, malformed, rfl⟩
    · rintro ⟨_, error, rfl, malformed, rfl⟩
      exact ⟨error, malformed, rfl⟩
  | nothing => simp [eq_comm]

theorem DisassembleRequest.limit_eq_error {r : DisassembleRequest} :
    r.limit = .error failure ↔ r.count = some .nothing ∧ failure = .noCount := by
  unfold limit
  split
  · next given => simp [given]
  · next given => simp [given, eq_comm]
  · next given => simp [given]

theorem DisassembleRequest.execute_eq_error {r : DisassembleRequest} :
    r.execute disk = .error failure ↔ r.Fails disk failure := by
  simp only [execute, bind_eq_error, mapError_eq_error, mapError_eq_ok, program_eq_error,
    startAddress_eq_error, limit_eq_error, pure, Except.pure]
  constructor
  · rintro (fails | ⟨program, has, (⟨_, _, given, malformed, rfl⟩ | ⟨given, rfl⟩) | ⟨start, starts,
      ⟨given, rfl⟩ | ⟨count, counts, ⟨_, refused, rfl⟩ | ⟨_, _, impossible⟩⟩⟩⟩)
    · exact .program fails
    · exact .start has given malformed
    · exact .noStart has given
    · exact .noCount has starts given
    · exact .room has starts counts refused
    · cases impossible
  · rintro (fails | ⟨has, given, malformed⟩ | ⟨has, given⟩ | ⟨has, starts, given⟩
      | ⟨has, starts, counts, refused⟩)
    · exact .inl fails
    · exact .inr ⟨_, has, .inl (.inl ⟨_, _, given, malformed, rfl⟩)⟩
    · exact .inr ⟨_, has, .inl (.inr ⟨given, rfl⟩)⟩
    · exact .inr ⟨_, has, .inr ⟨_, starts, .inl ⟨given, rfl⟩⟩⟩
    · exact .inr ⟨_, has, .inr ⟨_, starts, .inr ⟨_, counts, .inl ⟨_, refused, rfl⟩⟩⟩⟩

end Commands

/-! ## Running -/

namespace RunRequest

/-- The configuration that a request lays its arguments over. -/
inductive Below (r : RunRequest) (disk : Disk) : Config → Prop
  | profile {base : Config} (noFile : r.config = "") (known : chosenProfile r.profile = .ok base) :
      r.Below disk base
  | file {text : String} {base : Config} (file : r.config ≠ "")
      (has : HasText disk (shortPath r.config) text)
      (accepted : Config.ofText (shortPath r.config) text r.profileUnder = .ok base) :
      r.Below disk base

/-- What fails first when the configuration of a request is put together. -/
inductive Misconfigured (r : RunRequest) (disk : Disk) : Failure → Prop
  | profile {failure : Failure} (noFile : r.config = "")
      (unknown : chosenProfile r.profile = .error failure) :
      r.Misconfigured disk failure
  | text {failure : Failure} (file : r.config ≠ "")
      (fails : TextFails disk (shortPath r.config) failure) :
      r.Misconfigured disk failure
  | object {text : String} {error : ConfigError} (file : r.config ≠ "")
      (has : HasText disk (shortPath r.config) text)
      (rejected : Config.ofText (shortPath r.config) text r.profileUnder = .error error) :
      r.Misconfigured disk (.config error)
  | arguments {base : Config} {error : ConfigError} (below : r.Below disk base)
      (rejected : base.override r.overrides = .error error) : r.Misconfigured disk (.config error)

def machine (r : RunRequest) (config : Config) : Machine := .build config (r.display config) {}

/-- The machine of a run before its first instruction. -/
structure Starts (r : RunRequest) (disk : Disk) (config : Config) (m : Machine) : Prop where
  configured : r.configuration disk = .ok config
  loaded : ∃ program, Program.read disk r.program = .ok program ∧
    (r.machine config).load program.numbers 0 = (m, none)

def Ends (r : RunRequest) (disk : Disk) (reason : StopReason) : Prop :=
  ∃ config m after, r.Starts disk config m ∧ r.run config m = .ok (reason, after)

/-- What fails first in running, if the run ends: what the run is prepared with, its display, or the
program. -/
inductive Fails (r : RunRequest) (disk : Disk) : Failure → Prop
  | program {failure : Failure} (fails : ProgramFails disk r.program failure) : r.Fails disk failure
  | configuration {program : Program} {failure : Failure}
      (has : Program.read disk r.program = .ok program) (fails : r.Misconfigured disk failure) :
      r.Fails disk failure
  | room {program : Program} {config : Config} {m : Machine} {error : AddressError}
      (has : Program.read disk r.program = .ok program)
      (configured : r.configuration disk = .ok config)
      (full : (r.machine config).load program.numbers 0 = (m, some error)) :
      r.Fails disk (.address error)
  | paint {config : Config} {m : Machine} {error : PaintError} (starts : r.Starts disk config m)
      (unpainted : r.run config m = .error (.paint error)) : r.Fails disk (.paint error)
  | fault {config : Config} {m after : Machine} {fault : Fault} (starts : r.Starts disk config m)
      (ran : r.run config m = .ok (.fault, after)) (culprit : after.fault? = some fault) :
      r.Fails disk (.fault fault)

variable {r : RunRequest} {disk : Disk} {failure : Failure}

theorem configuration_eq_error :
    r.configuration disk = .error failure ↔ r.Misconfigured disk failure := by
  unfold configuration
  by_cases noFile : r.config = ""
  · rw [if_pos (String.isEmpty_iff.2 noFile), bind_eq_error]
    simp only [mapError_eq_error]
    constructor
    · rintro (unknown | ⟨base, known, error, rejected, rfl⟩)
      · exact .profile noFile unknown
      · exact .arguments (.profile noFile known) rejected
    · rintro (⟨_, unknown⟩ | ⟨file, _⟩ | ⟨file, _, _⟩ | ⟨⟨_, known⟩ | ⟨file, _, _⟩, rejected⟩)
      · exact .inl unknown
      · exact absurd noFile file
      · exact absurd noFile file
      · exact .inr ⟨_, known, _, rejected, rfl⟩
      · exact absurd noFile file
  · rw [if_neg (String.isEmpty_iff.not.2 noFile)]
    simp only [bind_eq_error, mapError_eq_error, mapError_eq_ok]
    constructor
    · rintro (⟨_, refused, rfl⟩
        | ⟨_, found, ⟨_, malformed, rfl⟩ | ⟨text, decoded, ⟨_, rejected, rfl⟩ |
        ⟨base, accepted, _, rejected, rfl⟩⟩⟩)
      · exact .text noFile (.unopened refused)
      · exact .text noFile (.undecoded found malformed)
      · exact .object noFile ⟨_, found, decoded⟩ rejected
      · exact .arguments (.file noFile ⟨_, found, decoded⟩ accepted) rejected
    · rintro (⟨none, _⟩ | ⟨_, refused | ⟨found, malformed⟩⟩ | ⟨_, ⟨_, found, decoded⟩, rejected⟩ |
        ⟨⟨none, _⟩ | ⟨_, ⟨_, found, decoded⟩, accepted⟩, rejected⟩)
      · exact absurd none noFile
      · exact .inl ⟨_, refused, rfl⟩
      · exact .inr ⟨_, found, .inl ⟨_, malformed, rfl⟩⟩
      · exact .inr ⟨_, found, .inr ⟨_, decoded, .inl ⟨_, rejected, rfl⟩⟩⟩
      · exact absurd none noFile
      · exact .inr ⟨_, found, .inr ⟨_, decoded, .inr ⟨_, accepted, _, rejected, rfl⟩⟩⟩

/-- A run that has begun fails only where a frame cannot be painted, unless it is `endless`. -/
theorem cases_of_run_eq_error {config : Config} {m : Machine}
    (fails : r.run config m = .error failure) :
    failure = .endless ∨ ∃ error, failure = .paint error := by
  unfold run at fails
  split at fails
  · unfold runUnpainted at fails
    split at fails
    · exact .inr ⟨_, (Except.error.inj fails).symm⟩
    · split at fails
      · exact .inl (Except.error.inj fails).symm
      · cases fails
  · unfold runPainted at fails
    split at fails
    · cases fails
    · exact .inl (Except.error.inj fails).symm

/-! ### What a request comes to -/

variable {host : Host}

/-- Nobody is at the keys of a run: it names no serial line, and the host has no terminal. -/
structure IsAlone (r : RunRequest) (host : Host) : Prop where
  unplugged : r.serialPort = ""
  unattended : host.terminal = none

theorem execute_of_program (fails : Program.read disk r.program = .error failure) :
    r.execute host disk = .error failure := by
  rw [execute, fails]
  rfl

theorem execute_of_configuration {program : Program}
    (has : Program.read disk r.program = .ok program)
    (fails : r.configuration disk = .error failure) : r.execute host disk = .error failure := by
  rw [execute, has, ok_bind, fails]
  rfl

section Alone
variable {config : Config} {m : Machine} {program : Program} (alone : r.IsAlone host)
include alone

theorem execute_of_configured (has : Program.read disk r.program = .ok program)
    (configured : r.configuration disk = .ok config) :
    r.execute host disk = r.runAlone config program := by
  have lineless : r.connect host disk = (.ok none, []) := by
    rw [connect, if_pos (String.isEmpty_iff.2 alone.unplugged), alone.unattended]
  rw [execute, has, ok_bind, configured, ok_bind, lineless]

theorem execute_of_full {error : AddressError} (has : Program.read disk r.program = .ok program)
    (configured : r.configuration disk = .ok config)
    (full : (r.machine config).load program.numbers 0 = (m, some error)) :
    r.execute host disk = .error (.address error) := by
  unfold machine at full
  rw [execute_of_configured alone has configured, runAlone, full]

theorem execute_of_starts (starts : r.Starts disk config m) :
    r.execute host disk =
      (r.run config m).map fun (reason, after) => concluded reason after := by
  obtain ⟨configured, program, has, loaded⟩ := starts
  unfold machine at loaded
  rw [execute_of_configured alone has configured, runAlone, loaded]

/-- The preparation of a run fails, or there is a machine to run. -/
theorem fails_or_starts (disk : Disk) :
    (∃ failure, r.execute host disk = .error failure ∧ r.Fails disk failure) ∨
      ∃ config m, r.Starts disk config m := by
  cases read : Program.read disk r.program with
  | error failure =>
    exact .inl ⟨failure, execute_of_program read, .program (program_eq_error.1 read)⟩
  | ok program =>
    cases configured : r.configuration disk with
    | error failure =>
      have fails := configuration_eq_error.1 configured
      exact .inl ⟨failure, execute_of_configuration read configured, .configuration read fails⟩
    | ok config =>
      cases held : (r.machine config).load program.numbers 0 with
      | mk m refused =>
        cases refused with
        | some error =>
          exact .inl ⟨_, execute_of_full alone read configured held, .room read configured held⟩
        | none => exact .inr ⟨config, m, configured, program, read, held⟩

end Alone

/-- The failure that a run reports: that of its preparation or of its display, or the fault of its
program. -/
def failure? (r : RunRequest) (host : Host) (disk : Disk) : Option Failure :=
  match r.execute host disk with
  | .error failure => some failure
  | .ok (_, failure?) => failure?

theorem failure?_of_error (fails : r.execute host disk = .error failure) :
    r.failure? host disk = some failure := by
  rw [failure?, fails]

theorem failure?_of_starts {config : Config} {m after : Machine} {reason : StopReason}
    (alone : r.IsAlone host) (starts : r.Starts disk config m)
    (ran : r.run config m = .ok (reason, after)) :
    r.failure? host disk = if reason = .fault then after.fault?.map .fault else none := by
  rw [failure?, execute_of_starts alone starts, ran]
  rfl

theorem failure?_of_fails (alone : r.IsAlone host) (fails : r.Fails disk failure) :
    r.failure? host disk = some failure := by
  cases fails with
  | program fails => exact failure?_of_error (execute_of_program (program_eq_error.2 fails))
  | configuration has fails =>
    exact failure?_of_error (execute_of_configuration has (configuration_eq_error.2 fails))
  | room has configured full => exact failure?_of_error (execute_of_full alone has configured full)
  | paint starts unpainted =>
    refine failure?_of_error ?_
    rw [execute_of_starts alone starts, unpainted]
    rfl
  | fault starts ran culprit =>
    rw [failure?_of_starts alone starts ran, if_pos rfl, culprit]
    rfl

theorem failure?_eq_some (alone : r.IsAlone host) (ends : r.execute host disk ≠ .error .endless) :
    r.failure? host disk = some failure ↔ r.Fails disk failure := by
  refine ⟨fun reported => ?_, failure?_of_fails alone⟩
  obtain ⟨_, fails, first⟩ | ⟨config, m, starts⟩ := fails_or_starts alone disk
  · rw [failure?_of_error fails] at reported
    exact Option.some.inj reported ▸ first
  · cases ran : r.run config m with
    | error e =>
      have comes := execute_of_starts alone starts
      rw [ran] at comes
      rw [failure?_of_error comes] at reported
      obtain rfl | ⟨error, rfl⟩ := cases_of_run_eq_error ran
      · exact absurd comes ends
      · exact Option.some.inj reported ▸ .paint starts ran
    | ok result =>
      obtain ⟨reason, after⟩ := result
      rw [failure?_of_starts alone starts ran] at reported
      split at reported
      · next faulted =>
        obtain ⟨fault, culprit, rfl⟩ := Option.map_eq_some_iff.1 reported
        exact .fault starts (faulted ▸ ran) culprit
      · cases reported

end RunRequest

/-! ## Every command -/

def failureOf {α : Type} : Except Failure α → Option Failure
  | .ok _ => none
  | .error failure => some failure

theorem failureOf_eq_some {α : Type} {x : Except Failure α} {failure : Failure} :
    failureOf x = some failure ↔ x = .error failure := by
  cases x <;> simp [failureOf]

namespace Request

/-- A request that assembles, disassembles, or runs a program to an end with nobody at the keys. -/
def Ends (host : Host) (disk : Disk) : Request → Prop
  | .assemble _ | .disassemble _ => True
  | .run r => r.IsAlone host ∧ r.execute host disk ≠ .error .endless
  | .monitor _ => False

/-- What fails first in a request. A session with the monitor is not looked at. -/
def Fails (disk : Disk) : Request → Failure → Prop
  | .assemble r => r.Fails disk
  | .disassemble r => r.Fails disk
  | .run r => r.Fails disk
  | .monitor _ => fun _ => False

/-- The failure that a request reports: that of `execute`, or the fault that a run ends with. -/
def failure? (host : Host) (disk : Disk) : Request → Option Failure
  | .assemble r => failureOf (r.execute disk)
  | .disassemble r => failureOf (r.execute disk)
  | .run r => r.failure? host disk
  | .monitor _ => none

/-- A request reports what fails first, if it `Ends`. -/
theorem failure?_eq_some {host : Host} {disk : Disk} {request : Request} {failure : Failure}
    (ends : request.Ends host disk) :
    request.failure? host disk = some failure ↔ request.Fails disk failure := by
  cases request with
  | assemble r => exact failureOf_eq_some.trans r.execute_eq_error
  | disassemble r => exact failureOf_eq_some.trans r.execute_eq_error
  | run r => exact r.failure?_eq_some ends.1 ends.2
  | monitor _ => cases ends

end Request

end Chifir.CommandLine
