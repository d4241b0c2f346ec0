import Chifir.CommandLine.Host
import Chifir.Text.Url

/-!
# A bare host

A host without devices, without a network, and with nobody at the terminal. The name of a serial
line is the path of a device there, or an address whose protocol says what kind of line it is:

* `loop` is a line that gives back what is sent,
* `alt` and `spy` are a device with options,
* `hwgrep` is the first device that a pattern finds,
* `socket` and `rfc2217` are lines over a network.

Only the looped line can be opened, and nothing comes over it. What is wrong with the others is
found out in this order: the protocol, the address of an `alt` line, the speed, the address, the
device. `Host.bare` is one host of many: nothing else about commands refers to it.
-/

namespace Chifir.CommandLine

/-- The protocols. -/
inductive Protocol
  | loop
  | alt
  | spy
  | hwgrep
  | socket
  | rfc2217
deriving DecidableEq, Repr

/-- The protocol of a name in lower case. -/
def Protocol.ofName? : String → Option Protocol
  | "loop" => some loop
  | "alt" => some alt
  | "spy" => some spy
  | "hwgrep" => some hwgrep
  | "socket" => some socket
  | "rfc2217" => some rfc2217
  | _ => none

/-- What is wrong with an option of an address. -/
inductive OptionError
  | unknown (name : String)
  | logLevel (name : String)
  | port (error : Text.Url.PortError)
  | noPort
  | place (text : String)
  | count (error : Text.NumeralError)
  | file (error : FileError)
deriving DecidableEq, Repr

/-- What is wrong with an option. -/
def OptionError.message : OptionError → String
  | unknown name => s!"unknown option: {Text.quoted name}"
  | logLevel name => Text.quoted name
  | port error => error.message
  | noPort => "'<=' not supported between instances of 'int' and 'NoneType'"
  | place text => "option \"n\" expects a positive integer larger than 1: " ++ text
  | count error => error.message
  | file error => error.message

/-- Why a serial line cannot be opened. -/
inductive SerialError
  | unknownProtocol (name : String)
  /-- A speed below zero, or none. -/
  | speed (baud : Given Int)
  | loopSpeed (baud : Int)
  | address (error : Text.UrlError)
  | option (line : Protocol) (error : OptionError)
  | unknownClass (name : String)
  | classKind (name : String)
  | noDevice (pattern : String)
  | device (path : String) (error : FileError)
  /-- A file that is no terminal. -/
  | notTerminal
  | network (line : String) (reason : String)
deriving DecidableEq, Repr

def optionForm (protocol : String) : String :=
  s!"expected a string in the form \"{protocol}://port[?option[=value][&option[=value]]]\": "

def logLevels : List String := ["debug", "info", "warning", "error"]

/-- The words for a wrong option of an address. A loop and a socket have one option, and only its
values are named. -/
def optionMessage (protocol : Protocol) (error : OptionError) : String :=
  let levels := Text.quoted ("|".intercalate logLevels)
  match protocol, error with
  | .hwgrep, error => error.message
  | _, .logLevel name => Text.quoted name
  | _, .noPort => OptionError.noPort.message
  | .alt, error => optionForm "alt" ++ s!"ValueError({Text.quoted error.message})"
  | .spy, error => optionForm "spy" ++ error.message
  | .rfc2217, error =>
    "expected a string in the form \"rfc2217://<host>:<port>[?option[&option...]]\": " ++
      error.message
  | _, _ => levels

def SerialError.message : SerialError → String
  | unknownProtocol name => s!"invalid URL, protocol {Text.quoted name} not known"
  | speed (.value baud) => s!"Not a valid baudrate: {baud}"
  | speed .nothing => "Not a valid baudrate: []"
  | loopSpeed baud => s!"invalid baudrate: {baud}"
  | address error => error.message
  | option line error => optionMessage line error
  | unknownClass name => s!"unknown class: {Text.quoted name}"
  | classKind name => s!"class {Text.quoted name} is not an instance of Serial"
  | noDevice pattern => s!"no ports found matching regexp {Text.quoted pattern}"
  | device path error =>
    match error.cause? with
    | some (number, _) => s!"[Errno {number}] could not open port {path}: {error.message}"
    | none => error.message
  | notTerminal => "Could not configure port: (25, 'Inappropriate ioctl for device')"
  | network line reason => s!"Could not open port {line}: {reason}"

/-! ## Addresses -/

/-- The classes that the option `class` of an `alt` address can name. -/
def lineClasses : List String := ["Serial", "PosixPollSerial", "VTIMESerial"]

/-- The classes beside `lineClasses`, which are no lines. -/
def otherClasses : List String :=
  ["PortNotOpenError", "SerialBase", "SerialException", "SerialTimeoutException", "Timeout"]

/-- The options of an address, each of which must satisfy a check. -/
def checkOptions (url : Text.Url) (check : String → String → Except OptionError Unit) :
    Except OptionError Unit :=
  url.options.forM fun (name, value) => check name value

/-- Checks the option `logging`, which is the only one of some protocols. -/
def checkLogging (name value : String) : Except OptionError Unit :=
  if name != "logging" then .error (.unknown name)
  else if ! logLevels.contains value then .error (.logLevel value)
  else .ok ()

/-- The device that an `alt` address names, if its `class` is a line. -/
def altDevice (rest : String) : Except SerialError String := do
  let url ← (Text.Url.ofRest rest).mapError .address
  (checkOptions url fun name _ => if name = "class" then .ok ()
    else .error (.unknown name)).mapError (.option .alt)
  let name := (url.options.lookup "class").getD "Serial"
  if lineClasses.contains name then return url.place
  throw (if otherClasses.contains name then .classKind name else .unknownClass name)

/-- The options behind the pattern of a `hwgrep` address, kept apart by `&`. -/
def checkPattern (rest : String) : Except OptionError Unit :=
  ((rest.splitOn "&").drop 1).forM fun part =>
    let (name, value) := Text.Url.cutAt '=' part.toList
    match String.ofList name with
    | "n" => do
      let text := String.ofList (value.getD [])
      let n ← (Text.readInt .ten text).mapError .count
      if n < 2 then throw (.place text)
    | "skip_busy" => .ok ()
    | name => .error (.unknown name)

/-- The port and options of an address over a network. -/
def checkNetwork (protocol : Protocol) (url : Text.Url) : Except OptionError Unit := do
  checkOptions url fun name value =>
    if protocol = .rfc2217 ∧ ["ign_set_control", "poll_modem", "timeout"].contains name then .ok ()
    else checkLogging name value
  match ← url.port?.mapError .port with
  | none => throw .noPort
  | some _ => return ()

/-- Why a line over a network is not there: nobody listens on this host, and no other host is known.
-/
def networkReason (protocol : Protocol) (rest : String) : String :=
  match Text.Url.ofRest rest with
  | .error error => error.message
  | .ok url =>
    match checkNetwork protocol url with
    | .error error => optionMessage protocol error
    | .ok () =>
      if ["localhost", "127.0.0.1", "::1"].contains url.hostAndPort.1 then
        "[Errno 111] Connection refused"
      else "[Errno -3] Temporary failure in name resolution"

/-! ## Opening -/

def checkSpeed (baud : Given Int) : Except SerialError Int :=
  match baud with
  | .nothing => .error (.speed baud)
  | .value n => if n < 0 then .error (.speed baud) else .ok n

namespace Opening

def failed (error : SerialError) : Opening := done (.error (.other error.message))

def after {α : Type} (result : Except SerialError α) (next : α → Opening) : Opening :=
  match result with
  | .ok a => next a
  | .error error => failed error

/-- Opens a device. Only files can stand at a path on this host, and a file is no device. -/
def device (path : String) : Opening :=
  read path fun
    | .ok _ => failed .notTerminal
    | .error error => failed (.device path error)

/-- Takes the options of a `spy` address in order, and then opens its device. The file of an option
`file`, in which the line would be recorded, is made empty as soon as its option comes. -/
def spy (place : String) : List (String × String) → Opening
  | [] => device place
  | ("file", path) :: options =>
    clear path fun
      | .ok _ => spy place options
      | .error (.notFound path) => done (.error (.missing path))
      | .error .nullByte => failed (.option .spy (.file .nullByte))
      | .error error => done (.error (.other error.message))
  | (name, _) :: options =>
    if ["color", "raw", "all"].contains name then spy place options
    else failed (.option .spy (.unknown name))

end Opening

def loopSpeedLimit : Int := 0x100000000

def loopLine (rest : String) (baud : Int) : Except SerialError Line := do
  let url ← (Text.Url.ofRest rest).mapError .address
  (checkOptions url checkLogging).mapError (.option .loop)
  if baud = 0 ∨ loopSpeedLimit ≤ baud then throw (.loopSpeed baud)
  return .silent

/-- The protocol of an address in lower case, and what stands behind it. A text without `://` is no
address. -/
def cutProtocol? (name : String) : Option (String × String) :=
  match name.splitOn "://" with
  | protocol :: rest :: more =>
    some (String.ofList (Text.lower protocol.toList), "://".intercalate (rest :: more))
  | _ => none

/-- Opens the line of an address by its protocol. The whole `name` is needed to tell of a network
that is not there. -/
def openAddress (name rest : String) (baud : Given Int) : Protocol → Opening
  | .loop => .after (checkSpeed baud) fun baud =>
    .after (loopLine rest baud) fun line => .done (.ok line)
  | .alt => .after (altDevice rest) fun path => .after (checkSpeed baud) fun _ => .device path
  | .spy => .after (checkSpeed baud) fun _ =>
    .after ((Text.Url.ofRest rest).mapError .address) fun url => .spy url.place url.options
  | .hwgrep => .after (checkSpeed baud) fun _ =>
    .after ((checkPattern rest).mapError (.option .hwgrep)) fun _ => .failed (.noDevice rest)
  | protocol => .after (checkSpeed baud) fun _ =>
    .failed (.network name (networkReason protocol rest))

/-- Opens the line of a name: an address if `cutProtocol?` finds a protocol in it, else the path of
a device. -/
def openLine (name : String) (baud : Given Int) : Opening :=
  match cutProtocol? name with
  | none => .after (checkSpeed baud) fun _ => .device name
  | some (protocolName, rest) =>
    match Protocol.ofName? protocolName with
    | none => .failed (.unknownProtocol protocolName)
    | some protocol => openAddress name rest baud protocol

def Host.bare : Host := { serial := openLine }

end Chifir.CommandLine
