import Chifir.Machine.Run
import Chifir.Memory.Dump
import Chifir.Text.LetterCase
import Chifir.Text.Numeral

/-!
# The monitor

The monitor is a debugger of one command per line around a machine with a program.

1. `Verb.ofName?` knows the commands and their short names; letter case does not matter.
2. `Monitor.perform` carries out a command or complains; a complaint leaves the monitor as it was.
3. `Monitor.execute` takes a line and prints: first a line for each write at a watched address, then
   what the command has to say.
-/

namespace Chifir

open Text

/-- The commands of the monitor. Some have more than one name (`Verb.ofName?`). -/
inductive Verb
  | quit
  | help
  | step
  | run
  | inspect
  | breakAt
  | watch
  | unwatch
  | mem
  | key
  | reset
deriving DecidableEq, Repr

def Verb.ofName? : String → Option Verb
  | "quit" => some quit
  | "exit" => some quit
  | "q" => some quit
  | "help" => some help
  | "?" => some help
  | "step" => some step
  | "s" => some step
  | "run" => some run
  | "r" => some run
  | "inspect" => some inspect
  | "i" => some inspect
  | "break" => some breakAt
  | "b" => some breakAt
  | "watch" => some watch
  | "w" => some watch
  | "unwatch" => some unwatch
  | "mem" => some mem
  | "m" => some mem
  | "key" => some key
  | "reset" => some reset
  | _ => none

/-- Why a command is not carried out. `Complaint.message` is what is said then. -/
inductive Complaint
  | missingArgument
  | numeral (error : NumeralError)
  | address (error : AddressError)
  | keyboard (error : KeyboardError)
  /-- A run without a bound was given up. -/
  | endless
deriving DecidableEq, Repr

def Complaint.message : Complaint → String
  | missingArgument => "missing argument (try help)"
  | numeral error => error.message
  | address error => error.message
  | keyboard error => error.message
  | endless => "the run does not end"

def Monitor.helpText : String :=
  joinLines [
    "commands:",
    "  help               this text",
    "  step [n]           execute n instructions (default 1), ignoring breakpoints",
    "  run [n]            run until halt, fault, breakpoint or n instructions",
    "  inspect            state, PC and next instruction",
    "  break ADDR|LABEL   stop run before the instruction at ADDR",
    "  watch ADDR|LABEL   report every write to ADDR as old -> new",
    "  unwatch ADDR|LABEL stop reporting writes to ADDR",
    "  mem ADDR [N]       hexdump N words (default 16) from ADDR",
    "  key CODE           queue a key code for the next \x60key\x60 instruction",
    "  reset              reload the program and restart at PC 0",
    "  quit               leave the monitor",
    "addresses are hex (0x / $ prefixes accepted) or label names"]

/-- A debugger around a `machine`, whose commands are given one line at a time (`Monitor.execute`).
-/
structure Monitor where
  machine : Machine
  /-- The program, which a reset writes again. -/
  words : List Int
  /-- The addresses of the labels. -/
  symbols : List (String × Int) := []
  /-- The addresses whose writes are reported. -/
  watched : List Word := []

instance : Inhabited Monitor := ⟨{ machine := default, words := [] }⟩

/-- What became of a line: whether the monitor goes on, what it printed, and how it stands. -/
structure Reply where
  alive : Bool
  printed : List String
  monitor : Monitor

namespace Monitor

/-- The name under which the monitor registers for writes. -/
def watcher : Watcher := "monitor"

def report (n : Notice) : String :=
  s!"watch {Word.hex8 n.address}: {Word.hex8 n.before} -> {Word.hex8 n.after}"

/-- A monitor with its program in memory. -/
def start (machine : Machine) (words : List Int) (symbols : List (String × Int)) : Monitor :=
  { machine := (machine.load words 0).1, words, symbols }

/-- The number that an argument denotes: the address of a label, or a hexadecimal numeral. -/
def addressOf (m : Monitor) (token : String) : Except Complaint Int :=
  match m.symbols.lookup token with
  | some address => .ok address
  | none => (readHex token).mapError .numeral

def argument (arguments : List String) (place : Nat) : Except Complaint String :=
  match arguments[place]? with
  | some argument => .ok argument
  | none => .error .missingArgument

def number? (arguments : List String) (place : Nat) : Except Complaint (Option Int) :=
  match arguments[place]? with
  | some argument => some <$> (readArgument argument).mapError .numeral
  | none => .ok none

/-- Up to `count` steps; with the reason if the machine stopped. -/
def stepMany : Nat → Machine → Option StopReason × Machine
  | 0, m => (none, m)
  | count + 1, m =>
    let m := m.step
    match m.status.reason? with
    | some reason => (some reason, m)
    | none => stepMany count m

/-- Watches an address unless it is watched. -/
def watch (m : Monitor) (address : Word) : Monitor :=
  if m.watched.contains address then m
  else
    { m with
      watched := m.watched ++ [address]
      machine := { m.machine with bus := m.machine.bus.watch address watcher } }

def unwatch (m : Monitor) (n : Int) : Monitor :=
  { m with
    watched := m.watched.filter fun w => Word.toInt w != n
    machine := { m.machine with bus := m.machine.bus.unwatch n watcher } }

/-- Starts the program anew: the machine is reset and `words` are loaded again. Breakpoints and
watches stay. -/
def reset (m : Monitor) : Monitor :=
  let machine := { m.machine with bus := m.machine.bus.clear }.reset
  { m with machine := (machine.load m.words 0).1 }

/-- Carries out a command: what it says and how the monitor stands, or a `Complaint`. -/
def perform (m : Monitor) (verb : Verb) (arguments : List String) :
    Except Complaint (List String × Monitor) := do
  match verb with
  | .quit => return ([], m)
  | .help => return ([helpText], m)
  | .step =>
    let count := (← number? arguments 0).getD 1
    let (reason?, machine) := stepMany count.toNat m.machine
    return ((reason?.map StopReason.name).toList ++ [machine.summary], { m with machine })
  | .run =>
    let limit ← number? arguments 0
    match m.machine.run? limit with
    | none => throw .endless
    | some (reason, machine) =>
      let fault := machine.fault?.map fun fault => s!"fault: {fault.message}"
      return (s!"{reason.name}: {machine.summary}" :: fault.toList, { m with machine })
  | .inspect => return ([m.machine.summary], m)
  | .breakAt =>
    let n ← m.addressOf (← argument arguments 0)
    return ([s!"breakpoint at {hex8 n}"], { m with machine := m.machine.addBreakpoint n })
  | .watch =>
    let n ← m.addressOf (← argument arguments 0)
    let address ← (Word.address n).mapError .address
    return ([s!"watchpoint at {hex8 n}"], m.watch address)
  | .unwatch =>
    let n ← m.addressOf (← argument arguments 0)
    return ([], m.unwatch n)
  | .mem =>
    let n ← m.addressOf (← argument arguments 0)
    let count := (← number? arguments 1).getD 16
    return ([← (m.machine.bus.memory.hexdump n count).mapError .address], m)
  | .key =>
    let code ← (readHex (← argument arguments 0)).mapError .numeral
    let keyboard ← (m.machine.keyboard.press code).mapError .keyboard
    return ([], { m with machine := { m.machine with keyboard } })
  | .reset =>
    let m := m.reset
    return ([m.machine.summary], m)

def collect (m : Monitor) : List String × Monitor :=
  let (notices, bus) := m.machine.bus.collect
  (notices.map report, { m with machine := { m.machine with bus } })

/-- Executes a line; a blank one does nothing. The writes that the command has made are reported
before all else that it says (`collect`). -/
def execute (m : Monitor) (line : String) : Reply :=
  match splitWords line with
  | [] => ⟨true, [], m⟩
  | word :: arguments =>
    let name := lowered word
    match Verb.ofName? name with
    | none => ⟨true, [s!"unknown command '{name}' (try help)"], m⟩
    | some verb =>
      match m.perform verb arguments with
      | .error complaint => ⟨true, [s!"{name}: {complaint.message}"], m⟩
      | .ok (said, m) =>
        let (reports, m) := m.collect
        ⟨verb != .quit, reports ++ said, m⟩

def greeting : String := "Chifir monitor. Type 'help' for commands."

def prompt : String := "chifir> "

/-- Lines with a line feed after each. -/
def printedText (lines : List String) : String := String.join (lines.map (· ++ "\n"))

/-- All that is printed in answer to lines, up to the one that leaves the monitor or the end of the
lines. -/
def converse (m : Monitor) : List String → String
  | [] => prompt
  | line :: rest =>
    let reply := m.execute line
    let printed := prompt ++ printedText reply.printed
    if reply.alive then printed ++ reply.monitor.converse rest else printed

def session (m : Monitor) (lines : List String) : String :=
  printedText [greeting] ++ m.converse lines

end Monitor

end Chifir
