import Chifir.CommandLine.Files
import Chifir.CommandLine.Options
import Chifir.Keyboard

/-!
# Hosts

What a command finds beside its files. Keys come over serial lines and from the terminal, and both
belong to the host: how a line is opened, what comes over it, and what goes wrong there is nothing
that a command decides.

1. `Line` is an open line. It is asked for bytes again and again, and closed in the end.
2. `Opening` is how a line is opened: by a dialogue with the disk.
3. `Host` has an opening for every name of a line, and may have a terminal.
-/

namespace Chifir.CommandLine

/-- What a line fails with. -/
inductive LineError
  /-- A file that the line needs is not there. -/
  | missing (path : String)
  | other (message : String)
deriving DecidableEq, Repr

/-- An open line: `asked n` are the bytes that have come since it was asked for the last time, when
it has been asked `n` times before. The keyboard drains it in the way of its `source`. -/
structure Line where
  source : KeySource := .serial
  asked : Nat → Except LineError (List UInt8)
  closed : Except LineError Unit := .ok ()

/-- A line over which nothing comes. -/
def Line.silent : Line := { asked := fun _ => .ok [] }

/-- How a line is opened: files are read and made empty, each for a reason that the answers before
may have given, until the line is open or has failed. The answers come from the disk (`Opening.on`).
-/
inductive Opening
  | done (outcome : Except LineError Line)
  | read (path : String) (next : Except FileError Content → Opening)
  | clear (path : String) (next : Except FileError String → Opening)

namespace Opening

/-- Opens a line on a disk. The files that were made empty come with it, as they are written. -/
def on (disk : Disk) : Opening → Except LineError Line × Files
  | done outcome => (outcome, [])
  | read path next => (next (disk.read path)).on disk
  | clear path next =>
    let target := disk.target path
    let (outcome, written) := (next target).on disk
    (outcome, (target.toOption.map fun name => (name, .text "")).toList ++ written)

def paths (disk : Disk) : Opening → List String
  | done _ => []
  | read path next => path :: (next (disk.read path)).paths disk
  | clear path next => path :: (next (disk.target path)).paths disk

end Opening

/-- What commands run on: `serial name baud` opens the line of a name at a speed, and the `terminal`
is there if somebody is at it. -/
structure Host where
  serial : String → Given Int → Opening
  terminal : Option Line := none

/-- A host on which every line gives back what is sent, and nobody sends anything. -/
def Host.looped : Host := { serial := fun _ _ => .done (.ok .silent) }

end Chifir.CommandLine
