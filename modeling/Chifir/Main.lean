import Chifir.CommandLine.Execute

/-!
# The program

The outermost layer: arguments, files and terminal. Files that a request names are read first, the
request is carried out on `Host.bare`, and what it writes is written. The monitor alone reads its
input line by line.
-/

namespace Chifir.CommandLine

def Request.paths : Request → List String
  | .assemble r => [r.input]
  | .run r => [r.program, shortPath r.config]
  | .disassemble r => [r.program]
  | .monitor r => [r.program]

/-- The kind of failure that the system reports for a path. -/
def FileError.ofSystem (path : String) : IO.Error → FileError
  | .inappropriateType .. => .isDirectory path
  | .resourceVanished .. => .notDirectory path
  | _ => .notFound path

def fetch (path : String) : IO (Except FileError Content) := do
  try
    return .ok (.bytes (← IO.FS.readBinFile path).toList)
  catch e =>
    return .error (.ofSystem path e)

/-- A disk that holds what some paths hold now. -/
def snapshot (paths : List String) : IO Disk := do
  let held ← paths.mapM fun path => return (path, ← fetch path)
  return {
    read := fun path => (held.lookup path).getD (.error (.notFound path))
    target := .ok }

def Content.put (content : Content) (stream : IO.FS.Stream) : IO Unit := do
  stream.write (ByteArray.mk content.asBytes.toArray)
  stream.flush

/-- Writes files; gives the first failure. -/
def writeAll : Files → IO (Option Failure)
  | [] => return none
  | (path, content) :: rest => do
    try
      IO.FS.writeBinFile path (ByteArray.mk content.asBytes.toArray)
      writeAll rest
    catch e =>
      return some (.file (.ofSystem path e))

/-- Ends a command: files first, so that a failure to write them is the only thing reported. -/
def finish (exit : Exit) : IO UInt32 := do
  let exit := ((← writeAll exit.output.written).map fun failure => failed failure).getD exit
  exit.output.stdout.put (← IO.getStdout)
  (← IO.getStderr).putStr exit.output.stderr
  return UInt32.ofNat exit.status

/-- Reads lines and answers them until the input ends or the monitor is left. -/
partial def converse (monitor : Monitor) (input output : IO.FS.Stream) : IO Unit := do
  output.putStr Monitor.prompt
  output.flush
  let text ← input.getLine
  unless text.isEmpty do
    let reply := monitor.execute text
    output.putStr (Monitor.printedText reply.printed)
    output.flush
    if reply.alive then converse reply.monitor input output

def attend (request : MonitorRequest) (disk : Disk) : IO UInt32 := do
  match request.start disk with
  | .error failure => finish (failed failure)
  | .ok monitor =>
    let output ← IO.getStdout
    output.putStr (Monitor.printedText [Monitor.greeting])
    converse monitor (← IO.getStdin) output
    return 0

end Chifir.CommandLine

open Chifir.CommandLine in
def main (arguments : List String) : IO UInt32 := do
  match Request.read arguments with
  | .ok request =>
    let disk ← snapshot request.paths
    match request with
    | .monitor r => attend r disk
    | request => finish (execute .bare disk "" request)
  | .error refusal => finish (refused refusal)
