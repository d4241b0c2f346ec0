import Chifir.Text.LetterCase
import Chifir.Text.Lines
import Chifir.Text.Quoted
import Chifir.Text.Utf8

/-!
# Files

1. A file holds text or bytes: text is its UTF-8 encoding when read as bytes, and bytes are decoded
   when read as text. Line breaks of text are read as line feeds.
2. A `Disk` is what commands see of files: what a path holds, and where a path is written.
3. A path is followed name by name through directories (`Files.walk`). What the last name means
   depends on whether it is read or written, so the walk ends before it.
4. `Files.disk` is the disk of a directory that holds some files. Files elsewhere, such as
   `/tmp/out.hex` and `../out.hex`, are there as soon as they are written.
-/

namespace Chifir.CommandLine

/-- What a file holds: a text that was written as one, or any bytes. -/
inductive Content
  | text (s : String)
  | bytes (b : List UInt8)
deriving DecidableEq, Repr

/-- Files by name. One that lies outside the directory goes by its `Directory.key`. -/
abbrev Files := List (String × Content)

inductive FileError
  | notFound (path : String)
  | isDirectory (path : String)
  | notDirectory (path : String)
  | nameTooLong (path : String)
  | nullByte
deriving DecidableEq, Repr

/-- The system's number for an error, and the path that led to it, if the error is about a path. -/
def FileError.cause? : FileError → Option (Nat × String)
  | notFound path => some (2, path)
  | isDirectory path => some (21, path)
  | notDirectory path => some (20, path)
  | nameTooLong path => some (36, path)
  | nullByte => none

/-- The system's words for an error. -/
def FileError.reason : FileError → String
  | notFound _ => "No such file or directory"
  | isDirectory _ => "Is a directory"
  | notDirectory _ => "Not a directory"
  | nameTooLong _ => "File name too long"
  | nullByte => "embedded null byte"

def FileError.message (e : FileError) : String :=
  match e.cause? with
  | some (number, path) => s!"[Errno {number}] {e.reason}: {Text.quoted path}"
  | none => e.reason

namespace Content

def asBytes : Content → List UInt8
  | text s => Text.encode s
  | bytes b => b

/-- The text of a file: its bytes decoded, with line feeds for its breaks. -/
def asText : Content → Except Text.Utf8Error String
  | text s => .ok (Text.unixBreaks s)
  | bytes b => (Text.decode b).map Text.unixBreaks

end Content

/-- What commands see of files: `read` is what stands at a path, and `target` is the name under
which a path is written. -/
structure Disk where
  /-- What the file at a path holds. -/
  read : String → Except FileError Content
  /-- The name under which a path is written. -/
  target : String → Except FileError String

/-- The part of a path after its last dot, dot included, in lower case. Dots that the name starts
with do not count. -/
def extension (path : String) : String :=
  let name := (path.toList.reverse.takeWhile (· != '/')).reverse.dropWhile (· == '.')
  let tail := (name.reverse.takeWhile (· != '.')).reverse
  if tail.length < name.length then String.ofList (Text.lower ('.' :: tail)) else ""

/-- The names in a path; empty ones are left out. -/
def namesIn (path : String) : List String :=
  ((path.toList.splitOn '/').filter (! ·.isEmpty)).map String.ofList

/-- What a path starts with that starts at the root: a slash, or two if there are just two. -/
def rootOf (path : String) : String :=
  match (path.toList.takeWhile (· == '/')).length with
  | 0 => ""
  | 2 => "//"
  | _ => "/"

/-- A path without the parts that lead nowhere else, as messages show it. -/
def shortPath (path : String) : String :=
  let short := rootOf path ++ "/".intercalate ((namesIn path).filter (· != "."))
  if short.isEmpty then "." else short

def nameLimit : Nat := 255

def pathLimit : Nat := 4095

/-- A directory: `here`, where the files are, or one of those `above` it. -/
inductive Directory
  /-- The one that holds the files. -/
  | here
  /-- One that the directory lies in, so many levels above its parent. -/
  | above (levels : Nat)
  | root
  /-- One of those that every root has. -/
  | system (name : String)
deriving DecidableEq, Repr

namespace Directory

/-- The directories that every root has. -/
def systemNames : List String :=
  ["bin", "boot", "dev", "etc", "home", "lib", "media", "mnt", "opt", "proc", "root", "run",
    "sbin", "srv", "sys", "tmp", "usr", "var"]

/-- The directory that a directory lies in. -/
def parent : Directory → Directory
  | here => above 0
  | above levels => above (levels + 1)
  | root => root
  | system _ => root

/-- The name under which a file of a directory is kept: its own in the directory `here`, a path to
it elsewhere. -/
def key (name : String) : Directory → String
  | here => name
  | above levels => String.join (List.replicate (levels + 1) "../") ++ name
  | root => "/" ++ name
  | system directory => "/" ++ directory ++ "/" ++ name

end Directory

/-- The path of the file that takes whatever is written to it and stays empty. -/
def nullDevice : String := "/dev/null"

inductive Entry
  | directory (d : Directory)
  | file (content : Content)

namespace Files

/-- What stands at a name in a directory: a file by its `key`, or a directory that every root has.
-/
def lookUp? (files : Files) (d : Directory) (name : String) : Option Entry :=
  if d = .root ∧ name ∈ Directory.systemNames then some (.directory (.system name))
  else if d = .system "dev" ∧ name = "null" then some (.file (.bytes []))
  else (files.lookup (d.key name)).map .file

def follow (files : Files) (path : String) (d : Directory) (name : String) :
    Except FileError (Option Entry) :=
  match name with
  | "." => .ok (some (.directory d))
  | ".." => .ok (some (.directory d.parent))
  | name =>
    if nameLimit < name.utf8ByteSize then .error (.nameTooLong path)
    else .ok (files.lookUp? d name)

/-- The directory that names lead to from a directory. -/
def walk (files : Files) (path : String) (d : Directory) : List String → Except FileError Directory
  | [] => .ok d
  | name :: rest => do
    match ← files.follow path d name with
    | some (.directory d) => files.walk path d rest
    | some (.file _) => throw (.notDirectory path)
    | none => throw (.notFound path)

/-- Where the last name of a path is looked up, and that name, which a path to the root does not
have. -/
def approach (files : Files) (path : String) : Except FileError (Directory × Option String) := do
  if path.toList.contains '\x00' then throw .nullByte
  else if path.isEmpty then throw (.notFound path)
  else if pathLimit < path.utf8ByteSize then throw (.nameTooLong path)
  else
    let names := namesIn path
    let start := if path.startsWith "/" then .root else .here
    return (← files.walk path start names.dropLast, names.getLast?)

/-- What the file at a path holds. A slash at the end stands only behind a directory. -/
def read (files : Files) (path : String) : Except FileError Content := do
  match ← files.approach path with
  | (_, none) => throw (.isDirectory path)
  | (d, some name) =>
    match ← files.follow path d name with
    | some (.directory _) => throw (.isDirectory path)
    | some (.file content) =>
        if path.endsWith "/" then throw (.notDirectory path) else return content
    | none => throw (.notFound path)

/-- The name under which a path is written: the `key` of its last name in the directory that it
leads to. A slash at the end makes any name that of a directory. -/
def target (files : Files) (path : String) : Except FileError String := do
  match ← files.approach path with
  | (_, none) => throw (.isDirectory path)
  | (d, some name) =>
    if path.endsWith "/" then throw (.isDirectory path)
    match ← files.follow path d name with
    | some (.directory _) => throw (.isDirectory path)
    | _ => return d.key name

/-- A disk that holds these files: `read` and `target` follow paths through its directories. -/
def disk (files : Files) : Disk := { read := files.read, target := files.target }

end Files

end Chifir.CommandLine
