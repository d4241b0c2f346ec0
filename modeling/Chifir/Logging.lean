/-!
# Logging

A logger passes a record on to its handlers if the record's level is high enough for it, and a
handler writes it if it is high enough for the handler. A logger is set up once: setting it up again
changes nothing.
-/

namespace Chifir.Logging

abbrev Level := Int

def debug : Level := 10

def warning : Level := 30

def levelName (level : Level) : String :=
  match level with
  | 0 => "NOTSET"
  | 10 => "DEBUG"
  | 20 => "INFO"
  | 30 => "WARNING"
  | 40 => "ERROR"
  | 50 => "CRITICAL"
  | _ => s!"Level {level}"

def levelColumn (level : Level) : String :=
  let name := levelName level
  name ++ String.ofList (List.replicate (7 - name.length) ' ')

/-- Where a handler writes. -/
inductive Target
  | file (path : String)
  /-- The terminal, with colours. -/
  | richConsole
  /-- The terminal, plain. -/
  | console
deriving DecidableEq, Repr

def Target.handlerName : Target → String
  | file _ => "FileHandler"
  | richConsole => "RichHandler"
  | console => "StreamHandler"

/-- What a handler writes to its `target`: the records of its `level` and above. -/
structure Handler where
  target : Target
  level : Level
deriving DecidableEq, Repr

structure Record where
  level : Level
  text : String
deriving DecidableEq, Repr

/-- A logger; level 0 leaves the decision to the root logger. -/
structure Logger where
  name : String
  level : Level := 0
  handlers : List Handler := []
  /-- The records passed on to the handlers. -/
  records : List Record := []

namespace Logger

/-- The level from which on records are passed on: that of the root logger, `warning`, if the logger
has none. -/
def effectiveLevel (l : Logger) : Level := if l.level = 0 then warning else l.level

def log (l : Logger) (level : Level) (text : String) : Logger :=
  if 0 < level ∧ l.effectiveLevel ≤ level then { l with records := l.records ++ [⟨level, text⟩] }
  else l

/-- Gives a logger its level and its handlers, and says so in a record, unless it has handlers
already. -/
def setup (l : Logger) (level consoleLevel : Level) (file : Option String) (rich : Bool) : Logger :=
  if ! l.handlers.isEmpty then l
  else
    let toFile := file.toList.map fun path : String => (⟨.file path, debug⟩ : Handler)
    let toConsole : Handler := ⟨if rich then .richConsole else .console, consoleLevel⟩
    let path := file.getD "None"
    { l with level, handlers := toFile ++ [toConsole] }.log debug
      s!"logger {l.name} initialised (console={levelName consoleLevel}, file={path})"

def recordsOf (l : Logger) (h : Handler) : List Record := l.records.filter (h.level ≤ ·.level)

/-- The line that the plain terminal shows of a record, without its time. -/
def consoleLine (r : Record) : String := s!"{levelColumn r.level} | {r.text}"

end Logger

end Chifir.Logging
