import Chifir.Display.Basic
import Chifir.Instruction.Basic
import Chifir.Keyboard
import Chifir.Memory.Bus
import Chifir.Text.Lines

/-!
# The machine

1. `Machine.step` performs one instruction: fetch at PC, then the effect of the opcode. A halted or
   faulted machine stays as it is.
2. An illegal opcode and a division by zero are faults; the machine keeps the instruction at fault
   and changes nothing else.
3. With tracing on, every instruction attempted leaves its line of text, as it stood before it ran.
-/

namespace Chifir

/-- What a program can do wrong. -/
inductive FaultKind
  | illegalOpcode
  | divideByZero
  | moduloByZero
deriving DecidableEq, Repr

/-- What went wrong, and the instruction at which it did, as it stood in memory. -/
structure Fault where
  kind : FaultKind
  culprit : Instruction Word
deriving DecidableEq, Repr

/-- Whether the machine goes on. One that has `faulted` keeps the record of its fault, so it has one
just then. -/
inductive Status
  | running
  | halted
  | faulted (fault : Fault)
deriving DecidableEq, Repr

/-- Why execution stopped. `halt` and `fault` are final; after the others a run can go on. -/
inductive StopReason
  | halt
  | fault
  | breakpoint
  | timeout
  | cancelled
deriving DecidableEq, Repr

def FaultKind.name : FaultKind → String
  | illegalOpcode => "ILLEGAL_OPCODE"
  | divideByZero => "DIVIDE_BY_ZERO"
  | moduloByZero => "MODULO_BY_ZERO"

def Status.name : Status → String
  | running => "RUNNING"
  | halted => "HALTED"
  | faulted _ => "FAULTED"

def StopReason.name : StopReason → String
  | halt => "HALT"
  | fault => "FAULT"
  | breakpoint => "BREAK"
  | timeout => "TIMEOUT"
  | cancelled => "CANCELLED"

/-- The reason that a status is for stopping. -/
def Status.reason? : Status → Option StopReason
  | running => none
  | halted => some .halt
  | faulted _ => some .fault

def Status.fault? : Status → Option Fault
  | faulted fault => some fault
  | _ => none

open Text in
def Fault.message (f : Fault) : String :=
  let i := f.culprit.toInt
  let q := i.quad
  let operands := s!"a={hexPrefixed q.a} b={hexPrefixed q.b} c={hexPrefixed q.c}"
  s!"{f.kind.name} at {hex8 i.address} (op={hexPrefixed q.opcode} {operands})"

/-- A machine with its devices and what is known for debugging it. -/
structure Machine where
  bus : Bus := {}
  display : Display := {}
  keyboard : Keyboard := {}
  pc : Word := 0
  status : Status := .running
  /-- How many instructions were performed. -/
  steps : Nat := 0
  /-- How many instructions a run performs unless it is told; `none` is without bound. -/
  budget : Option Nat := none
  /-- Where runs stop, ascending. -/
  breakpoints : List Word := []
  /-- The breakpoint that the last run stopped at; the next one starts there. -/
  resumeAt : Option Word := none
  stopRequested : Bool := false
  tracing : Bool := false
  trace : Array String := #[]

instance : Inhabited Machine := ⟨{}⟩

namespace Machine

def get (m : Machine) (a : Word) : Word := m.bus.get a

def current (m : Machine) : Instruction Word := m.bus.memory.decode m.pc

/-! ## One instruction -/

def continueAt (m : Machine) (pc : Word) : Machine := { m with pc, steps := m.steps + 1 }

def advance (m : Machine) : Machine := m.continueAt (m.pc + 4)

def store (m : Machine) (a v : Word) : Machine := { m with bus := m.bus.set a v }.advance

/-- Stops at an instruction that cannot be performed. PC stays at it and nothing is counted. -/
def fail (m : Machine) (kind : FaultKind) (culprit : Instruction Word) : Machine :=
  { m with status := .faulted ⟨kind, culprit⟩ }

/-- The effect of an opcode; `i` is the instruction at PC. `Opcode.row` of the theory says the same
as a table. -/
def perform (m : Machine) (i : Instruction Word) (op : Opcode) : Machine :=
  let a := i.quad.a
  let b := i.quad.b
  let c := i.quad.c
  match op with
  | .brk => { m with status := .halted, steps := m.steps + 1 }
  | .lpc => m.continueAt (m.get a)
  | .beq => if m.get b = 0 then m.continueAt (m.get a) else m.advance
  | .spc => m.store a m.pc
  | .lea => m.store a (m.get b)
  | .lra => m.store a (m.get (m.get b))
  | .sra => m.store (m.get b) (m.get a)
  | .add => m.store a (m.get b + m.get c)
  | .sub => m.store a (m.get b - m.get c)
  | .mul => m.store a (m.get b * m.get c)
  | .div => if m.get c = 0 then m.fail .divideByZero i else m.store a (m.get b / m.get c)
  | .mod => if m.get c = 0 then m.fail .moduloByZero i else m.store a (m.get b % m.get c)
  | .cmp => m.store a (if m.get b < m.get c then 1 else 0)
  | .nad => m.store a (~~~ (m.get b &&& m.get c))
  | .drw => { m with display := m.display.refresh m.bus.memory }.advance
  | .key =>
    let (code, keyboard) := m.keyboard.poll
    { m with keyboard }.store a code.toUInt32
  | .nop => m.advance

/-- Notes an instruction in the `trace` if tracing is on. -/
def record (m : Machine) (i : Instruction Word) : Machine :=
  if m.tracing then { m with trace := m.trace.push i.toInt.text } else m

/-- Attempts the instruction at PC: it is noted first, and then performed if its word is that of an
opcode. -/
def attempt (m : Machine) : Machine :=
  let i := m.current
  let m := m.record i
  match Opcode.ofWord? i.quad.opcode with
  | some op => m.perform i op
  | none => m.fail .illegalOpcode i

/-- One step of a machine; one that is halted or faulted stays as it is. -/
def step (m : Machine) : Machine :=
  match m.status with
  | .running => m.attempt
  | _ => m

/-! ## From outside -/

/-- Writes an image from `base` on and goes to address 0, unless the image runs past the top of
memory. -/
def load (m : Machine) (words : List Int) (base : Int) : Machine × Option AddressError :=
  match m.bus.load words base with
  | (bus, none) => ({ m with bus, pc := 0 }, none)
  | (bus, some e) => ({ m with bus }, some e)

/-- Back to address 0 with nothing counted, no mark and no request left. Memory, watchpoints and
breakpoints stay. -/
def reset (m : Machine) : Machine :=
  { m with
    pc := 0
    status := .running
    steps := 0
    resumeAt := none
    stopRequested := false
    trace := #[]
    display := m.display.reset
    keyboard := m.keyboard.reset }

def requestStop (m : Machine) : Machine := { m with stopRequested := true }

def fault? (m : Machine) : Option Fault := m.status.fault?

def traceText (m : Machine) : String := Text.joinLines m.trace.toList

def clearTrace (m : Machine) : Machine := { m with trace := #[] }

/-- One line: status, steps, the instruction at PC, and the `fault?` if there is one. -/
def summary (m : Machine) : String :=
  let line := s!"{m.status.name} steps={m.steps} pc={m.current.toInt.text}"
  match m.fault? with
  | none => line
  | some fault => s!"{line} fault={fault.kind.name}"

end Machine

end Chifir
