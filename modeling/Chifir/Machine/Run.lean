import Chifir.Machine.Basic

/-!
# Runs

A run performs instructions until the machine halts or faults, a stop was requested, a breakpoint is
reached, or the budget is used up; of several reasons the first in this order counts. A run that
starts at the breakpoint that the run before stopped at passes it.
-/

namespace Chifir.Machine

/-- Adds an address to an ascending list unless it is there. -/
def insertAscending (a : Word) : List Word → List Word
  | [] => [a]
  | b :: r => if a < b then a :: b :: r else if a = b then b :: r else b :: insertAscending a r

/-- Makes runs stop at the address that a number becomes (`Word.ofInt`). -/
def addBreakpoint (m : Machine) (n : Int) : Machine :=
  { m with breakpoints := insertAscending (Word.ofInt n) m.breakpoints }

def removeBreakpoint (m : Machine) (n : Int) : Machine :=
  { m with breakpoints := m.breakpoints.filter (· != Word.ofInt n) }

def clearBreakpoints (m : Machine) : Machine := { m with breakpoints := [] }

/-- Runs with so many instructions to go. The breakpoint at `pass` is passed if the run starts
there. -/
def runFrom (pass : Option Word) (budget : Nat) (m : Machine) : StopReason × Machine :=
  match m.status.reason? with
  | some reason => (reason, m)
  | none =>
    if m.stopRequested then (.cancelled, { m with stopRequested := false })
    else if m.breakpoints.contains m.pc ∧ pass ≠ some m.pc then
      (.breakpoint, { m with resumeAt := some m.pc })
    else
      match budget with
      | 0 => (.timeout, m)
      | budget + 1 => runFrom none budget m.step

/-- A run of at most `budget` instructions, which passes the breakpoint at `resumeAt` and forgets
the mark. -/
def runFor (m : Machine) (budget : Nat) : StopReason × Machine :=
  runFrom m.resumeAt budget { m with resumeAt := none }

/-- How many instructions a run without a bound is followed for. -/
def patience : Nat := 0x4000000000000

/-- A run with the given budget, else the machine's own; a negative budget is none at all. A run
without a bound has no result if it outlasts `patience`. -/
def run? (m : Machine) (limit : Option Int) : Option (StopReason × Machine) :=
  match limit.map Int.toNat <|> m.budget with
  | some budget => some (m.runFor budget)
  | none =>
    match m.runFor patience with
    | (.timeout, _) => none
    | result => some result

/-- A run of at most `budget` instructions that ends with the first frame shown, and then has no
reason. -/
def runToFrame : Nat → Machine → Option StopReason × Machine
  | 0, m =>
    let (reason, m) := m.runFor 0
    (some reason, m)
  | budget + 1, m =>
    match m.runFor 1 with
    | (.timeout, m) => if m.display.frames = 0 then runToFrame budget m else (none, m)
    | (reason, m) => (some reason, m)

end Chifir.Machine
