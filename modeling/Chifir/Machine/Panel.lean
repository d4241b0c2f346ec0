import Chifir.Machine.Run

/-!
# The front panel

From the front panel any integer can be set as PC. One that is no address is *astray*: nothing is
fetched there, and whatever needs an instruction fails, until PC is set again.
-/

namespace Chifir

/-- A machine and the number set as its PC, if that is no address. -/
structure Panel where
  machine : Machine
  astray : Option Int := none

instance : Inhabited Panel := ⟨{ machine := default }⟩

namespace Panel

def pc (p : Panel) : Int := p.astray.getD (Word.toInt p.machine.pc)

def modify (p : Panel) (f : Machine → Machine) : Panel := { p with machine := f p.machine }

/-- Sets PC to any number. -/
def setPc (p : Panel) (n : Int) : Panel :=
  match Word.address n with
  | .ok pc => { machine := { p.machine with pc } }
  | .error _ => { p with astray := some n }

/-- Writes an image; PC is set only if all of it has addresses. -/
def load (p : Panel) (words : List Int) (base : Int) : Panel × Option AddressError :=
  match p.machine.load words base with
  | (machine, none) => ({ machine }, none)
  | (machine, some e) => ({ p with machine }, some e)

def reset (p : Panel) : Panel := { machine := p.machine.reset }

/-- The machine, if an instruction can be fetched, which `astray` rules out. -/
def fetching (p : Panel) : Except AddressError Machine :=
  match p.astray with
  | none => .ok p.machine
  | some n => .error (.outOfRange n)

/-- One step, and the `reason?` if the machine has stopped. It fails where nothing can be fetched.
-/
def step (p : Panel) : Except AddressError (Option StopReason × Panel) :=
  match p.machine.status.reason? with
  | some reason => .ok (some reason, p)
  | none => do
    let machine := (← p.fetching).step
    return (machine.status.reason?, { machine })

/-- A run. With PC astray no breakpoint is met, and the first fetch fails. -/
def run? (p : Panel) (limit : Option Int) : Option (Except AddressError StopReason × Panel) :=
  match p.astray with
  | none => (p.machine.run? limit).map fun (reason, machine) => (.ok reason, { machine })
  | some n =>
    -- The order of reasons is that of `runFrom`, less breakpoints, which are addresses.
    let p := p.modify ({ · with resumeAt := none })
    match p.machine.status.reason? with
    | some reason => some (.ok reason, p)
    | none =>
      if p.machine.stopRequested then
        some (.ok .cancelled, p.modify ({ · with stopRequested := false }))
      else if (limit.map Int.toNat <|> p.machine.budget) = some 0 then some (.ok .timeout, p)
      else some (.error (.outOfRange n), p)

end Panel

end Chifir
