import Chifir.Monitor
import Chifir.Proofs.Machine.Trails

/-!
# What commands do

A command performs instructions, starts the program anew or sets one thing, and it may only look.
`Monitor.Performed` is the list of all that, with the writes that come of it.

1. `trail_stepMany`: steps leave a trail, as runs do.
2. `performed_of_perform`: a command that is carried out is in the list.
3. `holds_executeAll`: what everything in the list keeps holds after any lines.
-/

namespace Chifir

open Text

namespace Machine

variable {m : Machine}

/-! ## Loading -/

theorem bus_load (m : Machine) (words : List Int) (base : Int) :
    (m.load words base).1.bus = (m.bus.load words base).1 := by
  unfold load
  split
  · next loaded => rw [loaded]
  · next loaded => rw [loaded]

theorem load_of_zero (start : m.pc = 0) (words : List Int) (base : Int) :
    (m.load words base).1 = { m with bus := (m.bus.load words base).1 } := by
  unfold load
  rw [← start]
  split
  · next loaded => rw [loaded]
  · next loaded => rw [loaded]

/-! ## Steps -/

/-- The machines before each of so many steps, as far as the machine goes on. -/
def stepping : Nat → Machine → List Machine
  | 0, _ => []
  | count + 1, m => if m.status = .running then m :: stepping count m.step else []

theorem stepping_of_stopped (stopped : m.status ≠ .running) (count : Nat) :
    stepping count m = [] := by
  cases count with
  | zero => rfl
  | succ count => exact if_neg stopped

theorem stepMany_succ (count : Nat) (m : Machine) :
    Monitor.stepMany (count + 1) m =
      match m.step.status.reason? with
      | some reason => (some reason, m.step)
      | none => Monitor.stepMany count m.step := rfl

theorem trail_stepMany (count : Nat) (m : Machine) :
    Trail m (stepping count m) (Monitor.stepMany count m).2 := by
  induction count generalizing m with
  | zero => exact .nil m
  | succ count ih =>
    rw [stepMany_succ]
    unfold stepping
    split
    · next running =>
      refine .cons running ?_
      cases ends : m.step.status.reason? with
      | none => exact ih m.step
      | some reason =>
        have stopped : m.step.status ≠ .running := fun goes => by
          rw [goes] at ends
          cases ends
        rw [stepping_of_stopped stopped]
        exact .nil m.step
    · next stopped =>
      obtain ⟨reason, ends⟩ := exists_reason stopped
      rw [step_of_stopped ends, ends]
      exact .nil m

end Machine

def Verb.looks : Verb → Bool
  | quit | help | inspect | mem => true
  | _ => false

namespace Monitor

variable {m m' : Monitor} {ws : List Write} {verb : Verb} {arguments : List String}
    {said : List String}

/-! ## Commands -/

/-- The first argument denotes this number, in whatever spelling. -/
def Denotes (m : Monitor) (arguments : List String) (n : Int) : Prop :=
  ∃ token, argument arguments 0 = .ok token ∧ m.addressOf token = .ok n

/-- What a command makes of a monitor if it is carried out. -/
inductive Performed (m : Monitor) (arguments : List String) : Verb → Monitor → Prop
  | looked {verb : Verb} (looks : verb.looks) : Performed m arguments verb m
  | stepped {count : Option Int} (given : number? arguments 0 = .ok count) :
      Performed m arguments .step { m with machine := (stepMany (count.getD 1).toNat m.machine).2 }
  | ran {limit : Option Int} {outcome : StopReason × Machine}
      (given : number? arguments 0 = .ok limit) (ran : m.machine.run? limit = some outcome) :
        Performed m arguments .run { m with machine := outcome.2 }
  | broke {n : Int} (denotes : m.Denotes arguments n) :
      Performed m arguments .breakAt { m with machine := m.machine.addBreakpoint n }
  | watched {a : Word} (denotes : m.Denotes arguments (Word.toInt a)) :
      Performed m arguments .watch (m.watch a)
  | unwatched {n : Int} (denotes : m.Denotes arguments n) :
      Performed m arguments .unwatch (m.unwatch n)
  | pressed {code : Int} {keyboard : Keyboard}
      (taken : m.machine.keyboard.press code = .ok keyboard) :
      Performed m arguments .key { m with machine := { m.machine with keyboard } }
  | reset : Performed m arguments .reset m.reset

theorem perform_breakAt {n : Int} (denotes : m.Denotes arguments n) :
    m.perform .breakAt arguments =
      .ok ([s!"breakpoint at {hex8 n}"], { m with machine := m.machine.addBreakpoint n }) := by
  obtain ⟨token, given, value⟩ := denotes
  unfold perform
  simp only [given, value, ok_bind]
  rfl

theorem performed_of_perform (done : m.perform verb arguments = .ok (said, m')) :
    m.Performed arguments verb m' := by
  cases verb with
  | quit | help | inspect =>
    cases done
    exact .looked rfl
  | step =>
    obtain ⟨count, given, done⟩ := bind_eq_ok.1 done
    cases done
    exact .stepped given
  | run =>
    obtain ⟨limit, given, done⟩ := bind_eq_ok.1 done
    cases ran : m.machine.run? limit with
    | none =>
      rw [ran] at done
      cases done
    | some outcome =>
      rw [ran] at done
      cases done
      exact .ran given ran
  | breakAt =>
    obtain ⟨token, given, done⟩ := bind_eq_ok.1 done
    obtain ⟨n, denotes, done⟩ := bind_eq_ok.1 done
    cases done
    exact .broke ⟨token, given, denotes⟩
  | watch =>
    obtain ⟨token, given, done⟩ := bind_eq_ok.1 done
    obtain ⟨n, denotes, done⟩ := bind_eq_ok.1 done
    obtain ⟨a, address, done⟩ := bind_eq_ok.1 done
    obtain rfl := Word.address_eq_ok.1 (mapError_eq_ok.1 address)
    cases done
    exact .watched ⟨token, given, denotes⟩
  | unwatch =>
    obtain ⟨token, given, done⟩ := bind_eq_ok.1 done
    obtain ⟨n, denotes, done⟩ := bind_eq_ok.1 done
    cases done
    exact .unwatched ⟨token, given, denotes⟩
  | mem =>
    obtain ⟨_, _, done⟩ := bind_eq_ok.1 done
    obtain ⟨_, _, done⟩ := bind_eq_ok.1 done
    obtain ⟨_, _, done⟩ := bind_eq_ok.1 done
    obtain ⟨_, _, done⟩ := bind_eq_ok.1 done
    cases done
    exact .looked rfl
  | key =>
    obtain ⟨_, _, done⟩ := bind_eq_ok.1 done
    obtain ⟨_, _, done⟩ := bind_eq_ok.1 done
    obtain ⟨_, taken, done⟩ := bind_eq_ok.1 done
    cases done
    exact .pressed (mapError_eq_ok.1 taken)
  | reset =>
    cases done
    exact .reset

/-- The writes that a command makes. -/
def writesOf (m : Monitor) (verb : Verb) (arguments : List String) : List Write :=
  match verb, number? arguments 0 with
  | .step, .ok count => (Machine.stepping (count.getD 1).toNat m.machine).filterMap Machine.write?
  | .run, .ok limit => (m.machine.performed (m.machine.allowance limit)).filterMap Machine.write?
  | .reset, _ => Memory.empty.loading m.words 0
  | _, _ => []

/-- The memory that the writes of a command find: to start the program anew is to drop every page
first. -/
def memoryBefore (m : Monitor) : Verb → Memory
  | .reset => .empty
  | _ => m.machine.bus.memory

/-- What becomes of a monitor whose command makes these writes into this memory. -/
inductive Changed (m : Monitor) : Memory → List Write → Monitor → Prop
  | looked : Changed m m.machine.bus.memory [] m
  | went {mark mark' : Option Word} {stopRequested : Bool} {ms : List Machine} {now : Machine}
      (trail : { m.machine with resumeAt := mark }.Trail ms now) :
      Changed m m.machine.bus.memory (ms.filterMap Machine.write?)
        { m with machine := { now with resumeAt := mark', stopRequested } }
  | broke (n : Int) : Changed m m.machine.bus.memory []
      { m with machine := m.machine.addBreakpoint n }
  | watched (a : Word) : Changed m m.machine.bus.memory [] (m.watch a)
  | unwatched (n : Int) : Changed m m.machine.bus.memory [] (m.unwatch n)
  | pressed {code : Int} {keyboard : Keyboard}
      (taken : m.machine.keyboard.press code = .ok keyboard) :
      Changed m m.machine.bus.memory [] { m with machine := { m.machine with keyboard } }
  | reset : Changed m .empty (Memory.empty.loading m.words 0) m.reset

/-- Both steps and runs follow a trail, and that is all that there is to say of them: `Changed`
needs no case for either. -/
theorem Performed.changed (performed : m.Performed arguments verb m') :
    m.Changed (m.memoryBefore verb) (m.writesOf verb arguments) m' := by
  cases performed with
  | looked looks =>
    cases verb with
    | quit | help | inspect | mem => exact .looked
    | _ => cases looks
  | stepped given =>
    unfold writesOf
    rw [given]
    exact .went (Machine.trail_stepMany _ m.machine)
  | @ran limit outcome given ran =>
    obtain ⟨now, trail, left⟩ := m.machine.trail_runFor (m.machine.allowance limit)
    rw [Machine.runFor_of_run? ran] at left
    unfold writesOf
    rw [given, left]
    exact .went trail
  | broke => exact .broke _
  | watched => exact .watched _
  | unwatched => exact .unwatched _
  | pressed taken => exact .pressed taken
  | reset => exact .reset

theorem exists_watch (m : Monitor) (a : Word) :
    ∃ watchpoints watched, m.watch a =
      { m with
        watched, machine := { m.machine with bus := { m.machine.bus with watchpoints } } } := by
  unfold watch
  split
  · exact ⟨_, _, rfl⟩
  · exact ⟨_, _, rfl⟩

/-- A monitor after a reset, written out: memory is that of the program, and `collect` has taken the
reports. -/
theorem reset_eq (m : Monitor) :
    m.reset.collect.2 =
      { m with machine := { m.machine.reset with
          bus :=
            { memory := (Memory.empty.load m.words 0).1,
              watchpoints := m.machine.bus.watchpoints } } } := by
  obtain ⟨memory, _, watchpoints, _⟩ := m.machine.bus.clear.load_eq_loading m.words 0
  have loaded :
      m.reset = { m with
        machine := { m.machine.reset with bus := (m.machine.bus.clear.load m.words 0).1 } } :=
    congrArg (fun machine => { m with machine }) (Machine.load_of_zero rfl m.words 0)
  rw [loaded]
  show ({ m with machine := { m.machine.reset with bus :=
    ⟨(m.machine.bus.clear.load m.words 0).1.memory,
      (m.machine.bus.clear.load m.words 0).1.watchpoints, #[]⟩ } } :
      Monitor) = _
  rw [memory, watchpoints]
  rfl

/-! ## Lines -/

section Line
variable {line word : String} {complaint : Complaint}

theorem execute_blank (split : splitWords line = []) : m.execute line = ⟨true, [], m⟩ := by
  unfold execute
  rw [split]

section Word
variable (split : splitWords line = word :: arguments)
include split

theorem execute_unknown (unknown : Verb.ofName? (lowered word) = none) :
    m.execute line = ⟨true, [s!"unknown command '{lowered word}' (try help)"], m⟩ := by
  unfold execute
  simp only [split, unknown]

theorem execute_of_error (named : Verb.ofName? (lowered word) = some verb)
    (refused : m.perform verb arguments = .error complaint) :
    m.execute line = ⟨true, [s!"{lowered word}: {complaint.message}"], m⟩ := by
  unfold execute
  simp only [split, named, refused]

theorem execute_of_perform (named : Verb.ofName? (lowered word) = some verb)
    (done : m.perform verb arguments = .ok (said, m')) :
    m.execute line = ⟨verb != .quit, m'.collect.1 ++ said, m'.collect.2⟩ := by
  unfold execute
  simp only [split, named, done]

end Word

/-- A line leaves the monitor as it is, or a command is carried out and its reports are taken. -/
theorem cases_of_execute (m : Monitor) (line : String) :
    (m.execute line).monitor = m ∨
      ∃ word arguments verb said m', splitWords line = word :: arguments ∧
        Verb.ofName? (lowered word) = some verb ∧ m.perform verb arguments = .ok (said, m') ∧
          (m.execute line).monitor = m'.collect.2 := by
  cases split : splitWords line with
  | nil =>
    left
    rw [execute_blank split]
  | cons word arguments =>
    cases named : Verb.ofName? (lowered word) with
    | none =>
      left
      rw [execute_unknown split named]
    | some verb =>
      cases done : m.perform verb arguments with
      | error complaint =>
        left
        rw [execute_of_error split named done]
      | ok outcome =>
        right
        refine ⟨word, arguments, verb, outcome.1, outcome.2, rfl, named, done, ?_⟩
        rw [execute_of_perform split named done]

end Line

/-- Executes lines one after another, also those behind one that leaves the monitor. -/
def executeAll (m : Monitor) (lines : List String) : Monitor :=
  lines.foldl (fun m line => (m.execute line).monitor) m

/-- What every command keeps, once its reports are taken, holds after any lines (`executeAll`). -/
theorem holds_executeAll {Holds : Monitor → Prop}
    (kept : ∀ {m m' : Monitor} {before : Memory} {ws : List Write},
      Holds m → m.Changed before ws m' → Holds m'.collect.2)
    (first : Holds m) (lines : List String) : Holds (m.executeAll lines) := by
  unfold executeAll
  induction lines generalizing m with
  | nil => exact first
  | cons line lines ih =>
    rw [List.foldl_cons]
    apply ih
    rcases m.cases_of_execute line with same | ⟨_, _, _, _, _, _, _, done, left⟩
    · rw [same]
      exact first
    · rw [left]
      exact kept first (performed_of_perform done).changed

end Monitor

end Chifir
