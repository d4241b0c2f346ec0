import Chifir.Machine.Panel
import Chifir.Proofs.Machine.Runs

/-!
# Sessions

A session is what is done with a machine from outside: one call after another. Each call is noted
down with its answer and with the panel before and after it, the last one first. PC is never set by
hand.

1. `Panel.call` is one call. A run that does not end has no outcome.
2. `Session.of_play`: sessions can be played.
3. `Session.holds`: what holds at the start of a session and is kept by every call holds at its end.
4. `Panel.called_of_call`: all that a call can do to a machine with PC at an address. So a session
   that starts with PC at an address never loses it (`Session.fetches`).
-/

namespace Chifir

inductive Call
  | load (words : List Int) (base : Int)
  | write (address value : Int)
  | step
  | run (limit : Option Int)
  | press (code : Int)
  | feed (bytes : List UInt8)
  /-- Bytes arrive in the source of the keyboard. -/
  | send (bytes : List UInt8)
  | addBreakpoint (address : Int)
  | removeBreakpoint (address : Int)
  | clearBreakpoints
  | watch (address : Int) (watcher : Watcher)
  | unwatch (address : Int) (watcher : Watcher)
  | unwatchAll (address : Int)
  | trace (on : Bool)
  | clearTrace
  | requestStop
  | reset
deriving DecidableEq, Repr

/-- Why a call is refused: for an `address` that is none, or a `key` that the keyboard does not
take. -/
inductive CallError
  | address (error : AddressError)
  | key (error : KeyboardError)
deriving DecidableEq, Repr

/-- What a call answers: steps and runs may have a reason to stop, and the others have nothing to
say. -/
abbrev CallAnswer := Except CallError (Option StopReason)

def CallAnswer.silent : Option AddressError → CallAnswer
  | none => .ok none
  | some e => .error (.address e)

namespace Panel

def changed (p : Panel) (f : Machine → Machine) : Option (CallAnswer × Panel) :=
  some (.ok none, p.modify f)

/-- A call that gives the machine another bus, or is refused. -/
def rewired (p : Panel) : Except AddressError Bus → Option (CallAnswer × Panel)
  | .ok bus => p.changed ({ · with bus })
  | .error e => some (.error (.address e), p)

/-- The outcome of a call, unless it is a run that does not end. -/
def call (p : Panel) : Call → Option (CallAnswer × Panel)
  | .load words base =>
    let (p, refused?) := p.load words base
    some (.silent refused?, p)
  | .write n v => p.rewired (p.machine.bus.write n v)
  | .step =>
    match p.step with
    | .ok (reason, p) => some (.ok reason, p)
    | .error e => some (.error (.address e), p)
  | .run limit => (p.run? limit).map fun (answer, p) => ((answer.map some).mapError .address, p)
  | .press code =>
    match p.machine.keyboard.press code with
    | .ok keyboard => p.changed ({ · with keyboard })
    | .error e => some (.error (.key e), p)
  | .feed bytes => p.changed fun m => { m with keyboard := m.keyboard.feed bytes }
  | .send bytes => p.changed fun m => { m with keyboard := m.keyboard.send bytes }
  | .addBreakpoint n => p.changed (·.addBreakpoint n)
  | .removeBreakpoint n => p.changed (·.removeBreakpoint n)
  | .clearBreakpoints => p.changed (·.clearBreakpoints)
  | .watch n watcher => p.rewired ((Word.address n).map (p.machine.bus.watch · watcher))
  | .unwatch n watcher => p.changed fun m => { m with bus := m.bus.unwatch n watcher }
  | .unwatchAll n => p.changed fun m => { m with bus := m.bus.unwatchAll n }
  | .trace tracing => p.changed ({ · with tracing })
  | .clearTrace => p.changed (·.clearTrace)
  | .requestStop => p.changed (·.requestStop)
  | .reset => some (.ok none, p.reset)

end Panel

/-- A call as it went: the panel `before` it, what it answered, and the panel `after` it. -/
structure Event where
  before : Panel
  call : Call
  answer : CallAnswer
  after : Panel

/-- From `start`, these calls lead to a panel; the last one comes first. -/
inductive Session (start : Panel) : List Event → Panel → Prop
  | start : Session start [] start
  | call {log : List Event} {p p' : Panel} {c : Call} {answer : CallAnswer}
      (earlier : Session start log p) (called : p.call c = some (answer, p')) :
      Session start (⟨p, c, answer, p'⟩ :: log) p'

variable {start p p' : Panel} {log : List Event}

/-- What `Panel.call` keeps holds throughout a session, whatever the calls are. -/
theorem Session.holds (Holds : Panel → Prop) (session : Session start log p) (first : Holds start)
    (kept : ∀ {p p' c answer}, Holds p → p.call c = some (answer, p') → Holds p') : Holds p := by
  induction session with
  | start => exact first
  | call _ called ih => exact kept ih called

/-- Makes calls one after another, with a log so far; it has no outcome if one of them does not end.
-/
def Panel.playFrom (p : Panel) (log : List Event) : List Call → Option (List Event × Panel)
  | [] => some (log, p)
  | c :: calls =>
    match p.call c with
    | none => none
    | some (answer, p') => p'.playFrom (⟨p, c, answer, p'⟩ :: log) calls

def Panel.play (p : Panel) (calls : List Call) : Option (List Event × Panel) := p.playFrom [] calls

theorem Session.playFrom {calls : List Call} {log' : List Event} (session : Session start log p)
    (played : p.playFrom log calls = some (log', p')) : Session start log' p' := by
  induction calls generalizing p log with
  | nil =>
    cases played
    exact session
  | cons c calls ih =>
    rw [Panel.playFrom] at played
    split at played
    · cases played
    · next called => exact ih (session.call called) played

theorem Session.of_play {calls : List Call} (played : start.play calls = some (log, p)) :
    Session start log p :=
  Session.start.playFrom played

/-! ## What calls do -/

/-- Whether a call only sets something. The others load, step, run or reset. -/
def Call.sets : Call → Bool
  | .load .. | .step | .run _ | .reset => false
  | _ => true

/-- What a call makes of a machine. -/
inductive Machine.Called (m : Machine) : Call → CallAnswer → Machine → Prop
  | loaded (words : List Int) (base : Int) :
      Called m (.load words base) (.silent (m.load words base).2) (m.load words base).1
  | stepped : Called m .step (.ok m.step.status.reason?) m.step
  | ran (limit : Option Int) :
      Called m (.run limit) (.ok (some (m.runFor (m.allowance limit)).1))
        (m.runFor (m.allowance limit)).2
  | reset : Called m .reset (.ok none) m.reset
  /-- A refused call sets nothing. -/
  | set {c : Call} {answer : CallAnswer} {m' : Machine} (sets : c.sets)
      (memory : m'.bus.memory = m.bus.memory ∨ ∃ n v, m.bus.write n v = .ok m'.bus)
      (kept : m' = { m with
        bus := m'.bus, keyboard := m'.keyboard, breakpoints := m'.breakpoints, tracing := m'.tracing
        trace := m'.trace, stopRequested := m'.stopRequested }) : Called m c answer m'

namespace Panel

/-- A panel with PC at an address is its `machine` and nothing else. -/
theorem eq_of_fetches (fetches : p.astray = none) : p = { machine := p.machine } := by
  cases p
  cases fetches
  rfl

@[simp] theorem pc_machine (m : Machine) : ({ machine := m } : Panel).pc = Word.toInt m.pc := rfl

theorem load_machine (m : Machine) (words : List Int) (base : Int) :
    ({ machine := m } : Panel).load words base =
      ({ machine := (m.load words base).1 }, (m.load words base).2) := by
  rw [load]
  split
  · next loaded => rw [loaded]
  · next loaded => rw [loaded]

theorem step_machine (m : Machine) :
    ({ machine := m } : Panel).step = .ok (m.step.status.reason?, { machine := m.step }) := by
  cases status : m.status with
  | running =>
    simp only [step, status]
    rfl
  | halted | faulted => simp only [step, Machine.step, status, Status.reason?]

theorem outcome_of_run? {m : Machine} {limit : Option Int} {answer : Except AddressError StopReason}
    (ran : ({ machine := m } : Panel).run? limit = some (answer, p')) :
    answer = .ok (m.runFor (m.allowance limit)).1 ∧
      p' = { machine := (m.runFor (m.allowance limit)).2 } := by
  obtain ⟨outcome, bounded, same⟩ := Option.map_eq_some_iff.1 ran
  cases same
  rw [Machine.runFor_of_run? bounded]
  exact ⟨rfl, rfl⟩

theorem cases_of_rewired {bus : Except AddressError Bus} {answer : CallAnswer}
    (called : p.rewired bus = some (answer, p')) :
    (∃ b, bus = .ok b ∧ p' = p.modify ({ · with bus := b })) ∨ ∃ e, bus = .error e ∧ p' = p := by
  cases bus with
  | ok b =>
    cases called
    exact .inl ⟨b, rfl, rfl⟩
  | error e =>
    cases called
    exact .inr ⟨e, rfl, rfl⟩

/-- What a call does to a panel with PC at an address. PC is at an address again. -/
theorem called_of_call {c : Call} {answer : CallAnswer} (fetches : p.astray = none)
    (called : p.call c = some (answer, p')) : ∃ m', p' = { machine := m' } ∧
    p.machine.Called c answer m' := by
  obtain ⟨m, rfl⟩ : ∃ m, p = { machine := m } := ⟨_, eq_of_fetches fetches⟩
  cases c with
  | load words base =>
    rw [call, load_machine] at called
    cases called
    exact ⟨_, rfl, .loaded words base⟩
  | step =>
    rw [call, step_machine] at called
    cases called
    exact ⟨_, rfl, .stepped⟩
  | run limit =>
    obtain ⟨⟨answer, p'⟩, ran, same⟩ := Option.map_eq_some_iff.1 called
    cases same
    obtain ⟨rfl, rfl⟩ := outcome_of_run? ran
    exact ⟨_, rfl, .ran limit⟩
  | reset =>
    cases called
    exact ⟨_, rfl, .reset⟩
  -- A call that is refused sets nothing either.
  | write n v =>
    obtain ⟨_, written, rfl⟩ | ⟨_, _, rfl⟩ := cases_of_rewired called
    · exact ⟨_, rfl, .set rfl (.inr ⟨n, v, written⟩) rfl⟩
    · exact ⟨_, rfl, .set rfl (.inl rfl) rfl⟩
  | watch n watcher =>
    obtain ⟨_, watched, rfl⟩ | ⟨_, _, rfl⟩ := cases_of_rewired called
    · cases address : Word.address n with
      | error e =>
        rw [address] at watched
        cases watched
      | ok a =>
        rw [address] at watched
        cases watched
        exact ⟨_, rfl, .set rfl (.inl rfl) rfl⟩
    · exact ⟨_, rfl, .set rfl (.inl rfl) rfl⟩
  | press code =>
    rw [call] at called
    split at called
    · cases called
      exact ⟨_, rfl, .set rfl (.inl rfl) rfl⟩
    · cases called
      exact ⟨_, rfl, .set rfl (.inl rfl) rfl⟩
  | feed | send | addBreakpoint | removeBreakpoint | clearBreakpoints | unwatch | unwatchAll | trace
      | clearTrace
  | requestStop =>
    cases called
    exact ⟨_, rfl, .set rfl (.inl rfl) rfl⟩

end Panel

theorem Session.fetches (session : Session start log p) (fetches : start.astray = none) :
    p.astray = none := by
  refine session.holds (fun p => p.astray = none) fetches fun fetches called => ?_
  obtain ⟨_, rfl, _⟩ := Panel.called_of_call fetches called
  rfl

end Chifir
