import Chifir.CommandLine.Command
import Chifir.Proofs.Display.Windows
import Chifir.Proofs.Machine.Checked

/-!
# Nothing fails but programs

Whatever is done with an engine, its numbers stay in range, and its steps and runs meet no hazard.
All that a program can bring about is a status.

1. `Machine.Settled`: what the screen shows is what the engine was made for, and each page lies in
   memory.
2. `Machine.Settled.step`, `Settled.runFrom`, `Settled.call`: one instruction, a run, and any call
   keep that.
3. `session_never_fails`: so no step and no run fails in any session. The exception are displays
   that were made with numbers that are not whole, as `fractional_display_fails` shows.
-/

namespace Chifir

/-! ## Pages -/

def pageLimit : Nat := 0x100000

namespace Memory

def Paged (m : Memory) : Prop := ∀ page ∈ m.pages, page < pageLimit

theorem pageOf_lt (a : Word) : pageOf a < pageLimit := by
  have small := a.toNat_lt
  rw [pageOf, pageLimit, pageSize]
  omega

theorem paged_empty : empty.Paged := fun _ inside => absurd inside Std.TreeMap.not_mem_emptyc

theorem Paged.set {m : Memory} (paged : m.Paged) (a v : Word) : (m.set a v).Paged := by
  intro page inside
  rw [Memory.set, Std.TreeMap.mem_alter] at inside
  split at inside
  · next same =>
    rw [← Std.LawfulEqCmp.compare_eq_iff_eq.1 same]
    exact pageOf_lt a
  · exact paged page inside

theorem Paged.write {b b' : Bus} {n v : Int} (paged : b.memory.Paged)
    (written : b.write n v = .ok b') :
    b'.memory.Paged := by
  obtain ⟨a, _, written⟩ := bind_eq_ok.1 written
  cases written
  rw [Bus.memory_set]
  exact paged.set a _

theorem Paged.load {b : Bus} (paged : b.memory.Paged) (words : List Int) (base : Int) :
    (b.load words base).1.memory.Paged := by
  induction words generalizing b base with
  | nil => exact paged
  | cons v words ih =>
    rw [Bus.load]
    cases written : b.write base v with
    | error e => exact paged
    | ok b' => exact ih (paged.write written) (base + 1)

end Memory

/-! ## What every call keeps -/

namespace Machine

variable {showing : Option Showing} {m m' : Machine}

/-- A machine with a display for what the engine shows, and with pages in memory only. -/
structure Settled (showing : Option Showing) (m : Machine) : Prop where
  shows : m.display.Shows showing
  paged : m.bus.memory.Paged

theorem Settled.step (settled : m.Settled showing) : m.step.Settled showing := by
  refine ⟨settled.shows.step, ?_⟩
  refine of_step (P := fun m' => m'.bus.memory.Paged) settled.paged (fun _ op => ?_) fun _ => ?_
  · simp only [follow, bus_record]
    split
    · exact settled.paged
    · rw [Bus.memory_set]
      exact settled.paged.set _ _
  · rw [fail, bus_record]
    exact settled.paged

theorem Settled.runFrom (settled : m.Settled showing) (pass : Option Word) (budget : Nat) :
    (m.runFrom pass budget).2.Settled showing := by
  refine ends_runFrom (Settled showing) (fun _ => Settled showing) Settled.step
    (fun settled stops => ?_) (fun settled _ => settled) pass budget settled
  obtain ⟨_, rfl⟩ | ⟨_, _, rfl⟩ | ⟨_, _, _, rfl⟩ := cases_of_stopBefore stops
  · exact settled
  · exact ⟨settled.shows, settled.paged⟩
  · exact ⟨settled.shows, settled.paged⟩

theorem Settled.load (settled : m.Settled showing) (words : List Int) (base : Int) :
    (m.load words base).1.Settled showing := by
  have paged := settled.paged.load words base
  rw [Machine.load]
  split
  · next loaded =>
    rw [loaded] at paged
    exact ⟨settled.shows, paged⟩
  · next loaded =>
    rw [loaded] at paged
    exact ⟨settled.shows, paged⟩

end Machine

namespace Panel

variable {showing : Option Showing} {p p' : Panel}

/-- A panel that fetches and whose machine is `Settled`: what a session keeps. -/
structure Settled (showing : Option Showing) (p : Panel) : Prop where
  fetches : p.astray = none
  machine : p.machine.Settled showing

theorem Settled.call {c : Call} {answer : CallAnswer} (settled : p.Settled showing)
    (called : p.call c = some (answer, p')) : p'.Settled showing := by
  obtain ⟨m', rfl, outcome⟩ := called_of_call settled.fetches called
  refine ⟨rfl, ?_⟩
  have machine := settled.machine
  cases outcome with
  | loaded words base => exact machine.load words base
  | stepped => exact machine.step
  | ran limit =>
    exact Machine.Settled.runFrom (m := { p.machine with resumeAt := none })
      ⟨machine.shows, machine.paged⟩ _ _
  | reset => exact ⟨⟨machine.shows.screen, machine.shows.painted⟩, machine.paged⟩
  | set _ memory kept =>
    refine ⟨?_, ?_⟩
    · rw [kept]
      exact machine.shows
    · obtain same | ⟨n, v, written⟩ := memory
      · rw [same]
        exact machine.paged
      · exact machine.paged.write written

end Panel

/-! ## Sessions -/

/-- What an engine with this configuration shows; `silent` is without a screen. -/
def Config.showing (c : Config) (silent : Bool) : Option Showing :=
  if silent then none else some ⟨c.region, c.settings.border⟩

/-- An engine with this configuration before anything is done with it. One that is `silent` has no
screen. -/
def Config.panel (c : Config) (silent : Bool) (keyboard : Keyboard) : Panel :=
  { machine := Machine.build c (if silent then {} else c.display) keyboard }

theorem Config.settled_panel {c : Config} {silent : Bool} (keyboard : Keyboard)
    (whole : silent = false → ∃ address width height, c.Whole address width height) :
    (c.panel silent keyboard).Settled (c.showing silent) := by
  refine ⟨rfl, ?_, Memory.paged_empty⟩
  cases silent with
  | true => exact ⟨rfl, fun s shown => by cases shown⟩
  | false =>
    obtain ⟨_, _, _, numbers⟩ := whole rfl
    obtain ⟨window, _, region⟩ := window_of_whole numbers
    refine ⟨?_, fun s shown => ?_⟩
    · simp only [panel, showing, Machine.build, display, screen?, Showing.screen?, region,
        Bool.false_eq_true, if_false, Option.bind_some]
    · cases shown
      simp only [Showing.screen?, region, Option.isSome_some]

namespace Panel

/-- All numbers of a machine are in their ranges. -/
structure InRange (p : Panel) : Prop where
  pc : 0 ≤ p.pc ∧ p.pc < addressLimit
  pages : ∀ (n : Nat) (page : Page), p.machine.bus.memory.pages[n]? = some page →
    n < pageLimit ∧ page.toArray.size = 4096 ∧ ∀ w ∈ page.toArray, 0 ≤ Word.toInt w ∧
      Word.toInt w < addressLimit
  polled : p.machine.keyboard.poll.1.toNat ≤ 255

/-- Neither a step nor a run fails, and neither meets a hazard. -/
structure Unfailing (showing : Option Showing) (p : Panel) : Prop where
  step : ∃ p', p.step = .ok (p'.machine.status.reason?, p') ∧
    p.stepChecked showing = .ok (p'.machine.status.reason?, p')
  /-- However long a run goes on. -/
  running : ∀ budget, ∃ outcome, p.runChecked showing budget = .ok outcome
  run : ∀ limit answer p', p.run? limit = some (answer, p') → ∃ reason, answer = .ok reason ∧
    p.runChecked showing (p.machine.allowance limit) = .ok (reason, p') ∧
    p'.machine.status.reason? = if reason ∈ [.halt, .fault] then some reason else none

theorem Settled.inRange {showing : Option Showing} {p : Panel} (settled : p.Settled showing) :
    p.InRange := by
  have bounds (w : Word) : 0 ≤ Word.toInt w ∧ Word.toInt w < addressLimit := by
    have small := w.toNat_lt
    simp only [Word.toInt, addressLimit]
    omega
  refine ⟨?_, fun n page found => ⟨?_, page.size_toArray, fun w _ => bounds w⟩, ?_⟩
  · rw [eq_of_fetches settled.fetches]
    exact bounds _
  · exact settled.machine.paged n (Std.TreeMap.mem_iff_isSome_getElem?.2 (by rw [found]; rfl))
  · have small := p.machine.keyboard.poll.1.toNat_lt
    omega

theorem Settled.unfailing {showing : Option Showing} {p : Panel} (settled : p.Settled showing) :
    p.Unfailing showing := by
  -- With PC at an address the panel is its machine, and what is said of machines applies.
  obtain ⟨m, rfl⟩ : ∃ m, p = { machine := m } := ⟨_, eq_of_fetches settled.fetches⟩
  have shows := settled.machine.shows
  refine ⟨⟨{ machine := m.step }, step_machine m, stepChecked_machine shows⟩,
    fun budget => ⟨_, runChecked_machine budget shows⟩, fun limit answer p' ran => ?_⟩
  obtain ⟨rfl, rfl⟩ := outcome_of_run? ran
  exact ⟨_, rfl, runChecked_machine (m.allowance limit) shows, Machine.reason?_runFrom _ _ _⟩

end Panel

/-- In a session with any engine, nothing ever fails: all numbers are in range, and each step and
each run gives an answer, whatever the program has done. The engine has no screen, or one for whole
numbers. -/
theorem session_never_fails {c : Config} {silent : Bool} {keyboard : Keyboard} {log : List Event}
    {p : Panel} (whole : silent = false → ∃ address width height, c.Whole address width height)
    (session : Session (c.panel silent keyboard) log p) :
    p.InRange ∧ p.Unfailing (c.showing silent) := by
  have settled :=
    session.holds (Panel.Settled (c.showing silent)) (c.settled_panel keyboard whole)
    Panel.Settled.call
  exact ⟨settled.inRange, settled.unfailing⟩

def drawing : Call := .load [14, 0, 0, 0] 0

theorem session_never_fails_drawing :
    ∃ log p, Session (Config.mini.panel false {}) log p ∧ p.machine.display.frames = 1 ∧ p.InRange ∧
      p.Unfailing (Config.mini.showing false) := by
  have shown : ((Config.mini.panel false {}).play [drawing, .step]).any fun (_, p) =>
      p.machine.display.frames = 1 := by
    decide +kernel
  obtain ⟨⟨log, p⟩, played, shown⟩ := (Option.any_eq_true _ _).1 shown
  rw [decide_eq_true_eq] at shown
  have session := Session.of_play played
  have whole : Config.mini.Whole 0x10000 16 16 := ⟨rfl, rfl, rfl⟩
  exact ⟨log, p, session, shown, session_never_fails (fun _ => ⟨_, _, _, whole⟩) session⟩

def fractionalText : String :=
  "\x7b\"display_address\": 65536, \"display_width\": 8.0, \"display_height\": 6\x7d"

open CommandLine in
/-- Such a configuration passes its check. But the first instruction that shows the display fails,
and the run with it. -/
theorem fractional_display_fails :
    ∃ c log p, Config.ofText "m.json" fractionalText none = .ok c ∧
      Session (c.panel false {}) log p ∧
        p.stepChecked (c.showing false) = .error (.paint .repetition) ∧
      ((RunRequest.run {} c p.machine).map (·.1)).mapError Failure.report =
        .error "Internal error: can't multiply sequence by non-int of type 'float'" := by
  have fails : (Config.ofText "m.json" fractionalText none).toOption.any fun c =>
      ((c.panel false {}).play [drawing]).any fun (_, p) =>
        (p.stepChecked (c.showing false)).map (·.1) = .error (.paint .repetition) ∧
          ((RunRequest.run {} c p.machine).map (·.1)).mapError Failure.report =
            .error "Internal error: can't multiply sequence by non-int of type 'float'" := by
    decide +kernel
  obtain ⟨c, found, fails⟩ := exists_of_any_toOption fails
  obtain ⟨⟨log, p⟩, played, fails⟩ := (Option.any_eq_true _ _).1 fails
  rw [decide_eq_true_eq] at fails
  obtain ⟨hazard, report⟩ := fails
  exact ⟨c, log, p, found, Session.of_play played, map_eq_error.1 hazard, report⟩

end Chifir
