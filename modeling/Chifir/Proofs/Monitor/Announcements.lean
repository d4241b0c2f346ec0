import Chifir.Proofs.Machine.Resuming
import Chifir.Proofs.Monitor.Printed
import Chifir.Proofs.Monitor.Reset

/-!
# Announced breakpoints

The monitor announces the number that a breakpoint was asked for with, and runs stop at the address
that the number becomes. The two are the same only for numbers that are addresses.

1. `stopsAt_iff`, `met_of_break`: runs stop at breakpoints, and nowhere else.
2. `cases_of_announced`: a line announces the breakpoint that it sets, if it sets one.
3. `mem_breakpoints_executeAll`, `mem_announcedBy`: by induction, so it is with many lines.
4. `announcements_are_breakpoints`: what is announced is where runs stop, but for the numbers that
   are no addresses.
-/

namespace Chifir

open Text

namespace Machine

variable {m : Machine}

theorem breakpoints_load (m : Machine) (words : List Int) (base : Int) :
    (m.load words base).1.breakpoints = m.breakpoints := by
  rw [load]
  split
  · rfl
  · rfl

/-! ## Where runs stop -/

/-- Runs stop at an address when they come there. Only one that begins where the last one has
stopped may pass. -/
def StopsAt (m : Machine) (a : Word) : Prop :=
  ∀ (now : Machine) (budget : Nat), now.breakpoints = m.breakpoints → now.status = .running →
    now.stopRequested = false → now.pc = a → now.resumeAt ≠ some a →
      (now.runFor budget).1 = .breakpoint ∧ now.performed budget = []

theorem stopsAt_iff {a : Word} : m.StopsAt a ↔ a ∈ m.breakpoints := by
  constructor
  · intro stops
    let now : Machine :=
      { m with status := .running, stopRequested := false, pc := a, resumeAt := none }
    exact ((now.breaks_at_once_iff rfl 0).1 (stops now 0 rfl rfl rfl rfl nofun)).2.1
  · intro met now budget same running unasked here unmarked
    refine (now.breaks_at_once_iff running budget).2 ⟨unasked, ?_, ?_⟩
    · rw [here, same]
      exact met
    · rwa [here]

theorem met_of_break {budget : Nat} (breaks : (m.runFor budget).1 = .breakpoint) :
    (m.runFor budget).2.pc ∈ m.breakpoints := by
  refine ends_runFrom (fun now => now.breakpoints = m.breakpoints)
    (fun reason now => reason = .breakpoint → now.pc ∈ m.breakpoints)
      (fun {now} same => now.breakpoints_step.trans same)
    (fun {now} _ _ _ same stops => ?_) (fun _ _ => nofun) m.resumeAt budget rfl breaks
  rcases cases_of_stopBefore stops with ⟨stopped, _⟩ | ⟨_, rfl, _⟩ | ⟨_, _, met, rfl⟩
  · rintro rfl
    exact absurd (mem_reasons stopped) (by decide)
  · nofun
  · intro _
    rwa [same] at met

end Machine

namespace Monitor

variable {m m' : Monitor} {before : Memory} {ws : List Write} {verb : Verb}
    {arguments : List String} {said : List String}

/-! ## What commands do to breakpoints -/

theorem Performed.breakpoints (performed : m.Performed arguments verb m')
    (other : verb ≠ .breakAt) :
    m'.machine.breakpoints = m.machine.breakpoints := by
  have follows {first now : Machine} {ms : List Machine} (trail : first.Trail ms now)
      (same : first.breakpoints = m.machine.breakpoints) :
      now.breakpoints = m.machine.breakpoints :=
    trail.keeps
      (fun {now} (same : now.breakpoints = m.machine.breakpoints) =>
        now.breakpoints_step.trans same) same
  cases performed with
  | looked | unwatched | pressed => rfl
  | broke => exact absurd rfl other
  | stepped => exact follows (Machine.trail_stepMany _ m.machine) rfl
  | @ran limit outcome _ ran =>
    obtain ⟨now, trail, left⟩ := m.machine.trail_runFor (m.machine.allowance limit)
    rw [Machine.runFor_of_run? ran] at left
    have kept : now.breakpoints = m.machine.breakpoints := follows trail rfl
    rw [left]
    exact kept
  | watched =>
    obtain ⟨_, _, same⟩ := m.exists_watch _
    rw [same]
  | reset => exact congrArg (·.machine.breakpoints) m.reset_eq

theorem Changed.symbols (changed : m.Changed before ws m') : m'.symbols = m.symbols := by
  cases changed with
  | looked | went | broke | unwatched | pressed | reset => rfl
  | watched a =>
    obtain ⟨_, _, same⟩ := m.exists_watch a
    rw [same]

theorem symbols_executeAll (m : Monitor) (lines : List String) :
    (m.executeAll lines).symbols = m.symbols := by
  have kept {now now' : Monitor} {before : Memory} {ws : List Write}
    (same : now.symbols = m.symbols)
      (changed : now.Changed before ws now') : now'.collect.2.symbols = m.symbols :=
        changed.symbols.trans same
  exact holds_executeAll kept rfl lines

/-! ## Lines that set breakpoints -/

/-- A line that sets a breakpoint, where its argument denotes this number. -/
def Breaks (m : Monitor) (line : String) (n : Int) : Prop :=
  ∃ word arguments, splitWords line = word :: arguments ∧
    Verb.ofName? (lowered word) = some .breakAt ∧ m.Denotes arguments n

theorem breaks_iff {line word : String} (split : splitWords line = word :: arguments) (n : Int) :
    m.Breaks line n ↔ Verb.ofName? (lowered word) = some .breakAt ∧ m.Denotes arguments n := by
  constructor
  · rintro ⟨_, _, split', named, denotes⟩
    obtain ⟨rfl, rfl⟩ := List.cons.inj (split'.symm.trans split)
    exact ⟨named, denotes⟩
  · exact fun ⟨named, denotes⟩ => ⟨word, arguments, split, named, denotes⟩

theorem Breaks.iff_eq {line : String} {n : Int} (breaks : m.Breaks line n) (n' : Int) :
    m.Breaks line n' ↔ n' = n := by
  obtain ⟨_, _, split, named, denotes⟩ := breaks
  rw [breaks_iff split, denotes.iff_eq]
  exact and_iff_right named

theorem breaks_congr (same : m'.symbols = m.symbols) (line : String) (n : Int) :
    m'.Breaks line n ↔ m.Breaks line n := by
  unfold Breaks Denotes addressOf
  rw [same]

def announcedBy (m : Monitor) : List String → List Int
  | [] => []
  | line :: lines =>
      announcedIn (m.execute line).printed ++ (m.execute line).monitor.announcedBy lines

theorem isInline_word {line word : String} {arguments : List String}
    (split : splitWords line = word :: arguments) :
    IsInline word := by
  have mem : word ∈ splitWords line := by
    rw [split]
    exact List.mem_cons_self
  obtain ⟨w, own, rfl⟩ := List.mem_map.1 mem
  rw [IsInline, String.toList_ofList]
  exact fun feed => absurd ((not_isBlank_of_mem_words own).2 _ feed) (by decide)

theorem Registered.announcedIn_reports (registered : m.Registered)
    (changed : m.Changed before ws m') :
    announcedIn m'.collect.1 = [] := by
  rw [registered.reports_eq changed]
  refine announcedIn_eq_nil fun text mem => ?_
  obtain ⟨w, _, rfl⟩ := List.mem_map.1 mem
  exact announcedIn_write w

/-- A line that sets a breakpoint announces it, and no other line announces or sets one. -/
theorem cases_of_announced (registered : m.Registered) (line : String) :
    (∃ n, m.Breaks line n ∧ announcedIn (m.execute line).printed = [n] ∧
        (m.execute line).monitor.machine.breakpoints = Machine.insertAscending
        (Word.ofInt n) m.machine.breakpoints) ∨
      (∀ n, ¬ m.Breaks line n) ∧ announcedIn (m.execute line).printed = [] ∧
        (m.execute line).monitor.machine.breakpoints = m.machine.breakpoints := by
  cases split : splitWords line with
  | nil =>
    rw [execute_blank split]
    refine .inr ⟨?_, rfl, rfl⟩
    rintro n ⟨_, _, split', _⟩
    cases split'.symm.trans split
  | cons word arguments =>
    simp only [breaks_iff split]
    cases named : Verb.ofName? (lowered word) with
    | none =>
      rw [execute_unknown split named]
      exact .inr ⟨nofun, announcedIn_unknown (isInline_word split), rfl⟩
    | some verb =>
      cases done : m.perform verb arguments with
      | error complaint =>
        rw [execute_of_error split named done]
        refine .inr ⟨?_, announcedIn_complaint named complaint, rfl⟩
        rintro n ⟨same, denotes⟩
        cases same
        cases (perform_breakAt denotes).symm.trans done
      | ok outcome =>
        obtain ⟨said, m'⟩ := outcome
        have performed := performed_of_perform done
        rw [execute_of_perform split named done]
        simp only [announcedIn_append, registered.announcedIn_reports performed.changed,
          List.nil_append]
        by_cases sets : verb = .breakAt
        · subst sets
          cases performed with
          | looked looks => cases looks
          | @broke n denotes =>
            cases (perform_breakAt denotes).symm.trans done
            exact .inl ⟨n, ⟨rfl, denotes⟩, announcedIn_breakpoint n, rfl⟩
        · have none (n : Int) : ¬ (some verb = some .breakAt ∧ m.Denotes arguments n) :=
            fun breaks =>
            sets (Option.some.inj breaks.1)
          exact .inr ⟨none, announcedIn_said sets done, performed.breakpoints sets⟩

/-! ## Many lines -/

theorem mem_breakpoints_executeAll (registered : m.Registered) (lines : List String) (a : Word) :
    a ∈ (m.executeAll lines).machine.breakpoints ↔
      a ∈ m.machine.breakpoints ∨ ∃ n ∈ m.announcedBy lines, Word.ofInt n = a := by
  induction lines generalizing m with
  | nil => simp [executeAll, announcedBy]
  | cons line lines ih =>
    have next : (m.execute line).monitor.Registered := registered.executeAll [line]
    show a ∈ ((m.execute line).monitor.executeAll lines).machine.breakpoints ↔ _
    rw [ih next, announcedBy]
    rcases cases_of_announced registered line with ⟨n, _, said, set⟩ | ⟨_, said, kept⟩
    · rw [said, set, Machine.mem_insertAscending, List.singleton_append, List.exists_mem_cons_iff,
        eq_comm (a := a), or_comm (a := _ = a), or_assoc]
    · rw [said, kept, List.nil_append]

theorem mem_announcedBy (registered : m.Registered) (lines : List String) (n : Int) :
    n ∈ m.announcedBy lines ↔ ∃ line ∈ lines, m.Breaks line n := by
  induction lines generalizing m with
  | nil => simp [announcedBy]
  | cons line lines ih =>
    have next : (m.execute line).monitor.Registered := registered.executeAll [line]
    have same : (m.execute line).monitor.symbols = m.symbols := m.symbols_executeAll [line]
    have first : n ∈ announcedIn (m.execute line).printed ↔ m.Breaks line n := by
      rcases cases_of_announced registered line with ⟨n', breaks, said, _⟩ | ⟨none, said, _⟩
      · rw [said, List.mem_singleton, breaks.iff_eq]
      · rw [said, iff_false_right (none n)]
        exact List.not_mem_nil
    rw [announcedBy, List.mem_append, first, ih next, List.exists_mem_cons_iff]
    simp only [breaks_congr same]

/-! ## What is announced and where runs stop -/

theorem eq_breakpoint_of_name {reason : StopReason} {s : String}
    (same : s!"BREAK: {s}" = s!"{reason.name}: {s}") :
    reason = .breakpoint := by
  have name : "BREAK: " = reason.name ++ ": " := (String.append_left_inj s).1 same
  cases reason with
  | breakpoint => rfl
  | halt | fault | timeout | cancelled => exact absurd name (by decide)

theorem met_of_reported {left : Monitor} (done : m.perform .run arguments = .ok (said, left))
    (reported : s!"BREAK: {left.machine.summary}" ∈ said) :
    left.machine.pc ∈ m.machine.breakpoints := by
  obtain ⟨limit, reason, ran, rfl⟩ := said_of_run done
  have ends := Machine.runFor_of_run? ran
  rcases List.mem_cons.1 reported with same | faulted
  · obtain rfl := eq_breakpoint_of_name same
    have met := Machine.met_of_break (congrArg Prod.fst ends)
    rwa [ends] at met
  · obtain ⟨_, _, same⟩ := Option.map_eq_some_iff.1 (Option.mem_toList.1 faulted)
    have begins := congrArg (·.toList.head?) same
    simp [toString_text] at begins

/-- The numbers that a session announces are those that its commands for breakpoints are given, in
whatever spelling. The breakpoints are the addresses that these numbers become, and so are the
addresses at which runs stop and those at which a run reports a break. The numbers announced are the
breakpoints just as long as all of them are addresses. -/
theorem announcements_are_breakpoints (machine : Machine) (unwatched : machine.bus.watchpoints = [])
    (quiet : machine.bus.notices = #[]) (unstopped : machine.breakpoints = []) (words : List Int)
    (symbols : List (String × Int)) (lines : List String) :
    let fresh := start machine words symbols
    let m := fresh.executeAll lines
    let announced := fresh.announcedBy lines
    (∀ n, n ∈ announced ↔ ∃ line ∈ lines, fresh.Breaks line n) ∧
      (∀ a, a ∈ m.machine.breakpoints ↔ ∃ n ∈ announced, Word.ofInt n = a) ∧
      (∀ a, m.machine.StopsAt a ↔ ∃ n ∈ announced, Word.ofInt n = a) ∧
      (∀ arguments said left, m.perform .run arguments = .ok (said, left) →
        s!"BREAK: {left.machine.summary}" ∈ said →
          ∃ n ∈ announced, Word.ofInt n = left.machine.pc) ∧
      ((∀ n, n ∈ announced ↔ ∃ a ∈ m.machine.breakpoints, Word.toInt a = n) ↔
        ∀ n ∈ announced, IsAddress n) := by
  intro fresh m announced
  have registered : fresh.Registered := registered_start unwatched quiet words symbols
  have none : fresh.machine.breakpoints = [] := (machine.breakpoints_load words 0).trans unstopped
  have met (a : Word) : a ∈ m.machine.breakpoints ↔ ∃ n ∈ announced, Word.ofInt n = a := by
    rw [mem_breakpoints_executeAll registered, none]
    simp only [List.not_mem_nil, false_or]
    rfl
  refine ⟨mem_announcedBy registered lines, met, fun a => Machine.stopsAt_iff.trans (met a), ?_, ?_,
    ?_⟩
  · exact fun arguments said left done reported => (met _).1 (met_of_reported done reported)
  · intro same n mem
    obtain ⟨a, _, rfl⟩ := (same n).1 mem
    exact isAddress_toInt a
  · intro addresses n
    constructor
    · intro mem
      obtain ⟨a, rfl⟩ := exists_toInt (addresses n mem)
      exact ⟨a, (met a).2 ⟨_, mem, Word.ofInt_toInt a⟩, rfl⟩
    · rintro ⟨_, there, rfl⟩
      obtain ⟨n, mem, rfl⟩ := (met _).1 there
      obtain ⟨a, rfl⟩ := exists_toInt (addresses n mem)
      rwa [Word.ofInt_toInt]

theorem announcements_are_breakpoints_spelled :
    let fresh := start {} [16, 0, 0, 0, 16, 0, 0, 0, 16, 0, 0, 0] [("next", 4)]
    let lines := ["break next", "B $8", "run", "reset", "break 0xFFFFFFFF"]
    let m := fresh.executeAll lines
    fresh.announcedBy lines = [4, 8, 0xFFFFFFFF] ∧ m.machine.breakpoints = [4, 8, 0xFFFFFFFF] ∧
      m.machine.StopsAt 8 := by
  intro fresh lines m
  have announced : fresh.announcedBy lines = [4, 8, 0xFFFFFFFF] := by decide +kernel
  have set : m.machine.breakpoints = [4, 8, 0xFFFFFFFF] := by decide +kernel
  obtain ⟨_, _, stops, _⟩ :=
    announcements_are_breakpoints {} rfl rfl rfl [16, 0, 0, 0, 16, 0, 0, 0, 16, 0, 0, 0]
    [("next", 4)] lines
  refine ⟨announced, set, (stops 8).2 ⟨8, ?_, by decide⟩⟩
  show 8 ∈ fresh.announcedBy lines
  rw [announced]
  decide

/-- A number that is no address is announced as it is. Runs stop at the address that it becomes,
which is not announced. -/
theorem announced_number_becomes_address :
    let fresh := start {} [16, 0, 0, 0] []
    let m := fresh.executeAll ["break 100000000"]
    fresh.announcedBy ["break 100000000"] = [0x100000000] ∧ m.machine.breakpoints = [0] ∧
      (m.execute "run").printed = ["BREAK: RUNNING steps=0 pc=00000000: nop 0 0 0"] ∧
      ¬ ∀ n, n ∈ fresh.announcedBy ["break 100000000"] ↔
        ∃ a ∈ m.machine.breakpoints, Word.toInt a = n := by
  intro fresh m
  have announced : fresh.announcedBy ["break 100000000"] = [0x100000000] := by decide +kernel
  have set : m.machine.breakpoints = [0] := by decide +kernel
  refine ⟨announced, set, by decide +kernel, fun same => ?_⟩
  rw [announced, set] at same
  exact absurd ((same 0).2 ⟨0, List.mem_singleton_self 0, rfl⟩) (by decide)

end Monitor

end Chifir
