import Chifir.Proofs.Machine.Safety
import Chifir.Proofs.Monitor.Watches

/-!
# Starting anew

A reset takes back all that commands have done since the monitor was started, but for the
breakpoints and the watches: `reset_starts_fresh`. What they cannot change (`Descends`) needs no
taking back.
-/

namespace Chifir

open Text

/-! ## Breakpoints -/

namespace Machine

theorem mem_insertAscending {a b : Word} {l : List Word} :
    b ∈ insertAscending a l ↔ b = a ∨ b ∈ l := by
  induction l with
  | nil => rw [insertAscending, List.mem_singleton, List.mem_nil_iff, or_false]
  | cons c l ih =>
    unfold insertAscending
    split
    · exact List.mem_cons
    · split
      · next same =>
        rw [List.mem_cons, same]
        exact ⟨.inr, fun either => either.elim .inl id⟩
      · rw [List.mem_cons, ih, List.mem_cons]
        exact or_left_comm

theorem pairwise_insertAscending {l : List Word} (ascending : l.Pairwise (· < ·)) (a : Word) :
    (insertAscending a l).Pairwise (· < ·) := by
  induction l with
  | nil => exact List.pairwise_singleton _ a
  | cons b l ih =>
    obtain ⟨above, rest⟩ := List.pairwise_cons.1 ascending
    unfold insertAscending
    split
    · next below =>
      refine List.pairwise_cons.2 ⟨fun c mem => ?_, ascending⟩
      rcases List.mem_cons.1 mem with rfl | mem
      · exact below
      · exact UInt32.lt_trans below (above c mem)
    · split
      · exact ascending
      · next notBelow other =>
        refine List.pairwise_cons.2 ⟨fun c mem => ?_, ih rest⟩
        rcases mem_insertAscending.1 mem with rfl | mem
        · exact UInt32.lt_of_le_of_ne (UInt32.not_lt.1 notBelow) (Ne.symm other)
        · exact above c mem

theorem insertAscending_of_above {a : Word} {l : List Word} (above : ∀ b ∈ l, b < a) :
    insertAscending a l = l ++ [a] := by
  induction l with
  | nil => rfl
  | cons b l ih =>
    obtain ⟨first, rest⟩ := List.forall_mem_cons.1 above
    unfold insertAscending
    rw [if_neg (UInt32.lt_asymm first), if_neg (UInt32.ne_of_lt first).symm, ih rest]
    rfl

end Machine

namespace Monitor

variable {fresh m m' : Monitor} {before : Memory} {ws : List Write}

/-! ## Breakpoints and watches given to a monitor -/

def given (m : Monitor) (breakpoints watched : List Word) : Monitor :=
  let stopping :=
    breakpoints.foldl (fun m a => { m with machine := m.machine.addBreakpoint (Word.toInt a) }) m
  watched.foldl watch stopping

theorem foldl_addBreakpoint (m : Monitor) {breakpoints : List Word}
    (ascending : (m.machine.breakpoints ++ breakpoints).Pairwise (· < ·)) :
    breakpoints.foldl (fun m a => { m with machine := m.machine.addBreakpoint (Word.toInt a) }) m =
      { m with machine := { m.machine with breakpoints := m.machine.breakpoints ++
        breakpoints } } := by
  induction breakpoints generalizing m with
  | nil => rw [List.foldl_nil, List.append_nil]
  | cons a breakpoints ih =>
    have added : m.machine.addBreakpoint (Word.toInt a) =
        { m.machine with breakpoints := m.machine.breakpoints ++ [a] } := by
      unfold Machine.addBreakpoint
      rw [Word.ofInt_toInt, Machine.insertAscending_of_above]
      intro b mem
      exact (List.pairwise_append.1 ascending).2.2 b mem a List.mem_cons_self
    rw [List.append_cons] at ascending
    rw [List.foldl_cons, added, ih _ ascending, List.append_assoc]
    rfl

theorem foldl_watch (m : Monitor) {watched : List Word} (once : (m.watched ++ watched).Nodup) :
    watched.foldl watch m =
      { m with
        watched := m.watched ++ watched
        machine := { m.machine with bus := { m.machine.bus with
          watchpoints := m.machine.bus.watchpoints ++ watched.map (⟨·, watcher⟩) } } } := by
  induction watched generalizing m with
  | nil =>
    simp only [List.foldl_nil, List.append_nil, List.map_nil]
  | cons a watched ih =>
    have fresh : ¬ m.watched.contains a := fun known => by
      have apart := (List.nodup_append.1 once).2.2
      exact apart a (List.contains_iff_mem.1 known) a List.mem_cons_self rfl
    rw [List.append_cons] at once
    rw [List.foldl_cons, watch, if_neg fresh, ih _ once]
    simp only [List.append_assoc, List.singleton_append, List.map_cons, Bus.watch]

theorem given_eq {breakpoints watched : List Word} (unstopped : m.machine.breakpoints = [])
    (unwatched : m.watched = []) (bare : m.machine.bus.watchpoints = [])
    (ascending : breakpoints.Pairwise (· < ·)) (once : watched.Nodup) :
    m.given breakpoints watched =
      { m with
        watched
        machine := { m.machine with
          breakpoints, bus :=
            { m.machine.bus with watchpoints := watched.map (⟨·, watcher⟩) } } } := by
  have stops : (m.machine.breakpoints ++ breakpoints).Pairwise (· < ·) := by rwa [unstopped]
  have watches : (m.watched ++ watched).Nodup := by rwa [unwatched]
  let stopping :=
    { m with machine := { m.machine with breakpoints := m.machine.breakpoints ++ breakpoints } }
  unfold given
  rw [foldl_addBreakpoint m stops]
  refine (foldl_watch stopping watches).trans ?_
  simp only [stopping, unstopped, unwatched, bare, List.nil_append]

end Monitor

/-! ## What commands leave as it is -/

namespace Machine

variable {first m : Machine}

/-- What no program and no command changes is as in the machine that it began with. Nothing is bound
to the display, and no byte waits in the source of the keyboard. -/
structure Descends (first m : Machine) : Prop where
  budget : m.budget = first.budget
  tracing : m.tracing = first.tracing
  screen : m.display.screen = first.display.screen
  unbound : m.display.output = none
  source : m.keyboard.source = first.keyboard.source
  idle : m.keyboard.waiting = []
  ascending : m.breakpoints.Pairwise (· < ·)

theorem Descends.step (descends : first.Descends m) : first.Descends m.step := by
  have kept := m.kept_step
  have display : m.step.display.output = none := by
    refine of_step (P := fun m' => m'.display.output = none) descends.unbound (fun running op => ?_)
      fun _ => ?_
    · rw [(follows running op (m.row op)).display]
      split
      · unfold Display.refresh
        split
        · exact descends.unbound
        · show Option.map _ m.display.output = none
          rw [descends.unbound]
          rfl
      · exact descends.unbound
    · rw [fail, display_record]
      exact descends.unbound
  have keyboard : m.step.keyboard.source = first.keyboard.source ∧
      m.step.keyboard.waiting = [] := by
    refine of_step (P := fun m' => m'.keyboard.source = first.keyboard.source ∧
      m'.keyboard.waiting = []) ⟨descends.source, descends.idle⟩ (fun running op => ?_) fun _ => ?_
    · rw [(follows running op (m.row op)).keyboard]
      split
      · refine ⟨descends.source, ?_⟩
        show (if _ then m.keyboard.waiting else []) = []
        rw [descends.idle, ite_self]
      · exact ⟨descends.source, descends.idle⟩
    · rw [fail, record]
      split
      · exact ⟨descends.source, descends.idle⟩
      · exact ⟨descends.source, descends.idle⟩
  refine ⟨?_, ?_, m.screen_step.trans descends.screen, display, keyboard.1, keyboard.2, ?_⟩
  · rw [m.budget_step]
    exact descends.budget
  · rw [kept]
    exact descends.tracing
  · rw [m.breakpoints_step]
    exact descends.ascending

/-- A reset takes the machine back to where it began, but for memory and the breakpoints, if it
`Descends` from there. -/
theorem Descends.reset_eq (descends : first.Descends m) (first_descends : first.Descends first) :
    m.reset = { first.reset with bus := m.bus, breakpoints := m.breakpoints } := by
  have display : m.display.reset = first.display.reset := by
    unfold Display.reset
    rw [descends.screen, descends.unbound, first_descends.unbound]
  have keyboard : m.keyboard.reset = first.keyboard.reset := by
    unfold Keyboard.reset
    rw [descends.source, descends.idle, first_descends.idle]
  unfold reset
  rw [display, keyboard, descends.budget, descends.tracing]

end Machine

namespace Monitor

variable {fresh m m' : Monitor} {before : Memory} {ws : List Write}

structure Descends (fresh m : Monitor) : Prop where
  words : m.words = fresh.words
  symbols : m.symbols = fresh.symbols
  machine : fresh.machine.Descends m.machine

theorem Descends.collect (descends : fresh.Descends m) (changed : m.Changed before ws m') :
    fresh.Descends m'.collect.2 := by
  obtain ⟨words, symbols, machine⟩ := descends
  cases changed with
  | looked | unwatched => exact ⟨words, symbols, { machine with }⟩
  | went trail =>
    have now :=
      trail.keeps (fun {m} (descends : fresh.machine.Descends m) => descends.step) { machine with }
    exact ⟨words, symbols, { now with }⟩
  | broke n =>
    exact ⟨words, symbols,
      { machine with ascending := Machine.pairwise_insertAscending machine.ascending _ }⟩
  | watched a =>
    obtain ⟨_, _, same⟩ := m.exists_watch a
    rw [same]
    exact ⟨words, symbols, { machine with }⟩
  | pressed taken =>
    rw [Keyboard.press] at taken
    split at taken
    · cases taken
      exact ⟨words, symbols, { machine with }⟩
    · cases taken
  | reset =>
    rw [reset_eq]
    exact ⟨words, symbols, { machine with }⟩

theorem start_eq {machine : Machine} (zero : machine.pc = 0) (bare : machine.bus = {})
    (words : List Int) (symbols : List (String × Int)) :
    start machine words symbols =
      { machine := { machine with bus := { memory := (Memory.empty.load words 0).1 } },
        words, symbols } := by
  have unwatched : machine.bus.watchpoints = [] := by rw [bare]
  unfold start
  rw [Machine.load_of_zero zero, Bus.load_unwatched unwatched, bare]

/-- After a reset, whatever the lines before it, the monitor is the one that was started but for the
breakpoints and the watches, which are as before the reset. So it is one that is started anew and
given these, and all that follows is as with that. -/
theorem reset_starts_fresh (c : Config) (silent : Bool) (source : KeySource) (words : List Int)
    (symbols : List (String × Int)) (lines : List String) {line word : String}
    {arguments : List String} (split : splitWords line = word :: arguments)
    (named : Verb.ofName? (lowered word) = some .reset) :
    let fresh := start (c.panel silent { source }).machine words symbols
    let m := fresh.executeAll lines
    (m.execute line).monitor = { fresh with
        watched := m.watched
        machine := { fresh.machine with
          breakpoints := m.machine.breakpoints
          bus := { fresh.machine.bus with watchpoints := m.machine.bus.watchpoints } } } ∧
      (m.execute line).monitor = fresh.given m.machine.breakpoints m.watched := by
  intro fresh m
  have made : fresh = _ := start_eq rfl rfl words symbols
  have first : fresh.machine.Descends fresh.machine := by
    rw [made]
    refine ⟨rfl, rfl, rfl, ?_, rfl, rfl, .nil⟩
    cases silent with
    | true => rfl
    | false => rfl
  have anew : fresh.machine.reset = fresh.machine := by
    rw [made]
    cases silent with
    | true => rfl
    | false => rfl
  have descends : fresh.Descends m := holds_executeAll Descends.collect ⟨rfl, rfl, first⟩ lines
  have registered : m.Registered := (registered_start rfl rfl words symbols).executeAll lines
  have replied : (m.execute line).monitor = m.reset.collect.2 := by
    rw [execute_of_perform split named rfl]
  have explicit : (m.execute line).monitor = { fresh with
      watched := m.watched
      machine := { fresh.machine with
        breakpoints := m.machine.breakpoints
        bus := { fresh.machine.bus with watchpoints := m.machine.bus.watchpoints } } } := by
    rw [replied, reset_eq, descends.machine.reset_eq first, anew, descends.words, descends.symbols]
    rw [made]
  refine ⟨explicit, explicit.trans ?_⟩
  have bare : fresh.machine.breakpoints = [] ∧ fresh.watched = [] ∧
      fresh.machine.bus.watchpoints = [] := by
    rw [made]
    exact ⟨rfl, rfl, rfl⟩
  rw [given_eq bare.1 bare.2.1 bare.2.2 descends.machine.ascending registered.once,
    registered.points]

/-- A frame is shown, a key is pressed, and a run has stopped at a breakpoint. -/
theorem reset_starts_fresh_drawing :
    let fresh :=
      start (Config.mini.panel false { source := .direct }).machine [14, 0, 0, 0, 3, 100, 0, 0] []
    let m := fresh.executeAll ["break 8", "watch 64", "key 41", "run"]
    m.machine.display.frames = 1 ∧ m.machine.keyboard.last = some 0x41 ∧
      m.machine.resumeAt = some 8 ∧ (m.execute "RESET").monitor = fresh.given [8] [100] := by
  intro fresh m
  have stands : m.machine.display.frames = 1 ∧ m.machine.keyboard.last = some 0x41 ∧
    m.machine.resumeAt = some 8 ∧
      m.machine.breakpoints = [8] ∧ m.watched = [100] := by
    decide +kernel
  obtain ⟨frames, last, mark, breakpoints, watched⟩ := stands
  obtain ⟨_, anew⟩ := reset_starts_fresh Config.mini false .direct [14, 0, 0, 0, 3, 100, 0, 0] []
    ["break 8", "watch 64", "key 41", "run"]
    (show splitWords "RESET" = "RESET" :: [] by decide +kernel) (by decide +kernel)
  rw [← breakpoints, ← watched]
  exact ⟨frames, last, mark, anew⟩

end Monitor

end Chifir
