import Mathlib.Data.List.Nodup
import Chifir.Proofs.Monitor.Commands

/-!
# Watches

The monitor keeps a list of the addresses that it watches, and the bus has one of those who are to
be told of writes. Whatever the commands, the two agree (`Registered`), so that each write of a
command at a watched address is reported once, in its place: `watches_report_once`.
-/

namespace Chifir

open Text

/-- The line that reports a write, as `Monitor.report` says it of a notice. -/
def Write.line (w : Write) : String :=
  s!"watch {Word.hex8 w.address}: {Word.hex8 w.before} -> {Word.hex8 w.after}"

namespace Monitor

variable {m m' : Monitor} {before : Memory} {ws : List Write} {verb : Verb}
    {arguments : List String} {said : List String}

/-- The monitor, and nobody else, is registered at the addresses that it watches, once at each. All
reports were taken. -/
structure Registered (m : Monitor) : Prop where
  points : m.machine.bus.watchpoints = m.watched.map (⟨·, watcher⟩)
  once : m.watched.Nodup
  taken : m.machine.bus.notices = #[]

theorem registered_start {machine : Machine} (unwatched : machine.bus.watchpoints = [])
    (quiet : machine.bus.notices = #[]) (words : List Int) (symbols : List (String × Int)) :
    (start machine words symbols).Registered := by
  have bus : (machine.load words 0).1.bus =
      { machine.bus with memory := (machine.bus.memory.load words 0).1 } := by
    rw [Machine.bus_load, Bus.load_unwatched unwatched]
  refine ⟨?_, List.nodup_nil, ?_⟩
  · show (machine.load words 0).1.bus.watchpoints = []
    rw [bus]
    exact unwatched
  · show (machine.load words 0).1.bus.notices = #[]
    rw [bus]
    exact quiet

theorem Registered.watch (registered : m.Registered) (a : Word) : (m.watch a).Registered := by
  unfold Monitor.watch
  split
  · exact registered
  · next fresh =>
    have fresh : a ∉ m.watched := fun known => fresh (List.contains_iff_mem.2 known)
    refine ⟨?_, List.nodup_append_comm.1 (List.nodup_cons.2 ⟨fresh, registered.once⟩),
      registered.taken⟩
    show m.machine.bus.watchpoints ++ [⟨a, watcher⟩] = _
    rw [registered.points, List.map_append, List.map_singleton]

theorem Registered.unwatch (registered : m.Registered) (n : Int) : (m.unwatch n).Registered := by
  refine ⟨?_, registered.once.filter _, registered.taken⟩
  show m.machine.bus.watchpoints.filter _ = (m.watched.filter _).map _
  rw [registered.points, List.filter_map]
  congr 2
  funext a
  simp [bne]

/-- Where a command gets to, nothing has become of the watches but by the commands that are for it.
-/
theorem Registered.collect (registered : m.Registered) (changed : m.Changed before ws m') :
    m'.collect.2.Registered := by
  cases changed with
  | looked | broke | pressed => exact ⟨registered.points, registered.once, rfl⟩
  | went trail => exact ⟨trail.watchpoints.trans registered.points, registered.once, rfl⟩
  | watched a => exact ⟨(registered.watch a).points, (registered.watch a).once, rfl⟩
  | unwatched n => exact ⟨(registered.unwatch n).points, (registered.unwatch n).once, rfl⟩
  | reset =>
    refine ⟨?_, registered.once, rfl⟩
    show m.reset.machine.bus.watchpoints = _
    unfold Monitor.reset
    rw [Machine.bus_load]
    exact (Bus.load_eq_loading _ _ _).2.2.1.trans registered.points

theorem Registered.executeAll (registered : m.Registered) (lines : List String) :
    (m.executeAll lines).Registered :=
  holds_executeAll Registered.collect registered lines

theorem Registered.filter_eq (registered : m.Registered) (a : Word) :
    m.machine.bus.watchpoints.filter (·.address = a) = if a ∈ m.watched then [⟨a, watcher⟩]
      else [] := by
  rw [registered.points, List.filter_map]
  show (m.watched.filter (· = a)).map _ = _
  rw [List.filter_eq, registered.once.count]
  split
  · rfl
  · rfl

theorem Registered.notices_eq (registered : m.Registered) (w : Write) :
    w.notices m.machine.bus.watchpoints =
      if w.address ∈ m.watched then [⟨watcher, w.address, w.before, w.after⟩] else [] := by
  unfold Write.notices
  rw [registered.filter_eq]
  split
  · rfl
  · rfl

theorem Registered.notices_of_changed (registered : m.Registered)
    (changed : m.Changed before ws m') :
    m'.machine.bus.notices.toList = ws.flatMap (·.notices m.machine.bus.watchpoints) := by
  have taken : m.machine.bus.notices.toList = [] := congrArg Array.toList registered.taken
  cases changed with
  | looked | broke | pressed | unwatched => exact taken
  | went trail =>
    have sent := trail.notices
    rw [taken] at sent
    exact sent
  | watched a =>
    obtain ⟨_, _, same⟩ := m.exists_watch a
    rw [same]
    exact taken
  | reset =>
    unfold Monitor.reset
    rw [Machine.bus_load, (Bus.load_eq_loading _ _ _).2.2.2]
    show m.machine.bus.notices.toList ++ _ = _
    rw [taken]
    rfl

theorem flatMap_ite {α β : Type} (keep : α → Prop) [DecidablePred keep] (f : α → β) (l : List α) :
    (l.flatMap fun a => if keep a then [f a] else []) = (l.filter keep).map f := by
  induction l with
  | nil => rfl
  | cons a l ih =>
    rw [List.flatMap_cons, ih, List.filter_cons]
    by_cases kept : keep a
    · rw [if_pos kept, if_pos (decide_eq_true kept)]
      rfl
    · rw [if_neg kept, if_neg (by simpa using kept)]
      rfl

/-- The reports of a command are those of its writes at watched addresses, in order. -/
theorem Registered.reports_eq (registered : m.Registered) (changed : m.Changed before ws m') :
    m'.collect.1 = (ws.filter (·.address ∈ m.watched)).map Write.line := by
  unfold Monitor.collect Bus.collect
  simp only [registered.notices_of_changed changed, registered.notices_eq, flatMap_ite,
    List.map_map]
  rfl

theorem Changed.writes (changed : m.Changed before ws m') :
    before.Writes ws m'.machine.bus.memory := by
  cases changed with
  | looked | broke | unwatched | pressed => exact .nil _
  | went trail => exact trail.writes
  | watched a =>
    obtain ⟨_, _, same⟩ := m.exists_watch a
    rw [same]
    exact .nil _
  | reset =>
    unfold Monitor.reset
    rw [Machine.bus_load, (Bus.load_eq_loading _ _ _).1]
    exact Memory.writes_loading _ _ _

theorem mem_watch (m : Monitor) (a b : Word) : a ∈ (m.watch b).watched ↔ a ∈ m.watched ∨ a = b := by
  unfold watch
  split
  · next known =>
    refine ⟨.inl, fun either => either.elim id fun same => ?_⟩
    rw [same]
    exact List.contains_iff_mem.1 known
  · rw [List.mem_append, List.mem_singleton]

theorem mem_unwatch (m : Monitor) (a : Word) (n : Int) :
    a ∈ (m.unwatch n).watched ↔ a ∈ m.watched ∧ Word.toInt a ≠ n := by
  unfold unwatch
  rw [List.mem_filter, bne_iff_ne]

theorem Denotes.iff_eq {n : Int} (denotes : m.Denotes arguments n) (n' : Int) :
    m.Denotes arguments n' ↔ n' = n := by
  obtain ⟨token, given, value⟩ := denotes
  constructor
  · rintro ⟨token', given', value'⟩
    obtain rfl := Except.ok.inj (given'.symm.trans given)
    exact Except.ok.inj (value'.symm.trans value)
  · rintro rfl
    exact ⟨token, given, value⟩

/-- Whether an address is to be watched after a command: only `watch` and `unwatch` change that, and
only at the address that they name. -/
def WatchedAfter (m : Monitor) (verb : Verb) (arguments : List String) (a : Word) : Prop :=
  match verb with
  | .watch => a ∈ m.watched ∨ m.Denotes arguments (Word.toInt a)
  | .unwatch => a ∈ m.watched ∧ ¬ m.Denotes arguments (Word.toInt a)
  | _ => a ∈ m.watched

theorem Performed.mem_watched (performed : m.Performed arguments verb m') (a : Word) :
    a ∈ m'.watched ↔ m.WatchedAfter verb arguments a := by
  unfold WatchedAfter
  cases performed with
  | looked looks =>
    cases verb with
    | watch | unwatch => cases looks
    | _ => exact Iff.rfl
  | watched denotes => rw [mem_watch, denotes.iff_eq, Word.toInt_injective.eq_iff]
  | unwatched denotes => rw [mem_unwatch, denotes.iff_eq]
  | stepped | ran | broke | pressed | reset => exact Iff.rfl

/-- However addresses are watched and unwatched, the monitor is registered just once at those that
are watched, and nobody else is registered. So a command that is carried out reports each of its
writes at a watched address with one line, in the order of the writes and before all else that it
has to say, and it reports no other. The writes are all that has become of memory. -/
theorem watches_report_once (machine : Machine) (unwatched : machine.bus.watchpoints = [])
    (quiet : machine.bus.notices = #[]) (words : List Int) (symbols : List (String × Int))
    (lines : List String) :
    let m := (start machine words symbols).executeAll lines
    (∀ a, m.machine.bus.watchpoints.filter (·.address = a) =
        if a ∈ m.watched then [⟨a, watcher⟩] else []) ∧
      ∀ (line word : String) (arguments : List String) (verb : Verb) (said : List String)
        (m' : Monitor), splitWords line = word :: arguments →
        Verb.ofName? (lowered word) = some verb →
        m.perform verb arguments = .ok (said, m') →
        let ws := m.writesOf verb arguments
        let reply := m.execute line
        reply.printed = (ws.filter (·.address ∈ m.watched)).map Write.line ++ said ∧
          (m.memoryBefore verb).Writes ws reply.monitor.machine.bus.memory ∧
          ∀ a, a ∈ reply.monitor.watched ↔ m.WatchedAfter verb arguments a := by
  intro m
  have registered : m.Registered :=
    (registered_start unwatched quiet words symbols).executeAll lines
  refine ⟨registered.filter_eq, fun line word arguments verb said m' split named done => ?_⟩
  intro ws reply
  have performed := performed_of_perform done
  have replied : reply = ⟨verb != .quit, m'.collect.1 ++ said, m'.collect.2⟩ :=
    execute_of_perform split named done
  rw [replied]
  refine ⟨?_, performed.changed.writes, performed.mem_watched⟩
  show m'.collect.1 ++ said = _
  rw [registered.reports_eq performed.changed]

/-- A loop that counts at 8, which is watched twice. The address 9 is watched no longer. -/
theorem watches_report_once_counting :
    let m := (start {} [7, 8, 9, 8, 1, 10, 0, 0, 41, 1, 0] []).executeAll
      ["watch 8", "W $08", "watch 0x9", "unwatch 9"]
    m.watched = [8] ∧ (m.execute "run 3").printed =
      ["watch 00000008: 00000029 -> 0000002A", "watch 00000008: 0000002A -> 0000002B",
        "TIMEOUT: RUNNING steps=3 pc=00000004: lpc a 0 0"] := by
  intro m
  have watched : m.watched = [8] := by decide +kernel
  have runs : (m.perform .run ["3"]).toOption.any fun outcome =>
      outcome.1 = ["TIMEOUT: RUNNING steps=3 pc=00000004: lpc a 0 0"] := by
    decide +kernel
  obtain ⟨⟨said, m'⟩, done, ends⟩ := exists_of_any_toOption runs
  have writes : m.writesOf .run ["3"] = [⟨8, 41, 42⟩, ⟨8, 42, 43⟩] := by decide +kernel
  obtain ⟨_, reports⟩ := watches_report_once {} rfl rfl [7, 8, 9, 8, 1, 10, 0, 0, 41, 1, 0] []
    ["watch 8", "W $08", "watch 0x9", "unwatch 9"]
  obtain ⟨printed, _⟩ :=
    reports "run 3" "run" ["3"] .run said m' (by decide +kernel) (by decide +kernel) done
  obtain rfl := of_decide_eq_true ends
  refine ⟨watched, printed.trans ?_⟩
  show ((m.writesOf .run ["3"]).filter (·.address ∈ m.watched)).map Write.line ++ _ = _
  rw [writes, watched]
  decide +kernel

end Monitor

end Chifir
