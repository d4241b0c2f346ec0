import Chifir.Proofs.Assembly.Headings
import Chifir.Proofs.Machine.Trails
import Chifir.Proofs.Memory.Loading

/-!
# Waiting for a key

`waitingFor v` is a program that runs until the key `v` comes. It rewrites a word of its own first
instruction at every turn, and it ends on a word of data that reads as a halt.
-/

namespace Chifir

/-- A program that polls the keyboard, takes `v` from the key that it gets, and goes to the zero
word behind its last instruction if nothing is left, else to its start. The key and the difference
are kept in its own word at 2. -/
def waitingFor (v : Word) : List Word := [15, 2, 0, v, 8, 2, 2, 3, 2, 11, 2, 15, 1, 14, 0, 0]

def waitingForCtrlC : List String := [
  "check-ctrl-c:",
  "        key 2 0 3       ; M[2] = last key; M[3] holds the 3 to compare with",
  "        sub 2 2 3       ; M[2] = key - 3",
  "        beq b 2 f       ; zero: jump to M[b] = f, a zero word, i.e. brk",
  "        lpc e 0 0       ; otherwise back to M[e] = 0",
  "exit:",
  ""]

section
open Assembly Text

theorem assemble_waitingForCtrlC {heading : List String}
    (empty : ∀ line ∈ heading, tokens line = []) (inside : ∀ line ∈ heading, IsRow line.toList) :
    assemble (joinLines (heading ++ waitingForCtrlC)) = .ok (waitingFor 3) := by
  have rest : ∀ row ∈ waitingForCtrlC, IsRow row.toList := by decide +kernel
  have some : waitingForCtrlC ≠ [] := List.cons_ne_nil _ _
  exact assemble_append empty inside some rest (assemble_of_layout some rest (by decide +kernel))

/-- The heading of `ctrl_c.asm`: three comments and an empty line. The last comment has the
`command` that runs the program. -/
def ctrlCHeading (command : String) : List String :=
  ["; Spin until Ctrl+C (0x03) arrives, then halt.", ";", ";   " ++ command, ""]

/-- The file `ctrl_c.asm` as it stands, whatever its `command`. -/
theorem assemble_ctrlC {command : String} (inside : IsRow command.toList) :
    assemble (joinLines (ctrlCHeading command ++ waitingForCtrlC)) = .ok (waitingFor 3) := by
  have mark : IsRow ";   ".toList := by decide
  have usage : IsRow (";   " ++ command).toList := by
    rw [String.toList_append]
    exact List.forall_mem_append.2 ⟨mark, inside⟩
  have comment : tokens (";   " ++ command) = [] :=
    tokens_of_comment (by rw [String.toList_append]; rfl)
  apply assemble_waitingForCtrlC
  · simp only [ctrlCHeading, List.forall_mem_cons, comment, true_and]
    decide +kernel
  · simp only [ctrlCHeading, List.forall_mem_cons, usage, true_and]
    decide +kernel

end

namespace Machine

variable {m m' : Machine} {op : Opcode} {v : Word} {polls : List Word}

/-! ## Steps -/

theorem write?_of_fetched (fetched : m.get m.pc = op.word) (plain : ¬ op.Divides) :
    m.write? = (m.row op).change.map fun (a, n) => ⟨a, m.get a, Word.ofInt n⟩ := by
  unfold write?
  rw [fetched, Opcode.ofWord?_word]
  exact if_neg fun divides => plain divides.1

def polled? (m : Machine) : Option Word :=
  if m.get m.pc = Opcode.key.word then some m.keyboard.poll.1.toUInt32 else none

/-- The program `waitingFor v` stands at 0, and all is zero behind it. Its own word at 2 may have
changed. -/
def Waits (v : Word) (m : Machine) : Prop := ∀ a, a ≠ 2 → m.get a = (waitingFor v).getD a.toNat 0

/-- Where a program that waits for `v` stands when it has polled these keys, the last one first.
`steps` counts four for each of them. -/
inductive Stage (v : Word) (m : Machine) : List Word → Prop
  | polling {polls : List Word} (running : m.status = .running) (pc : m.pc = 0)
      (steps : m.steps = 4 * polls.length) (unseen : v ∉ polls) : Stage v m polls
  | comparing {key : Word} {polls : List Word} (running : m.status = .running) (pc : m.pc = 4)
      (cell : m.get 2 = key) (steps : m.steps = 4 * polls.length + 1) (unseen : v ∉ polls) :
      Stage v m (key :: polls)
  | branching {key : Word} {polls : List Word} (running : m.status = .running) (pc : m.pc = 8)
      (cell : m.get 2 = key - v) (steps : m.steps = 4 * polls.length + 2) (unseen : v ∉ polls) :
      Stage v m (key :: polls)
  | repeating {key : Word} {polls : List Word} (running : m.status = .running) (pc : m.pc = 12)
      (steps : m.steps = 4 * polls.length + 3) (unseen : v ∉ key :: polls) :
      Stage v m (key :: polls)
  | leaving {polls : List Word} (running : m.status = .running) (pc : m.pc = 15)
      (steps : m.steps = 4 * polls.length + 3) (unseen : v ∉ polls) : Stage v m (v :: polls)
  | left {polls : List Word} (halted : m.status = .halted) (pc : m.pc = 15)
      (steps : m.steps = 4 * polls.length + 4) (unseen : v ∉ polls) : Stage v m (v :: polls)

theorem Waits.cell {k : Word} (waits : m.Waits v) (pc : m.pc = k) (i : Word) (fixed : k + i ≠ 2) :
    m.get (m.pc + i) = (waitingFor v).getD (k + i).toNat 0 := by
  rw [pc]
  exact waits _ fixed

/-- An operation that writes at most the word at 2 leaves the program as it stands, so the program
still `Waits`. -/
theorem Waits.step {row : Row} (waits : m.Waits v) (follows : m.Follows op row m.step)
    (own : ∀ change ∈ row.change, change.1 = 2) : m.step.Waits v := by
  intro a fixed
  rw [follows.get_eq]
  split
  · next b n written =>
    have here : b = 2 := own (b, n) written
    rw [here, if_neg fixed]
    exact waits a fixed
  · exact waits a fixed

/-- One turn of a program that waits: where it gets to, with the key that it has polled if it has
polled one. -/
structure Turns (v : Word) (m : Machine) (polls : List Word) : Prop where
  waits : m.step.Waits v
  stage : Stage v m.step (m.polled?.toList ++ polls)
  counted : m.step.steps = m.steps + 1
  writes : ∀ w ∈ m.write?, w.address = 2
  asks : m.polled?.isSome ↔ 4 ∣ m.steps

theorem Waits.turns_of_row (row : Row) (waits : m.Waits v) (running : m.status = .running)
    (fetched : m.get m.pc = op.word) (plain : ¬ op.Divides)
    (row_eq : op.row ⟨m.get m.pc, m.get (m.pc + 1), m.get (m.pc + 2), m.get (m.pc + 3)⟩ m.pc m.get
      m.keyboard.latest = row)
    (own : ∀ change ∈ row.change, change.1 = 2) (asks : op = .key ↔ 4 ∣ m.steps)
    (stage : m.Follows op row m.step → Stage v m.step (m.polled?.toList ++ polls)) :
    m.Turns v polls := by
  have row_eq : m.row op = row := row_eq
  have follows := follows_step running fetched fun divides => absurd divides plain
  rw [row_eq] at follows
  refine ⟨waits.step follows own, stage follows, follows.counted, fun w writes => ?_, ?_⟩
  · rw [write?_of_fetched fetched plain, row_eq] at writes
    obtain ⟨change, written, rfl⟩ := Option.map_eq_some_iff.1 writes
    exact own change written
  · rw [← asks, ← Opcode.word_inj, ← fetched, polled?]
    split
    · next key => simp [key]
    · next other => simp [other]

theorem polled?_of_fetched (fetched : m.get m.pc = op.word) (other : op ≠ .key) :
    m.polled? = none := by
  unfold polled?
  rw [fetched, if_neg fun same => other (Opcode.word_inj.1 same)]

section Turns
variable (waits : m.Waits v) (running : m.status = .running)
include waits running

theorem turns_polling (pc : m.pc = 0) (steps : m.steps = 4 * polls.length) (unseen : v ∉ polls) :
    m.Turns v polls := by
  have fetched : m.get m.pc = Opcode.key.word := by
    rw [pc]
    exact waits 0 (by decide)
  have a : m.get (m.pc + 1) = 2 := waits.cell pc 1 (by decide)
  have polled : m.polled? = some m.keyboard.latest.toUInt32 := by
    rw [polled?, if_pos fetched, Keyboard.poll_eq]
  refine waits.turns_of_row ⟨4, some (2, m.keyboard.latest.toNat)⟩ running fetched
    (by decide) ?_ ?_ ?_ ?_
  · rw [Opcode.row, a, pc]
    rfl
  · rintro _ ⟨rfl⟩
    rfl
  · rw [steps]
    exact iff_of_true rfl (Nat.dvd_mul_right 4 _)
  · intro follows
    rw [polled]
    refine .comparing follows.status follows.next ?_ ?_ unseen
    · rw [follows.get_eq]
      exact Word.ofInt_byte _
    · rw [follows.counted, steps]
      rfl

theorem turns_comparing {key : Word} (pc : m.pc = 4) (cell : m.get 2 = key)
    (steps : m.steps = 4 * polls.length + 1) (unseen : v ∉ polls) : m.Turns v (key :: polls) := by
  have fetched : m.get m.pc = Opcode.sub.word := by
    rw [pc]
    exact waits 4 (by decide)
  have a : m.get (m.pc + 1) = 2 := waits.cell pc 1 (by decide)
  have b : m.get (m.pc + 2) = 2 := waits.cell pc 2 (by decide)
  have c : m.get (m.pc + 3) = 3 := waits.cell pc 3 (by decide)
  have target : m.get 3 = v := waits 3 (by decide)
  refine waits.turns_of_row ⟨8, some (2, Word.toInt key - Word.toInt v)⟩ running fetched
    (by decide) ?_ ?_ ?_ ?_
  · rw [Opcode.row, a, b, c, pc, cell, target]
    rfl
  · rintro _ ⟨rfl⟩
    rfl
  · rw [steps]
    exact iff_of_false (by decide) (by omega)
  · intro follows
    rw [polled?_of_fetched fetched (by decide)]
    refine .branching follows.status follows.next ?_ ?_ unseen
    · rw [follows.get_eq]
      exact Word.ofInt_sub _ _
    · rw [follows.counted, steps]

/-- With the difference at zero the branch leads to the word behind the program, else to its last
instruction. -/
theorem turns_branching {key : Word} (pc : m.pc = 8) (cell : m.get 2 = key - v)
    (steps : m.steps = 4 * polls.length + 2) (unseen : v ∉ polls) : m.Turns v (key :: polls) := by
  have fetched : m.get m.pc = Opcode.beq.word := by
    rw [pc]
    exact waits 8 (by decide)
  have a : m.get (m.pc + 1) = 11 := waits.cell pc 1 (by decide)
  have b : m.get (m.pc + 2) = 2 := waits.cell pc 2 (by decide)
  have target : m.get 11 = 15 := waits 11 (by decide)
  have zero : Word.toInt (key - v) = 0 ↔ key = v := by
    rw [Word.toInt_eq_zero, UInt32.sub_eq_iff_eq_add, UInt32.zero_add]
  refine waits.turns_of_row ⟨if key = v then 15 else 12, none⟩ running fetched (by decide) ?_
    nofun ?_ ?_
  · simp only [Opcode.row, a, b, cell, target, zero]
    rw [pc]
    rfl
  · rw [steps]
    exact iff_of_false (by decide) (by omega)
  · intro follows
    rw [polled?_of_fetched fetched (by decide)]
    have counted : m.step.steps = 4 * polls.length + 3 := by rw [follows.counted, steps]
    by_cases found : key = v
    · subst found
      exact .leaving follows.status (follows.next.trans (if_pos rfl)) counted unseen
    · refine .repeating follows.status (follows.next.trans (if_neg found)) counted ?_
      exact List.not_mem_cons_of_ne_of_not_mem (Ne.symm found) unseen

theorem turns_repeating {key : Word} (pc : m.pc = 12) (steps : m.steps = 4 * polls.length + 3)
    (unseen : v ∉ key :: polls) : m.Turns v (key :: polls) := by
  have fetched : m.get m.pc = Opcode.lpc.word := by
    rw [pc]
    exact waits 12 (by decide)
  have a : m.get (m.pc + 1) = 14 := waits.cell pc 1 (by decide)
  have start : m.get 14 = 0 := waits 14 (by decide)
  refine waits.turns_of_row ⟨0, none⟩ running fetched (by decide) ?_ nofun
    ?_ ?_
  · rw [Opcode.row, a, start]
  · rw [steps]
    exact iff_of_false (by decide) (by omega)
  · intro follows
    rw [polled?_of_fetched fetched (by decide)]
    refine .polling follows.status follows.next ?_ unseen
    rw [follows.counted, steps]
    rfl

/-- The word behind the program is zero and reads as a `brk`. -/
theorem turns_leaving (pc : m.pc = 15) (steps : m.steps = 4 * polls.length + 3)
    (unseen : v ∉ polls) :
    m.Turns v (v :: polls) := by
  have fetched : m.get m.pc = Opcode.brk.word := by
    rw [pc]
    exact waits 15 (by decide)
  refine waits.turns_of_row ⟨15, none⟩ running fetched (by decide) ?_ nofun
    ?_ ?_
  · rw [Opcode.row, pc]
  · rw [steps]
    exact iff_of_false (by decide) (by omega)
  · intro follows
    rw [polled?_of_fetched fetched (by decide)]
    refine .left follows.status follows.next ?_ unseen
    rw [follows.counted, steps]

end Turns

theorem Waits.turns (waits : m.Waits v) (stage : Stage v m polls) (running : m.status = .running) :
    m.Turns v polls := by
  cases stage with
  | polling _ pc steps unseen => exact turns_polling waits running pc steps unseen
  | comparing _ pc cell steps unseen => exact turns_comparing waits running pc cell steps unseen
  | branching _ pc cell steps unseen => exact turns_branching waits running pc cell steps unseen
  | repeating _ pc steps unseen => exact turns_repeating waits running pc steps unseen
  | leaving _ pc steps unseen => exact turns_leaving waits running pc steps unseen
  | left halted =>
    rw [halted] at running
    cases running

/-! ## The end -/

section Stage
variable (stage : Stage v m polls)
include stage

theorem Stage.halted_iff : m.status = .halted ↔ v ∈ polls ∧ m.steps = 4 * polls.length := by
  cases stage with
  | polling running _ _ unseen | repeating running _ _ unseen =>
    rw [running]
    exact iff_of_false nofun fun found => unseen found.1
  | comparing running _ _ steps | branching running _ _ steps | leaving running _ steps =>
    rw [running, steps, List.length_cons]
    exact iff_of_false nofun (by omega)
  | left halted _ steps =>
    rw [halted, steps, List.length_cons]
    exact iff_of_true rfl ⟨List.mem_cons_self, by omega⟩

theorem Stage.of_halted (halted : m.status = .halted) :
    m.pc = 15 ∧ ∃ earlier, polls = v :: earlier ∧ v ∉ earlier := by
  cases stage with
  | polling running | comparing running | branching running | repeating running | leaving running =>
    rw [running] at halted
    cases halted
  | left _ pc _ unseen => exact ⟨pc, _, rfl, unseen⟩

theorem Stage.running_or_halted : m.status = .running ∨ m.status = .halted := by
  cases stage with
  | polling running | comparing running | branching running | repeating running
  | leaving running => exact .inl running
  | left halted => exact .inr halted

theorem Stage.running_of_unseen (unseen : v ∉ polls) : m.status = .running := by
  refine stage.running_or_halted.resolve_right fun halted => ?_
  exact unseen (stage.halted_iff.1 halted).1

/-- The key is polled with the first of four instructions, and the program ends with the last of
them. -/
theorem Stage.steps_of_mem (running : m.status = .running) (found : v ∈ polls) :
    m.steps < 4 * polls.length ∧ 4 * polls.length ≤ m.steps + 3 := by
  cases stage with
  | polling _ _ _ unseen | repeating _ _ _ unseen => exact absurd found unseen
  | comparing _ _ _ steps | branching _ _ _ steps | leaving _ _ steps =>
    rw [steps, List.length_cons]
    omega
  | left halted =>
    rw [halted] at running
    cases running

/-- Once the key was polled, what is left of the four instructions is performed and the program
ends. -/
theorem Stage.halts (waits : m.Waits v) (found : v ∈ polls) {k : Nat}
    (enough : 4 * polls.length ≤ m.steps + k) :
    Stage v (step^[k] m) polls ∧ (step^[k] m).status = .halted := by
  induction k generalizing m with
  | zero =>
    refine ⟨stage, stage.running_or_halted.resolve_left fun running => ?_⟩
    exact Nat.not_lt_of_le enough (stage.steps_of_mem running found).1
  | succ k ih =>
    rw [Function.iterate_succ_apply]
    rcases stage.running_or_halted with running | halted
    · have turns := waits.turns stage running
      have unasked : m.polled? = none := by
        obtain ⟨below, above⟩ := stage.steps_of_mem running found
        rw [← Option.not_isSome_iff_eq_none, turns.asks]
        omega
      have later := turns.stage
      rw [unasked] at later
      exact ih later turns.waits (by rw [turns.counted]; omega)
    · rw [step_of_stopped (congrArg Status.reason? halted)]
      exact ih stage waits (by rw [(stage.halted_iff.1 halted).2]; omega)

end Stage

/-! ## Sessions -/

/-- How a program that waits for `v` stands after these machines, the last one first. -/
structure Awaits (v : Word) (past : List Machine) (m : Machine) : Prop where
  waits : m.Waits v
  stage : Stage v m (past.filterMap polled?)
  steps : m.steps = past.length
  writes : ∀ w ∈ past.filterMap write?, w.address = 2
  asks : ∀ (i : Nat) (n : Machine), past.reverse[i]? = some n → (n.polled?.isSome ↔ 4 ∣ i)

theorem Awaits.step {past : List Machine} (awaits : m.Awaits v past)
    (running : m.status = .running) :
    m.step.Awaits v (m :: past) := by
  have turns := awaits.waits.turns awaits.stage running
  refine ⟨turns.waits, ?_, ?_, ?_, ?_⟩
  · have stage := turns.stage
    rw [List.filterMap_cons]
    cases polled : m.polled? with
    | none => rwa [polled] at stage
    | some key => rwa [polled] at stage
  · rw [turns.counted, awaits.steps, List.length_cons]
  · intro w written
    obtain ⟨n, mem, writes⟩ := List.mem_filterMap.1 written
    rcases List.mem_cons.1 mem with rfl | mem
    · exact turns.writes w writes
    · exact awaits.writes w (List.mem_filterMap.2 ⟨n, mem, writes⟩)
  · intro i n there
    rw [List.reverse_cons, List.getElem?_append] at there
    split at there
    · exact awaits.asks i n there
    · next beyond =>
      rw [List.length_reverse] at there beyond
      obtain ⟨rfl, rfl⟩ : i = past.length ∧ m = n := by
        obtain ⟨first, same⟩ := List.getElem?_eq_some_iff.1 there
        have only : i - past.length < 1 := first
        refine ⟨by omega, ?_⟩
        rw [← same, List.getElem_singleton]
      rw [turns.asks, awaits.steps]

section Untouched
variable (same : m.Untouched m')
include same

theorem Untouched.get (a : Word) : m'.get a = m.get a := congrArg (·.get a) same.memory

theorem Stage.untouched (stage : Stage v m polls) : Stage v m' polls := by
  have cells := same.get 2
  obtain ⟨_, pc', status', steps'⟩ := same
  cases stage with
  | polling running pc steps unseen =>
    exact .polling (status'.trans running) (pc'.trans pc) (steps'.trans steps) unseen
  | comparing running pc cell steps unseen =>
    exact .comparing (status'.trans running) (pc'.trans pc) (cells.trans cell)
      (steps'.trans steps) unseen
  | branching running pc cell steps unseen =>
    exact .branching (status'.trans running) (pc'.trans pc) (cells.trans cell)
      (steps'.trans steps) unseen
  | repeating running pc steps unseen =>
    exact .repeating (status'.trans running) (pc'.trans pc) (steps'.trans steps) unseen
  | leaving running pc steps unseen =>
    exact .leaving (status'.trans running) (pc'.trans pc) (steps'.trans steps) unseen
  | left halted pc steps unseen =>
    exact .left (status'.trans halted) (pc'.trans pc) (steps'.trans steps) unseen

theorem Awaits.untouched {past : List Machine} (awaits : m.Awaits v past) : m'.Awaits v past :=
  ⟨fun a fixed => (same.get a).trans (awaits.waits a fixed), awaits.stage.untouched same,
    same.steps.trans awaits.steps, awaits.writes, awaits.asks⟩

end Untouched

theorem awaits_load (blank : ∀ a, m.get a = 0) (running : m.status = .running)
    (unstepped : m.steps = 0) :
    (m.load ((waitingFor v).map Word.toInt) 0).1.Awaits v [] := by
  obtain ⟨full, loaded, inside, outside⟩ :=
    m.bus.memory.load_words (waitingFor v) 0 (by decide) (show 0 + 16 ≤ 2 ^ 32 by decide)
  obtain ⟨memory, refused, _, _⟩ := m.bus.load_eq_loading ((waitingFor v).map Word.toInt) 0
  rw [loaded] at memory refused
  unfold load
  split
  · next bus ends =>
    rw [ends] at memory
    refine ⟨?waits, .polling running rfl unstepped List.not_mem_nil, unstepped, ?writes, ?asks⟩
    case writes => exact List.forall_mem_nil _
    case asks =>
      intro i n there
      cases there
    intro a _
    show bus.memory.get a = _
    rw [memory, List.getD_eq_getElem?_getD]
    cases there : (waitingFor v)[a.toNat]? with
    | some w =>
      have found := inside a.toNat w there
      rw [Int.zero_add] at found
      rwa [← Word.ofInt_toInt a]
    | none =>
      have beyond := List.getElem?_eq_none_iff.1 there
      rw [outside a (.inr (by rw [Int.zero_add]; exact Int.ofNat_le.2 beyond))]
      exact blank a
  · next bus e ends =>
    rw [ends] at refused
    cases refused

end Machine

open Assembly Text in
/-- For every word `v`, and for every way to call the machine that leaves memory and PC to the
program, a program that waits for `v` never faults and writes no word but the one at 2. The polls
are every fourth instruction, from the first one on. As long as none of them has got `v`, the
machine is running. Once one has, it is the last one, and the machine halts at 15 with the last of
the four instructions; `polls` has the last one first. The source that waits for Ctrl+C is such a
program, whatever its heading. -/
theorem halts_on_key {v : Word} {m : Machine} {log : List Event} {p : Panel}
    (blank : ∀ a, m.get a = 0) (running : m.status = .running) (unstepped : m.steps = 0)
    (session : Session { machine := (m.load ((waitingFor v).map Word.toInt) 0).1 } log p)
    (attends : ∀ e ∈ log, e.call.attends) :
    let past := performedBefore log
    let polls := past.filterMap Machine.polled?
    p.machine.fault? = none ∧
      (∀ w ∈ past.filterMap Machine.write?, w.address = 2) ∧
      (∀ a, a ≠ 2 → p.machine.get a = (waitingFor v).getD a.toNat 0) ∧
      (∀ (i : Nat) (before : Machine), past.reverse[i]? = some before →
        (before.polled?.isSome ↔ 4 ∣ i)) ∧
      (v ∉ polls → p.machine.status = .running ∧ p.machine.steps = past.length) ∧
      (p.machine.status = .halted ↔ v ∈ polls ∧ p.machine.steps = 4 * polls.length) ∧
      (p.machine.status = .halted → p.machine.pc = 15) ∧
      (v ∈ polls →
        (∃ earlier, polls = v :: earlier ∧ v ∉ earlier) ∧
          (Machine.step^[3] p.machine).status = .halted ∧ (Machine.step^[3] p.machine).pc = 15 ∧
            (Machine.step^[3] p.machine).steps = 4 * polls.length) ∧
      ∀ heading : List String, (∀ line ∈ heading, tokens line = []) →
        (∀ line ∈ heading, IsRow line.toList) →
          assemble (joinLines (heading ++ waitingForCtrlC)) = .ok (waitingFor 3) := by
  intro past polls
  have awaits : p.machine.Awaits v past :=
    session.follows attends (Machine.awaits_load blank running unstepped) Machine.Awaits.step
      fun awaits same => awaits.untouched same
  have stage : p.machine.Stage v polls := awaits.stage
  refine ⟨?faultless, awaits.writes, awaits.waits, awaits.asks, ?unseen, stage.halted_iff,
    fun halted => (stage.of_halted halted).1, ?seen, fun _ => assemble_waitingForCtrlC⟩
  case faultless =>
    rw [Machine.fault?]
    rcases stage.running_or_halted with running | halted
    · rw [running]
      rfl
    · rw [halted]
      rfl
  case unseen =>
    intro unseen
    exact ⟨stage.running_of_unseen unseen, awaits.steps⟩
  case seen =>
    intro found
    have enough : 4 * polls.length ≤ p.machine.steps + 3 := by
      rcases stage.running_or_halted with running | halted
      · exact (stage.steps_of_mem running found).2
      · rw [(stage.halted_iff.1 halted).2]
        exact Nat.le_add_right _ 3
    obtain ⟨later, halted⟩ := stage.halts awaits.waits found enough
    obtain ⟨pc, last⟩ := later.of_halted halted
    exact ⟨last, halted, pc, (later.halted_iff.1 halted).2⟩

/-- Ctrl+C comes while the program is at its third turn, after another key at its second. -/
theorem halts_on_key_third :
    ∃ log p, Session { machine := (Machine.load {} ((waitingFor 3).map Word.toInt) 0).1 } log p ∧
      (performedBefore log).filterMap Machine.polled? = [3, 65, 0] ∧
      p.machine.status = .halted ∧ p.machine.pc = 15 ∧ p.machine.steps = 12 := by
  have plays : (({ machine := (Machine.load {} ((waitingFor 3).map Word.toInt) 0).1 } : Panel).play
      [.run (some 3), .press 65, .run (some 5), .feed [66, 3], .run (some 40)]).any fun (log, p) =>
        (log.all fun e => e.call.attends) ∧
          (performedBefore log).filterMap Machine.polled? = [3, 65, 0] ∧
          p.machine.status = .halted := by
    decide +kernel
  obtain ⟨⟨log, p⟩, played, holds⟩ := (Option.any_eq_true _ _).1 plays
  obtain ⟨attends, polls, halted⟩ := of_decide_eq_true holds
  have session := Session.of_play played
  have blank : ∀ a, ({} : Machine).get a = 0 := Memory.get_empty
  obtain ⟨_, _, _, _, _, ends, pc, _⟩ :=
    halts_on_key blank rfl rfl session (List.all_eq_true.1 attends)
  refine ⟨log, p, session, polls, halted, pc halted, ?_⟩
  rw [(ends.1 halted).2, polls]
  rfl

end Chifir
