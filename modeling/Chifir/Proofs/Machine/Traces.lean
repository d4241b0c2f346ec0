import Chifir.Machine.Build
import Chifir.Proofs.Assembly.Listing
import Chifir.Proofs.Assembly.Reassembly
import Chifir.Proofs.Machine.Stopped
import Chifir.Proofs.Machine.Trails

/-!
# Traces

With tracing on, an engine keeps a line of each instruction that it attempts, as the instruction
stood before it ran.

1. `Recording`: whatever is done with an engine whose trace is left alone, and the machines before
   each instruction that was attempted meanwhile. They come from the runs themselves and not from
   the trace.
2. `Traces.step`: a step adds one line, and it counts the instruction or faults. `Traces.same`: what
   the trace does not tell of changes neither.
3. `Recording.traces`: so the trace and the count agree with the machines that were attempted, by
   induction on what is done.
4. `trace_records`: from the start of an engine on, with the lines that are read back from the text
   of the trace.
-/

namespace Chifir

open Text

/-! ## What is done with an engine -/

/-- Whether a call leaves the trace alone: it stays on, and what is in it stays there. -/
def Call.leavesTrace : Call → Bool
  | .reset | .clearTrace | .trace false => false
  | _ => true

def Act.leavesTrace : Act → Bool
  | .call c => c.leavesTrace
  | .access _ => true
  | .setPc n => IsAddress n

/-- The machines before each instruction that an act attempts. -/
def Panel.attempted (p : Panel) : Act → List Machine
  | .call c => (Event.mk p c (.ok none) p).performed
  | _ => []

/-- From `start`, acts that leave the trace alone lead to a panel, and these are the machines before
each instruction that was attempted, the last one first. -/
inductive Recording (start : Panel) : List Machine → Panel → Prop
  | start : Recording start [] start
  | act {past : List Machine} {p p' : Panel} {a : Act} (earlier : Recording start past p)
      (leaves : a.leavesTrace) (acted : p.act a = some p') :
      Recording start ((p.attempted a).reverse ++ past) p'

/-- An engine with tracing on that has not attempted anything. -/
structure Panel.Fresh (p : Panel) : Prop where
  fetches : p.astray = none
  tracing : p.machine.tracing = true
  trace : p.machine.trace = #[]
  steps : p.machine.steps = 0
  running : p.machine.status = .running

namespace Machine

variable {m m' : Machine} {past : List Machine}

/-! ## One instruction -/

def quadAtPc (m : Machine) : Quad Int :=
  Quad.map Word.toInt ⟨m.get m.pc, m.get (m.pc + 1), m.get (m.pc + 2), m.get (m.pc + 3)⟩

/-- The line of the instruction at PC, as `Instruction.text` writes it. -/
def lineBefore (m : Machine) : String := Instruction.text ⟨Word.toInt m.pc, m.quadAtPc⟩

/-- The machine has traced the instructions that were before these machines, of which the last one
comes first. All are counted, but one that has faulted. -/
structure Traces (m : Machine) (past : List Machine) : Prop where
  tracing : m.tracing = true
  lines : m.trace.toList = past.reverse.map lineBefore
  counted : m.steps + (if m.status.reason? = some .fault then 1 else 0) = past.length

theorem tracing_step (m : Machine) : m.step.tracing = m.tracing := by rw [kept_step]

theorem trace_step (running : m.status = .running) (tracing : m.tracing = true) :
    m.step.trace = m.trace.push m.lineBefore := by
  have recorded : (m.record m.current).trace = m.trace.push m.lineBefore := by
    rw [record, if_pos tracing]
    rfl
  have outcome := stepped running
  generalize m.step = m' at outcome
  cases outcome with
  | followed op _ _ =>
    rw [(follows running op (m.row op)).trace, if_pos tracing]
    rfl
  | illegal | divided | reduced => exact recorded

/-- A step attempts one instruction and traces it: `Traces` holds with one machine more. -/
theorem Traces.step (traces : m.Traces past) (running : m.status = .running) :
    m.step.Traces (m :: past) := by
  refine ⟨(tracing_step m).trans traces.tracing, ?lines, ?counted⟩
  case lines =>
    rw [trace_step running traces.tracing, Array.toList_push, traces.lines, List.reverse_cons,
      List.map_append]
    rfl
  case counted =>
    have earlier := traces.counted
    rw [running, if_neg nofun, Nat.add_zero] at earlier
    rw [steps_step running, earlier, List.length_cons]

theorem Trail.traces {ms : List Machine} (trail : Trail m ms m') (traces : m.Traces past) :
    m'.Traces (ms.reverse ++ past) :=
  @Trail.holds m m' ms (fun past m => m.Traces past) past trail Traces.step traces

structure SameTrace (m m' : Machine) : Prop where
  tracing : m'.tracing = m.tracing
  trace : m'.trace = m.trace
  steps : m'.steps = m.steps
  status : m'.status = m.status

theorem Traces.same (traces : m.Traces past) (same : m.SameTrace m') : m'.Traces past := by
  refine ⟨same.tracing.trans traces.tracing, ?_, ?_⟩
  · rw [same.trace, traces.lines]
  · rw [same.steps, same.status, traces.counted]

theorem sameTrace_load (m : Machine) (words : List Int) (base : Int) :
    m.SameTrace (m.load words base).1 := by
  rw [load]
  split
  · exact ⟨rfl, rfl, rfl, rfl⟩
  · exact ⟨rfl, rfl, rfl, rfl⟩

theorem trail_step (m : Machine) : Trail m (if m.status = .running then [m] else []) m.step := by
  split
  case isTrue running => exact .cons running (.nil _)
  case isFalse stopped =>
    obtain ⟨reason, ends⟩ := exists_reason stopped
    rw [step_of_stopped ends]
    exact .nil m

end Machine

namespace Panel

variable {p p' : Panel}

/-- Apart from what it attempts, a call that leaves the trace alone changes nothing that the trace
tells of. -/
theorem sameTrace_of_call {c : Call} {answer : CallAnswer} (fetches : p.astray = none)
    (tracing : p.machine.tracing = true) (leaves : c.leavesTrace)
    (called : p.call c = some (answer, p')) :
    ∃ first now, p.machine.SameTrace first ∧ first.Trail (Event.mk p c answer p').performed now ∧
      now.SameTrace p'.machine := by
  have still : p.machine.SameTrace p.machine := ⟨rfl, rfl, rfl, rfl⟩
  cases c with
  | reset | clearTrace => cases leaves
  | step =>
    obtain ⟨m', rfl, outcome⟩ := called_of_call fetches called
    cases outcome with
    | stepped => exact ⟨p.machine, p.machine.step, still, p.machine.trail_step, rfl, rfl, rfl, rfl⟩
    | set sets => cases sets
  | run limit =>
    obtain ⟨m', rfl, outcome⟩ := called_of_call fetches called
    cases outcome with
    | ran =>
      obtain ⟨now, trail, left⟩ := p.machine.trail_runFor (p.machine.allowance limit)
      refine ⟨{ p.machine with resumeAt := none }, now, ⟨rfl, rfl, rfl, rfl⟩, trail, ?_⟩
      rw [left]
      exact ⟨rfl, rfl, rfl, rfl⟩
    | set sets => cases sets
  | load words base =>
    obtain ⟨m', rfl, outcome⟩ := called_of_call fetches called
    cases outcome with
    | loaded => exact ⟨p.machine, p.machine, still, .nil _, p.machine.sameTrace_load words base⟩
    | set sets => cases sets
  | write | watch =>
    refine ⟨p.machine, p.machine, still, .nil _, ?_⟩
    rcases cases_of_rewired called with ⟨b, _, rfl⟩ | ⟨_, _, rfl⟩
    · exact ⟨rfl, rfl, rfl, rfl⟩
    · exact still
  | press code =>
    refine ⟨p.machine, p.machine, still, .nil _, ?_⟩
    rw [call] at called
    split at called
    · cases called
      exact ⟨rfl, rfl, rfl, rfl⟩
    · cases called
      exact still
  | trace on =>
    cases called
    cases on with
    | false => cases leaves
    | true => exact ⟨p.machine, p.machine, still, .nil _, tracing.symm, rfl, rfl, rfl⟩
  | feed | send | addBreakpoint | removeBreakpoint | clearBreakpoints | unwatch | unwatchAll
  | requestStop =>
    cases called
    exact ⟨p.machine, p.machine, still, .nil _, ⟨rfl, rfl, rfl, rfl⟩⟩

theorem traces_act {past : List Machine} {a : Act} (fetches : p.astray = none)
    (traces : p.machine.Traces past) (leaves : a.leavesTrace) (acted : p.act a = some p') :
    p'.astray = none ∧ p'.machine.Traces ((p.attempted a).reverse ++ past) := by
  cases a with
  | call c =>
    obtain ⟨⟨answer, p''⟩, called, rfl⟩ := Option.map_eq_some_iff.1 acted
    obtain ⟨_, rfl, _⟩ := called_of_call fetches called
    obtain ⟨first, now, before, trail, after⟩ :=
      sameTrace_of_call fetches traces.tracing leaves called
    exact ⟨rfl, (trail.traces (traces.same before)).same after⟩
  | access x =>
    cases acted
    exact ⟨fetches, traces.same ⟨rfl, rfl, rfl, rfl⟩⟩
  | setPc n =>
    obtain ⟨pc, rfl⟩ := exists_toInt (of_decide_eq_true leaves)
    rw [act, setPc, Word.address_toInt] at acted
    cases acted
    exact ⟨rfl, traces.same ⟨rfl, rfl, rfl, rfl⟩⟩

theorem Fresh.traces (fresh : p.Fresh) : p.machine.Traces [] := by
  refine ⟨fresh.tracing, ?_, ?_⟩
  · rw [fresh.trace]
    rfl
  · rw [fresh.steps, fresh.running]
    rfl

theorem fresh_build {c : Config} (on : c.settings.trace = true) (display : Display)
    (keyboard : Keyboard) :
    ({ machine := .build c display keyboard } : Panel).Fresh := ⟨rfl, on, rfl, rfl, rfl⟩

theorem fresh_reset (on : p.machine.tracing = true) : p.reset.Fresh := ⟨rfl, on, rfl, rfl, rfl⟩

end Panel

/-! ## Everything together -/

theorem Recording.traces {start p : Panel} {past : List Machine}
    (recording : Recording start past p) (fresh : start.Fresh) :
    p.astray = none ∧ p.machine.Traces past := by
  induction recording with
  | start => exact ⟨fresh.fetches, fresh.traces⟩
  | act _ leaves acted ih => exact Panel.traces_act ih.1 ih.2 leaves acted

theorem Machine.lineBefore_of_unknown {m : Machine}
    (unknown : ∀ op : Opcode, m.get m.pc ≠ op.word) :
    m.lineBefore = let q := m.quadAtPc
      s!"{hex8 (Word.toInt m.pc)}: .word {hex q.opcode} {hex q.a} {hex q.b} {hex q.c}" := by
  have undecoded : Opcode.ofWord? (m.get m.pc) = none := by
    cases decoded : Opcode.ofWord? (m.get m.pc) with
    | none => rfl
    | some op => exact absurd (Opcode.ofWord?_eq_some.1 decoded) (unknown op)
  have operation : Instruction.operation? ⟨Word.toInt m.pc, m.quadAtPc⟩ = none := by
    rw [← undecoded, Instruction.operation?, Opcode.ofInt?]
    exact if_pos (Int.natCast_nonneg (m.get m.pc).toNat)
  rw [lineBefore, Instruction.text, operation]

/-- The rows of `traceText` are the lines of the trace, if there is one. -/
theorem Machine.Traces.rows_traceText {m : Machine} {past : List Machine} (traces : m.Traces past)
    (some : past ≠ []) :
    m.traceText.toList.splitOn '\n' = past.reverse.map (·.lineBefore.toList) := by
  have single : ∀ row ∈ past.reverse.map lineBefore, '\n' ∉ row.toList := by
    intro row mem inside
    obtain ⟨m', _, rfl⟩ := List.mem_map.1 mem
    exact absurd (isRow_text _ _ _ inside) (by decide)
  have split := Listing.rowsOf_joinLines (by simpa using some) single
  rw [List.map_map] at split
  rw [traceText, traces.lines]
  exact split

theorem Status.name_eq_faulted_iff {s : Status} : s.name = "FAULTED" ↔ s.reason? = some .fault := by
  cases s with
  | running | halted => simp [name, reason?]
  | faulted fault => exact ⟨fun _ => rfl, fun _ => rfl⟩

/-- Whatever is done, one act after another, is recorded: `Recording` follows `actAll`. -/
theorem Recording.of_actAll {start p p' : Panel} {past : List Machine} {acts : List Act}
    (recording : Recording start past p) (leave : ∀ a ∈ acts, a.leavesTrace)
    (acted : p.actAll acts = some p') :
    ∃ past', Recording start past' p' := by
  induction acts generalizing p past with
  | nil =>
    cases acted
    exact ⟨past, recording⟩
  | cons a acts ih =>
    obtain ⟨leaves, others⟩ := List.forall_mem_cons.1 leave
    obtain ⟨p₁, first, rest⟩ := Option.bind_eq_some_iff.1 acted
    exact ih (.act recording leaves first) others rest

/-- An engine that traces from its start on, when it is built or when it is reset, has one line of
each instruction that it has attempted, in order, and each line is that of the words at PC before
the instruction ran. It counts them all but one that has faulted. -/
theorem trace_records :
    (∀ (c : Config) (display : Display) (keyboard : Keyboard), c.settings.trace = true →
      Panel.Fresh { machine := .build c display keyboard }) ∧
    (∀ p : Panel, p.machine.tracing = true → p.reset.Fresh) ∧
    ∀ (start p : Panel) (past : List Machine), start.Fresh → Recording start past p →
      p.machine.trace.toList = past.reverse.map (·.lineBefore) ∧
      (∀ m ∈ past, (∀ op : Opcode, m.get m.pc ≠ op.word) → m.lineBefore = let q := m.quadAtPc
        s!"{hex8 (Word.toInt m.pc)}: .word {hex q.opcode} {hex q.a} {hex q.b} {hex q.c}") ∧
      p.machine.trace.size =
        p.machine.steps + (if p.machine.status.name = "FAULTED" then 1 else 0) ∧
      (past ≠ [] →
        p.machine.traceText.toList.splitOn '\n' = past.reverse.map (·.lineBefore.toList)) := by
  refine ⟨fun _ display keyboard on => Panel.fresh_build on display keyboard,
    fun _ => Panel.fresh_reset, ?_⟩
  intro start p past fresh recording
  obtain ⟨_, traces⟩ := recording.traces fresh
  refine ⟨traces.lines, fun _ _ => Machine.lineBefore_of_unknown, ?_, traces.rows_traceText⟩
  rw [← Array.length_toList, traces.lines, List.length_map, List.length_reverse, ← traces.counted]
  simp only [Status.name_eq_faulted_iff]

/-- An instruction that overwrites itself, a word that is made an operation and then made illegal
again, and a step after that. -/
theorem trace_records_overwritten :
    let start : Panel := { machine := { tracing := true } }
    ∃ past p, Recording start past p ∧ start.Fresh ∧
      past.reverse.map (·.lineBefore) =
        ["00000000: lea 0 9 0", "00000004: nop 0 0 0", "00000004: .word 11 0 0 0"] ∧
      p.machine.trace.size = p.machine.steps + 1 ∧
      p.machine.traceText.toList.splitOn '\n' = past.reverse.map (·.lineBefore.toList) := by
  intro start
  have found : (start.actAll [.call (.load [4, 0, 9, 0, 17] 0), .call .step, .access (.write 4 16),
      .call (.run (some 1)), .setPc 4, .access (.write 4 17), .call (.run none),
      .call .step]).any fun p =>
        p.machine.status.name = "FAULTED" ∧ p.machine.trace.toList =
          ["00000000: lea 0 9 0", "00000004: nop 0 0 0", "00000004: .word 11 0 0 0"] := by
    decide +kernel
  obtain ⟨p, acted, ends⟩ := (Option.any_eq_true _ _).1 found
  rw [decide_eq_true_eq] at ends
  obtain ⟨faulted, lines⟩ := ends
  obtain ⟨past, recording⟩ := Recording.start.of_actAll (by decide) acted
  have fresh : start.Fresh := ⟨rfl, rfl, rfl, rfl, rfl⟩
  obtain ⟨same, _, counted, rows⟩ := trace_records.2.2 start p past fresh recording
  rw [faulted, if_pos rfl] at counted
  rw [same] at lines
  exact ⟨past, p, recording, fresh, lines, counted, rows (by rintro rfl; cases lines)⟩

end Chifir
