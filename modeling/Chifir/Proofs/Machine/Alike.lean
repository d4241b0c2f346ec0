import Mathlib.Logic.Function.Iterate
import Chifir.Proofs.Machine.Table

/-!
# Machines that are alike

Two machines are alike if programs find the same in them. They may differ in what is there for
debugging, and in what their displays show. Every operation keeps them alike (`Alike.perform`), and
so do steps (`Alike.step`, `Alike.iterate`).
-/

namespace Chifir

namespace Memory

/-- The pages of one exist in the other, and hold the same words. -/
def Same (m m' : Memory) : Prop := ∀ n : Nat, m.pages[n]? = m'.pages[n]?

variable {m m' : Memory}

theorem Same.get (same : m.Same m') : m.get = m'.get := by
  funext a
  rw [Memory.get, same]
  rfl

theorem Same.set (same : m.Same m') (a v : Word) : (m.set a v).Same (m'.set a v) := by
  intro n
  simp only [Memory.set, Std.TreeMap.getElem?_alter]
  rw [same (pageOf a), same n]

end Memory

theorem Display.frames_refresh (d : Display) (memory : Memory) :
    (d.refresh memory).frames = d.frames + 1 := by
  unfold refresh
  split
  · rfl
  · rfl

namespace Machine

/-- Two machines in which programs find the same. They also count the same `steps` and `frames`. -/
structure Alike (m m' : Machine) : Prop where
  memory : m.bus.memory.Same m'.bus.memory
  keyboard : m.keyboard = m'.keyboard
  pc : m.pc = m'.pc
  status : m.status = m'.status
  steps : m.steps = m'.steps
  frames : m.display.frames = m'.display.frames

variable {m m' m'' : Machine}

namespace Alike

theorem refl (m : Machine) : m.Alike m := ⟨fun _ => rfl, rfl, rfl, rfl, rfl, rfl⟩

theorem symm (alike : m.Alike m') : m'.Alike m :=
  ⟨fun n => (alike.memory n).symm, alike.keyboard.symm, alike.pc.symm, alike.status.symm,
    alike.steps.symm, alike.frames.symm⟩

theorem trans (alike : m.Alike m') (alike' : m'.Alike m'') : m.Alike m'' :=
  ⟨fun n => (alike.memory n).trans (alike'.memory n), alike.keyboard.trans alike'.keyboard,
    alike.pc.trans alike'.pc, alike.status.trans alike'.status, alike.steps.trans alike'.steps,
    alike.frames.trans alike'.frames⟩

theorem get (alike : m.Alike m') : m.get = m'.get := alike.memory.get

theorem current (alike : m.Alike m') : m.current = m'.current := by
  have cells : m.bus.memory.get = m'.bus.memory.get := alike.memory.get
  rw [Machine.current, Machine.current, Memory.decode, Memory.decode, cells, alike.pc]

theorem record (alike : m.Alike m') (i : Instruction Word) : (m.record i).Alike (m'.record i) := by
  -- whether one of them is traced or not
  have recorded (m : Machine) : (m.record i).Alike m := by
    unfold Machine.record
    split
    · exact ⟨fun _ => rfl, rfl, rfl, rfl, rfl, rfl⟩
    · exact refl m
  exact (recorded m).trans (alike.trans (recorded m').symm)

theorem continueAt (alike : m.Alike m') (pc : Word) : (m.continueAt pc).Alike (m'.continueAt pc) :=
  ⟨alike.memory, alike.keyboard, rfl, alike.status, congrArg (· + 1) alike.steps, alike.frames⟩

theorem advance (alike : m.Alike m') : m.advance.Alike m'.advance := by
  rw [Machine.advance, Machine.advance, alike.pc]
  exact alike.continueAt _

theorem store (alike : m.Alike m') (a v : Word) : (m.store a v).Alike (m'.store a v) := by
  refine advance ⟨?_, alike.keyboard, alike.pc, alike.status, alike.steps, alike.frames⟩
  simp only [Bus.memory_set]
  exact alike.memory.set a v

theorem fail (alike : m.Alike m') (kind : FaultKind) (i : Instruction Word) :
    (m.fail kind i).Alike (m'.fail kind i) :=
  ⟨alike.memory, alike.keyboard, alike.pc, rfl, alike.steps, alike.frames⟩

theorem perform (alike : m.Alike m') (i : Instruction Word) (op : Opcode) :
    (m.perform i op).Alike (m'.perform i op) := by
  cases op with
  | brk =>
      exact ⟨alike.memory, alike.keyboard, alike.pc, rfl, congrArg (· + 1) alike.steps,
        alike.frames⟩
  | lpc =>
    simp only [Machine.perform, alike.get]
    exact alike.continueAt _
  | beq =>
    simp only [Machine.perform, alike.get]
    split
    · exact alike.continueAt _
    · exact alike.advance
  | div | mod =>
    simp only [Machine.perform, alike.get]
    split
    · exact alike.fail _ i
    · exact alike.store _ _
  | drw =>
    refine advance ⟨alike.memory, alike.keyboard, alike.pc, alike.status, alike.steps, ?_⟩
    simp only [Display.frames_refresh, alike.frames]
  | key =>
    simp only [Machine.perform, alike.keyboard]
    refine store ?_ _ _
    exact ⟨alike.memory, rfl, alike.pc, alike.status, alike.steps, alike.frames⟩
  | nop => exact alike.advance
  | spc | lea | lra | sra | add | sub | mul | cmp | nad =>
    simp only [Machine.perform, alike.get, alike.pc]
    exact alike.store _ _

theorem attempt (alike : m.Alike m') : m.attempt.Alike m'.attempt := by
  unfold Machine.attempt
  simp only [alike.current]
  cases Opcode.ofWord? m'.current.quad.opcode with
  | none => exact (alike.record _).fail _ _
  | some op => exact (alike.record _).perform _ op

theorem step (alike : m.Alike m') : m.step.Alike m'.step := by
  unfold Machine.step
  rw [alike.status]
  cases m'.status with
  | halted | faulted => exact alike
  | running => exact alike.attempt

theorem iterate (alike : m.Alike m') (i : Nat) :
    (Machine.step^[i] m).Alike (Machine.step^[i] m') := by
  induction i with
  | zero => exact alike
  | succ i ih =>
    rw [Function.iterate_succ_apply', Function.iterate_succ_apply']
    exact ih.step

end Alike

end Machine

end Chifir
