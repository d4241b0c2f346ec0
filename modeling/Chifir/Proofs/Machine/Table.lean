import Chifir.Proofs.Machine.Step
import Chifir.Proofs.Word

/-!
# The instruction table

`Opcode.row` is the table of the operations: for each of them where the program goes on, and which
cell gets which number. It is written with numbers that do not wrap, and speaks of memory only as it
is before the instruction.

1. `perform_eq_follow`: each operation does what its row says.
2. `step_follows_table`: so does a step, and it fails only if no operation has the number at PC, or
   for a divisor that is zero.
-/

namespace Chifir

/-! ## The last key -/

namespace Keyboard

def arrived (k : Keyboard) : List UInt8 := if k.source = .direct then [] else k.waiting

/-- The last key since the last poll: the last byte to have arrived, else the key pressed last, else
0. -/
def latest (k : Keyboard) : UInt8 := (k.arrived.getLast? <|> k.last).getD 0

def polled (k : Keyboard) : Keyboard :=
  { k with waiting := if k.source = .direct then k.waiting else [], last := none }

theorem poll_eq (k : Keyboard) : k.poll = (k.latest, k.polled) := by
  by_cases direct : k.source = .direct
  · simp [poll, drain, feed, latest, arrived, polled, direct]
  · simp [poll, k.drain_eq direct, feed, latest, arrived, polled, direct]

end Keyboard

/-! ## The table -/

/-- What the table says of an instruction: where the program goes on, and perhaps a cell and the
number that it gets, which is reduced to a word. -/
structure Row where
  next : Word
  change : Option (Word × Int) := none
deriving DecidableEq, Repr

/-- The table. `q` is the instruction and `pc` its address; `cells` is memory before it and `code`
the last key. -/
def Opcode.row (op : Opcode) (q : Quad Word) (pc : Word) (cells : Word → Word) (code : UInt8) :
    Row :=
  let a := q.a
  let b := Word.toInt (cells q.b)
  let c := Word.toInt (cells q.c)
  match op with
  | .brk => ⟨pc, none⟩
  | .lpc => ⟨cells a, none⟩
  | .beq => ⟨if b = 0 then cells a else pc + 4, none⟩
  | .spc => ⟨pc + 4, some (a, Word.toInt pc)⟩
  | .lea => ⟨pc + 4, some (a, b)⟩
  | .lra => ⟨pc + 4, some (a, Word.toInt (cells (cells q.b)))⟩
  | .sra => ⟨pc + 4, some (cells q.b, Word.toInt (cells a))⟩
  | .add => ⟨pc + 4, some (a, b + c)⟩
  | .sub => ⟨pc + 4, some (a, b - c)⟩
  | .mul => ⟨pc + 4, some (a, b * c)⟩
  | .div => ⟨pc + 4, some (a, b / c)⟩
  | .mod => ⟨pc + 4, some (a, b % c)⟩
  | .cmp => ⟨pc + 4, some (a, if b < c then 1 else 0)⟩
  | .nad => ⟨pc + 4, some (a, 0xFFFFFFFF - (b.toNat &&& c.toNat : Nat))⟩
  | .drw => ⟨pc + 4, none⟩
  | .key => ⟨pc + 4, some (a, code.toNat)⟩
  | .nop => ⟨pc + 4, none⟩

/-- The operations with a divisor, which C points to. -/
def Opcode.Divides (op : Opcode) : Prop := op = .div ∨ op = .mod

instance (op : Opcode) : Decidable op.Divides := inferInstanceAs (Decidable (op = .div ∨ op = .mod))

namespace Machine

def follow (m : Machine) (op : Opcode) (row : Row) : Machine :=
  { m with
    bus := match row.change with
      | none => m.bus
      | some (a, v) => m.bus.set a (Word.ofInt v)
    display := if op = .drw then m.display.refresh m.bus.memory else m.display
    keyboard := if op = .key then m.keyboard.polled else m.keyboard
    pc := row.next
    status := if op = .brk then .halted else m.status
    steps := m.steps + 1 }

section Follow
variable {op : Opcode} (plain : op ≠ .brk ∧ op ≠ .drw ∧ op ≠ .key) (m : Machine)
include plain

theorem continueAt_eq_follow (pc : Word) : m.continueAt pc = m.follow op ⟨pc, none⟩ := by
  simp only [continueAt, follow, if_neg plain.1, if_neg plain.2.1, if_neg plain.2.2]

theorem store_eq_follow (a : Word) {v : Word} {n : Int} (same : Word.ofInt n = v) :
    m.store a v = m.follow op ⟨m.pc + 4, some (a, n)⟩ := by
  simp only [store, advance, continueAt, follow, same, if_neg plain.1, if_neg plain.2.1,
    if_neg plain.2.2]

end Follow

theorem perform_eq_follow (m : Machine) (i : Instruction Word) {op : Opcode}
    (divisor : op.Divides → m.get i.quad.c ≠ 0) :
    m.perform i op = m.follow op (op.row i.quad m.pc m.get m.keyboard.latest) := by
  cases op with
  | brk => rfl
  | lpc => exact continueAt_eq_follow (by decide) m _
  | beq =>
    simp only [perform, Opcode.row, Word.toInt_eq_zero]
    split
    · exact continueAt_eq_follow (by decide) m _
    · exact continueAt_eq_follow (by decide) m _
  | spc => exact store_eq_follow (by decide) m _ (Word.ofInt_toInt _)
  | lea => exact store_eq_follow (by decide) m _ (Word.ofInt_toInt _)
  | lra => exact store_eq_follow (by decide) m _ (Word.ofInt_toInt _)
  | sra => exact store_eq_follow (by decide) m _ (Word.ofInt_toInt _)
  | add => exact store_eq_follow (by decide) m _ (Word.ofInt_add _ _)
  | sub => exact store_eq_follow (by decide) m _ (Word.ofInt_sub _ _)
  | mul => exact store_eq_follow (by decide) m _ (Word.ofInt_mul _ _)
  | div =>
    rw [perform, if_neg (divisor (.inl rfl))]
    exact store_eq_follow (by decide) m _ (Word.ofInt_div _ _)
  | mod =>
    rw [perform, if_neg (divisor (.inr rfl))]
    exact store_eq_follow (by decide) m _ (Word.ofInt_mod _ _)
  | cmp =>
    refine store_eq_follow (by decide) m _ ?_
    simp only [Word.toInt_lt]
    split
    · rfl
    · rfl
  | nad => exact store_eq_follow (by decide) m _ (Word.ofInt_nand _ _)
  | drw => rfl
  | key =>
    simp only [perform, Keyboard.poll_eq, store, advance, continueAt, follow, Opcode.row,
      ← Word.ofInt_byte]
    rfl
  | nop => exact continueAt_eq_follow (by decide) m _

/-! ## Steps -/

/-- The row of an operation for the instruction at PC, as `Opcode.row` has it for any. -/
def row (m : Machine) (op : Opcode) : Row := op.row m.current.quad m.pc m.get m.keyboard.latest

/-- What becomes of a running machine in one step. -/
inductive Stepped (m : Machine) : Machine → Prop
  | followed (op : Opcode) (fetched : m.get m.pc = op.word)
      (divisor : op.Divides → m.get (m.get (m.pc + 3)) ≠ 0) :
      Stepped m ((m.record m.current).follow op (m.row op))
  | illegal (unknown : ∀ op : Opcode, m.get m.pc ≠ op.word) :
      Stepped m ((m.record m.current).fail .illegalOpcode m.current)
  | divided (fetched : m.get m.pc = Opcode.div.word) (zero : m.get (m.get (m.pc + 3)) = 0) :
      Stepped m ((m.record m.current).fail .divideByZero m.current)
  | reduced (fetched : m.get m.pc = Opcode.mod.word) (zero : m.get (m.get (m.pc + 3)) = 0) :
      Stepped m ((m.record m.current).fail .moduloByZero m.current)

@[simp] theorem keyboard_record (m : Machine) (i : Instruction Word) :
    (m.record i).keyboard = m.keyboard := by
  unfold record
  split <;> rfl

@[simp] theorem bus_record (m : Machine) (i : Instruction Word) : (m.record i).bus = m.bus := by
  unfold record
  split <;> rfl

@[simp] theorem display_record (m : Machine) (i : Instruction Word) :
    (m.record i).display = m.display := by
  unfold record
  split <;> rfl

theorem step_of_unknown {m : Machine} (running : m.status = .running)
    (unknown : ∀ op : Opcode, m.get m.pc ≠ op.word) :
    m.step = (m.record m.current).fail .illegalOpcode m.current := by
  have undecoded : Opcode.ofWord? m.current.quad.opcode = none := by
    cases decoded : Opcode.ofWord? m.current.quad.opcode with
    | none => rfl
    | some op => exact absurd (Opcode.ofWord?_eq_some.1 decoded) (unknown op)
  rw [step, running]
  simp only [attempt, undecoded]

/-- A running machine follows the table, or it cannot perform the instruction and fails (`Stepped`).
-/
theorem stepped {m : Machine} (running : m.status = .running) : m.Stepped m.step := by
  by_cases known : ∃ op : Opcode, m.get m.pc = op.word
  · obtain ⟨op, fetched⟩ := known
    have performed := step_eq_perform running fetched
    by_cases divisor : op.Divides → m.get m.current.quad.c ≠ 0
    · have divides : op.Divides → (m.record m.current).get m.current.quad.c ≠ 0 := by
        rw [get_record]
        exact divisor
      have followed := (m.record m.current).perform_eq_follow m.current divides
      rw [performed, followed, get_record, pc_record, keyboard_record]
      exact .followed op fetched divisor
    · -- the rows of `div` and `mod` are not followed when the divisor is zero
      obtain ⟨divides, zero⟩ := Classical.not_imp.1 divisor
      rw [Classical.not_not] at zero
      rcases divides with rfl | rfl
      · rw [performed, perform, get_record, if_pos zero]
        exact .divided fetched zero
      · rw [performed, perform, get_record, if_pos zero]
        exact .reduced fetched zero
  · rw [step_of_unknown running (not_exists.1 known)]
    exact .illegal (not_exists.1 known)

/-- What holds of a machine as it is, after a row of the table and after a failure, holds after a
step. -/
theorem of_step {P : Machine → Prop} {m : Machine} (stopped : P m)
    (followed : m.status = .running → ∀ op, P ((m.record m.current).follow op (m.row op)))
    (failed : ∀ cause, P ((m.record m.current).fail cause m.current)) : P m.step := by
  cases status : m.status with
  | halted | faulted =>
    simp only [step, status]
    exact stopped
  | running =>
    have outcome := stepped status
    generalize m.step = m' at outcome
    cases outcome with
    | followed op _ _ => exact followed status op
    | illegal | divided | reduced => exact failed _

/-- The machine `m'` is what the table makes of `m`, given the operation at PC and its row. -/
structure Follows (m : Machine) (op : Opcode) (row : Row) (m' : Machine) : Prop where
  next : m'.pc = row.next
  /-- No cell changes but the one that the row names. -/
  cells : ∀ a, Word.toInt (m'.get a) = match row.change with
    | some (b, n) => if a = b then n % 0x100000000 else Word.toInt (m.get a)
    | none => Word.toInt (m.get a)
  counted : m'.steps = m.steps + 1
  status : m'.status = if op = .brk then .halted else .running
  keyboard : m'.keyboard = if op = .key then m.keyboard.polled else m.keyboard
  display : m'.display = if op = .drw then m.display.refresh m.bus.memory else m.display
  watchpoints : m'.bus.watchpoints = m.bus.watchpoints
  trace : m'.trace = if m.tracing then m.trace.push m.current.toInt.text else m.trace
  /-- Of the rest of the machine nothing changes. -/
  kept : m' = { m with
    bus := m'.bus, display := m'.display, keyboard := m'.keyboard, pc := m'.pc, status := m'.status
    steps := m'.steps, trace := m'.trace }

theorem follows {m : Machine} (running : m.status = .running) (op : Opcode) (row : Row) :
    m.Follows op row ((m.record m.current).follow op row) := by
  have recorded : m.record m.current =
      { m with trace := if m.tracing then m.trace.push m.current.toInt.text else m.trace } := by
    unfold record
    split <;> rfl
  rw [recorded]
  refine ⟨rfl, fun a => ?_, rfl, ?_, rfl, rfl, ?_, rfl, rfl⟩
  · cases change : row.change with
    | none => simp only [follow, change]; rfl
    | some c =>
      simp only [follow, change, get, Bus.get_set]
      by_cases here : a = c.1
      · rw [if_pos here, if_pos here.symm, Word.toInt_ofInt]
      · rw [if_neg here, if_neg (Ne.symm here)]
  · simp only [follow, running]
  · cases change : row.change with
    | none => simp only [follow, change]
    | some c => simp only [follow, change, Bus.watchpoints_set]

theorem follows_step {m : Machine} {op : Opcode} (running : m.status = .running)
    (fetched : m.get m.pc = op.word) (divisor : op.Divides → m.get (m.get (m.pc + 3)) ≠ 0) :
    m.Follows op (m.row op) m.step := by
  have outcome := stepped running
  generalize m.step = m' at outcome
  cases outcome with
  | followed op' fetched' _ =>
    obtain rfl : op = op' := Opcode.word_inj.1 (fetched.symm.trans fetched')
    exact follows running op _
  | illegal unknown => exact absurd fetched (unknown op)
  | divided fetched' zero =>
    exact absurd zero (divisor (.inl (Opcode.word_inj.1 (fetched.symm.trans fetched'))))
  | reduced fetched' zero =>
    exact absurd zero (divisor (.inr (Opcode.word_inj.1 (fetched.symm.trans fetched'))))

theorem Follows.get_eq {m m' : Machine} {op : Opcode} {row : Row} (follows : m.Follows op row m')
    (a : Word) :
    m'.get a = match row.change with
      | some (b, n) => if a = b then Word.ofInt n else m.get a
      | none => m.get a := by
  apply Word.toInt_injective
  rw [follows.cells]
  cases row.change with
  | none => rfl
  | some change =>
    dsimp only
    split
    · rw [Word.toInt_ofInt]
    · rfl

/-! ## What no step changes -/

theorem kept_step (m : Machine) : m.step = { m with
    bus := m.step.bus, display := m.step.display, keyboard := m.step.keyboard, pc := m.step.pc
    status := m.step.status, steps := m.step.steps, trace := m.step.trace } := by
  refine of_step (P := fun m' => m' = { m with
    bus := m'.bus, display := m'.display, keyboard := m'.keyboard, pc := m'.pc, status := m'.status
    steps := m'.steps, trace :=
      m'.trace }) rfl (fun running op => (follows running op _).kept) fun cause => ?_
  rw [fail, record]
  split
  · rfl
  · rfl

theorem resumeAt_step (m : Machine) : m.step.resumeAt = m.resumeAt := by rw [kept_step]

theorem breakpoints_step (m : Machine) : m.step.breakpoints = m.breakpoints := by rw [kept_step]

theorem stopRequested_step (m : Machine) :
    m.step.stopRequested = m.stopRequested := by rw [kept_step]

theorem budget_step (m : Machine) : m.step.budget = m.budget := by rw [kept_step]

end Machine

/-- A running machine that does not fail in a step has performed the operation whose number stands
at PC, and what that has changed is what the table says, worked out from memory before the step:
whatever cells the operands name, also words of the instruction itself, and wherever it stands. It
does not fail if an operation has that number, and its divisor is not zero if it has one. -/
theorem step_follows_table {m : Machine} (running : m.status = .running) :
    let q : Quad Word := ⟨m.get m.pc, m.get (m.pc + 1), m.get (m.pc + 2), m.get (m.pc + 3)⟩
    (m.step.fault? = none → ∃ op : Opcode, op.number = q.opcode.toNat ∧
        m.Follows op (op.row q m.pc m.get m.keyboard.latest) m.step) ∧
      ∀ op : Opcode, op.number = q.opcode.toNat →
        (op.Divides → m.get q.c ≠ 0) → m.step.fault? = none := by
  have outcome := Machine.stepped running
  refine ⟨fun sound => ?_, fun op numbered divisor => ?_⟩
  · generalize m.step = m' at outcome sound
    cases outcome with
    | followed op fetched divisor =>
        exact ⟨op, (Opcode.eq_word_iff.1 fetched).symm, Machine.follows running op _⟩
    | illegal | divided | reduced => cases sound
  · have fetched := Opcode.eq_word_iff.2 numbered.symm
    generalize m.step = m' at outcome
    cases outcome with
    | followed op' _ _ =>
      rw [Machine.fault?, (Machine.follows running op' _).status]
      split
      · rfl
      · rfl
    | illegal unknown => exact absurd fetched (unknown op)
    | divided fetched' zero =>
      have same : op = .div := Opcode.word_inj.1 (fetched.symm.trans fetched')
      exact absurd zero (divisor (.inl same))
    | reduced fetched' zero =>
      have same : op = .mod := Opcode.word_inj.1 (fetched.symm.trans fetched')
      exact absurd zero (divisor (.inr same))

/-- A store from two words below the top of memory on. The cell that A names is its own word B, and
its word B names a cell which points to its opcode. -/
def wrappingCells : List (Word × Word) :=
  [(0xFFFFFFFE, 6), (0xFFFFFFFF, 0), (0, 1), (1, 0xFFFFFFFE)]

def wrapping : Machine where
  pc := 0xFFFFFFFE
  bus.memory := Machine.cellsAt wrappingCells

theorem step_follows_table_wrapping :
    wrapping.status = .running ∧ wrapping.Follows .sra ⟨2, some (0xFFFFFFFE, 1)⟩ wrapping.step := by
  have cells : wrapping.get = fun a => (wrappingCells.lookup a).getD 0 :=
    funext fun a => Machine.get_cellsAt wrappingCells a
  have fetched : wrapping.get wrapping.pc = Opcode.sra.word := by
    rw [cells]
    decide
  obtain ⟨performed, sound⟩ := step_follows_table (m := wrapping) rfl
  obtain ⟨op, numbered, follows⟩ := performed (sound .sra (Opcode.eq_word_iff.1 fetched).symm nofun)
  obtain rfl : .sra = op :=
    Opcode.word_inj.1 (fetched.symm.trans (Opcode.eq_word_iff.2 numbered.symm))
  rw [cells] at follows
  exact ⟨rfl, follows⟩

end Chifir
