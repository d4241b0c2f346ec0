import Mathlib.Data.List.Basic
import Mathlib.Data.Option.Basic
import Chifir.Display.Region
import Chifir.Proofs.Display.Frames
import Chifir.Proofs.Except
import Chifir.Proofs.Machine.Runs
import Chifir.Proofs.Machine.Sessions
import Chifir.Proofs.Machine.Table

/-!
# Checked execution

The machine once more, with nothing known of its numbers. PC and the operands are integers, and
whatever can be refused is asked for: an address where it is used, the word of a page at an offset,
a divisor, the region that is painted, and each character of the frame. What is refused is a
`Hazard`. It is not a fault: the program gets no answer to it.

1. `performChecked_machine`: with PC at an address no operation meets a hazard, and each does what
   it does unchecked, as long as what it draws can be painted.
2. `stepChecked_machine`, `runChecked_machine`: so it is with steps, and with runs by induction on
   their budget.
-/

namespace Chifir

/-- What can go wrong with the machine itself. -/
inductive Hazard
  | address (error : AddressError)
  /-- A page has no word at an offset. -/
  | offset (offset : Nat)
  | division (dividend : Int)
  | paint (error : PaintError)
  /-- A character of a frame is no byte. -/
  | character (c : Char)
deriving DecidableEq, Repr

/-! ## Memory -/

namespace Memory

def pageWord (page : Page) (offset : Nat) : Except Hazard Word :=
  match page.toArray[offset]? with
  | some w => .ok w
  | none => .error (.offset offset)

def readChecked (m : Memory) (n : Int) : Except Hazard Int := do
  let _ ← (Word.address n).mapError .address
  match m.pages[n.toNat / pageSize]? with
  | none => return 0
  | some page => return Word.toInt (← pageWord page (n.toNat % pageSize))

@[simp] theorem readChecked_toInt (m : Memory) (a : Word) :
    m.readChecked (Word.toInt a) = .ok (Word.toInt (m.get a)) := by
  rw [readChecked, Word.address_toInt, get]
  simp only [Word.toInt, Int.toNat_natCast, pageOf]
  cases m.pages[a.toNat / pageSize]? with
  | none => rfl
  | some page =>
    have inside : page.toArray[a.toNat % pageSize]? = some page[offsetOf a] :=
      Array.getElem?_eq_getElem (by simpa using Nat.mod_lt _ (by decide))
    simp only [pageWord, inside]
    rfl

end Memory

/-- Writes a number at an address. The word before is read for the watchers. -/
def Bus.writeChecked (b : Bus) (n v : Int) : Except Hazard Bus := do
  let _ ← b.memory.readChecked n
  (b.write n v).mapError .address

@[simp] theorem Bus.writeChecked_toInt (b : Bus) (a : Word) (v : Int) :
    b.writeChecked (Word.toInt a) v = .ok (b.set a (Word.ofInt v)) := by
  rw [writeChecked, Memory.readChecked_toInt, write, Word.address_toInt]
  rfl

def divideChecked (divide : Int → Int → Int) (x y : Int) : Except Hazard Int :=
  if y = 0 then .error (.division x) else .ok (divide x y)

theorem divideChecked_toInt {divide : Int → Int → Int} {x : Int} {y : Word} (divisor : y ≠ 0) :
    divideChecked divide x (Word.toInt y) = .ok (divide x (Word.toInt y)) := by
  rw [divideChecked, if_neg (Word.toInt_eq_zero.not.2 divisor)]

/-! ## Frames -/

/-- A frame as it is sent, byte for byte. -/
def sendChecked (frame : String) : Except Hazard String :=
  match frame.toList.find? (128 ≤ ·.toNat) with
  | some c => .error (.character c)
  | none => .ok frame

def Region.paintChecked (border : Bool) (m : Memory) : Region → Except Hazard String
  | .inexact w => .error (.paint (w.paintError border m))
  | .window w => do
    let words ← (m.readBlock w.address (w.width * w.height)).mapError .address
    sendChecked (Sixel.frame (words.map (· != 0)) w.width w.height border)

structure Showing where
  region : Region
  border : Bool
deriving DecidableEq

/-- The screen for what is shown, which there is only for a window. -/
def Showing.screen? (s : Showing) : Option Screen :=
  match s.region with
  | .window window => some ⟨window, s.border⟩
  | .inexact _ => none

def Display.refreshChecked (d : Display) (m : Memory) : Option Showing → Except Hazard Display
  | none => .ok { d with frames := d.frames + 1 }
  | some s => do
    let frame ← s.region.paintChecked s.border m
    return { d with
      frames := d.frames + 1
      lastFrame := frame
      output := d.output.map (· ++ frame) }

theorem sendChecked_frame (pixels : Array Bool) (width height : Int) (border : Bool) :
    sendChecked (Sixel.frame pixels width height border) =
      .ok (Sixel.frame pixels width height border) := by
  have none : (Sixel.frame pixels width height border).toList.find? (128 ≤ ·.toNat) = none := by
    refine List.find?_eq_none.2 fun c inside => ?_
    have small := Sixel.isAscii_frame pixels width height border c inside
    simp only [decide_eq_true_eq]
    omega
  rw [sendChecked, none]

theorem Memory.readBlock_window (m : Memory) (w : Window) :
    m.readBlock w.address (w.width * w.height) = .ok (m.block w.address w.words) := by
  have fits := w.fits
  have size : 0 < w.width * w.height := Nat.mul_pos w.width_pos w.height_pos
  have inside : w.address < addressLimit := by omega
  have start : Word.address w.address = .ok (Word.ofInt w.address) := by
    rw [Word.address, if_pos ⟨by omega, by exact_mod_cast inside⟩]
  have same : (Word.ofInt w.address).toNat = w.address := by
    have := Word.toInt_ofInt w.address
    simp only [Word.toInt, addressLimit] at this inside
    omega
  have length : ((w.width : Int) * w.height).toNat = w.words := by
    rw [← Int.natCast_mul, Int.toNat_natCast, Window.words]
  rw [readBlock, start]
  simp only [bind, Except.bind, pure, Except.pure, same, length]
  rw [if_neg]
  rw [← Int.natCast_mul]
  omega

theorem Display.screen_refresh (d : Display) (m : Memory) : (d.refresh m).screen = d.screen := by
  rw [refresh]
  split
  · rfl
  · rfl

theorem Machine.screen_step (m : Machine) : m.step.display.screen = m.display.screen := by
  refine of_step (P := fun m' => m'.display.screen = m.display.screen) rfl (fun running op => ?_)
    fun _ => ?_
  · rw [(follows running op (m.row op)).display]
    split
    · exact Display.screen_refresh m.display m.bus.memory
    · rfl
  · rw [fail, display_record]

/-- The display of an engine that shows nothing, or a window. -/
structure Display.Shows (d : Display) (showing : Option Showing) : Prop where
  screen : d.screen = showing.bind Showing.screen?
  painted : ∀ s ∈ showing, s.screen?.isSome

theorem Display.Shows.step {m : Machine} {showing : Option Showing}
    (shows : m.display.Shows showing) :
    m.step.display.Shows showing :=
  ⟨m.screen_step.trans shows.screen, shows.painted⟩

theorem Display.refreshChecked_eq {d : Display} {showing : Option Showing} (shows : d.Shows showing)
    (m : Memory) : d.refreshChecked m showing = .ok (d.refresh m) := by
  have screen := shows.screen
  match showing, shows.painted with
  | none, _ => simp only [refreshChecked, refresh, screen, Option.bind_none]
  | some ⟨.inexact _, _⟩, painted => cases painted _ rfl
  | some ⟨.window w, border⟩, _ =>
    have painted : Region.paintChecked border m (.window w) = .ok (Screen.paint ⟨w, border⟩ m) := by
      simp only [Region.paintChecked, Memory.readBlock_window, Screen.paint]
      exact sendChecked_frame _ _ _ border
    simp only [refreshChecked, refresh, screen, painted, Option.bind_some, Showing.screen?]
    rfl

/-! ## Operations -/

namespace Panel

def goOnChecked (p : Panel) (n : Int) : Panel :=
  (p.modify fun m => { m with steps := m.steps + 1 }).setPc n

def next (p : Panel) : Int := (p.pc + 4) % addressLimit

def storeChecked (p : Panel) (n v : Int) : Except Hazard Panel := do
  let bus ← p.machine.bus.writeChecked n v
  return (p.modify ({ · with bus })).goOnChecked p.next

/-- The effect of an opcode on an engine that shows this; `i` is the instruction at PC. -/
def performChecked (showing : Option Showing) (p : Panel) (i : Instruction Word) (op : Opcode) :
    Except Hazard Panel :=
  let a := Word.toInt i.quad.a
  let b := Word.toInt i.quad.b
  let c := Word.toInt i.quad.c
  let read := p.machine.bus.memory.readChecked
  match op with
  | .brk => return p.modify fun m => { m with status := .halted, steps := m.steps + 1 }
  | .lpc => return p.goOnChecked (← read a)
  | .beq => do
    if (← read b) = 0 then return p.goOnChecked (← read a)
    return p.goOnChecked p.next
  | .spc => p.storeChecked a p.pc
  | .lea => do p.storeChecked a (← read b)
  | .lra => do p.storeChecked a (← read (← read b))
  | .sra => do
    let n ← read b
    p.storeChecked n (← read a)
  | .add => do p.storeChecked a ((← read b) + (← read c))
  | .sub => do p.storeChecked a ((← read b) - (← read c))
  | .mul => do p.storeChecked a ((← read b) * (← read c))
  | .div => do
    let divisor ← read c
    if divisor = 0 then return p.modify (·.fail .divideByZero i)
    p.storeChecked a (← divideChecked (· / ·) (← read b) divisor)
  | .mod => do
    let divisor ← read c
    if divisor = 0 then return p.modify (·.fail .moduloByZero i)
    p.storeChecked a (← divideChecked (· % ·) (← read b) divisor)
  | .cmp => do p.storeChecked a (if (← read b) < (← read c) then 1 else 0)
  | .nad => do p.storeChecked a (~~~ (((← read b).toNat &&& (← read c).toNat : Nat) : Int))
  | .drw => do
    let display ← p.machine.display.refreshChecked p.machine.bus.memory showing
    return (p.modify ({ · with display })).goOnChecked p.next
  | .key =>
    let (code, keyboard) := p.machine.keyboard.poll
    (p.modify ({ · with keyboard })).storeChecked a code.toNat
  | .nop => return p.goOnChecked p.next

theorem setPc_toInt (p : Panel) (a : Word) :
    p.setPc (Word.toInt a) = { machine := { p.machine with pc := a } } := by
  rw [setPc, Word.address_toInt]

@[simp] theorem goOnChecked_machine (m : Machine) (a : Word) :
    ({ machine := m } : Panel).goOnChecked (Word.toInt a) = { machine := m.continueAt a } := by
  rw [goOnChecked, setPc_toInt]
  rfl

@[simp] theorem next_machine (m : Machine) :
    ({ machine := m } : Panel).next = Word.toInt (m.pc + 4) := by
  rw [Word.toInt_add]
  rfl

@[simp] theorem storeChecked_machine (m : Machine) (a : Word) (n : Int) :
    ({ machine := m } : Panel).storeChecked (Word.toInt a) n =
      .ok { machine := m.store a (Word.ofInt n) } := by
  rw [storeChecked, Bus.writeChecked_toInt, ok_bind, next_machine]
  exact congrArg Except.ok
    (goOnChecked_machine { m with bus := m.bus.set a (Word.ofInt n) } (m.pc + 4))

theorem readChecked_machine (m : Machine) (a : Word) :
    m.bus.memory.readChecked (Word.toInt a) = .ok (Word.toInt (m.get a)) :=
  Memory.readChecked_toInt m.bus.memory a

/-- With PC at an address no operation meets a hazard, but for a `drw` that draws what cannot be
painted. -/
theorem performChecked_machine {showing : Option Showing} {m : Machine} {op : Opcode}
    (shows : op = .drw → m.display.Shows showing) (i : Instruction Word) :
    ({ machine := m } : Panel).performChecked showing i op = .ok { machine := m.perform i op } := by
  cases op with
  | brk => rfl
  | lpc | nop =>
    simp only [performChecked, readChecked_machine, ok_bind, goOnChecked_machine, next_machine]
    rfl
  | beq =>
    simp only [performChecked, readChecked_machine, ok_bind, goOnChecked_machine, next_machine,
      Word.toInt_eq_zero, Machine.perform]
    split
    · rfl
    · rfl
  | spc | lea | lra | sra | add | sub | mul =>
    simp only [performChecked, readChecked_machine, ok_bind, storeChecked_machine, pc_machine,
      Word.ofInt_toInt, Word.ofInt_add, Word.ofInt_sub, Word.ofInt_mul]
    rfl
  | div | mod =>
    simp only [performChecked, readChecked_machine, ok_bind, Word.toInt_eq_zero, Machine.perform]
    by_cases zero : m.get i.quad.c = 0
    · rw [if_pos zero, if_pos zero]
      rfl
    · rw [if_neg zero, if_neg zero, divideChecked_toInt zero, ok_bind, storeChecked_machine]
      simp only [Word.ofInt_div, Word.ofInt_mod]
  | cmp =>
    simp only [performChecked, readChecked_machine, ok_bind, storeChecked_machine, Word.toInt_lt,
      Machine.perform]
    split
    · rfl
    · rfl
  | nad =>
    simp only [performChecked, readChecked_machine, ok_bind, storeChecked_machine,
      Word.ofInt_not_and]
    rfl
  | drw =>
    simp only [performChecked, Display.refreshChecked_eq (shows rfl), ok_bind, next_machine]
    exact congrArg Except.ok
      (goOnChecked_machine { m with display := m.display.refresh m.bus.memory } (m.pc + 4))
  | key =>
    simp only [performChecked, modify, storeChecked_machine, Word.ofInt_byte]
    rfl

/-! ## Steps and runs -/

def fetchChecked (p : Panel) : Except Hazard (Instruction Word) := do
  let read (n : Int) : Except Hazard Word :=
    return Word.ofInt (← p.machine.bus.memory.readChecked n)
  let opcode ← read p.pc
  let a ← read ((p.pc + 1) % addressLimit)
  let b ← read ((p.pc + 2) % addressLimit)
  let c ← read ((p.pc + 3) % addressLimit)
  return ⟨Word.ofInt p.pc, opcode, a, b, c⟩

def stepChecked (showing : Option Showing) (p : Panel) :
    Except Hazard (Option StopReason × Panel) :=
  match p.machine.status.reason? with
  | some reason => return (some reason, p)
  | none => do
    let i ← p.fetchChecked
    let p := p.modify (·.record i)
    let p ←
      match Opcode.ofWord? i.quad.opcode with
      | some op => p.performChecked showing i op
      | none => pure (p.modify (·.fail .illegalOpcode i))
    return (p.machine.status.reason?, p)

/-- What stops a run before the next instruction, apart from the budget. -/
def stopBeforeChecked (pass : Option Int) (p : Panel) : Option (StopReason × Panel) :=
  match p.machine.status.reason? with
  | some reason => some (reason, p)
  | none =>
    if p.machine.stopRequested then some (.cancelled, p.modify ({ · with stopRequested := false }))
    else if p.pc ∈ p.machine.breakpoints.map Word.toInt ∧ pass ≠ some p.pc then
      some (.breakpoint, p.modify ({ · with resumeAt := some (Word.ofInt p.pc) }))
    else none

def runFromChecked (showing : Option Showing) (pass : Option Int) (budget : Nat) (p : Panel) :
    Except Hazard (StopReason × Panel) :=
  match p.stopBeforeChecked pass with
  | some stop => return stop
  | none =>
    match budget with
    | 0 => return (.timeout, p)
    | budget + 1 => do
      let (reason?, p) ← p.stepChecked showing
      match reason? with
      | some reason => return (reason, p)
      | none => runFromChecked showing none budget p

def runChecked (showing : Option Showing) (p : Panel) (budget : Nat) :
    Except Hazard (StopReason × Panel) :=
  runFromChecked showing (p.machine.resumeAt.map Word.toInt) budget
    (p.modify ({ · with resumeAt := none }))

theorem fetchChecked_machine (m : Machine) :
    ({ machine := m } : Panel).fetchChecked = .ok m.current := by
  have wraps (k : Word) :
      m.bus.memory.readChecked ((Word.toInt m.pc + Word.toInt k) % addressLimit) =
        .ok (Word.toInt (m.get (m.pc + k))) := by
    rw [← Word.toInt_add, readChecked_machine]
  have b : m.bus.memory.readChecked ((Word.toInt m.pc + 1) % addressLimit) = _ := wraps 1
  have c : m.bus.memory.readChecked ((Word.toInt m.pc + 2) % addressLimit) = _ := wraps 2
  have d : m.bus.memory.readChecked ((Word.toInt m.pc + 3) % addressLimit) = _ := wraps 3
  simp only [fetchChecked, pc_machine, readChecked_machine, ok_bind, pure_bind, b, c, d,
    Word.ofInt_toInt]
  rfl

/-- A step meets no hazard, unless it is a `drw` that draws what cannot be painted. -/
theorem stepChecked_eq {showing : Option Showing} {m : Machine}
    (shows : m.get m.pc = Opcode.drw.word → m.display.Shows showing) :
    ({ machine := m } : Panel).stepChecked showing =
      .ok (m.step.status.reason?, { machine := m.step }) := by
  cases status : m.status with
  | halted | faulted =>
    simp only [stepChecked, Machine.step, status, Status.reason?]
    rfl
  | running =>
    simp only [stepChecked, status, fetchChecked_machine, ok_bind, modify, Machine.step,
      Machine.attempt]
    cases decoded : Opcode.ofWord? m.current.quad.opcode with
    | none => rfl
    | some op =>
      have recorded : op = .drw → (m.record m.current).display.Shows showing := by
        rintro rfl
        rw [Machine.display_record]
        exact shows (Opcode.ofWord?_eq_some.1 decoded)
      simp only [performChecked_machine recorded, ok_bind]
      rfl

theorem stepChecked_machine {showing : Option Showing} {m : Machine}
    (shows : m.display.Shows showing) :
    ({ machine := m } : Panel).stepChecked showing =
      .ok (m.step.status.reason?, { machine := m.step }) :=
  stepChecked_eq fun _ => shows

/-- A checked step follows the table: with the number of an operation at PC, and a divisor that is
not zero if the operation has one, it meets no hazard and leaves what the row of the operation says,
as long as what a `drw` draws can be painted. -/
theorem stepChecked_follows {showing : Option Showing} {m : Machine} {op : Opcode}
    (running : m.status = .running) (fetched : m.get m.pc = op.word)
    (divisor : op.Divides → m.get (m.get (m.pc + 3)) ≠ 0)
    (shows : op = .drw → m.display.Shows showing) :
    ∃ m', ({ machine := m } : Panel).stepChecked showing =
        .ok (m'.status.reason?, { machine := m' }) ∧ m.Follows op (m.row op) m' :=
  ⟨m.step, stepChecked_eq fun draws => shows (Opcode.word_inj.1 (fetched.symm.trans draws)),
    Machine.follows_step running fetched divisor⟩

theorem stopBeforeChecked_machine (m : Machine) (pass : Option Word) :
    ({ machine := m } : Panel).stopBeforeChecked (pass.map Word.toInt) =
      (m.stopBefore pass).map fun (reason, m) => (reason, { machine := m }) := by
  have met : (Word.toInt m.pc ∈ m.breakpoints.map Word.toInt ∧
    pass.map Word.toInt ≠ some (Word.toInt m.pc)) ↔
      (m.breakpoints.contains m.pc ∧ pass ≠ some m.pc) := by
    rw [List.mem_map_of_injective Word.toInt_injective, List.contains_iff_mem, ← Option.map_some,
      (Option.map_injective Word.toInt_injective).ne_iff]
  simp only [stopBeforeChecked, Machine.stopBefore, pc_machine, met, modify, Word.ofInt_toInt]
  cases m.status.reason? with
  | some reason => rfl
  | none =>
    dsimp only
    split
    · rfl
    · split
      · rfl
      · rfl

theorem runFromChecked_machine {showing : Option Showing} {m : Machine} (pass : Option Word)
    (budget : Nat) (shows : m.display.Shows showing) :
    ({ machine := m } : Panel).runFromChecked showing (pass.map Word.toInt) budget =
      .ok ((m.runFrom pass budget).1, { machine := (m.runFrom pass budget).2 }) := by
  induction budget generalizing pass m with
  | zero =>
    rw [runFromChecked.eq_def, stopBeforeChecked_machine, Machine.runFrom_eq]
    cases m.stopBefore pass with
    | some stop => rfl
    | none => rfl
  | succ budget ih =>
    rw [runFromChecked.eq_def, stopBeforeChecked_machine, Machine.runFrom_eq]
    cases m.stopBefore pass with
    | some stop => rfl
    | none =>
      simp only [Option.map_none, stepChecked_machine shows, ok_bind]
      -- The checked run stops with the reason that a step gives, the other one at its next look.
      cases stopped : m.step.status.reason? with
      | some reason =>
        rw [Machine.runFrom_of_stop (Machine.stopBefore_of_stopped stopped none)]
        rfl
      | none => exact ih none shows.step

theorem runChecked_machine {showing : Option Showing} {m : Machine} (budget : Nat)
    (shows : m.display.Shows showing) :
    ({ machine := m } : Panel).runChecked showing budget =
      .ok ((m.runFor budget).1, { machine := (m.runFor budget).2 }) :=
  runFromChecked_machine m.resumeAt budget (m := { m with resumeAt := none }) shows

end Panel

end Chifir
