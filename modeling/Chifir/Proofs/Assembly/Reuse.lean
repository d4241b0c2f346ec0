import Chifir.Assembly.Assembler
import Chifir.Proofs.Assembly.Packing

/-!
# One assembler for many sources

An assembler changes what it keeps from before while it walks over a source, in the order of its
work, and an error stops it in the middle.

1. `layFrom_eq`: what the first walk adds to an assembler is the layout of its lines.
2. `encodeFrom_eq`: the second walk encodes the lines as `emit` does, and puts the image together on
   the way.
3. `assemble_eq`: so an assembler comes to what the source alone comes to, whatever it has kept.
4. `nothing_carried_over`: the same for an assembler that any sources were assembled with before,
   and what an error leaves.
-/

namespace Chifir

open Assembly

namespace Assembler

/-! ## Steps -/

section
variable {α β : Type} {s : Statement} {a : Assembler}

@[simp] theorem modify_bind (change : Assembler → Assembler) (next : Unit → Job β) :
    (modify change >>= next) a = next () (change a) := rfl

@[simp] theorem get_bind (next : Assembler → Job β) : (get >>= next) a = next a a := rfl

@[simp] theorem settle_ok_bind (x : α) (next : α → Job β) :
    (settle s (.ok x) >>= next) a = next x a := rfl

@[simp] theorem settle_error_bind (d : Defect) (next : α → Job β) :
    (settle s (.error d) >>= next) a = .error (s.fail d) a := rfl

end

variable {α : Type}

def ending (error : Option SourceError) (x : α) (a : Assembler) :
    EStateM.Result SourceError Assembler α :=
  match error with
  | none => .ok x a
  | some e => .error e a

theorem answer_ending (error : Option SourceError) (x : α) (a : Assembler) :
    answer (ending error x a) = match error with | none => .ok x | some e => .error e := by
  cases error <;> rfl

theorem kept_ending (error : Option SourceError) (x : α) (a : Assembler) :
    kept (ending error x a) = a := by
  cases error <;> rfl

/-! ## The first walk -/

def laid (a : Assembler) (others : Layout) : Assembler :=
  { a with symbols := others.symbols, pc := others.pc, lines := a.lines ++ others.lines }

theorem lay_eq (s : Statement) (a : Assembler) :
    lay s a = ending (s.place a.symbols a.pc).error () (a.laid (s.place a.symbols a.pc)) := by
  simp only [lay, modify_bind, get_bind, Statement.place]
  cases s.bind a.symbols a.pc with
  | error d => rfl
  | ok symbols =>
    simp only [settle_ok_bind, modify_bind]
    cases s.mnemonic with
    | none => rfl
    | some mnemonic =>
      simp only
      cases s.count mnemonic with
      | error d => rfl
      | ok size =>
        -- the line is the newest one still, and now has its size
        simp only [settle_ok_bind, modify_bind, revise, List.modifyLast_concat]
        cases s.operands.forM checkOperand with
        | error d => rfl
        | ok =>
          simp only [settle_ok_bind, modify_bind, List.modifyLast_concat]
          rfl

theorem layFrom_eq (number : Nat) (sources : List String) (a : Assembler) :
    layFrom number sources a = ending (layoutFrom a.symbols a.pc number sources).error ()
      (a.laid (layoutFrom a.symbols a.pc number sources)) := by
  induction sources generalizing number a with
  | nil => exact congrArg (EStateM.Result.ok ()) (by rw [layoutFrom, laid, List.append_nil])
  | cons source rest ih =>
    rw [layFrom, layoutFrom]
    cases Statement.parse number source with
    | error d => exact congrArg (EStateM.Result.error _) (by rw [laid, List.append_nil])
    | ok s =>
      have first := lay_eq s a
      dsimp only
      cases failed : (s.place a.symbols a.pc).error with
      | some e =>
        rw [failed] at first
        simp only [Option.isSome_some, if_true, failed]
        exact bind_of_error first
      | none =>
        rw [failed] at first
        simp only [Option.isSome_none, Bool.false_eq_true, if_false]
        refine (bind_of_ok first).trans ?_
        rw [ih]
        simp only [laid, List.append_assoc]

/-! ## The second walk -/

/-- The walk over the lines behind `before`; these are encoded, and `image` is theirs. -/
theorem encodeFrom_eq {a : Assembler} (before : List Placed) {lines : List Placed}
    (image : List Word) (held : a.lines = before ++ lines) (blank : ∀ p ∈ lines, p.emitted = []) :
    encodeFrom before.length image lines a = ending (emit a.symbols lines).2
      (image ++ imageOf (emit a.symbols lines).1)
      { a with lines := before ++ (emit a.symbols lines).1 } := by
  induction lines generalizing a before image with
  | nil =>
    rw [encodeFrom, emit, imageOf, List.flatMap_nil, List.append_nil, ← held]
    rfl
  | cons p rest ih =>
    obtain ⟨empty, blank⟩ := List.forall_mem_cons.1 blank
    have next (q : Placed) : (before ++ [q]).length = before.length + 1 := List.length_append
    rw [encodeFrom, emit]
    cases named : p.statement.mnemonic with
    | none =>
      have nothing : p.encode a.symbols = .ok [] := by rw [Placed.encode, named]
      have same : ({ p with emitted := [] } : Placed) = p := by rw [← empty]
      simp only [nothing, same]
      rw [← next p, ih (before ++ [p]) image (by rw [held, List.append_cons]) blank]
      simp only [imageOf, List.flatMap_cons, empty, List.flatMap_nil, List.nil_append,
        List.append_assoc, List.cons_append]
    | some mnemonic =>
      cases encoded : p.encode a.symbols with
      | error d =>
        simp only [get_bind, encoded, settle_error_bind, ← held]
        rfl
      | ok emitted =>
        have filled : a.lines.set before.length { p with emitted } =
            (before ++ [{ p with emitted }]) ++ rest := by
          rw [held, List.set_append_right _ _ (le_refl _), Nat.sub_self, List.set_cons_zero,
            List.append_cons]
        simp only [get_bind, encoded, settle_ok_bind, modify_bind]
        rw [← next { p with emitted }, ih _ _ filled blank]
        simp only [imageOf, List.flatMap_cons, List.append_assoc, List.cons_append, List.nil_append]

/-! ## Both walks -/

/-- An assembler that has come to the lines, labels, address and image of this `Assembly`. -/
def holding (program : Assembly) : Assembler :=
  { symbols := program.symbols, pc := program.pc, words := program.words, lines := program.lines }

theorem assemble_eq (source : String) (a : Assembler) :
    assemble source a = ending (Assembly.ofSource source).error (Assembly.ofSource source).words
      (holding (Assembly.ofSource source)) := by
  generalize whole : Assembly.ofSource source = program
  simp only [Assembly.ofSource, layout] at whole
  -- the walks begin with nothing, whatever `a` has
  simp only [assemble, modify_bind]
  have first := layFrom_eq 1 (Text.linesOf source) {}
  simp only [laid, List.nil_append] at first
  generalize found : layoutFrom [] 0 1 (Text.linesOf source) = reached at first whole
  cases failed : reached.error with
  | some e =>
    rw [failed] at first whole
    subst whole
    exact bind_of_error first
  | none =>
    have blank : ∀ p ∈ reached.lines, p.emitted = [] :=
      found ▸ (laid_of_layoutFrom (found ▸ failed)).2
    have second :=
      encodeFrom_eq (a := { symbols := reached.symbols, pc := reached.pc, lines := reached.lines })
      [] [] rfl blank
    simp only [List.nil_append] at second
    rw [failed] at first whole
    refine (bind_of_ok first).trans ?_
    rw [get_bind]
    cases refused : (emit reached.symbols reached.lines).2 with
    | some e =>
      rw [refused] at second
      simp only [refused] at whole
      subst whole
      exact bind_of_error second
    | none =>
      rw [refused] at second
      simp only [refused] at whole
      subst whole
      exact bind_of_ok second

theorem load_of_empty {a : Assembler} (empty : a.words = []) (memory : Memory) (base : Int) :
    a.load memory base = (memory, none) := by
  rw [load, reached, Assembly.load, empty]
  rfl

end Assembler

open Assembler

/-- After any sources, each of them accepted or rejected in either walk, an assembler gives or
raises for a source what a new one does, and keeps the same. After an error there is no image, so
nothing is loaded. -/
theorem nothing_carried_over (earlier : List String) (source : String) :
    let program : Assembly := Assembly.ofSource source
    let outcome := Assembler.assemble source (usedFor earlier)
    outcome = Assembler.assemble source {} ∧ answer outcome = Chifir.assemble source ∧
      (kept outcome).reached = { program with error := none } ∧
        (kept outcome).listing = program.listing ∧
      (kept outcome).bytes = Image.encode program.words ∧
      ∀ e, answer outcome = .error e → (kept outcome).words = [] ∧ (kept outcome).bytes = [] ∧
        ∀ memory base, (kept outcome).load memory base = (memory, none) := by
  intro program outcome
  have ends : outcome = ending program.error program.words (holding program) := assemble_eq source _
  have answered : answer outcome = Chifir.assemble source := by
    rw [ends, answer_ending, Chifir.assemble, Assembly.result]
    cases program.error <;> rfl
  have holds : kept outcome = holding program := by rw [ends, kept_ending]
  rw [holds]
  refine ⟨ends.trans (assemble_eq source {}).symm, answered, rfl, rfl, rfl, ?_⟩
  intro e rejected
  have empty : program.words = [] := words_of_rejected (answered.symm.trans rejected)
  exact ⟨empty, congrArg Image.encode empty, load_of_empty empty⟩

/-- A source that is rejected in the second walk, after one that was accepted and one that was
rejected in the first. -/
theorem nothing_carried_over_rejected :
    let accepted := "here: jmp here"
    let doubled := "there: nop\nthere: nop"
    let a := kept (Assembler.assemble "nop\nadd nowhere" (usedFor [accepted, doubled]))
    (usedFor [accepted]).words = [1, 3, 0, 0] ∧
      (usedFor [accepted, doubled]).symbols = [("there", 0)] ∧
        answer (Assembler.assemble "nop\nadd nowhere" (usedFor [accepted, doubled])) =
          .error ⟨2, "add nowhere", .undefinedLabel "nowhere"⟩ ∧
      a.symbols = [] ∧ a.lines.length = 2 ∧ a.bytes = [] ∧
        ∀ memory base, a.load memory base = (memory, none) := by
  intro accepted doubled a
  have undefined : assemble "nop\nadd nowhere" =
      .error ⟨2, "add nowhere", .undefinedLabel "nowhere"⟩ := by
    decide +kernel
  obtain ⟨_, answered, reached, _, _, empties⟩ :=
    nothing_carried_over [accepted, doubled] "nop\nadd nowhere"
  have rejected := answered.trans undefined
  obtain ⟨_, bytes, loads⟩ := empties _ rejected
  have symbols : a.symbols = [] := (congrArg Assembly.symbols reached).trans (by decide +kernel)
  have length : a.lines.length = 2 :=
    (congrArg (List.length ∘ Assembly.lines) reached).trans (by decide +kernel)
  exact ⟨by decide +kernel, by decide +kernel, rejected, symbols, length, bytes, loads⟩

end Chifir
