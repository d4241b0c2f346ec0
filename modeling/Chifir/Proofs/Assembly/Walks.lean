import Mathlib.Algebra.Order.Ring.Int
import Chifir.Assembly.Emission
import Chifir.Proofs.Except

/-!
# The two walks over a source

The first walk gives addresses, the second one instructions. `Laid` says what the first walk has
made of lines that it got through; `laid_of_assemble` says that the second walk keeps all of it and
fills in the instructions.

1. `Laid.split`: at each line, what comes before it, the line, and what comes after it.
2. `Laid.address_eq`, `Laid.pc_eq`: addresses are four times the instructions before them.
3. `Laid.lookup_of_label`, `Laid.label_of_lookup`: the labels are those of the lines, each with the
   address of the instruction that follows it.
4. `Placed.LaidAt.encodes`: the second walk gives as many instructions as the first has counted.
-/

namespace Chifir.Assembly

/-! ## The first walk -/

theorem Statement.line_of_parse {number : Nat} {source : String} {s : Statement}
    (h : Statement.parse number source = .ok s) : s.number = number ∧ s.source = source := by
  have kept (s : Statement) (tokens : List (List Char)) :
      (s.withTokens tokens).number = s.number ∧ (s.withTokens tokens).source = s.source := by
    cases tokens <;> exact ⟨rfl, rfl⟩
  simp only [parse] at h
  split at h
  · cases h
    exact ⟨rfl, rfl⟩
  · split at h
    · cases h
      exact kept _ _
    · split at h
      · cases h
        exact kept _ _
      · cases h

theorem Statement.count_eq_ok {s : Statement} {mnemonic : String} {size : Nat} :
    s.count mnemonic = .ok size ↔ ∃ operation, Operation.read? mnemonic = some operation ∧
      operation.size mnemonic s.operands.length = .ok size := by
  unfold Statement.count
  cases Operation.read? mnemonic with
  | none => simp
  | some operation => simp

def Placed.isInstruction (p : Placed) : Bool := p.statement.mnemonic.isSome

/-- What the first walk makes of a statement at `pc`, given the labels before it and after it. -/
structure Placed.LaidAt (p : Placed) (symbols : Symbols) (pc : Word) (bound : Symbols) : Prop where
  binds : p.statement.bind symbols pc = .ok bound
  bare : p.statement.mnemonic = none → p.size = 0
  sized : ∀ mnemonic, p.statement.mnemonic = some mnemonic → p.address = pc ∧
    p.statement.count mnemonic = .ok p.size ∧
      ∀ token ∈ p.statement.operands, checkOperand token = .ok ()

/-- The first walk gets through `sources`, of which the first has the given number and address, and
makes `lines` of them. -/
inductive Laid :
    Symbols → Word → Nat → List String → List Placed → Symbols → Word → Prop
  | done (symbols : Symbols) (pc : Word) (number : Nat) : Laid symbols pc number [] [] symbols pc
  | next {symbols bound symbols' : Symbols} {pc pc' : Word} {number : Nat} {source : String}
      {sources : List String} {p : Placed} {lines : List Placed}
      (parsed : Statement.parse number source = .ok p.statement)
      (first : p.LaidAt symbols pc bound)
      (others : Laid bound (pc + 4 * UInt32.ofNat p.size) (number + 1) sources lines symbols' pc') :
      Laid symbols pc number (source :: sources) (p :: lines) symbols' pc'

theorem place_of_no_error {s : Statement} {symbols : Symbols} {pc : Word}
    (h : (s.place symbols pc).error = none) :
    ∃ p : Placed, p.statement = s ∧ p.emitted = [] ∧ (s.place symbols pc).lines = [p] ∧
      (s.place symbols pc).pc = pc + 4 * UInt32.ofNat p.size ∧
      p.LaidAt symbols pc (s.place symbols pc).symbols := by
  unfold Statement.place at h ⊢
  cases binds : s.bind symbols pc with
  | error d => simp [binds] at h
  | ok bound =>
    simp only [binds] at h ⊢
    cases named : s.mnemonic with
    | none =>
      refine ⟨{ statement := s }, rfl, rfl, rfl, (UInt32.add_zero pc).symm, binds, fun _ => rfl, ?_⟩
      intro mnemonic other
      rw [named] at other
      cases other
    | some mnemonic =>
      simp only [named] at h ⊢
      cases counted : s.count mnemonic with
      | error d => simp [counted] at h
      | ok size =>
        simp only [counted] at h ⊢
        cases checked : s.operands.forM checkOperand with
        | error d => simp [checked] at h
        | ok =>
          refine ⟨{ statement := s, size, address := pc }, rfl, rfl, rfl, rfl, binds, ?_, ?_⟩
          · intro none
            rw [named] at none
            cases none
          · intro mnemonic' same
            rw [named] at same
            cases same
            exact ⟨rfl, counted, forM_eq_ok.1 checked⟩

/-- A first walk without an error gets through all lines, as `Laid` says it. -/
theorem laid_of_layoutFrom {symbols : Symbols} {pc : Word} {number : Nat} {sources : List String}
    (h : (layoutFrom symbols pc number sources).error = none) :
    Laid symbols pc number sources (layoutFrom symbols pc number sources).lines
        (layoutFrom symbols pc number sources).symbols (layoutFrom symbols pc number sources).pc ∧
      ∀ p ∈ (layoutFrom symbols pc number sources).lines, p.emitted = [] := by
  induction sources generalizing symbols pc number with
  | nil => exact ⟨.done symbols pc number, by simp [layoutFrom]⟩
  | cons source rest ih =>
    unfold layoutFrom at h ⊢
    cases parsed : Statement.parse number source with
    | error d => simp [parsed] at h
    | ok s =>
      simp only [parsed] at h ⊢
      split at h <;> rename_i failed
      · rw [h] at failed
        cases failed
      · have good : (s.place symbols pc).error = none := by simpa using failed
        obtain ⟨p, rfl, blank, lines, next, laid⟩ := place_of_no_error good
        rw [if_neg failed, lines, next]
        rw [next] at h
        obtain ⟨others, blanks⟩ := ih h
        exact ⟨.next parsed laid others, by simpa [blank] using blanks⟩

/-! ### Addresses -/

/-- The number of words that lines take, as the first walk has counted them. -/
def extent (lines : List Placed) : Nat := 4 * (lines.map (·.size)).sum

@[simp] theorem extent_cons (p : Placed) (lines : List Placed) :
    extent (p :: lines) = 4 * p.size + extent lines := by
  simp [extent, Nat.mul_add]

theorem extent_append (lines lines' : List Placed) :
    extent (lines ++ lines') = extent lines + extent lines' := by
  simp [extent, Nat.mul_add]

/-- The address of the first instruction of lines, or `pc` if they have none. -/
def nextAddress (pc : Word) (lines : List Placed) : Word :=
  match lines.find? (·.isInstruction) with
  | some p => p.address
  | none => pc

theorem skip_add (pc : Word) (n words : Nat) :
    pc + 4 * UInt32.ofNat n + UInt32.ofNat words = pc + UInt32.ofNat (4 * n + words) := by
  rw [UInt32.ofNat_add, UInt32.ofNat_mul, UInt32.add_assoc]
  rfl

section Laid
variable {symbols bound symbols' : Symbols} {pc pc' : Word} {number : Nat} {sources : List String}
  {lines : List Placed}

theorem Placed.LaidAt.bare_or_sized {p : Placed} (laid : p.LaidAt symbols pc bound) :
    (p.isInstruction = false ∧ p.size = 0) ∨ (p.isInstruction = true ∧ p.address = pc) := by
  unfold Placed.isInstruction
  cases named : p.statement.mnemonic with
  | none => exact .inl ⟨rfl, laid.bare named⟩
  | some mnemonic => exact .inr ⟨rfl, (laid.sized mnemonic named).1⟩

/-- The address counter ends behind all that was laid out, of which `extent` is the number of words.
-/
theorem Laid.pc_eq (laid : Laid symbols pc number sources lines symbols' pc') :
    pc' = pc + UInt32.ofNat (extent lines) := by
  induction laid with
  | done _ pc _ => exact (UInt32.add_zero pc).symm
  | next _ _ _ ih => rw [ih, skip_add, extent_cons]

/-- The next instruction is always at the address counter. -/
theorem Laid.nextAddress_eq (laid : Laid symbols pc number sources lines symbols' pc') :
    nextAddress pc' lines = pc := by
  induction laid with
  | done => rfl
  | @next _ _ _ pc _ _ _ _ q lines _ first others ih =>
    rcases first.bare_or_sized with ⟨bare, empty⟩ | ⟨instruction, here⟩
    · rw [empty] at ih
      rw [nextAddress, List.find?_cons_of_neg (by simp [bare])]
      exact ih.trans (UInt32.add_zero pc)
    · rw [nextAddress, List.find?_cons_of_pos (by simpa using instruction)]
      exact here

/-! ### Labels -/

/-- A statement without a label binds none; a label that is bound was not bound before. -/
theorem Statement.cases_of_bind {s : Statement} (h : s.bind symbols pc = .ok bound) :
    (s.label = none ∧ bound = symbols) ∨
      ∃ name, s.label = some name ∧ symbols.lookup name = none ∧ bound = (name, pc) :: symbols := by
  unfold bind at h
  split at h
  · next bare =>
    cases h
    exact .inl ⟨bare, rfl⟩
  · next name labelled =>
    split at h
    · cases h
    · next fresh =>
      cases h
      exact .inr ⟨name, labelled, fresh, rfl⟩

theorem Statement.lookup_of_bind {s : Statement} (h : s.bind symbols pc = .ok bound)
    (name : String) :
    bound.lookup name = if s.label = some name then some pc else symbols.lookup name := by
  rcases cases_of_bind h with ⟨bare, rfl⟩ | ⟨own, labelled, _, rfl⟩
  · simp [bare]
  · rw [labelled]
    by_cases same : own = name
    · subst same
      simp
    · rw [if_neg (by simpa using same), List.lookup_cons, beq_eq_false_iff_ne.2 (Ne.symm same)]

theorem Statement.fresh_of_bind {s : Statement} (h : s.bind symbols pc = .ok bound) {name : String}
    (labelled : s.label = some name) : symbols.lookup name = none := by
  rcases cases_of_bind h with ⟨bare, _⟩ | ⟨own, labelled', fresh, _⟩
  · rw [bare] at labelled
    cases labelled
  · rw [labelled'] at labelled
    exact Option.some.inj labelled ▸ fresh

theorem Statement.known_of_bind {s : Statement} {d : Defect} (h : s.bind symbols pc = .error d) :
    ∃ name a, s.label = some name ∧ symbols.lookup name = some a := by
  unfold bind at h
  split at h
  · cases h
  · rename_i name labelled
    split at h
    · rename_i a known
      exact ⟨name, a, labelled, known⟩
    · cases h

theorem Laid.keeps (laid : Laid symbols pc number sources lines symbols' pc') {name : String}
    {a : Word} (known : symbols.lookup name = some a) : symbols'.lookup name = some a := by
  induction laid with
  | done => exact known
  | next _ first _ ih =>
    refine ih ?_
    rw [Statement.lookup_of_bind first.binds]
    split <;> rename_i labelled
    · rw [Statement.fresh_of_bind first.binds labelled] at known
      cases known
    · exact known

/-- A label that was not bound before is the label of some line. -/
theorem Laid.label_of_lookup (laid : Laid symbols pc number sources lines symbols' pc')
    {name : String} {a : Word} (known : symbols'.lookup name = some a) :
    symbols.lookup name = some a ∨ ∃ (i : Nat) (p : Placed), lines[i]? = some p ∧
      p.statement.label = some name := by
  induction laid with
  | done => exact .inl known
  | @next _ _ _ _ _ _ _ _ q _ _ first _ ih =>
    rcases ih known with before | ⟨i, p, found, labelled⟩
    · rw [Statement.lookup_of_bind first.binds] at before
      split at before <;> rename_i labelled
      · exact .inr ⟨0, q, rfl, labelled⟩
      · exact .inl before
    · exact .inr ⟨i + 1, p, found, labelled⟩

/-! ### One line of many -/

theorem Laid.length_eq (laid : Laid symbols pc number sources lines symbols' pc') :
    lines.length = sources.length := by
  induction laid with
  | done => rfl
  | next _ _ _ ih => simp [ih]

/-- The walk at one of its lines: what comes before, the line, and what comes after. -/
theorem Laid.split (laid : Laid symbols pc number sources lines symbols' pc') {i : Nat} {p : Placed}
    (found : lines[i]? = some p) :
    ∃ source before here after, sources[i]? = some source ∧
      Laid symbols pc number (sources.take i) (lines.take i) before here ∧
      Statement.parse (number + i) source = .ok p.statement ∧ p.LaidAt before here after ∧
      Laid after (here + 4 * UInt32.ofNat p.size) (number + i + 1) (sources.drop (i + 1))
        (lines.drop (i + 1)) symbols' pc' := by
  induction laid generalizing i with
  | done => simp at found
  | @next symbols bound _ pc _ number source _ q _ parsed first others ih =>
    cases i with
    | zero =>
      obtain rfl : q = p := by simpa using found
      exact ⟨source, symbols, pc, bound, rfl, .done symbols pc number, parsed, first, others⟩
    | succ i =>
      obtain ⟨source', before, here, after, there, earlier, parsed', laidAt, later⟩ :=
        ih (by simpa using found)
      rw [Nat.add_right_comm number 1 i] at parsed' later
      exact ⟨source', before, here, after, there, .next parsed first earlier, parsed', laidAt,
        later⟩

/-- An instruction stands behind all that was laid out before it. -/
theorem Laid.address_eq (laid : Laid symbols pc number sources lines symbols' pc') {i : Nat}
    {p : Placed} (found : lines[i]? = some p) (instruction : p.isInstruction = true) :
    p.address = pc + UInt32.ofNat (extent (lines.take i)) := by
  obtain ⟨_, _, here, _, _, earlier, _, first, _⟩ := laid.split found
  rw [← earlier.pc_eq]
  rcases first.bare_or_sized with ⟨bare, _⟩ | ⟨_, there⟩
  · rw [bare] at instruction
    cases instruction
  · exact there

/-- The label of a line is bound to the address behind all that was laid out before it, which is
that of the first instruction in this line or behind it. -/
theorem Laid.lookup_of_label (laid : Laid symbols pc number sources lines symbols' pc') {i : Nat}
    {p : Placed} {name : String} (found : lines[i]? = some p)
    (labelled : p.statement.label = some name) :
    symbols'.lookup name = some (pc + UInt32.ofNat (extent (lines.take i))) ∧
      nextAddress pc' (lines.drop i) = pc + UInt32.ofNat (extent (lines.take i)) := by
  obtain ⟨_, _, here, after, _, earlier, parsed, first, later⟩ := laid.split found
  obtain ⟨inside, rfl⟩ := List.getElem?_eq_some_iff.1 found
  rw [← earlier.pc_eq, List.drop_eq_getElem_cons inside]
  refine ⟨later.keeps ?_, (Laid.next parsed first later).nextAddress_eq⟩
  rw [Statement.lookup_of_bind first.binds, if_pos labelled]

theorem Laid.parsed (laid : Laid symbols pc number sources lines symbols' pc') {i : Nat}
    {p : Placed} (found : lines[i]? = some p) :
    ∃ source, sources[i]? = some source ∧
      Statement.parse (number + i) source = .ok p.statement := by
  obtain ⟨source, _, _, _, there, _, parsed, _⟩ := laid.split found
  exact ⟨source, there, parsed⟩

theorem Laid.exists_line (laid : Laid symbols pc number sources lines symbols' pc') {i : Nat}
    {source : String} (there : sources[i]? = some source) :
    ∃ p, lines[i]? = some p ∧ Statement.parse (number + i) source = .ok p.statement := by
  obtain ⟨inside, _⟩ := List.getElem?_eq_some_iff.1 there
  rw [← laid.length_eq] at inside
  have found := List.getElem?_eq_getElem inside
  obtain ⟨source', there', parsed⟩ := laid.parsed found
  rw [there] at there'
  cases there'
  exact ⟨lines[i], found, parsed⟩

/-- Where a line was laid out, and with which labels bound before it. -/
theorem Laid.laidAt (laid : Laid symbols pc number sources lines symbols' pc') {i : Nat}
    {p : Placed} (found : lines[i]? = some p) :
    ∃ before here after, Laid symbols pc number (sources.take i) (lines.take i) before here ∧
      p.LaidAt before here after := by
  obtain ⟨_, before, here, after, _, earlier, _, first, _⟩ := laid.split found
  exact ⟨before, here, after, earlier, first⟩

/-! ## The second walk -/

/-- A line as the first walk leaves it, without instructions. -/
def Placed.unfilled (p : Placed) : Placed := { p with emitted := [] }

/-- Filling in instructions leaves the layout as it is, so `Laid` holds of the lines that the second
walk gives too. -/
theorem Laid.fill
    (laid : Laid symbols pc number sources (lines.map Placed.unfilled) symbols' pc') :
    Laid symbols pc number sources lines symbols' pc' := by
  induction lines generalizing symbols pc number sources with
  | nil => exact laid
  | cons p lines ih =>
    cases laid with
    | next parsed first others =>
      exact .next parsed ⟨first.binds, first.bare, first.sized⟩ (ih others)

end Laid

/-- A line whose operands all have a value is encoded, to as many instructions as were counted. -/
theorem Placed.LaidAt.encodes {p : Placed} {before after symbols : Symbols} {pc : Word}
    {mnemonic : String} {values : List Word} (laid : p.LaidAt before pc after)
    (named : p.statement.mnemonic = some mnemonic)
    (resolved : p.statement.operands.mapM (symbols.value p.address) = .ok values) :
    ∃ quads, p.encode symbols = .ok quads ∧ quads.length = p.size := by
  obtain ⟨operation, read, counted⟩ := Statement.count_eq_ok.1 (laid.sized mnemonic named).2.1
  rw [(forall₂_of_mapM resolved).length_eq] at counted
  obtain ⟨quads, encoded, length⟩ := Operation.length_encode (k := p.address) counted
  refine ⟨quads, ?_, length⟩
  simp only [Placed.encode, named, resolved, read]
  exact encoded

/-- A second walk without an error encodes every line and changes nothing else. -/
theorem encoded_of_emit {symbols : Symbols} {lines : List Placed}
    (h : (emit symbols lines).2 = none) :
    (emit symbols lines).1.map Placed.unfilled = lines.map Placed.unfilled ∧
      ∀ p ∈ (emit symbols lines).1, p.encode symbols = .ok p.emitted := by
  induction lines with
  | nil => exact ⟨rfl, by simp [emit]⟩
  | cons p rest ih =>
    unfold emit at h ⊢
    cases encoded : p.encode symbols with
    | error d => simp [encoded] at h
    | ok emitted =>
      simp only [encoded] at h ⊢
      obtain ⟨same, all⟩ := ih h
      exact ⟨by rw [List.map_cons, List.map_cons, same]; rfl, List.forall_mem_cons.2 ⟨encoded, all⟩⟩

theorem no_error_of_assemble {source : String} {words : List Word}
    (h : assemble source = .ok words) :
    let laid := layout (Text.linesOf source)
    laid.error = none ∧ (emit laid.symbols laid.lines).2 = none := by
  unfold assemble Assembly.result Assembly.ofSource at h
  intro laid
  cases clean : laid.error with
  | some e => simp [laid, clean] at h
  | none =>
    cases failed : (emit laid.symbols laid.lines).2 with
    | some e => simp [laid, clean, failed] at h
    | none => exact ⟨rfl, rfl⟩

theorem words_of_assemble {source : String} {words : List Word} (h : assemble source = .ok words) :
    (Assembly.ofSource source).words = words := by
  unfold assemble Assembly.result at h
  split at h <;> cases h
  rfl

/-- What the walks have made of a source that they both got through: `Laid` and encoded lines. -/
theorem laid_of_assemble {source : String} {words : List Word} (h : assemble source = .ok words) :
    let a := Assembly.ofSource source
    Laid [] 0 1 (Text.linesOf source) a.lines a.symbols a.pc ∧
      (layout (Text.linesOf source)).lines = a.lines.map Placed.unfilled ∧
      (∀ p ∈ a.lines, p.encode a.symbols = .ok p.emitted) ∧ words = Assembly.imageOf a.lines := by
  obtain ⟨clean, through⟩ := no_error_of_assemble h
  obtain ⟨laid, blank⟩ := laid_of_layoutFrom clean
  obtain ⟨same, encoded⟩ := encoded_of_emit through
  have made : Assembly.ofSource source =
      let laid := layout (Text.linesOf source)
      let lines := (emit laid.symbols laid.lines).1
      ⟨lines, laid.symbols, laid.pc, Assembly.imageOf lines, none⟩ := by
    unfold Assembly.ofSource
    simp only [clean, through]
  have unfilled : (layout (Text.linesOf source)).lines.map Placed.unfilled =
      (layout (Text.linesOf source)).lines := by
    conv_rhs => rw [← List.map_id (layout (Text.linesOf source)).lines]
    refine List.map_congr_left fun p hp => ?_
    show { p with emitted := [] } = p
    rw [← blank p hp]
  rw [assemble, made] at h
  rw [made]
  refine ⟨Laid.fill ?_, (same.trans unfilled).symm, encoded, ?_⟩
  · rw [same, unfilled]
    exact laid
  · cases h
    rfl

end Chifir.Assembly
