import Chifir.Proofs.Assembly.Reading

/-!
# The language of sources

Which sources are accepted, said line by line and without the walks: `IsValid` are the rules for one
line. A line has to do with the others in two ways only: its label must be new, and its operands may
name the labels of all lines.

`IsWellFormed` are those of the rules that a walk from the first line on can judge.

1. `exists_count`, `exists_value`: which mnemonics take which number of operands, and which tokens
   have a value.
2. `Laid.isWellFormed`, `Laid.isValid`: what a walk gets through keeps to the rules that it judges
   by.
3. `isValid_of_assemble`, `blames_of_assemble`: what both walks get through keeps to all rules, and
   what one of them stops at does not.
4. `assemble_language`: the sources accepted are those whose lines keep to the rules; for any other
   source the error is that of a line which does not.
-/

namespace Chifir.Assembly

open Text

/-! ## The rules for a line -/

/-- A mnemonic, whatever its letter case, can have so many operands. -/
inductive Takes (mnemonic : String) (operands : Nat) : Prop
  | opcode (op : Opcode) (named : lowered mnemonic = op.name) (few : operands ≤ 3)
  | expansion (which : Macro) (named : lowered mnemonic = which.name) (all : operands = which.arity)
  | literal (fits : IsLiteral (lowered mnemonic).toList) (few : operands ≤ 3)

/-- A token can be an operand, given which names are labels. -/
inductive IsOperand (defined : String → Prop) (token : String) : Prop
  | label (known : defined token)
  | forward (digits : List Char) (slash : token.toList = '/' :: digits) (fits : IsLiteral digits)
  | backward (digits : List Char) (slash : token.toList = '/' :: '-' :: digits)
      (fits : IsLiteral digits)
  | literal (fits : IsLiteral token.toList)

/-- The `i`-th of some lines, counted from zero, is as it should be. -/
structure IsValid (lines : List String) (i : Nat) (line : String) : Prop where
  labelled : ∀ token rest, tokens line = token :: rest → IsMarked token → ∃ name, Defines line name
  fresh : ∀ name, Defines line name → ∀ earlier ∈ lines.take i, ¬ Defines earlier name
  operation : ∀ mnemonic operands, body line = mnemonic :: operands → Takes mnemonic operands.length
  operands : ∀ mnemonic operands, body line = mnemonic :: operands →
    ∀ token ∈ operands, IsOperand (fun name => ∃ line ∈ lines, Defines line name) token

/-- A token looks like an operand. It may still name a label that is missing, or denote too large a
number. -/
inductive HasForm (token : String) : Prop
  | name (good : isName token.toList = true)
  | forward (digits : List Char) (slash : token.toList = '/' :: digits) (hex : isHex digits = true)
  | backward (digits : List Char) (slash : token.toList = '/' :: '-' :: digits)
      (hex : isHex digits = true)
  | literal (hex : isHex token.toList = true)

/-- A line keeps to the rules that can be judged when only the lines before it are known. -/
structure IsWellFormed (earlier : List String) (line : String) : Prop where
  labelled : ∀ token rest, tokens line = token :: rest → IsMarked token → ∃ name, Defines line name
  fresh : ∀ name, Defines line name → ∀ line' ∈ earlier, ¬ Defines line' name
  operation : ∀ mnemonic operands, body line = mnemonic :: operands → Takes mnemonic operands.length
  operands : ∀ mnemonic operands, body line = mnemonic :: operands →
    ∀ token ∈ operands, HasForm token

/-! ## Mnemonics and operands -/

/-- The first walk counts the instructions of a mnemonic exactly if it `Takes` so many operands. -/
theorem exists_count {s : Statement} {mnemonic : String} :
    (∃ size, s.count mnemonic = .ok size) ↔ Takes mnemonic s.operands.length := by
  simp only [Statement.count_eq_ok]
  constructor
  · rintro ⟨size, operation, read, counted⟩
    rw [Operation.size_eq_ok] at counted
    cases operation with
    | instruction op => exact .opcode op (Operation.read?_instruction.1 read) counted.1
    | expansion which => exact .expansion which (Operation.read?_expansion.1 read) counted.1
    | literal digits =>
      obtain ⟨rfl, hex, _⟩ := Operation.read?_literal.1 read
      exact .literal ⟨hex, counted.2.1⟩ counted.1
  · rintro (⟨op, named, few⟩ | ⟨which, named, all⟩ | ⟨fits, few⟩)
    · exact ⟨1, _, Operation.read?_instruction.2 named, Operation.size_eq_ok.2 ⟨few, rfl⟩⟩
    · exact ⟨which.length, _, Operation.read?_expansion.2 named, Operation.size_eq_ok.2 ⟨all, rfl⟩⟩
    · by_cases code : ∃ op : Opcode, lowered mnemonic = op.name
      · obtain ⟨op, named⟩ := code
        exact ⟨1, _, Operation.read?_instruction.2 named, Operation.size_eq_ok.2 ⟨few, rfl⟩⟩
      · have read := Operation.read?_literal.2 ⟨rfl, fits.1, fun op named => code ⟨op, named⟩⟩
        exact ⟨1, _, read, Operation.size_eq_ok.2 ⟨few, fits.2, rfl⟩⟩

/-- A token has a value exactly if it `IsOperand`, given the labels that are bound. -/
theorem exists_value {symbols : Symbols} {k : Word} {token : String} :
    (∃ v, symbols.value k token = .ok v) ↔
      IsOperand (fun name => ∃ a, symbols.lookup name = some a) token := by
  simp only [value_eq_ok]
  constructor
  · rintro ⟨v, ⟨_, known⟩ | ⟨digits, _, slash, fits⟩ | ⟨digits, _, slash, fits⟩ | ⟨_, fits⟩⟩
    · exact .label ⟨v, known⟩
    · exact .forward digits slash fits
    · exact .backward digits slash fits
    · exact .literal fits
  · intro operand
    cases fresh : symbols.lookup token with
    | some a => exact ⟨a, .label a fresh⟩
    | none =>
      rcases operand with ⟨a, known⟩ | ⟨digits, slash, fits⟩ | ⟨digits, slash, fits⟩ | fits
      · rw [fresh] at known
        cases known
      · exact ⟨_, .forward digits fresh slash fits⟩
      · exact ⟨_, .backward digits fresh slash fits⟩
      · exact ⟨_, .literal fresh fits⟩

/-- The first walk looks at the form of operands only; it cannot know the labels yet. -/
theorem checkOperand_eq_ok {token : String} : checkOperand token = .ok () ↔ HasForm token := by
  unfold checkOperand
  constructor
  · intro passed
    split at passed <;> rename_i readable
    · obtain ⟨operand, read⟩ := Option.isSome_iff_exists.1 readable
      have text := Operand.of_read? read
      cases operand with
      | relative sign digits =>
        cases sign
        · exact .forward digits text.1 text.2
        · exact .backward digits text.1 text.2
      | literal digits =>
        obtain ⟨rfl, hex⟩ := text
        exact .literal hex
      | name => exact .name text
    · cases passed
  · intro form
    refine if_pos ?_
    cases form with
    | name good => exact Operand.isSome_read?_name good
    | forward digits slash hex => rw [slash, Operand.read?_forward hex]; rfl
    | backward digits slash hex => rw [slash, Operand.read?_backward hex]; rfl
    | literal hex => rw [Operand.read?_digits hex]; rfl

theorem IsOperand.hasForm {defined : String → Prop} {token : String}
    (operand : IsOperand defined token) (names : ∀ name, defined name → isName name.toList = true) :
    HasForm token := by
  cases operand with
  | label known => exact .name (names token known)
  | forward digits slash fits => exact .forward digits slash fits.1
  | backward digits slash fits => exact .backward digits slash fits.1
  | literal fits => exact .literal fits.1

theorem IsValid.isWellFormed {lines : List String} {i : Nat} {line : String}
    (valid : IsValid lines i line) :
    IsWellFormed (lines.take i) line := by
  refine ⟨valid.labelled, valid.fresh, valid.operation, fun mnemonic operands whole token mem => ?_⟩
  refine (valid.operands mnemonic operands whole token mem).hasForm ?_
  rintro name ⟨_, _, own⟩
  exact own.1

/-! ## Sources that both walks get through -/

section Laid
variable {symbols symbols' : Symbols} {pc pc' : Word} {number : Nat} {sources : List String}
  {lines : List Placed}

theorem Laid.resolvable_iff (laid : Laid [] pc number sources lines symbols' pc') {k : Word}
    {token : String} : (∃ v, symbols'.value k token = .ok v) ↔
      IsOperand (fun name => ∃ line ∈ sources, Defines line name) token := by
  have same : (fun name => ∃ a, symbols'.lookup name = some a) =
      fun name => ∃ line ∈ sources, Defines line name := funext fun _ => propext laid.bound_iff
  rw [exists_value, same]

/-- The second walk encodes a line exactly if all its operands have a value (`Symbols.value`). -/
theorem exists_encode {p : Placed} {before after : Symbols} {mnemonic : String}
    (laid : p.LaidAt before pc after) (named : p.statement.mnemonic = some mnemonic) :
    (∃ quads, p.encode symbols = .ok quads) ↔
      ∀ token ∈ p.statement.operands, ∃ v, symbols.value p.address token = .ok v := by
  rw [← exists_mapM]
  constructor
  · rintro ⟨quads, encoded⟩
    simp only [Placed.encode, named] at encoded
    obtain ⟨values, resolved, _⟩ := bind_eq_ok.1 encoded
    exact ⟨values, resolved⟩
  · rintro ⟨values, resolved⟩
    obtain ⟨quads, encoded, _⟩ := laid.encodes named resolved
    exact ⟨quads, encoded⟩

end Laid

section Laid
variable {symbols : Symbols} {pc pc' : Word} {number : Nat} {sources : List String}
    {lines : List Placed}

theorem Laid.isWellFormed (laid : Laid [] pc number sources lines symbols pc') {i : Nat}
    {line : String} (there : sources[i]? = some line) : IsWellFormed (sources.take i) line := by
  obtain ⟨p, found, parsed⟩ := laid.exists_line there
  obtain ⟨before, pc, after, earlier, here⟩ := laid.laidAt found
  have reads := Statement.reads_of_parse parsed
  refine ⟨reads.labelled, ?_, ?_, ?_⟩
  · intro name own line' mem other
    have fresh := Statement.fresh_of_bind here.binds ((reads.label name).2 own)
    obtain ⟨a, known⟩ := earlier.bound_iff.2 ⟨line', mem, other⟩
    rw [fresh] at known
    cases known
  · intro mnemonic operands whole
    obtain ⟨named, rfl⟩ := reads.named whole
    exact exists_count.1 ⟨_, (here.sized mnemonic named).2.1⟩
  · intro mnemonic operands whole token mem
    obtain ⟨named, rfl⟩ := reads.named whole
    exact checkOperand_eq_ok.1 ((here.sized mnemonic named).2.2 token mem)

/-- A line that `Placed.encode` encodes, with the labels that the first walk has bound, is as it
should be. -/
theorem Laid.isValid (laid : Laid [] pc number sources lines symbols pc') {i : Nat} {p : Placed}
    (found : lines[i]? = some p) (encoded : ∃ quads, p.encode symbols = .ok quads) {line : String}
    (there : sources[i]? = some line) : IsValid sources i line := by
  have formed := laid.isWellFormed there
  refine ⟨formed.labelled, formed.fresh, formed.operation, fun mnemonic operands whole token mem =>
    ?_⟩
  obtain ⟨line', there', parsed⟩ := laid.parsed found
  rw [there] at there'
  cases there'
  obtain ⟨before, pc, after, _, here⟩ := laid.laidAt found
  obtain ⟨named, rfl⟩ := (Statement.reads_of_parse parsed).named whole
  exact laid.resolvable_iff.1 ((exists_encode here named).1 encoded token mem)

end Laid

/-- The lines of an accepted source are as they should be: each of them `IsValid`. -/
theorem isValid_of_assemble {source : String} {words : List Word}
    (accepted : assemble source = .ok words) {i : Nat} {line : String}
    (there : (linesOf source)[i]? = some line) : IsValid (linesOf source) i line := by
  obtain ⟨laid, _, encoded, _⟩ := laid_of_assemble accepted
  obtain ⟨p, found, _⟩ := laid.exists_line there
  exact laid.isValid found ⟨_, encoded p (List.mem_of_getElem? found)⟩ there

/-! ## Sources that a walk stops in -/

/-- An error is that of the `i`-th of some lines, which is not as it should be. -/
structure SourceError.Blames (e : SourceError) (lines : List String) (i : Nat) : Prop where
  number : e.line = i + 1
  source : lines[i]? = some e.source
  invalid : ¬ IsValid lines i e.source

/-- An error is that of the first of some lines to break a rule. -/
def SourceError.NamesFirst (e : SourceError) (rule : Nat → String → Prop) (lines : List String) :
    Prop :=
  ∃ i, e.line = i + 1 ∧ lines[i]? = some e.source ∧ ¬ rule i e.source ∧
    ∀ j < i, ∀ line, lines[j]? = some line → rule j line

/-- What the first walk refuses about a statement that it could read. -/
inductive Statement.Refused (s : Statement) (symbols : Symbols) : Prop
  | bound (name : String) (a : Word) (labelled : s.label = some name)
      (known : symbols.lookup name = some a)
  | count (mnemonic : String) (named : s.mnemonic = some mnemonic)
      (fails : ¬ ∃ n, s.count mnemonic = .ok n)
  | operand (mnemonic token : String) (named : s.mnemonic = some mnemonic)
      (mem : token ∈ s.operands) (fails : checkOperand token ≠ .ok ())

theorem refused_of_place {s : Statement} {symbols : Symbols} {pc : Word} {e : SourceError}
    (h : (s.place symbols pc).error = some e) :
    e.line = s.number ∧ e.source = s.source ∧ s.Refused symbols := by
  unfold Statement.place at h
  cases binds : s.bind symbols pc with
  | error d =>
    simp only [binds] at h
    cases h
    obtain ⟨name, a, labelled, known⟩ := Statement.known_of_bind binds
    exact ⟨rfl, rfl, .bound name a labelled known⟩
  | ok bound =>
    simp only [binds] at h
    cases named : s.mnemonic with
    | none => simp [named] at h
    | some mnemonic =>
      simp only [named] at h
      cases counted : s.count mnemonic with
      | error d =>
        simp only [counted] at h
        cases h
        refine ⟨rfl, rfl, .count mnemonic named ?_⟩
        rintro ⟨n, other⟩
        rw [counted] at other
        cases other
      | ok size =>
        simp only [counted] at h
        cases checked : s.operands.forM checkOperand with
        | ok => simp [checked] at h
        | error d =>
          simp only [checked] at h
          cases h
          obtain ⟨token, mem, fails⟩ := exists_of_forM_error checked
          exact ⟨rfl, rfl, .operand mnemonic token named mem fails⟩

/-- A first walk that ends early has got through the lines before the one it ends at. -/
theorem stops_of_layoutFrom {symbols : Symbols} {pc : Word} {number : Nat} {sources : List String}
    {e : SourceError} (h : (layoutFrom symbols pc number sources).error = some e) :
    ∃ i lines before here, sources[i]? = some e.source ∧ e.line = number + i ∧
      Laid symbols pc number (sources.take i) lines before here ∧
      ((∃ d, Statement.parse (number + i) e.source = .error d) ∨
        ∃ s, Statement.parse (number + i) e.source = .ok s ∧ s.Refused before) := by
  induction sources generalizing symbols pc number with
  | nil => simp [layoutFrom] at h
  | cons source rest ih =>
    unfold layoutFrom at h
    cases parsed : Statement.parse number source with
    | error d =>
      simp only [parsed] at h
      cases h
      exact ⟨0, [], symbols, pc, rfl, rfl, .done symbols pc number, .inl ⟨d, parsed⟩⟩
    | ok s =>
      simp only [parsed] at h
      split at h <;> rename_i failed
      · obtain ⟨line, same, refused⟩ := refused_of_place h
        obtain ⟨numbered, rfl⟩ := Statement.line_of_parse parsed
        rw [← same] at parsed
        exact ⟨0, [], symbols, pc, by rw [same]; rfl, line.trans numbered, .done symbols pc number,
          .inr ⟨s, parsed, refused⟩⟩
      · have good : (s.place symbols pc).error = none := by simpa using failed
        obtain ⟨p, rfl, _, _, next, laid⟩ := place_of_no_error good
        rw [next] at h
        obtain ⟨i, lines, before, here, there, line, through, stop⟩ := ih h
        rw [Nat.add_right_comm, Nat.add_assoc] at line stop
        exact ⟨i + 1, p :: lines, before, here, there, line, .next parsed laid through, stop⟩

/-- The first walk ends at the first line that is not well-formed, and names it. -/
theorem first_of_layout {sources : List String} {e : SourceError}
    (h : (layout sources).error = some e) :
    e.NamesFirst (fun j => IsWellFormed (sources.take j)) sources := by
  obtain ⟨i, lines, before, here, there, line, earlier, stop⟩ := stops_of_layoutFrom h
  refine ⟨i, line.trans (Nat.add_comm 1 i), there, fun formed => ?_, fun j less line' there' => ?_⟩
  · -- each way for the walk to end at a line is a rule that the line breaks
    rcases stop with ⟨d, failed⟩ | ⟨s, parsed, refused⟩
    · rcases parse_cases (1 + i) e.source with
        ⟨s, parsed, _⟩ | ⟨_, token, rest, _, first, marked, none⟩
      · rw [failed] at parsed
        cases parsed
      · obtain ⟨name, own⟩ := formed.labelled token rest first marked
        exact none name own
    · have reads := Statement.reads_of_parse parsed
      cases refused with
      | bound name a labelled known =>
        obtain ⟨line', mem, other⟩ := earlier.bound_iff.1 ⟨a, known⟩
        exact formed.fresh name ((reads.label name).1 labelled) line' mem other
      | count mnemonic named fails =>
        exact fails (exists_count.2 (formed.operation mnemonic _ (reads.body_eq named)))
      | operand mnemonic token named mem fails =>
        exact fails
          (checkOperand_eq_ok.2 (formed.operands mnemonic _ (reads.body_eq named) token mem))
  · -- the lines further up are those that the walk has got through
    have kept : (sources.take i)[j]? = some line' := by rw [List.getElem?_take_of_lt less, there']
    have formed := earlier.isWellFormed kept
    rwa [List.take_take, Nat.min_eq_left (Nat.le_of_lt less)] at formed

theorem exists_of_emit_error {symbols : Symbols} {lines : List Placed} {e : SourceError}
    (h : (emit symbols lines).2 = some e) : ∃ (i : Nat) (p : Placed), lines[i]? = some p ∧
      (¬ ∃ quads, p.encode symbols = .ok quads) ∧ e.line = p.statement.number ∧
      e.source = p.statement.source ∧ ∀ j < i, ∀ q, lines[j]? = some q →
        ∃ quads, q.encode symbols = .ok quads := by
  induction lines with
  | nil => simp [emit] at h
  | cons p rest ih =>
    unfold emit at h
    cases encoded : p.encode symbols with
    | error d =>
      simp only [encoded] at h
      cases h
      refine ⟨0, p, rfl, ?_, rfl, rfl, fun j less => absurd less (Nat.not_lt_zero j)⟩
      rintro ⟨quads, other⟩
      rw [encoded] at other
      cases other
    | ok quads =>
      simp only [encoded] at h
      obtain ⟨i, q, found, fails, line, source, before⟩ := ih h
      refine ⟨i + 1, q, found, fails, line, source, fun j less r there => ?_⟩
      cases j with
      | zero =>
        cases there
        exact ⟨quads, encoded⟩
      | succ j => exact before j (Nat.lt_of_succ_lt_succ less) r there

/-- The second walk ends at the first line that is not as it should be. -/
theorem first_of_emit {sources : List String} {e : SourceError}
    (clean : (layout sources).error = none)
    (h : (emit (layout sources).symbols (layout sources).lines).2 = some e) :
    e.NamesFirst (IsValid sources) sources := by
  have laid := (laid_of_layoutFrom clean).1
  obtain ⟨i, p, found, fails, line, source, earlier⟩ := exists_of_emit_error h
  obtain ⟨line', there, parsed⟩ := laid.parsed found
  obtain ⟨before, pc, after, _, here⟩ := laid.laidAt found
  obtain ⟨numbered, rfl⟩ := Statement.line_of_parse parsed
  have reads := Statement.reads_of_parse parsed
  rw [← source] at there reads
  refine ⟨i, by rw [line, numbered, Nat.add_comm], there, fun valid => fails ?_,
    fun j less line' there' => ?_⟩
  · -- the symbols after the first walk are the labels of all lines, so that each operand of a
    -- valid line has a value
    cases named : p.statement.mnemonic with
    | none => exact ⟨[], by rw [Placed.encode, named]⟩
    | some mnemonic =>
      refine (exists_encode here named).2 fun token mem => laid.resolvable_iff.2 ?_
      exact valid.operands mnemonic _ (reads.body_eq named) token mem
  · obtain ⟨q, found', _⟩ := laid.exists_line there'
    exact laid.isValid found' (earlier j less q found') there'

/-- A rejected source has its error from the walk that stopped. The second one runs only if the
first one got through. -/
theorem walk_of_assemble {source : String} {e : SourceError} (h : assemble source = .error e) :
    let laid := layout (linesOf source)
    laid.error = some e ∨ laid.error = none ∧ (emit laid.symbols laid.lines).2 = some e := by
  unfold assemble Assembly.result Assembly.ofSource at h
  intro laid
  cases clean : laid.error with
  | some e' =>
    simp only [laid, clean] at h
    cases h
    exact .inl rfl
  | none =>
    cases failed : (emit laid.symbols laid.lines).2 with
    | some e' =>
      simp only [laid, clean, failed] at h
      cases h
      exact .inr ⟨rfl, rfl⟩
    | none => simp [laid, clean, failed] at h

theorem blames_of_assemble {source : String} {e : SourceError} (h : assemble source = .error e) :
    ∃ i, e.Blames (linesOf source) i := by
  rcases walk_of_assemble h with failed | ⟨clean, failed⟩
  · obtain ⟨i, line, there, unformed, _⟩ := first_of_layout failed
    exact ⟨i, line, there, mt IsValid.isWellFormed unformed⟩
  · obtain ⟨i, line, there, invalid, _⟩ := first_of_emit clean failed
    exact ⟨i, line, there, invalid⟩

/-- No macro is expanded with more or fewer operands than it takes. -/
theorem expands_of_layout {sources : List String} (clean : (layout sources).error = none)
    {p : Placed} (mem : p ∈ (layout sources).lines) {mnemonic : String} {which : Macro}
    (named : p.statement.mnemonic = some mnemonic)
    (read : Operation.read? mnemonic = some (.expansion which)) (k : Word) {values : List Word}
    (same : values.length = p.statement.operands.length) :
    ∃ quads, which.expand k values = .ok quads := by
  obtain ⟨i, found⟩ := List.mem_iff_getElem?.1 mem
  obtain ⟨before, pc, after, _, here⟩ := (laid_of_layoutFrom clean).1.laidAt found
  obtain ⟨operation, read', counted⟩ := Statement.count_eq_ok.1 (here.sized mnemonic named).2.1
  rw [read] at read'
  cases read'
  have all : values.length = which.arity := same.trans (Operation.size_eq_ok.1 counted).1
  obtain ⟨quads, expanded⟩ :=
    Option.isSome_iff_exists.1 ((which.isSome_instructions? k values).2 all)
  exact ⟨quads, by rw [Macro.expand, expanded]⟩

/-- The sources accepted are those whose lines are all as they should be. For any other source the
error is that of a line which is not, and nothing else can go wrong: the second walk expands macros
only where it can. -/
theorem assemble_language (source : String) :
    ((∃ words, assemble source = .ok words) ↔
        ∀ i line, (linesOf source)[i]? = some line → IsValid (linesOf source) i line) ∧
      (∀ e, assemble source = .error e → ∃ i, e.Blames (linesOf source) i) ∧
      ((layout (linesOf source)).error = none → ∀ p ∈ (layout (linesOf source)).lines,
        ∀ mnemonic which k values, p.statement.mnemonic = some mnemonic →
          Operation.read? mnemonic = some (.expansion which) →
          values.length = p.statement.operands.length →
            ∃ quads, which.expand k values = .ok quads) := by
  refine ⟨⟨?_, ?_⟩, fun e => blames_of_assemble, ?_⟩
  · rintro ⟨words, accepted⟩ i line there
    exact isValid_of_assemble accepted there
  · intro valid
    cases outcome : assemble source with
    | ok words => exact ⟨words, rfl⟩
    | error e =>
      obtain ⟨i, blames⟩ := blames_of_assemble outcome
      exact absurd (valid i e.source blames.source) blames.invalid
  · intro clean p mem mnemonic which k values named read same
    exact expands_of_layout clean mem named read k same

/-- The label is missing, and the second line is to blame. -/
theorem assemble_language_undefined :
    assemble "x: nop\njmp y" = .error ⟨2, "jmp y", .undefinedLabel "y"⟩ ∧
      SourceError.Blames ⟨2, "jmp y", .undefinedLabel "y"⟩ (linesOf "x: nop\njmp y") 1 := by
  have failed : assemble "x: nop\njmp y" = .error ⟨2, "jmp y", .undefinedLabel "y"⟩ := by
    decide +kernel
  obtain ⟨i, blames⟩ := (assemble_language "x: nop\njmp y").2.1 _ failed
  obtain rfl : i = 1 := by simpa using blames.number.symm
  exact ⟨failed, blames⟩

end Chifir.Assembly
