import Chifir.Proofs.Assembly.Language
import Chifir.Proofs.Quads
import Chifir.Proofs.Text.Digits

/-!
# Spelled instructions

A line `Spells` instructions if it has no label and names none: it then has those instructions
wherever it stands, and so have lines of this kind together (`assemble_of_spells`). This is how
programs are printed, for example in rows of four words (`spells_row`), and it is why what was
printed can be assembled (`assemble_imageRows`).
-/

namespace Chifir.Assembly

open Text

inductive Begins (mnemonic : String) : Word → Prop
  | opcode (op : Opcode) (named : lowered mnemonic = op.name) : Begins mnemonic op.word
  | digits (fits : IsLiteral (lowered mnemonic).toList)
      (plain : ∀ op : Opcode, lowered mnemonic ≠ op.name) :
      Begins mnemonic (UInt32.ofNat (hexToNat (lowered mnemonic).toList))

/-- The word that a token of digits denotes. -/
def wordOf (token : String) : Word := UInt32.ofNat (hexToNat token.toList)

/-- A line has these instructions wherever it stands. -/
inductive Spells (line : String) : List (Quad Word) → Prop
  | blank (empty : tokens line = []) : Spells line []
  | row {mnemonic : String} {operands : List String} {first : Word}
      (split : tokens line = mnemonic :: operands) (bare : ¬ IsMarked mnemonic)
      (begins : Begins mnemonic first) (few : operands.length ≤ 3)
      (literal : ∀ token ∈ operands, IsLiteral token.toList) :
      Spells line [Operation.quad first (operands.map wordOf)]

section Spells
variable {line : String} {quads : List (Quad Word)}

theorem Begins.takes {mnemonic : String} {first : Word} (begins : Begins mnemonic first)
    {operands : Nat} (few : operands ≤ 3) : Takes mnemonic operands := by
  cases begins with
  | opcode op named => exact .opcode op named few
  | digits fits _ => exact .literal fits few

theorem Begins.encodes {mnemonic : String} {first : Word} (begins : Begins mnemonic first) :
    ∃ operation, Operation.read? mnemonic = some operation ∧
      ∀ k values, operation.encode k values = .ok [Operation.quad first values] := by
  cases begins with
  | opcode op named => exact ⟨.instruction op, Operation.read?_instruction.2 named, fun _ _ => rfl⟩
  | digits fits plain =>
    refine ⟨.literal _, Operation.read?_literal.2 ⟨rfl, fits.1, plain⟩, fun _ _ => ?_⟩
    rw [Operation.encode, literalWord_eq_ok.2 ⟨fits.2, rfl⟩]
    rfl

theorem Spells.not_defines (spells : Spells line quads) (name : String) : ¬ Defines line name := by
  rintro ⟨_, rest, first⟩
  cases spells with
  | blank empty =>
    rw [empty] at first
    cases first
  | row split bare =>
    rw [split] at first
    cases first
    refine bare (?_ : (name ++ ":").toList.getLast? = some ':')
    rw [String.toList_append]
    exact List.getLast?_concat

theorem Spells.body_eq (spells : Spells line quads) : body line = tokens line := by
  cases spells with
  | blank empty => rw [body, empty]
  | row split bare =>
    rw [body, split]
    exact if_neg bare

theorem Spells.nil_of_body (spells : Spells line quads) (empty : body line = []) : quads = [] := by
  rw [spells.body_eq] at empty
  cases spells with
  | blank => rfl
  | row split =>
    rw [split] at empty
    cases empty

theorem Spells.row_of_body (spells : Spells line quads) {mnemonic : String} {operands : List String}
    (whole : body line = mnemonic :: operands) :
    ∃ first, Begins mnemonic first ∧ operands.length ≤ 3 ∧
      (∀ token ∈ operands, IsLiteral token.toList) ∧
      quads = [Operation.quad first (operands.map wordOf)] := by
  rw [spells.body_eq] at whole
  cases spells with
  | blank empty =>
    rw [empty] at whole
    cases whole
  | row split _ begins few literal =>
    rw [split] at whole
    cases whole
    exact ⟨_, begins, few, literal, rfl⟩

/-- A line that `Spells` its instructions keeps to all rules, wherever it stands. -/
theorem Spells.isValid (spells : Spells line quads) (lines : List String) (i : Nat) :
    IsValid lines i line := by
  refine ⟨?labelled, ?fresh, ?operation, ?operands⟩
  case labelled =>
    intro token rest first marked
    cases spells with
    | blank empty =>
      rw [empty] at first
      cases first
    | row split bare =>
      rw [split] at first
      cases first
      exact absurd marked bare
  case fresh => exact fun name own => absurd own (spells.not_defines name)
  case operation =>
    intro mnemonic operands whole
    obtain ⟨_, begins, few, _⟩ := spells.row_of_body whole
    exact begins.takes few
  case operands =>
    intro mnemonic operands whole token mem
    obtain ⟨_, _, _, literal, _⟩ := spells.row_of_body whole
    exact .literal (literal token mem)

/-- The second walk gives the instructions that a line `Spells`. -/
theorem Spells.encode_eq (spells : Spells line quads) {p : Placed} {symbols : Symbols}
    (reads : p.statement.Reads line) (unbound : ∀ token, symbols.lookup token = none) :
    p.encode symbols = .ok quads := by
  cases whole : body line with
  | nil =>
    have none : p.statement.mnemonic = none := by rw [reads.mnemonic, whole, List.head?_nil]
    rw [Placed.encode, none, spells.nil_of_body whole]
  | cons mnemonic operands =>
    obtain ⟨first, begins, _, literal, rfl⟩ := spells.row_of_body whole
    obtain ⟨operation, read, encodes⟩ := begins.encodes
    obtain ⟨named, tokens⟩ := reads.named whole
    have resolved : operands.mapM (symbols.value p.address) = .ok (operands.map wordOf) :=
      mapM_eq_ok_map fun token mem => value_eq_ok.2 (.literal (unbound token) (literal token mem))
    rw [Placed.encode, named, tokens]
    simp only [resolved, read, encodes, ok_bind]

end Spells

/-! ## Sources -/

theorem Laid.emitted_eq_of_spells {symbols bound known : Symbols} {pc pc' : Word} {number : Nat}
    {sources : List String} {lines : List Placed} {quadss : List (List (Quad Word))}
    (laid : Laid symbols pc number sources lines bound pc')
    (encoded : ∀ p ∈ lines, p.encode known = .ok p.emitted)
    (unbound : ∀ token, known.lookup token = none) (spells : List.Forall₂ Spells sources quadss) :
    lines.map (·.emitted) = quadss := by
  induction laid generalizing quadss with
  | done =>
    cases spells
    rfl
  | next parsed _ _ ih =>
    cases spells with
    | cons first others =>
      obtain ⟨own, rest⟩ := List.forall_mem_cons.1 encoded
      rw [first.encode_eq (Statement.reads_of_parse parsed) unbound, Except.ok.injEq] at own
      rw [List.map_cons, ← own, ih rest others]

/-- Lines that each spell their instructions together are a program of those instructions. -/
theorem assemble_of_spells {source : String} {quadss : List (List (Quad Word))}
    (spells : List.Forall₂ Spells (linesOf source) quadss) :
    assemble source = .ok (quadss.flatten.flatMap Quad.toList) := by
  have each : ∀ (i : Nat) (line : String), (linesOf source)[i]? = some line →
      ∃ quads, Spells line quads := by
    intro i line there
    obtain ⟨inside, rfl⟩ := List.getElem?_eq_some_iff.1 there
    exact ⟨_, spells.get inside (spells.length_eq ▸ inside)⟩
  cases outcome : assemble source with
  | error e =>
    obtain ⟨i, blames⟩ := blames_of_assemble outcome
    obtain ⟨quads, own⟩ := each i e.source blames.source
    exact absurd (own.isValid _ i) blames.invalid
  | ok words =>
    obtain ⟨laid, _, encoded, image⟩ := laid_of_assemble outcome
    have unbound : ∀ token, (Assembly.ofSource source).symbols.lookup token = none := by
      intro token
      refine Option.eq_none_iff_forall_ne_some.2 fun a known => ?_
      obtain ⟨line, mem, own⟩ := laid.bound_iff.1 ⟨a, known⟩
      obtain ⟨i, there⟩ := List.mem_iff_getElem?.1 mem
      obtain ⟨quads, spelled⟩ := each i line there
      exact spelled.not_defines token own
    rw [image, ← laid.emitted_eq_of_spells encoded unbound spells, Assembly.imageOf,
      List.flatten_eq_flatMap, List.flatMap_map, List.flatMap_assoc]
    rfl

theorem assemble_joinLines {rows : List String} {quadss : List (List (Quad Word))}
    (inside : ∀ row ∈ rows, IsRow row.toList) (spells : List.Forall₂ Spells rows quadss) :
    assemble (joinLines rows) = .ok (quadss.flatten.flatMap Quad.toList) ∧
      assemble (joinLines rows ++ "\n") = .ok (quadss.flatten.flatMap Quad.toList) := by
  have blank : Spells "" [] := .blank (by decide +kernel)
  -- no rows are one empty line
  obtain ⟨quadss', lines, same⟩ : ∃ quadss',
      List.Forall₂ Spells (linesOf (joinLines rows)) quadss' ∧
      quadss'.flatten = quadss.flatten := by
    cases rows with
    | nil =>
      cases spells
      exact ⟨[[]], .cons blank .nil, rfl⟩
    | cons row rows =>
      rw [linesOf_joinLines (List.cons_ne_nil row rows) inside]
      exact ⟨quadss, spells, rfl⟩
  refine ⟨by rw [assemble_of_spells lines, same], ?_⟩
  have last : List.Forall₂ Spells (linesOf (joinLines rows ++ "\n")) (quadss' ++ [[]]) := by
    rw [linesOf_append_lineFeed (not_mem_joinLines inside)]
    exact List.rel_append lines (.cons blank .nil)
  rw [assemble_of_spells last, List.flatten_append, same]
  simp

/-- Rows that each spell one instruction are a program, also if a line feed ends the last row. -/
theorem assemble_rows {row : Quad Word → String} {meaning : Quad Word → Quad Word}
    (quads : List (Quad Word)) (each : ∀ q, IsRow (row q).toList ∧ Spells (row q) [meaning q]) :
    assemble (joinLines (quads.map row)) = .ok ((quads.map meaning).flatMap Quad.toList) ∧
      assemble (joinLines (quads.map row) ++ "\n") =
        .ok ((quads.map meaning).flatMap Quad.toList) := by
  have spells : List.Forall₂ Spells (quads.map row) (quads.map fun q => [meaning q]) := by
    rw [List.forall₂_map_left_iff, List.forall₂_map_right_iff, List.forall₂_same]
    exact fun q _ => (each q).2
  have inside : ∀ r ∈ quads.map row, IsRow r.toList := by
    rw [List.forall_mem_map]
    exact fun q _ => (each q).1
  have meant : (quads.map fun q => [meaning q]).flatten = quads.map meaning := by
    rw [← List.flatMap_def, List.map_eq_flatMap]
  rw [← meant]
  exact assemble_joinLines inside spells

/-! ## Printed words -/

structure IsPrinted (text : String) (w : Word) : Prop where
  digits : IsDigits text.toList
  value : hexToNat text.toList = w.toNat

theorem minus_toInt (w : Word) : minus (Word.toInt w) = [] := by
  have natural : ¬ Word.toInt w < 0 := by simp [Word.toInt]
  exact if_neg natural

theorem isPrinted_hex (w : Word) : IsPrinted (hex (Word.toInt w)) w := by
  have text : (hex (Word.toInt w)).toList = hexDigits w.toNat := by
    rw [hex, String.toList_ofList, minus_toInt]
    rfl
  exact ⟨text ▸ isDigits_hexDigits _, text ▸ hexToNat_hexDigits _⟩

theorem toList_hex8Lower (w : Word) :
    (hex8Lower (Word.toInt w)).toList = padLeft '0' 8 (hexDigits w.toNat) := by
  rw [hex8Lower, String.toList_ofList, minus_toInt]
  rfl

theorem isPrinted_hex8Lower (w : Word) : IsPrinted (hex8Lower (Word.toInt w)) w := by
  refine ⟨?_, ?_⟩ <;> rw [toList_hex8Lower]
  · exact (isDigits_hexDigits _).padLeft 8
  · rw [hexToNat_padLeft, hexToNat_hexDigits]

/-- A text that is one token, and not a label. -/
def IsToken (text : String) : Prop := IsSolid text.toList ∧ ';' ∉ text.toList ∧ ':' ∉ text.toList

theorem IsPrinted.isToken {text : String} {w : Word} (printed : IsPrinted text w) :
    IsToken text := by
  refine ⟨printed.digits.isSolid, fun mem => ?_, fun mem => ?_⟩ <;>
    obtain ⟨d, small, same⟩ := printed.digits.2 _ mem
  · exact (hexDigit_facts small).2.1 same.symm
  · exact (hexDigit_facts small).2.2.1 same.symm

theorem isToken_name (op : Opcode) : IsToken op.name := by
  unfold IsToken
  cases op <;> decide +kernel

theorem IsToken.not_isMarked {text : String} (token : IsToken text) : ¬ IsMarked text :=
  fun marked => token.2.2 (List.mem_of_getLast? marked)

theorem tokens_spaced {texts : List String} (all : ∀ text ∈ texts, IsToken text) :
    tokens (spaced texts) = texts := by
  refine tokens_eq_iff.2 ⟨(spaced texts).toList, [], (List.append_nil _).symm, ?_, by simp, ?_⟩
  · intro c mem
    rw [toList_spaced] at mem
    rcases mem_of_mem_intercalate mem with between | ⟨l, there, own⟩
    · rw [List.mem_singleton.1 between]
      decide
    · obtain ⟨text, known, rfl⟩ := List.mem_map.1 there
      rintro rfl
      exact (all text known).2.1 own
  · rw [toList_spaced]
    refine isSplit_intercalate fun word there => ?_
    obtain ⟨text, known, rfl⟩ := List.mem_map.1 there
    exact (all text known).1

theorem IsPrinted.isLiteral {text : String} {w : Word} (printed : IsPrinted text w) :
    IsLiteral text.toList := by
  refine ⟨printed.digits.isHex, ?_⟩
  rw [printed.value]
  exact Nat.le_of_lt_succ w.toNat_lt

theorem IsPrinted.wordOf_eq {text : String} {w : Word} (printed : IsPrinted text w) :
    wordOf text = w := by
  rw [wordOf, printed.value, UInt32.ofNat_toNat]

theorem begins_name (op : Opcode) : Begins op.name op.word := by
  refine .opcode op ?_
  cases op <;> decide +kernel

/-- Digits that are no mnemonic stand for their word. -/
theorem IsPrinted.begins {text : String} {w : Word} (printed : IsPrinted text w)
    (plain : ∀ op : Opcode, text ≠ op.name) : Begins text w := by
  have lower : lowered text = text := by rw [lowered, printed.digits.lower_eq, String.ofList_toList]
  have begins : IsLiteral (lowered text).toList → (∀ op : Opcode, lowered text ≠ op.name) →
    Begins text _ := .digits
  rw [lower, printed.value, UInt32.ofNat_toNat] at begins
  exact begins printed.isLiteral plain

theorem spells_row {mnemonic ta tb tc : String} {first a b c : Word} (token : IsToken mnemonic)
    (begins : Begins mnemonic first) (at_a : IsPrinted ta a) (at_b : IsPrinted tb b)
    (at_c : IsPrinted tc c) :
    IsRow (spaced [mnemonic, ta, tb, tc]).toList ∧
      Spells (spaced [mnemonic, ta, tb, tc]) [⟨first, a, b, c⟩] := by
  have all : ∀ text ∈ [mnemonic, ta, tb, tc], IsToken text := by
    simp [token, at_a.isToken, at_b.isToken, at_c.isToken]
  have literal : ∀ text ∈ [ta, tb, tc], IsLiteral text.toList := by
    simp [at_a.isLiteral, at_b.isLiteral, at_c.isLiteral]
  have row : Spells (spaced [mnemonic, ta, tb, tc])
      [Operation.quad first ([ta, tb, tc].map wordOf)] :=
    .row (tokens_spaced all) token.not_isMarked begins (Nat.le_refl 3) literal
  rw [List.map_cons, List.map_cons, List.map_cons, at_a.wordOf_eq, at_b.wordOf_eq, at_c.wordOf_eq]
    at row
  exact ⟨isRow_spaced fun text mem => (all text mem).1, row⟩

/-! ## Rows of numbers -/

theorem spells_imageRow (q : Quad Word) :
    let row := spaced ((q.map Word.toInt).toList.map hex8Lower)
    IsRow row.toList ∧ Spells row [q] := by
  have long : ∀ op : Opcode, hex8Lower (Word.toInt q.opcode) ≠ op.name := by
    intro op same
    have eight : 8 ≤ (hex8Lower (Word.toInt q.opcode)).toList.length := by
      rw [toList_hex8Lower]
      exact length_padLeft_le ..
    have three : op.name.toList.length = 3 := by cases op <;> decide +kernel
    rw [same, three] at eight
    exact absurd eight (by decide)
  have first := isPrinted_hex8Lower q.opcode
  exact spells_row first.isToken (first.begins long) (isPrinted_hex8Lower q.a)
    (isPrinted_hex8Lower q.b) (isPrinted_hex8Lower q.c)

/-- Rows of numbers are assembled to the numbers, also if a line feed ends the last row. -/
theorem assemble_imageRows {words : List Word} (whole : words.length % 4 = 0) :
    assemble (imageRows (words.map Word.toInt)) = .ok words ∧
      assemble (imageRows (words.map Word.toInt) ++ "\n") = .ok words := by
  obtain ⟨quads, rfl⟩ := exists_quads whole
  have rows :
    (inFours ((quads.flatMap Quad.toList).map Word.toInt)).map
    (fun row => spaced (row.map hex8Lower)) =
      quads.map fun q => spaced ((q.map Word.toInt).toList.map hex8Lower) := by
    rw [map_flatMap_toList, inFours_flatMap_toList, List.map_map, List.map_map]
    rfl
  have assembled := assemble_rows quads spells_imageRow
  rwa [List.map_id_fun', id, ← rows] at assembled

/-- The lines of a source are all that counts, not how they are kept apart, so `unixBreaks` changes
nothing about it. -/
theorem ofSource_unixBreaks (source : String) :
    Assembly.ofSource (unixBreaks source) = Assembly.ofSource source := by
  rw [Assembly.ofSource, linesOf_unixBreaks]
  rfl

end Chifir.Assembly
