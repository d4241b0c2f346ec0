import Chifir.Proofs.Assembly.Walks
import Chifir.Proofs.Text.Words

/-!
# How sources are read

The `tokens` of a line, its `body`, the label that it `Defines`, and the numbers that digits can be:
statements about sources are made of these. The lemmas say that the assembler reads a line in just
this way.

1. `tokens_eq_iff`: the tokens are the words before the comment.
2. `parse_cases`: a statement says what its line says (`Statement.Reads`), and a line without a
   statement has a first token that is wrong.
3. `Operation.read?_instruction` and its siblings: a mnemonic is an opcode, else a macro, else
   digits.
4. `value_eq_ok`: a token is a label, else a relative address, else digits (`Symbols.Resolves`).
5. `Laid.bound_iff`: the labels bound are those that lines define.
-/

namespace Chifir.Assembly

open Text

/-! ## Lines -/

/-- The tokens of a line: its words up to the comment. -/
def tokens (line : String) : List String := (Statement.tokensOf line.toList).map String.ofList

/-- Whether a token, as the first one of a line, has to be a label. -/
def IsMarked (token : String) : Prop := token.toList.getLast? = some ':'

instance (token : String) : Decidable (IsMarked token) := inferInstanceAs (Decidable (_ = _))

/-- The tokens of a line behind its label: a mnemonic and its operands. -/
def body (line : String) : List String :=
  match tokens line with
  | [] => []
  | token :: rest => if IsMarked token then rest else token :: rest

/-- The first token of a line is a name and a colon. -/
def Defines (line name : String) : Prop :=
  isName name.toList = true ∧ ∃ rest, tokens line = (name ++ ":") :: rest

def IsLiteral (digits : List Char) : Prop := isHex digits = true ∧ hexToNat digits ≤ 0xFFFFFFFF

/-- The tokens of a line are the words of its code; its comment starts at the first semicolon. -/
theorem tokens_eq_iff {line : String} {ts : List String} :
    tokens line = ts ↔ ∃ code comment, line.toList = code ++ comment ∧ (∀ c ∈ code, c ≠ ';') ∧
      (∀ c, comment.head? = some c → c = ';') ∧ IsSplit code (ts.map String.toList) := by
  unfold tokens Statement.tokensOf
  constructor
  · rintro rfl
    refine ⟨line.toList.takeWhile (· != ';'), line.toList.dropWhile (· != ';'),
      List.takeWhile_append_dropWhile.symm, fun c mem => ?_, fun c head => ?_, ?_⟩
    · simpa using List.all_eq_true.1 (List.all_takeWhile (p := (· != ';'))) c mem
    · have stop := List.head?_dropWhile_not (· != ';') line.toList
      rw [head] at stop
      simpa using stop
    · simpa [Function.comp_def] using isSplit_words _
  · rintro ⟨code, comment, whole, plain, head, split⟩
    have run : ∀ c ∈ code, (c != ';') = true := fun c mem => by simpa using plain c mem
    have stop : comment.takeWhile (· != ';') = [] := by
      cases comment with
      | nil => rfl
      | cons c comment => simp [head c rfl]
    rw [whole, List.takeWhile_append_of_pos run, stop, List.append_nil, words_of_isSplit split]
    simp [Function.comp_def]

theorem labelOf?_eq_some {token name : List Char} :
    Statement.labelOf? token = some name ↔ token = name ++ [':'] := by
  unfold Statement.labelOf?
  constructor
  · intro h
    split at h
    · rename_i last
      obtain ⟨front, rfl⟩ := List.getLast?_eq_some_iff.1 last
      rw [List.dropLast_concat] at h
      rw [Option.some.inj h]
    · cases h
  · rintro rfl
    simp

theorem isMarked_iff {token : List Char} :
    IsMarked (String.ofList token) ↔ ∃ name, Statement.labelOf? token = some name := by
  unfold IsMarked Statement.labelOf?
  rw [String.toList_ofList]
  split <;> simp_all

theorem ofList_append_colon (name : List Char) :
    String.ofList (name ++ [':']) = String.ofList name ++ ":" := by
  apply String.toList_injective
  rw [String.toList_append, String.toList_ofList, String.toList_ofList]
  rfl

theorem defines_iff {line name : String} {token : List Char} {rest : List (List Char)}
    (taken : Statement.tokensOf line.toList = token :: rest) :
    Defines line name ↔
      isName name.toList = true ∧ Statement.labelOf? token = some name.toList := by
  unfold Defines tokens
  rw [taken, labelOf?_eq_some, List.map_cons]
  refine and_congr_right fun _ => ⟨fun ⟨_, same⟩ => ?_, ?_⟩
  · have first := congrArg String.toList (List.cons.inj same).1
    rw [String.toList_ofList, String.toList_append] at first
    exact first
  · rintro rfl
    refine ⟨rest.map String.ofList, ?_⟩
    rw [ofList_append_colon, String.ofList_toList]

/-- A statement says what its line says: the same label, mnemonic and operands as its `tokens`. -/
structure Statement.Reads (s : Statement) (line : String) : Prop where
  label : ∀ name, s.label = some name ↔ Defines line name
  mnemonic : s.mnemonic = (body line).head?
  operands : s.operands = (body line).tail
  labelled : ∀ token rest, tokens line = token :: rest → IsMarked token → ∃ name, Defines line name

theorem Statement.withTokens_blank {s : Statement} (bare : s.mnemonic = none)
    (empty : s.operands = []) (tokens : List (List Char)) :
    (s.withTokens tokens).label = s.label ∧
      (s.withTokens tokens).mnemonic = (tokens.map String.ofList).head? ∧
      (s.withTokens tokens).operands = (tokens.map String.ofList).tail := by
  cases tokens with
  | nil => exact ⟨rfl, bare, empty⟩
  | cons mnemonic operands => exact ⟨rfl, rfl, rfl⟩

section Tokens
variable {line : String} {token : List Char} {rest : List (List Char)}

theorem tokens_cons (taken : Statement.tokensOf line.toList = token :: rest) :
    tokens line = String.ofList token :: rest.map String.ofList := by
  rw [tokens, taken]
  rfl

theorem body_of_unmarked (taken : Statement.tokensOf line.toList = token :: rest)
    (unmarked : Statement.labelOf? token = none) :
    body line = (token :: rest).map String.ofList := by
  have bare : ¬ IsMarked (String.ofList token) := by simp [isMarked_iff, unmarked]
  rw [body, tokens_cons taken]
  exact if_neg bare

theorem body_of_marked {name : List Char} (taken : Statement.tokensOf line.toList = token :: rest)
    (marked : Statement.labelOf? token = some name) : body line = rest.map String.ofList := by
  rw [body, tokens_cons taken]
  exact if_pos (isMarked_iff.2 ⟨name, marked⟩)

end Tokens

/-- A line is either read, or its first token has to be a label and is none. -/
theorem parse_cases (number : Nat) (line : String) :
    (∃ s, Statement.parse number line = .ok s ∧ s.Reads line) ∨
      ∃ d token rest, Statement.parse number line = .error d ∧ tokens line = token :: rest ∧
        IsMarked token ∧ ∀ name, ¬ Defines line name := by
  unfold Statement.parse
  cases taken : Statement.tokensOf line.toList with
  | nil =>
    have empty : tokens line = [] := by rw [tokens, taken]; rfl
    simp only [taken]
    refine .inl ⟨_, rfl, ?_, ?_, ?_, ?_⟩
    · intro name
      simp [Defines, empty]
    · simp [body, empty]
    · simp [body, empty]
    · simp [empty]
  | cons token rest =>
    have first := tokens_cons taken
    cases marked : Statement.labelOf? token with
    | none =>
      simp only [taken, marked]
      refine .inl ⟨_, rfl, ?_, ?_, ?_, ?_⟩
      · intro name
        simp [Statement.withTokens, defines_iff taken, marked]
      · rw [body_of_unmarked taken marked]
        rfl
      · rw [body_of_unmarked taken marked]
        rfl
      · intro token' rest' same claims
        rw [first] at same
        cases same
        simp [isMarked_iff, marked] at claims
    | some name =>
      simp only [taken, marked]
      split
      · rename_i good
        obtain ⟨label, mnemonic, operands⟩ := Statement.withTokens_blank (s :=
          ⟨number, line, some (String.ofList name), none, [], _⟩) rfl rfl rest
        have own : Defines line (String.ofList name) :=
          (defines_iff taken).2
            ⟨by rwa [String.toList_ofList], by rw [marked, String.toList_ofList]⟩
        refine .inl ⟨_, rfl, ?_, ?_, ?_, fun _ _ _ _ => ⟨_, own⟩⟩
        · intro other
          rw [label, defines_iff taken, marked]
          constructor
          · rintro ⟨⟩
            rw [String.toList_ofList]
            exact ⟨good, rfl⟩
          · rintro ⟨_, same⟩
            rw [Option.some.inj same, String.ofList_toList]
        · rw [body_of_marked taken marked]
          exact mnemonic
        · rw [body_of_marked taken marked]
          exact operands
      · rename_i bad
        refine .inr ⟨_, _, _, rfl, first, isMarked_iff.2 ⟨name, marked⟩, fun other own => bad ?_⟩
        obtain ⟨good, same⟩ := (defines_iff taken).1 own
        rw [marked] at same
        rw [Option.some.inj same]
        exact good

theorem Statement.reads_of_parse {number : Nat} {line : String} {s : Statement}
    (h : Statement.parse number line = .ok s) : s.Reads line := by
  rcases parse_cases number line with ⟨s', parsed, reads⟩ | ⟨d, _, _, failed, _⟩
  · rw [h] at parsed
    cases parsed
    exact reads
  · rw [h] at failed
    cases failed

theorem Statement.Reads.body_eq {s : Statement} {line mnemonic : String} (reads : s.Reads line)
    (named : s.mnemonic = some mnemonic) : body line = mnemonic :: s.operands := by
  rw [reads.mnemonic] at named
  rw [reads.operands]
  cases whole : body line with
  | nil => simp [whole] at named
  | cons first rest =>
    rw [whole] at named
    cases named
    rfl

theorem Statement.Reads.named {s : Statement} {line mnemonic : String} {operands : List String}
    (reads : s.Reads line) (whole : body line = mnemonic :: operands) :
    s.mnemonic = some mnemonic ∧ s.operands = operands := by
  rw [reads.mnemonic, reads.operands, whole]
  exact ⟨rfl, rfl⟩

/-! ## Mnemonics -/

theorem ofName?_instruction {name : String} {op : Opcode} :
    Opcode.ofName? name = some op ↔ name = op.name := by
  constructor
  · intro found
    have same := List.find?_some found
    exact (beq_iff_eq.1 same).symm
  · rintro rfl
    exact op.ofName?_name

theorem ofName?_expansion {name : String} {which : Macro} :
    Macro.ofName? name = some which ↔ name = which.name := by
  constructor
  · intro found
    have same := List.find?_some found
    exact (beq_iff_eq.1 same).symm
  · rintro rfl
    exact which.ofName?_name

/-- Neither an opcode nor hexadecimal digits can be taken for a macro. -/
theorem plain_name (which : Macro) :
    Opcode.ofName? which.name = none ∧ isHex which.name.toList = false := by
  cases which <;> decide +kernel

theorem literalWord_eq_ok {digits : List Char} {w : Word} :
    literalWord digits = .ok w ↔
      hexToNat digits ≤ 0xFFFFFFFF ∧ w = UInt32.ofNat (hexToNat digits) := by
  simp only [literalWord]
  split
  · rename_i small
    rw [Except.ok.injEq, and_iff_right (Nat.le_of_lt_succ small), eq_comm]
  · rename_i wide
    simp only [reduceCtorEq, false_iff, not_and]
    intro small
    exact absurd (Nat.lt_succ_of_le small) wide

section Read
variable {mnemonic : String}

theorem Operation.read?_instruction {op : Opcode} :
    Operation.read? mnemonic = some (.instruction op) ↔ lowered mnemonic = op.name := by
  rw [← ofName?_instruction, Operation.read?]
  cases Opcode.ofName? (lowered mnemonic) with
  | some op' => simp
  | none =>
    cases Macro.ofName? (lowered mnemonic) with
    | some which => simp
    | none => simp

theorem Operation.read?_expansion {which : Macro} :
    Operation.read? mnemonic = some (.expansion which) ↔ lowered mnemonic = which.name := by
  rw [← ofName?_expansion, Operation.read?]
  cases named : Macro.ofName? (lowered mnemonic) with
  | some which' =>
    rw [ofName?_expansion.1 named, (plain_name which').1]
    simp
  | none =>
    cases Opcode.ofName? (lowered mnemonic) with
    | some op => simp
    | none => simp

/-- Digits that are the name of an opcode are that opcode. -/
theorem Operation.read?_literal {digits : List Char} :
    Operation.read? mnemonic = some (.literal digits) ↔ digits = (lowered mnemonic).toList ∧
      isHex digits = true ∧ ∀ op : Opcode, lowered mnemonic ≠ op.name := by
  have noCode : Opcode.ofName? (lowered mnemonic) = none ↔
      ∀ op : Opcode, lowered mnemonic ≠ op.name := by
    simp [Option.eq_none_iff_forall_ne_some, ofName?_instruction]
  rw [← noCode, Operation.read?]
  cases Opcode.ofName? (lowered mnemonic) with
  | some op => simp
  | none =>
    cases named : Macro.ofName? (lowered mnemonic) with
    | some which =>
      have word := (plain_name which).2
      rw [← ofName?_expansion.1 named] at word
      simp only [reduceCtorEq, Option.some.injEq, false_iff, not_and, and_true]
      rintro rfl hex
      rw [word] at hex
      cases hex
    | none =>
      simp only [Option.ite_none_right_eq_some, Option.some.injEq, Operation.literal.injEq,
        and_true]
      constructor
      · rintro ⟨hex, rfl⟩
        exact ⟨rfl, hex⟩
      · rintro ⟨rfl, hex⟩
        exact ⟨hex, rfl⟩

theorem Operation.size_eq_ok {operation : Operation} {operands size : Nat} :
    operation.size mnemonic operands = .ok size ↔ match operation with
      | .instruction _ => operands ≤ 3 ∧ size = 1
      | .expansion which => operands = which.arity ∧ size = which.length
      | .literal digits => operands ≤ 3 ∧ hexToNat digits ≤ 0xFFFFFFFF ∧ size = 1 := by
  have limit : operandLimit < operands ↔ ¬ operands ≤ 3 := Nat.not_le.symm
  cases operation with
  | instruction op =>
    simp only [Operation.size, limit]
    by_cases few : operands ≤ 3 <;> simp [few, eq_comm]
  | expansion which =>
    simp only [Operation.size]
    rcases Nat.lt_trichotomy operands which.arity with less | same | more
    · simp [less, Nat.ne_of_lt less]
    · simp [same, eq_comm]
    · simp [more, Nat.ne_of_gt more, Nat.not_lt_of_gt more]
  | literal digits =>
    simp only [Operation.size, limit]
    cases word : literalWord digits with
    | error d =>
      have wide : ¬ hexToNat digits ≤ 0xFFFFFFFF := fun small => by
        rw [literalWord_eq_ok.2 ⟨small, rfl⟩] at word
        cases word
      by_cases few : operands ≤ 3 <;> simp [few, wide, Except.map]
    | ok w =>
      have small := (literalWord_eq_ok.1 word).1
      by_cases few : operands ≤ 3 <;> simp [few, small, Except.map, eq_comm]

end Read

/-! ## Operands -/

theorem Operand.of_read? {token : List Char} {operand : Operand}
    (h : Operand.read? token = some operand) :
    match operand with
    | .relative true digits => token = '/' :: '-' :: digits ∧ isHex digits = true
    | .relative false digits => token = '/' :: digits ∧ isHex digits = true
    | .literal digits => token = digits ∧ isHex digits = true
    | .name => isName token = true := by
  unfold Operand.read? at h
  split at h
  · split at h <;> cases h
    exact ⟨rfl, ‹_›⟩
  · split at h <;> cases h
    exact ⟨rfl, ‹_›⟩
  · split at h
    · cases h
      exact ⟨rfl, ‹_›⟩
    · split at h <;> cases h
      assumption

section Hex
variable {digits : List Char}

theorem not_isHex_cons {c : Char} (other : hexValue? c = none) : isHex (c :: digits) = false := by
  simp [isHex, other]

theorem Operand.read?_backward (hex : isHex digits = true) :
    Operand.read? ('/' :: '-' :: digits) = some (.relative true digits) := by
  simp [Operand.read?, hex]

theorem Operand.read?_forward (hex : isHex digits = true) :
    Operand.read? ('/' :: digits) = some (.relative false digits) := by
  unfold Operand.read?
  split
  · rename_i same
    rw [(List.cons.inj same).2, not_isHex_cons rfl] at hex
    cases hex
  · rename_i same
    cases same
    exact if_pos hex
  · rename_i other
    exact absurd rfl (other digits)

theorem Operand.read?_digits (hex : isHex digits = true) :
    Operand.read? digits = some (.literal digits) := by
  unfold Operand.read?
  split
  · rw [not_isHex_cons rfl] at hex
    cases hex
  · rw [not_isHex_cons rfl] at hex
    cases hex
  · exact if_pos hex

theorem Operand.isSome_read?_name {name : List Char} (named : isName name = true) :
    (Operand.read? name).isSome = true := by
  unfold Operand.read?
  split
  · simp [isName, isNameStart] at named
  · simp [isName, isNameStart] at named
  · rw [if_pos named]
    split <;> rfl

end Hex

/-- What a token stands for in an instruction at `k`, given the labels that are bound. -/
inductive Symbols.Resolves (symbols : Symbols) (k : Word) (token : String) : Word → Prop
  | label (a : Word) (known : symbols.lookup token = some a) : Resolves symbols k token a
  | forward (digits : List Char) (fresh : symbols.lookup token = none)
      (slash : token.toList = '/' :: digits) (fits : IsLiteral digits) :
      Resolves symbols k token (k + 4 * UInt32.ofNat (hexToNat digits))
  | backward (digits : List Char) (fresh : symbols.lookup token = none)
      (slash : token.toList = '/' :: '-' :: digits) (fits : IsLiteral digits) :
      Resolves symbols k token (k - 4 * UInt32.ofNat (hexToNat digits))
  | literal (fresh : symbols.lookup token = none) (fits : IsLiteral token.toList) :
      Resolves symbols k token (UInt32.ofNat (hexToNat token.toList))

section Resolves
variable {symbols : Symbols} {k v : Word} {token : String}

theorem Symbols.value_of_read? {operand : Operand} (fresh : symbols.lookup token = none)
    (read : Operand.read? token.toList = some operand) :
    symbols.value k token = match operand with
      | .relative backward digits =>
        (literalWord digits).map fun n => if backward then k - 4 * n else k + 4 * n
      | .literal digits => literalWord digits
      | .name => .error (.undefinedLabel token) := by
  cases operand <;> simp only [Symbols.value, fresh, read]

theorem value_eq_ok : symbols.value k token = .ok v ↔ symbols.Resolves k token v := by
  constructor
  · intro resolved
    cases fresh : symbols.lookup token with
    | some a =>
      rw [Symbols.value, fresh] at resolved
      cases resolved
      exact .label v fresh
    | none =>
      cases read : Operand.read? token.toList with
      | none =>
        rw [Symbols.value, fresh, read] at resolved
        cases resolved
      | some operand =>
        have text := Operand.of_read? read
        rw [Symbols.value_of_read? fresh read] at resolved
        cases operand with
        | relative backward digits =>
          cases word : literalWord digits with
          | error d =>
            simp only [word] at resolved
            cases resolved
          | ok w =>
            simp only [word] at resolved
            obtain ⟨small, rfl⟩ := literalWord_eq_ok.1 word
            cases backward with
            | true =>
              cases resolved
              exact .backward digits fresh text.1 ⟨text.2, small⟩
            | false =>
              cases resolved
              exact .forward digits fresh text.1 ⟨text.2, small⟩
        | literal digits =>
          obtain ⟨rfl, hex⟩ := text
          obtain ⟨small, rfl⟩ := literalWord_eq_ok.1 resolved
          exact .literal fresh ⟨hex, small⟩
        | name => cases resolved
  · rintro (⟨_, known⟩ | ⟨digits, fresh, slash, fits⟩ | ⟨digits, fresh, slash, fits⟩
      | ⟨fresh, fits⟩)
    · rw [Symbols.value, known]
    · rw [Symbols.value_of_read? fresh (slash ▸ Operand.read?_forward fits.1)]
      simp only [literalWord_eq_ok.2 ⟨fits.2, rfl⟩]
      rfl
    · rw [Symbols.value_of_read? fresh (slash ▸ Operand.read?_backward fits.1)]
      simp only [literalWord_eq_ok.2 ⟨fits.2, rfl⟩]
      rfl
    · rw [Symbols.value_of_read? fresh (Operand.read?_digits fits.1)]
      exact literalWord_eq_ok.2 ⟨fits.2, rfl⟩

end Resolves

/-! ## Labels -/

section Laid
variable {symbols symbols' : Symbols} {pc pc' : Word} {number : Nat} {sources : List String}
  {lines : List Placed}

/-- The labels that are bound are those that some line `Defines`. -/
theorem Laid.bound_iff (laid : Laid [] pc number sources lines symbols' pc') {name : String} :
    (∃ a, symbols'.lookup name = some a) ↔ ∃ line ∈ sources, Defines line name := by
  constructor
  · rintro ⟨a, known⟩
    rcases laid.label_of_lookup known with before | ⟨i, p, found, labelled⟩
    · cases before
    · obtain ⟨line, there, parsed⟩ := laid.parsed found
      exact ⟨line, List.mem_of_getElem? there,
        ((Statement.reads_of_parse parsed).label name).1 labelled⟩
  · rintro ⟨line, mem, own⟩
    obtain ⟨i, there⟩ := List.mem_iff_getElem?.1 mem
    obtain ⟨p, found, parsed⟩ := laid.exists_line there
    exact ⟨_, (laid.lookup_of_label found (((Statement.reads_of_parse parsed).label name).2 own)).1⟩

end Laid

end Chifir.Assembly
