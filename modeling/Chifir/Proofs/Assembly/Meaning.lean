import Chifir.Proofs.Assembly.Reading

/-!
# What a source means

The words of a line, said in natural numbers and from the source alone: no walk, no table of labels,
no address counter. `Means` takes a line's address from the lines before it, the value of each token
from all lines, and the words from the mnemonic.

1. `addressOf`: four times the instructions of the lines before, which the mnemonics give.
2. `Denotes`: the value of a token.
3. `Expands`, `Encodes`: the words of a line.
4. `emitted_means`: each line of an accepted source emits the words it means, and these are the only
   ones.
-/

namespace Chifir

open Assembly

namespace Assembly

open Text

/-! ## The meaning of a line -/

def instructionsOf (line : String) : Nat :=
  match body line with
  | [] => 0
  | mnemonic :: _ =>
    match Macro.ofName? (lowered mnemonic) with
    | some which => which.length
    | none => 1

/-- The address of the first instruction behind the first `i` lines. -/
def addressOf (lines : List String) (i : Nat) : Nat :=
  4 * ((lines.take i).map instructionsOf).sum % 2 ^ 32

/-- The value of a token in an instruction at `k`. The name of a label is that label, whatever else
it looks like. -/
inductive Denotes (lines : List String) (k : Nat) (token : String) : Nat → Prop
  | label (j : Nat) (line : String) (there : lines[j]? = some line) (own : Defines line token) :
      Denotes lines k token (addressOf lines j)
  | forward (digits : List Char) (other : ∀ line ∈ lines, ¬ Defines line token)
      (slash : token.toList = '/' :: digits) (fits : IsLiteral digits) :
      Denotes lines k token ((k + 4 * hexToNat digits) % 2 ^ 32)
  | backward (digits : List Char) (other : ∀ line ∈ lines, ¬ Defines line token)
      (slash : token.toList = '/' :: '-' :: digits) (fits : IsLiteral digits) :
      Denotes lines k token ((k - 4 * hexToNat digits : Int) % 2 ^ 32).toNat
  | literal (other : ∀ line ∈ lines, ¬ Defines line token) (fits : IsLiteral token.toList) :
      Denotes lines k token (hexToNat token.toList)

/-- The documented expansions of the macros, at `k`. -/
inductive Expands (k : Nat) : Macro → List Nat → List (List Nat) → Prop
  | jmp (t : Nat) : Expands k .jmp [t] [[Opcode.lpc.number, (k + 3) % 2 ^ 32, 0, t]]
  | jeq (t x : Nat) : Expands k .jeq [t, x] [[Opcode.beq.number, (k + 3) % 2 ^ 32, x, t]]
  | jne (t x : Nat) : Expands k .jne [t, x]
      [[Opcode.beq.number, (k + 3) % 2 ^ 32, x, (k + 8) % 2 ^ 32],
        [Opcode.lpc.number, (k + 7) % 2 ^ 32, 0, t]]
  | jlt (t x y : Nat) : Expands k .jlt [t, x, y]
      [[Opcode.cmp.number, (k + 10) % 2 ^ 32, x, y],
        [Opcode.beq.number, (k + 7) % 2 ^ 32, (k + 10) % 2 ^ 32, (k + 12) % 2 ^ 32],
        [Opcode.lpc.number, (k + 11) % 2 ^ 32, 0, t]]
  | ldi (a v : Nat) : Expands k .ldi [a, v] [[Opcode.lea.number, a, (k + 3) % 2 ^ 32, v]]

/-- Three operands, of which those not given are zero, as `quad` fills them. -/
def padded (values : List Nat) : List Nat := values ++ List.replicate (3 - values.length) 0

/-- The instructions of a mnemonic with operands of these values, at `k`. Digits that are the name
of an opcode are that opcode. -/
inductive Encodes (k : Nat) (mnemonic : String) (values : List Nat) : List (List Nat) → Prop
  | opcode (op : Opcode) (named : lowered mnemonic = op.name) :
      Encodes k mnemonic values [op.number :: padded values]
  | expansion (which : Macro) (rows : List (List Nat)) (named : lowered mnemonic = which.name)
      (expands : Expands k which values rows) : Encodes k mnemonic values rows
  | literal (noOpcode : ∀ op : Opcode, lowered mnemonic ≠ op.name)
      (noMacro : ∀ which : Macro, lowered mnemonic ≠ which.name)
      (hex : isHex (lowered mnemonic).toList = true) :
      Encodes k mnemonic values [hexToNat (lowered mnemonic).toList :: padded values]

/-- What the `i`-th line stands for if it consists of this mnemonic and these operands, and perhaps
a label. -/
def Means (lines : List String) (i : Nat) (mnemonic : String) (operands : List String)
    (rows : List (List Nat)) : Prop :=
  ∃ values, List.Forall₂ (Denotes lines (addressOf lines i)) operands values ∧
    Encodes (addressOf lines i) mnemonic values rows

def numbers (quads : List (Quad Word)) : List (List Nat) :=
  quads.map fun quad => quad.toList.map UInt32.toNat

/-! ## Addresses -/

/-- The first walk counts as many instructions as `instructionsOf` the line says. -/
theorem Placed.LaidAt.size_eq {p : Placed} {before after : Symbols} {pc : Word} {line : String}
    (laid : p.LaidAt before pc after) (reads : p.statement.Reads line) :
    p.size = instructionsOf line := by
  unfold instructionsOf
  cases named : p.statement.mnemonic with
  | none =>
    have empty : body line = [] := List.head?_eq_none_iff.1 (reads.mnemonic.symm.trans named)
    rw [laid.bare named, empty]
  | some mnemonic =>
    rw [reads.body_eq named]
    obtain ⟨operation, read, counted⟩ := Statement.count_eq_ok.1 (laid.sized mnemonic named).2.1
    rw [Operation.size_eq_ok] at counted
    cases expanded : Macro.ofName? (lowered mnemonic) with
    | some which =>
      rw [Operation.read?_expansion.2 (ofName?_expansion.1 expanded)] at read
      cases read
      simpa only [expanded] using counted.2
    | none =>
      simp only [expanded]
      cases operation with
      | instruction op => exact counted.2
      | literal digits => exact counted.2.2
      | expansion which =>
        rw [ofName?_expansion.2 (Operation.read?_expansion.1 read)] at expanded
        cases expanded

section Laid
variable {symbols : Symbols} {pc : Word} {sources : List String} {lines : List Placed}

theorem Laid.extent_take {symbols symbols' : Symbols} {pc pc' : Word} {number : Nat}
    (laid : Laid symbols pc number sources lines symbols' pc') (i : Nat) :
    extent (lines.take i) = 4 * ((sources.take i).map instructionsOf).sum := by
  have same : lines.map (·.size) = sources.map instructionsOf := by
    induction laid with
    | done => rfl
    | next parsed first _ ih =>
      rw [List.map_cons, List.map_cons, ih, first.size_eq (Statement.reads_of_parse parsed)]
  rw [extent, List.map_take, List.map_take, same]

theorem Laid.toNat_extent (laid : Laid [] 0 1 sources lines symbols pc) (i : Nat) :
    ((0 : Word) + UInt32.ofNat (extent (lines.take i))).toNat = addressOf sources i := by
  rw [UInt32.zero_add, UInt32.toNat_ofNat', laid.extent_take, addressOf]

end Laid

/-! ## Tokens -/

theorem toNat_forward (k : Word) (n : Nat) :
    (k + 4 * UInt32.ofNat n).toNat = (k.toNat + 4 * n) % 2 ^ 32 := by
  simp only [UInt32.toNat_add, UInt32.toNat_mul, UInt32.toNat_ofNat', UInt32.reduceToNat]
  omega

theorem toNat_backward (k : Word) (n : Nat) :
    (k - 4 * UInt32.ofNat n).toNat = ((k.toNat - 4 * n : Int) % 2 ^ 32).toNat := by
  have below := k.toNat_lt
  simp only [UInt32.toNat_sub, UInt32.toNat_mul, UInt32.toNat_ofNat', UInt32.reduceToNat]
  omega

theorem toNat_literal {digits : List Char} (fits : IsLiteral digits) :
    (UInt32.ofNat (hexToNat digits)).toNat = hexToNat digits := by
  rw [UInt32.toNat_ofNat', Nat.mod_eq_of_lt (Nat.lt_succ_of_le fits.2)]

/-- The value of a token in the second walk is what the token `Denotes`, and it denotes nothing
else. -/
theorem Laid.denotes_iff {sources : List String} {lines : List Placed} {symbols : Symbols}
    {pc : Word} (laid : Laid [] 0 1 sources lines symbols pc) {k : Word} {token : String}
    {n : Nat} :
    Denotes sources k.toNat token n ↔ ∃ v, symbols.value k token = .ok v ∧ v.toNat = n := by
  have none : symbols.lookup token = none ↔ ∀ line ∈ sources, ¬ Defines line token := by
    rw [Option.eq_none_iff_forall_ne_some, ← not_exists, laid.bound_iff]
    simp
  simp only [value_eq_ok]
  constructor
  · rintro (⟨j, line, there, own⟩ | ⟨digits, other, slash, fits⟩ | ⟨digits, other, slash, fits⟩ |
      ⟨other, fits⟩)
    · obtain ⟨p, found, parsed⟩ := laid.exists_line there
      have labelled := ((Statement.reads_of_parse parsed).label token).2 own
      exact ⟨_, .label _ (laid.lookup_of_label found labelled).1, laid.toNat_extent j⟩
    · exact ⟨_, .forward digits (none.2 other) slash fits, toNat_forward k _⟩
    · exact ⟨_, .backward digits (none.2 other) slash fits, toNat_backward k _⟩
    · exact ⟨_, .literal (none.2 other) fits, toNat_literal fits⟩
  · rintro ⟨v, ⟨_, known⟩ | ⟨digits, fresh, slash, fits⟩ | ⟨digits, fresh, slash, fits⟩
      | ⟨fresh, fits⟩, rfl⟩
    · rcases laid.label_of_lookup known with before | ⟨j, p, found, labelled⟩
      · cases before
      · obtain ⟨line, there, parsed⟩ := laid.parsed found
        rw [(laid.lookup_of_label found labelled).1] at known
        rw [← Option.some.inj known, laid.toNat_extent j]
        exact .label j line there (((Statement.reads_of_parse parsed).label token).1 labelled)
    · rw [toNat_forward]
      exact .forward digits (none.1 fresh) slash fits
    · rw [toNat_backward]
      exact .backward digits (none.1 fresh) slash fits
    · rw [toNat_literal fits]
      exact .literal (none.1 fresh) fits

theorem Laid.denote_iff {sources : List String} {lines : List Placed} {symbols : Symbols}
    {pc : Word} (laid : Laid [] 0 1 sources lines symbols pc) {k : Word} {operands : List String}
    {values : List Word} (resolved : operands.mapM (symbols.value k) = .ok values) {ns : List Nat} :
    List.Forall₂ (Denotes sources k.toNat) operands ns ↔ ns = values.map UInt32.toNat := by
  have each := forall₂_of_mapM resolved
  clear resolved
  induction each generalizing ns with
  | nil => simp
  | @cons token v operands values here _ ih =>
    rw [List.forall₂_cons_left_iff, List.map_cons]
    constructor
    · rintro ⟨n, ns', denotes, others, rfl⟩
      obtain ⟨v', same, rfl⟩ := laid.denotes_iff.1 denotes
      rw [here] at same
      cases same
      rw [ih.1 others]
    · rintro rfl
      exact ⟨_, _, laid.denotes_iff.2 ⟨v, here, rfl⟩, ih.2 rfl, rfl⟩

/-! ## Words -/

theorem Expands.unique {k : Nat} {which : Macro} {values : List Nat} {rows rows' : List (List Nat)}
    (h : Expands k which values rows) (h' : Expands k which values rows') : rows = rows' := by
  cases h <;> cases h' <;> rfl

theorem expands_of_instructions {which : Macro} {k : Word} {values : List Word}
    {quads : List (Quad Word)} (h : which.instructions? k values = some quads) :
    Expands k.toNat which (values.map UInt32.toNat) (numbers quads) := by
  unfold Macro.instructions? at h
  split at h
  · cases h
    exact .jmp _
  · cases h
    exact .jeq _ _
  · cases h
    exact .jne _ _
  · cases h
    exact .jlt _ _ _
  · cases h
    exact .ldi _ _
  · cases h

theorem expands_iff {which : Macro} {k : Word} {values : List Word} {quads : List (Quad Word)}
    (h : which.instructions? k values = some quads) {rows : List (List Nat)} :
    Expands k.toNat which (values.map UInt32.toNat) rows ↔ rows = numbers quads := by
  have own := expands_of_instructions h
  exact ⟨fun other => other.unique own, fun same => same ▸ own⟩

/-- How a mnemonic is read decides what it `Encodes`. -/
theorem encodes_iff_of_read? {k : Nat} {mnemonic : String} {values : List Nat}
    {rows : List (List Nat)} {operation : Operation}
    (read : Operation.read? mnemonic = some operation) :
    Encodes k mnemonic values rows ↔ match operation with
      | .instruction op => rows = [op.number :: padded values]
      | .expansion which => Expands k which values rows
      | .literal digits => rows = [hexToNat digits :: padded values] := by
  constructor
  · rintro (⟨op, named⟩ | ⟨which, _, named, expands⟩ | ⟨noOpcode, noMacro, hex⟩)
    · rw [Operation.read?_instruction.2 named] at read
      cases read
      rfl
    · rw [Operation.read?_expansion.2 named] at read
      cases read
      exact expands
    · rw [Operation.read?_literal.2 ⟨rfl, hex, noOpcode⟩] at read
      cases read
      rfl
  · intro same
    cases operation with
    | instruction op =>
      cases same
      exact .opcode op (Operation.read?_instruction.1 read)
    | expansion which => exact .expansion which rows (Operation.read?_expansion.1 read) same
    | literal digits =>
      obtain ⟨rfl, hex, noOpcode⟩ := Operation.read?_literal.1 read
      cases same
      refine .literal noOpcode (fun which named => ?_) hex
      rw [Operation.read?_expansion.2 named] at read
      cases read

theorem numbers_quad (first : Word) {values : List Word} (few : values.length ≤ 3) :
    numbers [Operation.quad first values] = [first.toNat :: padded (values.map UInt32.toNat)] := by
  rcases values with _ | ⟨a, _ | ⟨b, _ | ⟨c, _ | _⟩⟩⟩
  · rfl
  · rfl
  · rfl
  · rfl
  · simp only [List.length_cons] at few
    omega

/-- An operation is encoded to the words of its mnemonic, and to no others. -/
theorem encodes_iff {mnemonic : String} {operation : Operation} {k : Word} {values : List Word}
    {size : Nat} {quads : List (Quad Word)} (read : Operation.read? mnemonic = some operation)
    (counted : operation.size mnemonic values.length = .ok size)
    (encoded : operation.encode k values = .ok quads) {rows : List (List Nat)} :
    Encodes k.toNat mnemonic (values.map UInt32.toNat) rows ↔ rows = numbers quads := by
  rw [Operation.size_eq_ok] at counted
  rw [encodes_iff_of_read? read]
  cases operation with
  | instruction op =>
    cases encoded
    rw [numbers_quad op.word counted.1, op.toNat_word]
  | expansion which =>
    obtain ⟨quads', expanded⟩ := Option.isSome_iff_exists.1
      ((which.isSome_instructions? k values).2 counted.1)
    simp only [Operation.encode, expanded] at encoded
    cases encoded
    exact expands_iff expanded
  | literal digits =>
    have word := literalWord_eq_ok.2 ⟨counted.2.1, rfl⟩
    simp only [Operation.encode, word] at encoded
    cases encoded
    rw [numbers_quad _ counted.1, toNat_literal ⟨(Operation.read?_literal.1 read).2.1, counted.2.1⟩]

end Assembly

/-- Each line of an accepted source stands at its address and emits the words it means, and it means
no others. -/
theorem emitted_means {source : String} {words : List Word} (accepted : assemble source = .ok words)
    {i : Nat} {line mnemonic : String} {operands : List String}
    (there : (Text.linesOf source)[i]? = some line) (whole : body line = mnemonic :: operands) :
    ∃ p, (Assembly.ofSource source).lines[i]? = some p ∧
      p.address.toNat = addressOf (Text.linesOf source) i ∧
      (∀ rows, Means (Text.linesOf source) i mnemonic operands rows ↔ rows = numbers p.emitted) ∧
      ∀ row ∈ numbers p.emitted, row.length = 4 ∧ ∀ n ∈ row, n < 2 ^ 32 := by
  obtain ⟨laid, _, encoded, _⟩ := laid_of_assemble accepted
  obtain ⟨p, found, parsed⟩ := laid.exists_line there
  obtain ⟨_, _, _, _, here⟩ := laid.laidAt found
  obtain ⟨named, rfl⟩ := (Statement.reads_of_parse parsed).named whole
  have instruction : p.isInstruction = true := by rw [Placed.isInstruction, named]; rfl
  have address : p.address.toNat = addressOf (Text.linesOf source) i := by
    rw [laid.address_eq found instruction, laid.toNat_extent]
  have through := encoded p (List.mem_of_getElem? found)
  simp only [Placed.encode, named] at through
  obtain ⟨values, resolved, through⟩ := bind_eq_ok.1 through
  obtain ⟨operation, read, counted⟩ := Statement.count_eq_ok.1 (here.sized mnemonic named).2.1
  rw [(forall₂_of_mapM resolved).length_eq] at counted
  simp only [read] at through
  refine ⟨p, found, address, fun rows => ?_, ?_⟩
  · rw [Means, ← address]
    simp only [laid.denote_iff resolved, exists_eq_left]
    exact encodes_iff read counted through
  · simp only [numbers, List.forall_mem_map]
    exact fun quad _ => ⟨rfl, fun w _ => w.toNat_lt⟩

/-- A label that is also an opcode and a hexadecimal number, an address below zero, and a label
further down. -/
theorem emitted_means_add :
    let source := "add: ADD add /-2 end\njlt add 1 end\nend: 1f"
    ∃ p, (Assembly.ofSource source).lines[0]? = some p ∧ p.address.toNat = 0 ∧
      Means (Text.linesOf source) 0 "ADD" ["add", "/-2", "end"] [[7, 0, 2 ^ 32 - 8, 16]] := by
  have accepted : assemble "add: ADD add /-2 end\njlt add 1 end\nend: 1f" =
      .ok [7, 0, 0xFFFFFFF8, 16, 12, 14, 1, 16, 2, 11, 14, 16, 1, 15, 0, 0, 0x1F, 0, 0, 0] := by
    decide +kernel
  obtain ⟨p, found, address, means, _⟩ := emitted_means accepted (i := 0)
    (show _ = some "add: ADD add /-2 end" by decide +kernel)
    (show _ = "ADD" :: ["add", "/-2", "end"] by decide +kernel)
  have emitted : (Assembly.ofSource "add: ADD add /-2 end\njlt add 1 end\nend: 1f").lines[0]?.map
      (numbers ·.emitted) = some [[7, 0, 2 ^ 32 - 8, 16]] := by decide +kernel
  rw [found] at emitted
  exact ⟨p, found, address, (means _).2 (Option.some.inj emitted).symm⟩

end Chifir
