import Chifir.Assembly.Listing
import Chifir.Proofs.Assembly.Layout
import Chifir.Proofs.Assembly.Reading
import Chifir.Proofs.Text.Digits

/-!
# The rows of a listing

A row of a listing is an instruction, a line of source or a label. Instructions and labels can be
read back, since their columns are fixed and the text behind them is the last one; a line of source
starts with spaces and cannot be read.

1. `readInstruction?` and `readSymbol?` read a row; `readAddress?_eq_none` says which rows neither
   of them reads.
2. `readInstruction?_listingRow`: an instruction is read back from its row, whatever source stands
   behind it.
3. `Lists` says what the rows of some lines show, and `lists_of_laid` that each line adds its own.
-/

namespace Chifir

open Text Assembly

namespace Listing

/-! ## Reading a listing -/

def readWord? (text : List Char) : Option Nat :=
  if text.length = 8 ∧ isHex text = true then some (hexToNat text) else none

def readAddress? (row : List Char) : Option (Nat × List Char) :=
  if (row.drop 8).take 2 = [' ', ' '] then (readWord? (row.take 8)).map fun address =>
    (address, row.drop 10) else none

/-- The address and the four words of an instruction. Source may stand behind them. -/
def readInstruction? (row : List Char) : Option (Nat × List Nat) :=
  (readAddress? row).bind fun (address, rest) =>
    match ((rest.take 35).splitOn ' ').mapM readWord? with
    | some [opcode, a, b, c] => some (address, [opcode, a, b, c])
    | _ => none

def readSymbol? (row : List Char) : Option (String × Nat) :=
  (readAddress? row).map fun (address, rest) => (String.ofList rest, address)

def isIndented (row : List Char) : Bool := row.head? == some ' '

/-- The lines of a source that are not blank and have no instruction. -/
def bareLines (lines : List String) : List String :=
  lines.filter fun line => (body line).isEmpty && ! (trim line.toList).isEmpty

/-- How a line without an instruction is shown: without the blanks around it, and no more than forty
characters. -/
def bareRow (line : String) : List Char := List.replicate 47 ' ' ++ (trim line.toList).take 40

/-! ## Rows -/

theorem readWord?_hex8 {n : Nat} (word : n < 2 ^ 32) : readWord? (hex8 n).toList = some n := by
  rw [readWord?, if_pos ⟨length_hex8 word, isHex_hex8 n⟩, hexToNat_hex8]

theorem readAddress?_append {n : Nat} (word : n < 2 ^ 32) (rest : List Char) :
    readAddress? ((hex8 n).toList ++ ' ' :: ' ' :: rest) = some (n, rest) := by
  have length := length_hex8 word
  have behind : ((hex8 n).toList ++ ' ' :: ' ' :: rest).drop 8 = ' ' :: ' ' :: rest :=
    List.drop_left' length
  have last : ((hex8 n).toList ++ ' ' :: ' ' :: rest).drop 10 = rest := by
    rw [← List.drop_drop (i := 2) (j := 8), behind]
    rfl
  rw [readAddress?, behind, last, List.take_left' length, readWord?_hex8 word]
  rfl

/-- A row whose first character is no digit does not start with an address. -/
theorem readAddress?_eq_none {row : List Char}
    (other : row.head?.all (fun c => (hexValue? c).isNone) = true) :
    readAddress? row = none := by
  have unread : readWord? (row.take 8) = none := by
    refine if_neg fun word => ?_
    cases row with
    | nil => cases word.1
    | cons c row =>
      rw [List.take_succ_cons, not_isHex_cons (Option.isNone_iff_eq_none.1 other)] at word
      cases word.2
  rw [readAddress?, unread]
  exact ite_self none

theorem readInstruction?_eq_none {row : List Char} (unread : readAddress? row = none) :
    readInstruction? row = none := by
  rw [readInstruction?, unread]
  rfl

/-! ## Instructions -/

theorem length_digits (w : Word) : (Word.hex8 w).toList.length = 8 := length_hex8 w.toNat_lt

theorem isSolid_digits (w : Word) : IsSolid (Word.hex8 w).toList := isSolid_hex8 _

theorem space_not_mem_digits (w : Word) : ' ' ∉ (Word.hex8 w).toList := fun mem => by
  cases (isSolid_digits w).2 ' ' mem

def fourWords (quad : Quad Word) : List Char := (spaced (quad.toList.map Word.hex8)).toList

theorem fourWords_eq (quad : Quad Word) :
    fourWords quad = (Word.hex8 quad.opcode).toList ++ ' ' ::
      ((Word.hex8 quad.a).toList ++ ' ' ::
        ((Word.hex8 quad.b).toList ++ ' ' :: (Word.hex8 quad.c).toList)) := by
  simp [fourWords, toList_spaced, Quad.toList]

theorem length_fourWords (quad : Quad Word) : (fourWords quad).length = 35 := by
  simp [fourWords_eq, length_digits]

def columns (address : Word) (quad : Quad Word) : List Char :=
  (Word.hex8 address).toList ++ ' ' :: ' ' :: fourWords quad

/-- The `columns` are not trimmed, since they end in a digit. -/
theorem exists_last_columns (address : Word) (quad : Quad Word) :
    ∃ c, (columns address quad).getLast? = some c ∧ isBlank c = false := by
  have solid := isSolid_digits quad.c
  refine ⟨_, ?_, solid.2 _ (List.getLast_mem solid.1)⟩
  rw [columns, fourWords_eq]
  simp [List.getLast?_append, List.getLast?_cons, List.getLast?_eq_some_getLast solid.1]

theorem toList_listingRow (address : Word) (quad : Quad Word) (source : List Char) :
    ∃ tail, (listingRow address quad source).toList = columns address quad ++ tail ∧
      ∀ c ∈ tail, c ∈ source ∨ c = ' ' := by
  obtain ⟨c, last, visible⟩ := exists_last_columns address quad
  have text : (s!"{Word.hex8 address}  {spaced (quad.toList.map Word.hex8)}  ").toList ++ source =
      columns address quad ++ (' ' :: ' ' :: source) := by
    show (Word.hex8 address ++ "  " ++ spaced _ ++ "  ").toList ++ source = _
    simp [columns, fourWords]
  refine ⟨trimEnd (' ' :: ' ' :: source), ?_, fun c mem => ?_⟩
  · rw [listingRow, String.toList_ofList, text, trimEnd_append last visible]
  · simpa [or_comm] using mem_of_mem_trimEnd mem

/-- `readInstruction?` reads an instruction back from its row, whatever stands behind it. -/
theorem readInstruction?_listingRow (address : Word) (quad : Quad Word) (source : List Char) :
    readInstruction? (listingRow address quad source).toList =
      some (address.toNat, quad.toList.map UInt32.toNat) := by
  obtain ⟨tail, row, _⟩ := toList_listingRow address quad source
  have read (w : Word) : readWord? (Word.hex8 w).toList = some w.toNat := readWord?_hex8 w.toNat_lt
  have split : (fourWords quad).splitOn ' ' = quad.toList.map fun w => (Word.hex8 w).toList := by
    rw [fourWords, toList_spaced, List.map_map]
    refine List.splitOn_intercalate ' ' (fun word mem => ?_) (by simp [Quad.toList])
    obtain ⟨w, _, rfl⟩ := List.mem_map.1 mem
    exact space_not_mem_digits w
  have start : readAddress? (listingRow address quad source).toList =
      some (address.toNat, fourWords quad ++ tail) := by
    rw [row, columns, List.append_assoc]
    exact readAddress?_append address.toNat_lt _
  rw [readInstruction?, start, Option.bind_some]
  simp only [List.take_left' (length_fourWords quad), split]
  simp [Quad.toList, read]

theorem not_isIndented_listingRow (address : Word) (quad : Quad Word) (source : List Char) :
    isIndented (listingRow address quad source).toList = false := by
  obtain ⟨tail, row, _⟩ := toList_listingRow address quad source
  have solid := isSolid_digits address
  rw [isIndented, row, columns, List.append_assoc, List.head?_append_of_ne_nil _ solid.1,
    beq_eq_false_iff_ne]
  exact fun first => space_not_mem_digits address (List.mem_of_mem_head? first)

theorem isRow_fourWords (quad : Quad Word) : IsRow (fourWords quad) := by
  refine isRow_spaced fun text mem => ?_
  obtain ⟨w, _, rfl⟩ := List.mem_map.1 mem
  exact isSolid_digits w

theorem isRow_listingRow (address : Word) (quad : Quad Word) {source : List Char}
    (inside : IsRow source) :
    IsRow (listingRow address quad source).toList := by
  obtain ⟨tail, row, behind⟩ := toList_listingRow address quad source
  have rest : IsRow tail := by
    intro c mem
    rcases behind c mem with own | rfl
    · exact inside c own
    · decide
  have front : IsRow (columns address quad) :=
    List.forall_mem_append.2
      ⟨(isSolid_digits address).isRow, List.forall_mem_cons.2
        ⟨by decide, List.forall_mem_cons.2 ⟨by decide, isRow_fourWords quad⟩⟩⟩
  rw [row]
  exact List.forall_mem_append.2 ⟨front, rest⟩

/-! ## The rows of lines -/

/-- Instructions that follow each other, the first at this address. -/
def numbered (address : Nat) : List (Quad Word) → List (Nat × List Nat)
  | [] => []
  | quad :: rest => (address, quad.toList.map UInt32.toNat) :: numbered (address + 4) rest

theorem numbered_append (address : Nat) (first second : List (Quad Word)) :
    numbered address (first ++ second) = numbered address first ++ numbered
      (address + 4 * first.length) second := by
  induction first generalizing address with
  | nil => rfl
  | cons quad first ih =>
    rw [List.cons_append, numbered, numbered, ih, List.length_cons, List.cons_append, Nat.add_assoc,
      Nat.mul_succ, Nat.add_comm 4]

/-- Instruction `i` stands four times `i` behind the first, with the words that the image has there.
-/
theorem numbered_eq (address : Nat) (quads : List (Quad Word)) :
    numbered address quads = (List.range quads.length).map fun i =>
      (address + 4 * i, (((quads.flatMap Quad.toList).drop (4 * i)).take 4).map UInt32.toNat) := by
  induction quads generalizing address with
  | nil => rfl
  | cons quad quads ih =>
    rw [numbered, ih, List.length_cons, List.range_succ_eq_map, List.map_cons, List.map_map]
    congr 1
    refine List.map_congr_left fun i _ => ?_
    have behind : (quad.toList ++ quads.flatMap Quad.toList).drop (4 * (i + 1)) =
        (quads.flatMap Quad.toList).drop (4 * i) := by
      rw [Nat.mul_succ, Nat.add_comm, ← List.drop_drop]
      rfl
    rw [Function.comp_apply, List.flatMap_cons, behind, Nat.mul_succ, Nat.add_assoc, Nat.add_comm 4]

theorem flatMap_numbered (address : Nat) (quads : List (Quad Word)) :
    (numbered address quads).flatMap (·.2) = (quads.flatMap Quad.toList).map UInt32.toNat := by
  induction quads generalizing address with
  | nil => rfl
  | cons quad quads ih => rw [numbered, List.flatMap_cons, ih, List.flatMap_cons, List.map_append]

/-- What rows show: instructions that can be read back, and between them lines of source, all
indented. -/
structure Lists (rows : List (List Char)) (found : List (Nat × List Nat)) (bare : List String) :
    Prop where
  instructions : (rows.filter (! isIndented ·)).map readInstruction? = found.map some
  remaining : rows.filter isIndented = bare.map bareRow
  inside : ∀ row ∈ rows, IsRow row

theorem Lists.nil : Lists [] [] [] := ⟨rfl, rfl, by simp⟩

theorem Lists.append {rows rows' : List (List Char)} {found found' : List (Nat × List Nat)}
    {bare bare' : List String} (first : Lists rows found bare) (second : Lists rows' found' bare') :
    Lists (rows ++ rows') (found ++ found') (bare ++ bare') := by
  refine ⟨?_, ?_, List.forall_mem_append.2 ⟨first.inside, second.inside⟩⟩
  · rw [List.filter_append, List.map_append, first.instructions, second.instructions,
      List.map_append]
  · rw [List.filter_append, first.remaining, second.remaining, List.map_append]

theorem lists_listingRow (address : Word) (quad : Quad Word) {source : List Char}
    (inside : IsRow source) :
    Lists [(listingRow address quad source).toList] (numbered address.toNat [quad]) [] := by
  have left := not_isIndented_listingRow address quad source
  refine ⟨?_, ?_, List.forall_mem_singleton.2 (isRow_listingRow address quad inside)⟩
  · rw [List.filter_cons_of_pos (by simp [left]), List.filter_nil, List.map_singleton,
      readInstruction?_listingRow]
    rfl
  · rw [List.filter_cons_of_neg (by simp [left])]
    rfl

/-- Addresses do not wrap as long as the image leaves one behind it. -/
theorem toNat_skip {pc : Word} {n : Nat} (fits : pc.toNat + 4 * n < 2 ^ 32) :
    (pc + 4 * UInt32.ofNat n).toNat = pc.toNat + 4 * n := by
  simp only [UInt32.toNat_add, UInt32.toNat_mul, UInt32.toNat_ofNat, UInt32.toNat_ofNat']
  omega

theorem lists_instructionRows {address : Word} {quad : Quad Word} {rest : List (Quad Word)}
    {source : List Char} (inside : IsRow source) (fits : address.toNat + 4 * rest.length < 2 ^ 32) :
    Lists ((listingRow address quad source :: instructionRows (address + 4) rest).map String.toList)
      (numbered address.toNat (quad :: rest)) [] := by
  induction rest generalizing address quad source with
  | nil => exact lists_listingRow address quad inside
  | cons quad' rest ih =>
    rw [List.length_cons] at fits
    have next : (address + 4).toNat = address.toNat + 4 := @toNat_skip address 1 (by omega)
    have others := @ih (address + 4) quad' [] (by simp [IsRow]) (by omega)
    rw [next] at others
    exact (lists_listingRow address quad inside).append others

theorem isRow_shownSource {line : String} (inside : IsRow line.toList) : IsRow (shownSource line) :=
  fun c mem =>
  inside c (mem_of_mem_trim (List.mem_of_mem_take mem))

theorem isRow_bareRow {line : String} (inside : IsRow line.toList) : IsRow (bareRow line) := by
  refine List.forall_mem_append.2 ⟨fun c mem => ?_, isRow_shownSource inside⟩
  rw [List.eq_of_mem_replicate mem]
  decide

/-- A line shows its instructions, or itself if it has none and is not blank. -/
theorem lists_rows {p : Placed} (inside : IsRow p.statement.source.toList)
    (fits : p.address.toNat + 4 * p.emitted.length < 2 ^ 32) :
    Lists (p.rows.map String.toList) (numbered p.address.toNat p.emitted)
      (if p.emitted = [] ∧ trim p.statement.source.toList ≠ [] then [p.statement.source]
        else []) := by
  unfold Placed.rows
  cases made : p.emitted with
  | nil =>
    have blank : (shownSource p.statement.source).isEmpty = true ↔
        trim p.statement.source.toList = [] := by
      rw [List.isEmpty_iff, shownSource, List.take_eq_nil_iff]
      exact or_iff_right (by decide)
    simp only [blank]
    by_cases none : trim p.statement.source.toList = []
    · rw [if_pos none, if_neg (fun shown => shown.2 none)]
      exact .nil
    · have row : (String.ofList
          (List.replicate (8 + 2 + wordsWidth + 2) ' ' ++ shownSource p.statement.source)).toList =
            bareRow p.statement.source := String.toList_ofList
      have indented : isIndented (bareRow p.statement.source) = true := rfl
      rw [if_neg none, if_pos ⟨trivial, none⟩, List.map_singleton, row]
      refine ⟨?_, ?_, List.forall_mem_singleton.2 (isRow_bareRow inside)⟩
      · rw [List.filter_cons_of_neg (by simp [indented])]
        rfl
      · rw [List.filter_cons_of_pos indented]
        rfl
  | cons quad rest =>
    rw [made, List.length_cons] at fits
    have instruction : ¬ (quad :: rest = [] ∧ trim p.statement.source.toList ≠ []) :=
      fun none => by cases none.1
    rw [if_neg instruction]
    exact lists_instructionRows (isRow_shownSource inside) (by omega)

end Listing

namespace Assembly

theorem Placed.LaidAt.size_pos {p : Placed} {symbols bound : Symbols} {pc : Word}
    (laid : p.LaidAt symbols pc bound) {mnemonic : String}
    (named : p.statement.mnemonic = some mnemonic) : 0 < p.size := by
  obtain ⟨operation, _, counted⟩ := Statement.count_eq_ok.1 (laid.sized mnemonic named).2.1
  have size := Operation.size_eq_ok.1 counted
  cases operation with
  | instruction op => exact size.2 ▸ Nat.one_pos
  | expansion which =>
    rw [size.2]
    cases which <;> decide
  | literal digits => exact size.2.2 ▸ Nat.one_pos

end Assembly

namespace Listing

/-- The rows of lines show the instructions of all of them, and those lines that have none. -/
theorem lists_of_laid {symbols symbols' : Symbols} {pc pc' : Word} {number : Nat}
    {sources : List String} {lines : List Placed}
    (laid : Laid symbols pc number sources lines symbols' pc')
    (sized : ∀ p ∈ lines, p.emitted.length = p.size) (inside : ∀ line ∈ sources, IsRow line.toList)
    (fits : pc.toNat + extent lines < 2 ^ 32) :
    Lists ((lines.flatMap Placed.rows).map String.toList)
      (numbered pc.toNat (lines.flatMap (·.emitted))) (bareLines sources) := by
  induction laid with
  | done => exact .nil
  | @next symbols bound symbols' pc pc' number source sources p lines parsed first others ih =>
    obtain ⟨length, lengths⟩ := List.forall_mem_cons.1 sized
    obtain ⟨row, rows⟩ := List.forall_mem_cons.1 inside
    have own := (Statement.line_of_parse parsed).2
    have reads := Statement.reads_of_parse parsed
    rw [extent_cons] at fits
    have rest := ih lengths rows (by rw [toNat_skip (by omega)]; omega)
    rw [toNat_skip (by omega), ← length] at rest
    have here : Lists (p.rows.map String.toList) (numbered pc.toNat p.emitted)
        (bareLines [source]) := by
      rw [← own] at row ⊢
      cases named : p.statement.mnemonic with
      | none =>
        have empty : p.emitted = [] := List.length_eq_zero_iff.1 (length.trans (first.bare named))
        have bare : body p.statement.source = [] := by
          rw [own, ← List.head?_eq_none_iff, ← reads.mnemonic, named]
        have shown := lists_rows row (by rw [empty]; exact p.address.toNat_lt)
        rw [empty] at shown ⊢
        simpa [bareLines, bare, numbered, List.filter_cons] using shown
      | some mnemonic =>
        have some : p.emitted ≠ [] := List.length_pos_iff.1 (length ▸ first.size_pos named)
        have code : body p.statement.source ≠ [] := by
          rw [own, reads.body_eq named]
          exact List.cons_ne_nil _ _
        have address := (first.sized mnemonic named).1
        have shown := lists_rows row (by rw [address]; omega)
        rw [address] at shown
        simpa [bareLines, code, some, List.filter_cons] using shown
    rw [List.flatMap_cons, List.flatMap_cons, List.map_append, numbered_append, bareLines,
      ← List.singleton_append, List.filter_append]
    exact here.append rest

end Listing

end Chifir
