import Chifir.Proofs.Assembly.Spelling
import Chifir.Proofs.Memory.Loading

/-!
# Disassembly assembled again

The lines of a disassembly, without their addresses and the marks of words that are no instruction,
are source text. It stands for the words that were disassembled, save that `0xADD` in front of an
instruction spells the mnemonic of addition.

1. `bareText` takes addresses and marks away.
2. `bareText_disassemblyText`: what is left are rows of a mnemonic or a number and three numbers.
3. `spells_bareRow`: such a row spells its instruction, or one of addition.
4. `reassembled_iff`: which words come back.
-/

namespace Chifir

open Text Assembly

/-! ## Taking addresses away -/

def afterAddress : List Char → List Char
  | ':' :: ' ' :: r => r
  | _ :: r => afterAddress r
  | [] => []

/-- Text without the mark `.word` of words that are no instruction. -/
def dropMark : List Char → List Char
  | '.' :: 'w' :: 'o' :: 'r' :: 'd' :: ' ' :: r => r
  | r => r

def bareLine (line : String) : String := String.ofList (dropMark (afterAddress line.toList))

/-- A disassembly without addresses and marks: `bareLine` of each line. -/
def bareText (text : String) : String := joinLines ((linesOf text).map bareLine)

theorem afterAddress_append {address r : List Char} (plain : ':' ∉ address) :
    afterAddress (address ++ ':' :: ' ' :: r) = r := by
  induction address with
  | nil => rfl
  | cons c address ih =>
    rw [List.mem_cons, not_or] at plain
    rw [List.cons_append, afterAddress, ih plain.2]
    rintro r' rfl
    exact absurd rfl plain.1

/-! ## Rows -/

/-- What is written of the first word of an instruction. -/
def firstToken (w : Word) : String :=
  match Opcode.ofWord? w with
  | some op => op.name
  | none => hex (Word.toInt w)

def bareRow (q : Quad Word) : String :=
  spaced [firstToken q.opcode, hex (Word.toInt q.a), hex (Word.toInt q.b), hex (Word.toInt q.c)]

/-- The word that comes back for the first word of an instruction. -/
def rereadFirst (w : Word) : Word := if w = 0xADD then Opcode.add.word else w

theorem hex_eq_name {w : Word} {op : Opcode} (same : hex (Word.toInt w) = op.name) : w = 0xADD := by
  have value := (isPrinted_hex w).value
  have digits := (isPrinted_hex w).digits.isHex
  rw [same] at value digits
  -- of all mnemonics just one is made of hexadecimal digits
  obtain rfl : op = .add := by
    revert digits
    cases op <;> decide
  exact UInt32.toNat_inj.1 value.symm

theorem begins_firstToken (w : Word) :
    IsToken (firstToken w) ∧ Begins (firstToken w) (rereadFirst w) := by
  unfold firstToken rereadFirst
  cases code : Opcode.ofWord? w with
  | some op =>
    have other : op.word ≠ 0xADD := by cases op <;> decide
    rw [Opcode.ofWord?_eq_some.1 code, if_neg other]
    exact ⟨isToken_name op, begins_name op⟩
  | none =>
    have printed := isPrinted_hex w
    refine ⟨printed.isToken, ?_⟩
    by_cases same : w = 0xADD
    · have spelled : hex (Word.toInt 0xADD) = Opcode.add.name := by decide +kernel
      subst same
      rw [if_pos rfl]
      exact spelled ▸ begins_name .add
    · rw [if_neg same]
      exact printed.begins fun op equal => same (hex_eq_name equal)

/-- A row spells its instruction, or one of addition. -/
theorem spells_bareRow (q : Quad Word) :
    IsRow (bareRow q).toList ∧ Spells (bareRow q) [{ q with opcode := rereadFirst q.opcode }] :=
  spells_row (begins_firstToken q.opcode).1 (begins_firstToken q.opcode).2 (isPrinted_hex q.a)
    (isPrinted_hex q.b) (isPrinted_hex q.c)

/-- What stands between the address of an instruction and its row. -/
def markOf (w : Word) : List Char :=
  match Opcode.ofWord? w with
  | some _ => []
  | none => ['.', 'w', 'o', 'r', 'd', ' ']

theorem toList_text (address : Int) (q : Quad Word) :
    (Instruction.text ⟨address, q.map Word.toInt⟩).toList =
      (hex8 address).toList ++ ':' :: ' ' :: (markOf q.opcode ++ (bareRow q).toList) := by
  have operation : Instruction.operation? ⟨address, q.map Word.toInt⟩ =
      Opcode.ofWord? q.opcode := by
    rw [Instruction.operation?, Opcode.ofInt?]
    exact if_pos (Int.natCast_nonneg q.opcode.toNat)
  unfold Instruction.text bareRow firstToken markOf
  rw [operation, toList_spaced]
  cases Opcode.ofWord? q.opcode with
  | some op => simp [Quad.map, toString_text]
  | none => simp [Quad.map, toString_text]

theorem isRow_text (address : Int) (q : Quad Word) :
    IsRow (Instruction.text ⟨address, q.map Word.toInt⟩).toList := by
  have mark : IsRow (markOf q.opcode) := by
    unfold markOf
    split <;> decide
  rw [toList_text]
  refine List.forall_mem_append.2 ⟨(isSolid_hex8 address).isRow, ?_⟩
  refine List.forall_mem_cons.2 ⟨by decide, List.forall_mem_cons.2 ⟨by decide, ?_⟩⟩
  exact List.forall_mem_append.2 ⟨mark, (spells_bareRow q).1⟩

theorem dropMark_of_ne {s : List Char} (other : s.head? ≠ some '.') : dropMark s = s := by
  unfold dropMark
  split
  · exact absurd rfl other
  · rfl

theorem head?_bareRow {q : Quad Word} {op : Opcode} (code : Opcode.ofWord? q.opcode = some op) :
    (bareRow q).toList.head? ≠ some '.' := by
  have name : op.name.toList ≠ [] ∧
    op.name.toList.head? ≠ some '.' := by cases op <;> decide +kernel
  rw [bareRow, toList_spaced, firstToken, code, List.map_cons, List.map_cons,
    List.intercalate_cons_cons, List.append_assoc, List.head?_append_of_ne_nil _ name.1]
  exact name.2

theorem bareLine_text (address : Int) (q : Quad Word) :
    bareLine (Instruction.text ⟨address, q.map Word.toInt⟩) = bareRow q := by
  apply String.toList_injective
  rw [bareLine, toList_text, afterAddress_append (colon_not_mem_hex8 address), String.toList_ofList,
    markOf]
  cases code : Opcode.ofWord? q.opcode with
  | some op =>
    show dropMark (bareRow q).toList = _
    exact dropMark_of_ne (head?_bareRow code)
  | none => rfl

theorem bareText_joinLines {rows : List String} (inside : ∀ row ∈ rows, IsRow row.toList) :
    bareText (joinLines rows) = joinLines (rows.map bareLine) := by
  cases rows with
  | nil => decide +kernel
  | cons row rows => rw [bareText, linesOf_joinLines (List.cons_ne_nil row rows) inside]

theorem bareText_disassemblyText {decoded : List (Instruction Word)} {start : Int}
    {quads : List (Quad Word)} (same : decoded.map Instruction.toInt = standing start quads) :
    bareText (disassemblyText decoded) = joinLines (quads.map bareRow) := by
  have texts : decoded.map (fun i => i.toInt.text) =
      (standing start quads).map Instruction.text := by
    rw [← same, List.map_map]
    rfl
  have rows : (∀ row ∈ (standing start quads).map Instruction.text, IsRow row.toList) ∧
      ((standing start quads).map Instruction.text).map bareLine = quads.map bareRow := by
    clear same texts
    induction quads generalizing start with
    | nil => exact ⟨by simp [standing], rfl⟩
    | cons q quads ih =>
      obtain ⟨inside, bare⟩ := @ih (start + 4)
      refine ⟨List.forall_mem_cons.2 ⟨isRow_text start q, inside⟩, ?_⟩
      rw [standing, List.map_cons, List.map_cons, List.map_cons, bareLine_text, bare]
  rw [disassemblyText, texts, bareText_joinLines rows.1, rows.2]

/-! ## What comes back -/

/-- Words as they come back: `0xADD` in front of an instruction comes back as the opcode of
addition. -/
def reassembled (words : List Word) : List Word :=
  words.mapIdx fun i w => if i % 4 = 0 then rereadFirst w else w

theorem reassembled_flatMap (quads : List (Quad Word)) :
    reassembled (quads.flatMap Quad.toList) =
      (quads.map fun q => { q with opcode := rereadFirst q.opcode }).flatMap Quad.toList := by
  induction quads with
  | nil => rfl
  | cons q quads ih =>
    rw [List.flatMap_cons, List.map_cons, List.flatMap_cons, ← ih, reassembled, List.mapIdx_append]
    refine congrArg₂ _ rfl ?_
    rw [reassembled]
    refine congrArg₂ _ (funext fun i => ?_) rfl
    rw [show i + q.toList.length = i + 4 from rfl, Nat.add_mod_right]

theorem reassembled_eq_self {words : List Word} :
    reassembled words = words ↔ ∀ i : Nat, words[4 * i]? ≠ some 0xADD := by
  rw [reassembled, List.ext_getElem?_iff]
  constructor
  · intro same i there
    have again := same (4 * i)
    rw [List.getElem?_mapIdx, there, Option.map_some, if_pos (Nat.mul_mod_right 4 i), rereadFirst,
      if_pos rfl] at again
    exact absurd (Option.some.inj again) (by decide)
  · intro none i
    rw [List.getElem?_mapIdx]
    cases there : words[i]? with
    | none => rfl
    | some w =>
      rw [Option.map_some]
      split <;> rename_i first
      · have other : w ≠ 0xADD := by
          rintro rfl
          exact none (i / 4) (by rw [Nat.mul_div_cancel' (Nat.dvd_of_mod_eq_zero first), there])
        rw [rereadFirst, if_neg other]
      · rfl

theorem assemble_bareRows (quads : List (Quad Word)) :
    assemble (joinLines (quads.map bareRow)) = .ok (reassembled (quads.flatMap Quad.toList)) := by
  rw [(assemble_rows quads spells_bareRow).1, reassembled_flatMap]

/-- The text of a disassembly is always accepted, and exactly the images in which no `0xADD` stands
in front of an instruction come back. An image for which memory has no room has no disassembly. -/
theorem reassembled_iff {words : List Word} (whole : words.length % 4 = 0) :
    (words.length ≤ 2 ^ 32 →
      ∃ decoded, disassembleImage (words.map Word.toInt) 0 none = .ok decoded ∧
        assemble (bareText (disassemblyText decoded)) = .ok (reassembled words)) ∧
      ((∃ decoded, disassembleImage (words.map Word.toInt) 0 none = .ok decoded ∧
          assemble (bareText (disassemblyText decoded)) = .ok words) ↔
        words.length ≤ 2 ^ 32 ∧ ∀ i : Nat, words[4 * i]? ≠ some 0xADD) := by
  obtain ⟨quads, rfl⟩ := exists_quads whole
  have comes (room : (quads.flatMap Quad.toList).length ≤ 2 ^ 32) :
      ∃ decoded, disassembleImage ((quads.flatMap Quad.toList).map Word.toInt) 0 none =
          .ok decoded ∧
        assemble (bareText (disassemblyText decoded)) =
          .ok (reassembled (quads.flatMap Quad.toList)) := by
    obtain ⟨decoded, done, same⟩ := disassembleImage_eq quads (length_flatMap_toList quads ▸ room)
    exact ⟨decoded, done, by rw [bareText_disassemblyText same, assemble_bareRows]⟩
  refine ⟨comes, ?_, ?_⟩
  · rintro ⟨decoded, done, back⟩
    have room : (quads.flatMap Quad.toList).length ≤ 2 ^ 32 := by
      simpa using room_of_disassembleImage done
    obtain ⟨decoded', done', same⟩ := comes room
    rw [done] at done'
    cases done'
    rw [back] at same
    exact ⟨room, reassembled_eq_self.1 (Except.ok.inj same).symm⟩
  · rintro ⟨room, plain⟩
    rw [← reassembled_eq_self] at plain
    obtain ⟨decoded, done, same⟩ := comes room
    exact ⟨decoded, done, by rw [same, plain]⟩

/-- In front of an instruction `0xADD` comes back as the opcode of addition; as an operand it comes
back. -/
theorem reassembled_iff_add :
    let words : List Word := [0x11, 0xADD, 0, 1, 0xADD, 1, 2, 0xFFFFFFFF]
    words.length % 4 = 0 ∧ words.length ≤ 2 ^ 32 ∧ words[4 * 1]? = some 0xADD ∧
      ∃ decoded, disassembleImage (words.map Word.toInt) 0 none = .ok decoded ∧
        assemble (bareText (disassemblyText decoded)) =
          .ok [0x11, 0xADD, 0, 1, 7, 1, 2, 0xFFFFFFFF] ∧
        assemble (bareText (disassemblyText decoded)) ≠ .ok words := by
  intro words
  have whole : words.length % 4 = 0 := by decide
  have room : words.length ≤ 2 ^ 32 := by decide
  have spelled : words[4 * 1]? = some 0xADD := rfl
  obtain ⟨comes, back⟩ := reassembled_iff whole
  obtain ⟨decoded, done, same⟩ := comes room
  exact ⟨whole, room, spelled, decoded, done, same,
    fun equal => (back.1 ⟨decoded, done, equal⟩).2 1 spelled⟩

end Chifir
