import Chifir.Proofs.Assembly.Rows

/-!
# What a listing shows

The rows of a listing are the header, the rows of the lines, and the labels under a title. Whatever
the source says, none of its text can be taken for an instruction, for the header or for the title.

1. `Shows` says what is read in the rows.
2. `pairwise_precedes`: labels are shown by address and then by name.
3. `count_title` and `only_instructions`: no other row is like those of the header, the title or an
   instruction.
4. `listing_shows`: all of this for a source that is accepted.
-/

namespace Chifir

open Text Assembly

namespace Listing

/-! ## The parts of a listing -/

/-- The rows of a text, which are kept apart by line feeds alone. -/
def rowsOf (text : String) : List (List Char) := text.toList.splitOn '\n'

/-- The rows behind the header up to the first empty one. -/
def programRows (rows : List (List Char)) : List (List Char) :=
  (rows.drop 2).takeWhile (! ·.isEmpty)

/-- The rows from the first empty one on. -/
def symbolTable (rows : List (List Char)) : List (List Char) :=
  (rows.drop 2).dropWhile (! ·.isEmpty)

/-- The order of labels: by address, and by name where addresses are the same. -/
def Precedes (x y : String × Nat) : Prop := x.2 < y.2 ∨ (x.2 = y.2 ∧ x.1 < y.1)

/-- What is read in the rows of a listing. -/
structure Shows (rows : List (List Char)) (source : String) (words : List Word)
    (symbols : Symbols) : Prop where
  header : rows.take 2 = listingHeader.map String.toList
  /-- The rows that are not indented are the instructions in order, each with its address and its
  four words. -/
  instructions : ((programRows rows).filter (! isIndented ·)).map readInstruction? =
    (List.range (words.length / 4)).map fun i =>
      some (4 * i, ((words.drop (4 * i)).take 4).map UInt32.toNat)
  /-- Their words are the image. -/
  image : (((programRows rows).filter (! isIndented ·)).filterMap readInstruction?).flatMap (·.2) =
    words.map UInt32.toNat
  /-- The indented rows are the other lines of the source. -/
  remaining : (programRows rows).filter isIndented = (bareLines (linesOf source)).map bareRow
  unlabelled : symbols = [] → symbolTable rows = []
  /-- The table of labels has a title, and then each label once with its address. -/
  labelled : symbols ≠ [] → ∃ pairs : List (String × Nat),
    (symbolTable rows).take 2 = [[], "SYMBOLS".toList] ∧
      ((symbolTable rows).drop 2).map readSymbol? = pairs.map some ∧
      pairs.Perm (symbols.map fun s => (s.1, s.2.toNat)) ∧ pairs.Pairwise Precedes
  /-- No other row is empty, or like a row of the header or like the title. -/
  empty : rows.count [] = if symbols = [] then 0 else 1
  title : rows.count "SYMBOLS".toList = if symbols = [] then 0 else 1
  headers : ∀ row ∈ listingHeader.map String.toList, rows.count row = 1
  /-- No other row is like an instruction. -/
  others : rows.filterMap readInstruction? = ((programRows rows).filter (! isIndented ·)).filterMap
    readInstruction?

/-! ## Labels -/

theorem not_mem_of_isName {name : List Char} (named : isName name = true) {c : Char}
    (other : isNamePart c = false) :
    c ∉ name := by
  intro mem
  cases name with
  | nil => cases mem
  | cons first rest =>
    rw [isName, Bool.and_eq_true, List.all_eq_true] at named
    have part : isNamePart c = true := by
      rcases List.mem_cons.1 mem with rfl | later
      · rw [isNamePart, named.1]
        rfl
      · exact named.2 c later
    rw [other] at part
    cases part

theorem names_of_laid {symbols symbols' : Symbols} {pc pc' : Word} {number : Nat}
    {sources : List String} {lines : List Placed}
    (laid : Laid symbols pc number sources lines symbols' pc')
    (names : ∀ s ∈ symbols, isName s.1.toList = true) (distinct : (symbols.map (·.1)).Nodup) :
    (∀ s ∈ symbols', isName s.1.toList = true) ∧ (symbols'.map (·.1)).Nodup := by
  induction laid with
  | done => exact ⟨names, distinct⟩
  | @next symbols bound symbols' pc pc' number source sources p lines parsed first others ih =>
    rcases Statement.cases_of_bind first.binds with ⟨_, rfl⟩ | ⟨name, labelled, fresh, rfl⟩
    · exact ih names distinct
    · have own := (((Statement.reads_of_parse parsed).label name).1 labelled).1
      have other : name ∉ symbols.map (·.1) := by
        intro mem
        obtain ⟨s, known, rfl⟩ := List.mem_map.1 mem
        have different := List.lookup_eq_none_iff.1 fresh s known
        simp at different
      exact ih (List.forall_mem_cons.2 ⟨own, names⟩) (List.nodup_cons.2 ⟨other, distinct⟩)

def symbolRow (s : String × Word) : List Char := (Word.hex8 s.2).toList ++ ' ' :: ' ' :: s.1.toList

theorem toList_symbolRows {symbols : Symbols} (some : symbols ≠ []) :
    (symbolRows symbols).map String.toList =
      [] :: "SYMBOLS".toList :: (symbols.mergeSort symbolBefore).map symbolRow := by
  have row (s : String × Word) : (s!"{Word.hex8 s.2}  {s.1}").toList = symbolRow s := by
    show (Word.hex8 s.2 ++ "  " ++ s.1).toList = _
    simp [symbolRow]
  rw [symbolRows, if_neg (by simpa using some)]
  simp only [List.map_cons, List.map_map, Function.comp_def, row]
  rfl

theorem readAddress?_symbolRow (s : String × Word) :
    readAddress? (symbolRow s) = some (s.2.toNat, s.1.toList) :=
  readAddress?_append s.2.toNat_lt _

theorem readSymbol?_symbolRow (s : String × Word) :
    readSymbol? (symbolRow s) = some (s.1, s.2.toNat) := by
  simp [readSymbol?, readAddress?_symbolRow]

/-- A name has no spaces, so it is not taken for four words. -/
theorem readInstruction?_symbolRow {s : String × Word} (named : isName s.1.toList = true) :
    readInstruction? (symbolRow s) = none := by
  have whole : (s.1.toList.take 35).splitOn ' ' = [s.1.toList.take 35] := by
    have alone : ∀ word ∈ [s.1.toList.take 35], ' ' ∉ word := List.forall_mem_singleton.2 fun mem =>
      not_mem_of_isName named (by decide) (List.mem_of_mem_take mem)
    have split := List.splitOn_intercalate ' ' alone (by simp)
    rwa [List.intercalate_singleton] at split
  rw [readInstruction?, readAddress?_symbolRow, Option.bind_some]
  simp only [whole]
  cases only : readWord? (s.1.toList.take 35) with
  | none => simp [only]
  | some n => simp [only]

theorem symbolBefore_iff {x y : String × Word} :
    symbolBefore x y = true ↔ x.2.toNat < y.2.toNat ∨ (x.2.toNat = y.2.toNat ∧ x.1 ≤ y.1) := by
  simp [symbolBefore, UInt32.lt_iff_toNat_lt, ← UInt32.toNat_inj]

theorem pairwise_symbolBefore (symbols : Symbols) :
    (symbols.mergeSort symbolBefore).Pairwise fun x y => symbolBefore x y = true := by
  refine List.pairwise_mergeSort (fun x y z first second => ?_) (fun x y => ?_) symbols
  · rw [symbolBefore_iff] at first second ⊢
    rcases first with less | ⟨same, name⟩
    · exact .inl (by omega)
    · rcases second with less | ⟨same', name'⟩
      · exact .inl (by omega)
      · exact .inr ⟨same.trans same', String.le_trans name name'⟩
  · rw [Bool.or_eq_true, symbolBefore_iff, symbolBefore_iff]
    rcases Nat.lt_trichotomy x.2.toNat y.2.toNat with less | same | more
    · exact .inl (.inl less)
    · rcases String.le_total x.1 y.1 with name | name
      · exact .inl (.inr ⟨same, name⟩)
      · exact .inr (.inr ⟨same.symm, name⟩)
    · exact .inr (.inl more)

/-- Labels stand in their order, so none is there twice. -/
theorem pairwise_precedes {symbols : Symbols} (distinct : (symbols.map (·.1)).Nodup) :
    ((symbols.mergeSort symbolBefore).map fun s => (s.1, s.2.toNat)).Pairwise Precedes := by
  have distinct' : ((symbols.mergeSort symbolBefore).map (·.1)).Nodup :=
    ((List.mergeSort_perm symbols symbolBefore).map (·.1)).nodup_iff.2 distinct
  rw [List.pairwise_map]
  refine (pairwise_symbolBefore symbols).imp₂ (fun x y before other => ?_)
    (List.pairwise_map.1 distinct')
  rcases symbolBefore_iff.1 before with less | ⟨same, name⟩
  · exact .inl less
  · exact .inr ⟨same, String.not_le.1 fun back => other (String.le_antisymm name back)⟩

/-! ## Listings -/

/-- A row that is neither an instruction nor a line of source nor a label. -/
structure IsTitle (row : List Char) : Prop where
  unread : readAddress? row = none
  short : row.take 5 ≠ List.replicate 5 ' '

theorem isTitle_header : ∀ row ∈ listingHeader.map String.toList, IsTitle row := by
  intro row mem
  simp only [listingHeader, List.map_cons, List.map_nil, List.mem_cons, List.not_mem_nil, or_false]
    at mem
  rcases mem with rfl | rfl
  · exact ⟨readAddress?_eq_none (by decide), by decide⟩
  · exact ⟨readAddress?_eq_none (by decide), by decide⟩

theorem isTitle_nil : IsTitle [] := ⟨rfl, by decide⟩

theorem isTitle_symbols : IsTitle "SYMBOLS".toList := ⟨readAddress?_eq_none (by decide), by decide⟩

/-- No title is among the rows of lines, whatever these say. -/
theorem Lists.title_not_mem {rows : List (List Char)} {found : List (Nat × List Nat)}
    {bare : List String} (lists : Lists rows found bare) {row : List Char} (title : IsTitle row) :
    row ∉ rows := by
  intro mem
  cases left : isIndented row with
  | true =>
    have shown : row ∈ bare.map bareRow := lists.remaining ▸ List.mem_filter.2 ⟨mem, left⟩
    obtain ⟨line, _, rfl⟩ := List.mem_map.1 shown
    exact title.short rfl
  | false =>
    have read : readInstruction? row ∈ found.map some := by
      rw [← lists.instructions]
      exact List.mem_map_of_mem (List.mem_filter.2 ⟨mem, by simp [left]⟩)
    rw [readInstruction?_eq_none title.unread] at read
    simp at read

theorem symbolRow_ne_title {row : List Char} (title : IsTitle row) (s : String × Word) :
    symbolRow s ≠ row := by
  rintro rfl
  have unread := title.unread
  rw [readAddress?_symbolRow] at unread
  cases unread

theorem rowsOf_joinLines {rows : List String} (some : rows ≠ [])
    (inside : ∀ row ∈ rows, '\n' ∉ row.toList) :
    rowsOf (joinLines rows) = rows.map String.toList := by
  rw [rowsOf, joinLines, String.toList_intercalate]
  refine List.splitOn_intercalate '\n' (fun row mem => ?_) (by simpa using some)
  obtain ⟨text, there, rfl⟩ := List.mem_map.1 mem
  exact inside text there

theorem filterMap_of_map {α β : Type} {f : α → Option β} {l : List α} {m : List β}
    (each : l.map f = m.map some) : l.filterMap f = m := by
  rw [← Function.id_comp f, ← List.filterMap_map, each, List.filterMap_map]
  exact List.filterMap_some

/-- The listing of lines with these rows. -/
def listingOf (program : List (List Char)) (symbols : Symbols) : List (List Char) :=
  listingHeader.map String.toList ++ (program ++ (symbolRows symbols).map String.toList)

section Listing
variable {program : List (List Char)} {found : List (Nat × List Nat)} {bare : List String}
    {symbols : Symbols}

/-- What `programRows` and `symbolTable` find in a listing: the rows of lines, and those of labels.
-/
theorem parts_eq (lists : Lists program found bare) :
    programRows (listingOf program symbols) = program ∧
      symbolTable (listingOf program symbols) = (symbolRows symbols).map String.toList := by
  have whole : ∀ row ∈ program, (! row.isEmpty) = true := by
    intro row mem
    cases row with
    | nil => exact absurd mem (lists.title_not_mem isTitle_nil)
    | cons c row => rfl
  have stop : ((symbolRows symbols).map String.toList).takeWhile (! ·.isEmpty) = [] ∧
      ((symbolRows symbols).map String.toList).dropWhile (! ·.isEmpty) =
        (symbolRows symbols).map String.toList := by
    unfold symbolRows
    split
    · exact ⟨rfl, rfl⟩
    · exact ⟨rfl, rfl⟩
  constructor
  · show (program ++ _).takeWhile _ = _
    rw [List.takeWhile_append_of_pos whole, stop.1, List.append_nil]
  · show (program ++ _).dropWhile _ = _
    rw [List.dropWhile_append_of_pos whole, stop.2]

/-- A title stands only where titles stand. -/
theorem count_title (lists : Lists program found bare) {row : List Char} (title : IsTitle row) :
    (listingOf program symbols).count row =
      (listingHeader.map String.toList).count row +
        (if symbols = [] then [] else [[], "SYMBOLS".toList]).count row := by
  rw [listingOf, List.count_append, List.count_append,
    List.count_eq_zero.2 (lists.title_not_mem title), Nat.zero_add]
  by_cases none : symbols = []
  · subst none
    rfl
  · have labels : ((symbols.mergeSort symbolBefore).map symbolRow).count row = 0 := by
      refine List.count_eq_zero.2 fun mem => ?_
      obtain ⟨s, _, same⟩ := List.mem_map.1 mem
      exact symbolRow_ne_title title s same
    have table : [] :: "SYMBOLS".toList :: (symbols.mergeSort symbolBefore).map symbolRow =
        [[], "SYMBOLS".toList] ++ (symbols.mergeSort symbolBefore).map symbolRow := rfl
    rw [toList_symbolRows none, if_neg none, table, List.count_append, labels]
    rfl

theorem only_instructions (names : ∀ s ∈ symbols, isName s.1.toList = true)
    (program : List (List Char)) :
    (listingOf program symbols).filterMap readInstruction? =
      (program.filter (! isIndented ·)).filterMap readInstruction? := by
  have unread {row : List Char} (title : IsTitle row) : readInstruction? row = none :=
    readInstruction?_eq_none title.unread
  have header : (listingHeader.map String.toList).filterMap readInstruction? = [] :=
    List.filterMap_eq_nil_iff.2 fun row mem => unread (isTitle_header row mem)
  have table : ((symbolRows symbols).map String.toList).filterMap readInstruction? = [] := by
    by_cases none : symbols = []
    · rw [none]
      rfl
    · rw [toList_symbolRows none, List.filterMap_cons_none (unread isTitle_nil),
        List.filterMap_cons_none (unread isTitle_symbols), List.filterMap_eq_nil_iff]
      intro row mem
      obtain ⟨s, there, rfl⟩ := List.mem_map.1 mem
      exact readInstruction?_symbolRow
        (names s ((List.mergeSort_perm symbols symbolBefore).mem_iff.1 there))
  have indented : ∀ row ∈ program, isIndented row = true → readInstruction? row = none := by
    intro row _ left
    rw [isIndented, beq_iff_eq] at left
    refine readInstruction?_eq_none (readAddress?_eq_none ?_)
    rw [left]
    rfl
  rw [listingOf, List.filterMap_append, List.filterMap_append, header, table, List.nil_append,
    List.append_nil, List.filterMap_filter]
  refine List.filterMap_congr fun row mem => ?_
  cases left : isIndented row with
  | true => simpa using indented row mem left
  | false => simp

theorem lineFeed_not_mem (lists : Lists program found bare)
    (names : ∀ s ∈ symbols, isName s.1.toList = true) :
    ∀ row ∈ listingOf program symbols, '\n' ∉ row := by
  refine List.forall_mem_append.2 ⟨by decide, List.forall_mem_append.2 ⟨fun row mem feed => ?_, ?_⟩⟩
  · cases lists.inside row mem '\n' feed
  · by_cases none : symbols = []
    · rw [none]
      exact fun row mem => by cases mem
    · rw [toList_symbolRows none]
      refine List.forall_mem_cons.2 ⟨by simp, List.forall_mem_cons.2 ⟨by decide, fun row mem => ?_⟩⟩
      obtain ⟨s, there, rfl⟩ := List.mem_map.1 mem
      have named := names s ((List.mergeSort_perm symbols symbolBefore).mem_iff.1 there)
      have digits : '\n' ∉ (Word.hex8 s.2).toList := fun feed => by
        cases (isSolid_digits s.2).2 '\n' feed
      simp [symbolRow, digits, not_mem_of_isName named (show isNamePart '\n' = false by decide)]

/-- Rows of lines between the header and the labels show what the lines have, as `Shows` asks. -/
theorem shows_of_lists {source : String} {words : List Word} {quads : List (Quad Word)}
    (lists : Lists program (numbered 0 quads) (bareLines (linesOf source)))
    (image : words = quads.flatMap Quad.toList) (names : ∀ s ∈ symbols, isName s.1.toList = true)
    (distinct : (symbols.map (·.1)).Nodup) :
    Shows (listingOf program symbols) source words symbols := by
  obtain ⟨own, table⟩ := @parts_eq _ _ _ symbols lists
  have many : words.length / 4 = quads.length := by
    rw [image, length_flatMap_toList, Nat.mul_div_cancel_left _ (by decide)]
  constructor
  · rfl
  · rw [own, lists.instructions, numbered_eq, many, List.map_map, image]
    simp [Function.comp_def]
  · rw [own, filterMap_of_map lists.instructions, flatMap_numbered, image]
  · rw [own, lists.remaining]
  · intro none
    rw [table, none]
    rfl
  · intro some
    rw [table, toList_symbolRows some]
    refine ⟨_, rfl, ?_, ((List.mergeSort_perm symbols symbolBefore).map _),
      pairwise_precedes distinct⟩
    simp [readSymbol?_symbolRow, Function.comp_def]
  · rw [count_title lists isTitle_nil]
    split <;> decide
  · rw [count_title lists isTitle_symbols]
    split <;> decide
  · intro row mem
    rw [count_title lists (isTitle_header row mem)]
    revert row
    split <;> decide
  · rw [own, only_instructions names]

end Listing

end Listing

open Listing

/-- The listing of a source shows its whole image and all its labels, if the image leaves an address
behind it. -/
theorem listing_shows {source : String} {words : List Word} (accepted : assemble source = .ok words)
    (small : words.length < 2 ^ 32) :
    Shows (rowsOf (Assembly.ofSource source).listing) source words
      (Assembly.ofSource source).symbols := by
  obtain ⟨laid, _, encoded, image⟩ := laid_of_assemble accepted
  have sized := laid.sized encoded
  have inside : ∀ line ∈ linesOf source, IsRow line.toList :=
    fun line mem => isRow_of_mem_linesOf mem
  have fits : (0 : Word).toNat + extent (Assembly.ofSource source).lines < 2 ^ 32 := by
    rw [← length_imageOf sized, ← image]
    exact (Nat.zero_add _).symm ▸ small
  have lists := lists_of_laid laid sized inside fits
  obtain ⟨names, distinct⟩ := names_of_laid laid (by simp) (by simp)
  have rows : (listingHeader ++ (Assembly.ofSource source).lines.flatMap Placed.rows ++
      symbolRows (Assembly.ofSource source).symbols).map String.toList =
        listingOf (((Assembly.ofSource source).lines.flatMap Placed.rows).map String.toList)
          (Assembly.ofSource source).symbols := by
    rw [List.map_append, List.map_append, List.append_assoc, listingOf]
  rw [Assembly.listing, rowsOf_joinLines (by simp [listingHeader]), rows]
  · exact shows_of_lists lists (image.trans List.flatMap_assoc.symm) names distinct
  · exact fun row mem => lineFeed_not_mem lists names _ (rows ▸ List.mem_map_of_mem mem)

/-- A label that is spelled like the title, a comment that looks like an instruction, a blank line,
a macro of two instructions, and two labels of the same address. -/
theorem listing_shows_forged :
    let source :=
      "SYMBOLS:\n;00000000  00000010 00000000 00000000 00000000\n \nb: jne b a ; twice\n a:"
    let words : List Word := [2, 3, 8, 8, 1, 7, 0, 0]
    let rows := rowsOf (Assembly.ofSource source).listing
    assemble source = .ok words ∧ words.length < 2 ^ 32 ∧
      Shows rows source words (Assembly.ofSource source).symbols ∧
      rows.filterMap readInstruction? = [(0, [2, 3, 8, 8]), (4, [1, 7, 0, 0])] := by
  intro source words rows
  have accepted : assemble source = .ok words := by decide +kernel
  have small : words.length < 2 ^ 32 := by decide
  have shows := listing_shows accepted small
  have instructions : ((programRows rows).filter (! isIndented ·)).map readInstruction? =
      [(0, [2, 3, 8, 8]), (4, [1, 7, 0, 0])].map some := shows.instructions.trans (by decide)
  exact ⟨accepted, small, shows, shows.others.trans (filterMap_of_map instructions)⟩

end Chifir
