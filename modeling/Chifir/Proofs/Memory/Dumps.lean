import Chifir.Memory.Dump
import Chifir.Proofs.Memory.Blocks
import Chifir.Proofs.Memory.Histories
import Chifir.Proofs.Text.Digits

/-!
# Blocks and dumps

A block that lies in memory is the words that reading one by one would give, and a dump shows them
in rows of four.

1. `Walk.turn`: what one page gives to a block. The walk from page to page ends, after as many turns
   as there are pages with words of the block (`Memory.walk_ends`).
2. `Memory.readBlock_eq`: blocks that lie in memory are read, and no others.
3. `getElem?_inFours`, `getElem?_dumpRows`: the rows of a dump one by one. `ShowsRow` says what can
   be read in a row.
4. `dumps_agree_with_words`: all of this for blocks and for dumps.
-/

namespace Chifir

open Text

/-! ## The walk from page to page -/

/-- How far a block has been read: the next address, how many words are left, and those read. -/
structure Walk where
  next : Nat
  left : Nat
  words : Array Word

namespace Walk

variable (m : Memory)

/-- One turn takes what the page has for the block. There is none when no word is left. -/
def turn (w : Walk) : Option Walk :=
  if w.left = 0 then none
  else
    let offset := w.next % pageSize
    let count := min (pageSize - offset) w.left
    let piece :=
      match m.pages[w.next / pageSize]? with
      | none => Array.replicate count 0
      | some page => page.toArray.extract offset (offset + count)
    some ⟨w.next + count, w.left - count, w.words ++ piece⟩

/-- The walk ends after so many turns with these words. -/
inductive Ends : Walk → Nat → Array Word → Prop
  | done {w : Walk} (last : w.turn m = none) : Ends w 0 w.words
  | turn {w next : Walk} {turns : Nat} {words : Array Word} (turned : w.turn m = some next)
      (later : Ends next turns words) : Ends w (turns + 1) words

def pages (start length : Nat) : Nat :=
  if length = 0 then 0 else (start + length - 1) / pageSize - start / pageSize + 1

theorem pages_turn {start length : Nat} (some : length ≠ 0) :
    pages start length =
      pages (start + min (pageSize - start % pageSize) length)
        (length - min (pageSize - start % pageSize) length) + 1 := by
  have inPage := Nat.mod_lt start (show 0 < pageSize by decide)
  have place := Nat.div_add_mod start pageSize
  rw [pages, if_neg some]
  by_cases ends : length ≤ pageSize - start % pageSize
  · have same : (start + length - 1) / pageSize = start / pageSize := by
      simp only [pageSize] at *
      omega
    rw [Nat.min_eq_right ends, Nat.sub_self, pages, if_pos rfl, same, Nat.sub_self]
  · have next : (start + (pageSize - start % pageSize)) / pageSize = start / pageSize + 1 := by
      simp only [pageSize] at *
      omega
    have last :
        start + (pageSize - start % pageSize) + (length - (pageSize - start % pageSize)) - 1 =
          start + length - 1 := by
      omega
    have beyond : start / pageSize + 1 ≤ (start + length - 1) / pageSize := by
      simp only [pageSize] at *
      omega
    rw [Nat.min_eq_left (by omega), pages, if_neg (by omega), last, next]
    omega

end Walk

namespace Memory

variable (m : Memory)

/-- The walk from page to page always `Ends`, one turn for each of the `pages` that have words of
the block. -/
theorem walk_ends (start length : Nat) (words : Array Word) :
    Walk.Ends m ⟨start, length, words⟩ (Walk.pages start length)
      (m.blockFrom start length words) := by
  fun_induction blockFrom m start length words with
  | case1 start words => exact .done rfl
  | case2 start length words nonempty offset count piece ih =>
    rw [Walk.pages_turn nonempty]
    exact .turn (if_neg nonempty) ih

/-! ## Blocks -/

variable {m} {start length : Int}

/-- A block lies in memory: from `start` on there are `length` addresses. -/
def Spans (start length : Int) : Prop :=
  0 ≤ start ∧ start < 2 ^ 32 ∧ 0 ≤ length ∧ start + length ≤ 2 ^ 32

theorem readBlock_eq (spans : Spans start length) :
    m.readBlock start length = .ok (m.block start.toNat length.toNat) := by
  obtain ⟨low, high, some, fits⟩ := spans
  obtain ⟨a, rfl⟩ := exists_toInt (n := start) ⟨low, high⟩
  rw [readBlock, Word.address_toInt, ok_bind, if_neg (by simp only [addressLimit]; omega)]
  rfl

theorem readBlock_of_not (beyond : ¬ Spans start length) :
    ∃ e, m.readBlock start length = .error e := by
  rw [readBlock]
  by_cases address : IsAddress start
  · obtain ⟨a, rfl⟩ := exists_toInt address
    have tooLong : length < 0 ∨ addressLimit < Word.toInt a + length := by
      have below := address
      simp only [Spans, IsAddress, addressLimit] at *
      omega
    rw [Word.address_toInt, ok_bind, if_pos tooLong]
    exact ⟨_, rfl⟩
  · rw [address_of_not address]
    exact ⟨_, rfl⟩

theorem exists_readBlock_iff :
    (∃ words, m.readBlock start length = .ok words) ↔ Spans start length := by
  constructor
  · rintro ⟨words, done⟩
    by_contra beyond
    obtain ⟨e, refused⟩ := readBlock_of_not (m := m) beyond
    rw [refused] at done
    cases done
  · exact fun spans => ⟨_, readBlock_eq spans⟩

/-- The words of a block are those that `read` gives one by one. -/
theorem map_block (spans : Spans start length) :
    (m.block start.toNat length.toNat).toList.map .ok =
      (List.range length.toNat).map fun i : Nat => m.read (start + i) := by
  obtain ⟨low, high, some, fits⟩ := spans
  rw [m.toList_block (by simp only [addressLimit]; omega), List.range'_eq_map_range, List.map_map,
    List.map_map]
  refine List.map_congr_left fun i mem => ?_
  have inside := List.mem_range.1 mem
  obtain ⟨a, here⟩ := exists_toInt (n := start + i) ⟨by omega, by omega⟩
  have number : start.toNat + i = a.toNat := by
    rw [Word.toInt] at here
    omega
  rw [Function.comp_apply, Function.comp_apply, number, UInt32.ofNat_toNat, here, read,
    Word.address_toInt]
  rfl

end Memory

/-! ## Rows -/

theorem inFours_of_ne_nil {α : Type} {xs : List α} (some : xs ≠ []) :
    inFours xs = xs.take 4 :: inFours (xs.drop 4) := by
  rcases xs with _ | ⟨a, _ | ⟨b, _ | ⟨c, _ | ⟨d, r⟩⟩⟩⟩
  · exact absurd rfl some
  · rfl
  · rfl
  · rfl
  · rfl

/-- The pieces have four members each, but for the last one, which has what remains. -/
theorem getElem?_inFours {α : Type} (xs : List α) (i : Nat) :
    (inFours xs)[i]? = if 4 * i < xs.length then some ((xs.drop (4 * i)).take 4) else none := by
  induction i generalizing xs with
  | zero =>
    cases xs with
    | nil => rfl
    | cons x r => rw [inFours_of_ne_nil (List.cons_ne_nil x r)]; rfl
  | succ i ih =>
    cases xs with
    | nil => rfl
    | cons x r =>
      rw [inFours_of_ne_nil (List.cons_ne_nil x r), List.getElem?_cons_succ, ih, List.drop_drop,
        List.length_drop]
      congr 1
      · rw [eq_iff_iff]
        omega
      · congr 3
        omega

theorem length_inFours {α : Type} (xs : List α) : (inFours xs).length = (xs.length + 3) / 4 := by
  have inside (i : Nat) : i < (inFours xs).length ↔ 4 * i < xs.length := by
    rw [← not_iff_not, Nat.not_lt, ← List.getElem?_eq_none_iff, getElem?_inFours]
    simp
  have last := inside ((inFours xs).length - 1)
  have next := inside (inFours xs).length
  omega

theorem getElem?_dumpRows (start : Nat) (groups : List (List Word)) (i : Nat) :
    (dumpRows start groups)[i]? =
      groups[i]?.map fun group =>
        s!"{hex8 (start + 4 * i : Nat)}  {spaced (group.map Word.hex8)}" := by
  induction groups generalizing start i with
  | nil => rfl
  | cons group groups ih =>
    cases i with
    | zero => rfl
    | succ i =>
      rw [dumpRows, List.getElem?_cons_succ, ih, List.getElem?_cons_succ, Nat.add_assoc,
        Nat.mul_succ, Nat.add_comm 4]

theorem length_dumpRows (start : Nat) (groups : List (List Word)) :
    (dumpRows start groups).length = groups.length := by
  induction groups generalizing start with
  | nil => rfl
  | cons group groups ih => rw [dumpRows, List.length_cons, List.length_cons, ih]

def numbersIn (row : String) : List Nat := (splitWords row).map fun word => hexToNat word.toList

/-- A row shows words: it is made of their address and of them, and it can be read back. -/
structure ShowsRow (row : String) (address : Nat) (words : List Word) : Prop where
  printed : row = hex8 address ++ "  " ++ " ".intercalate (words.map Word.hex8)
  readBack : numbersIn row = address :: words.map UInt32.toNat

theorem isSolid_of_mem_hex8 {words : List Word} {word : List Char}
    (mem : word ∈ (words.map Word.hex8).map String.toList) : IsSolid word := by
  obtain ⟨text, known, rfl⟩ := List.mem_map.1 mem
  obtain ⟨w, _, rfl⟩ := List.mem_map.1 known
  exact isSolid_hex8 _

theorem showsRow (address : Nat) (words : List Word) :
    IsRow s!"{hex8 address}  {spaced (words.map Word.hex8)}".toList ∧
      ShowsRow s!"{hex8 address}  {spaced (words.map Word.hex8)}" address words := by
  have own : s!"{hex8 address}  {spaced (words.map Word.hex8)}".toList =
      (hex8 address).toList ++ ' ' :: ' ' :: (spaced (words.map Word.hex8)).toList := by
    show (hex8 address ++ "  " ++ spaced _).toList = _
    simp
  have solid : ∀ word ∈ (words.map Word.hex8).map String.toList, IsSolid word :=
    fun _ => isSolid_of_mem_hex8
  have blank : isBlank ' ' = true := by decide
  refine ⟨?_, rfl, ?_⟩
  · rw [own]
    have behind : IsRow (spaced (words.map Word.hex8)).toList := isRow_spaced fun text mem =>
      solid _ (List.mem_map_of_mem mem)
    refine List.forall_mem_append.2 ⟨(isSolid_hex8 address).isRow, ?_⟩
    exact List.forall_mem_cons.2 ⟨by decide, List.forall_mem_cons.2 ⟨by decide, behind⟩⟩
  · have empty : ∀ c ∈ ([] : List Char), isBlank c = true := by simp
    obtain ⟨some, run⟩ := isSolid_hex8 address
    have split := IsSplit.word empty some run (fun _ first => by cases first; exact blank)
      (((isSplit_intercalate solid).cons_blank blank).cons_blank blank)
    rw [List.nil_append, ← toList_spaced, ← own] at split
    rw [numbersIn, splitWords, words_of_isSplit split]
    simp [hexToNat_hex8, Function.comp_def, Word.hex8, Word.toInt]

/-- The rows of `dumpRows` show the words of the block in fours. -/
theorem row_of_getElem? {start i : Nat} {block : List Word} {row : String}
    (there : (dumpRows start (inFours block))[i]? = some row) :
    4 * i < block.length ∧ IsRow row.toList ∧
      ShowsRow row (start + 4 * i) ((block.drop (4 * i)).take 4) := by
  rw [getElem?_dumpRows, getElem?_inFours] at there
  split at there
  · next inside =>
    obtain rfl := Option.some.inj there
    exact ⟨inside, showsRow _ _⟩
  · cases there

theorem dumpRows_ne_nil (start : Nat) {block : List Word} (some : block ≠ []) :
    dumpRows start (inFours block) ≠ [] := by
  have words := List.length_pos_iff.2 some
  rw [← List.length_pos_iff, length_dumpRows, length_inFours]
  omega

theorem linesOf_dumpRows (start : Nat) {block : List Word} (some : block ≠ []) :
    linesOf (joinLines (dumpRows start (inFours block))) = dumpRows start (inFours block) := by
  refine linesOf_joinLines (dumpRows_ne_nil start some) fun row mem => ?_
  obtain ⟨i, there⟩ := List.mem_iff_getElem?.1 mem
  exact (row_of_getElem? there).2.1

namespace Memory

/-- A text shows a block: rows of four words, of which the last may be shorter, each with the
address of its first. -/
structure Shows (m : Memory) (start length : Nat) (text : String) : Prop where
  /-- A block without words has no row. -/
  empty : length = 0 → text = ""
  joined : joinLines (linesOf text) = text
  count : length ≠ 0 → (linesOf text).length = (length + 3) / 4
  row : ∀ i row, length ≠ 0 → (linesOf text)[i]? = some row →
    ∃ words : List Word, words ≠ [] ∧ words.length = min 4 (length - 4 * i) ∧
      words.map .ok = (List.range words.length).map
        (fun j : Nat => m.read (start + 4 * i + j : Nat)) ∧
      ShowsRow row (start + 4 * i) words

variable {m : Memory} {start length : Int}

theorem hexdump_eq (spans : Spans start length) : m.hexdump start length =
    .ok (joinLines (dumpRows start.toNat (inFours (m.block start.toNat length.toNat).toList))) := by
  rw [hexdump, readBlock_eq spans]
  rfl

theorem exists_hexdump_iff : (∃ text, m.hexdump start length = .ok text) ↔ Spans start length := by
  rw [← exists_readBlock_iff (m := m)]
  constructor
  · rintro ⟨text, done⟩
    obtain ⟨words, read, _⟩ := bind_eq_ok.1 done
    exact ⟨words, read⟩
  · rintro ⟨words, read⟩
    exact ⟨_, hexdump_eq (exists_readBlock_iff.1 ⟨words, read⟩)⟩

theorem shows_of_hexdump {text : String} (done : m.hexdump start length = .ok text) :
    m.Shows start.toNat length.toNat text := by
  have spans := exists_hexdump_iff.1 ⟨text, done⟩
  obtain rfl := Except.ok.inj ((hexdump_eq spans).symm.trans done)
  have agree := map_block (m := m) spans
  obtain ⟨first, rfl⟩ := Int.eq_ofNat_of_zero_le spans.1
  rw [Int.toNat_natCast] at agree ⊢
  generalize (m.block first length.toNat).toList = block at agree ⊢
  generalize length.toNat = count at agree ⊢
  obtain rfl : block.length = count := by simpa using congrArg List.length agree
  have word (n : Nat) (inside : n < block.length) :
      Except.ok block[n] = m.read (first + n : Nat) := by
    simpa [inside] using congrArg (·[n]?) agree
  by_cases none : block = []
  · subst none
    exact ⟨fun _ => rfl, rfl, fun some => absurd rfl some, fun _ _ some => absurd rfl some⟩
  · have lines := linesOf_dumpRows first none
    have some : block.length ≠ 0 := fun empty => none (List.length_eq_zero_iff.1 empty)
    refine ⟨fun empty => absurd empty some, by rw [lines], fun _ => ?_, fun i row _ there => ?_⟩
    · rw [lines, length_dumpRows, length_inFours]
    · rw [lines] at there
      obtain ⟨inside, _, shows⟩ := row_of_getElem? there
      refine ⟨(block.drop (4 * i)).take 4, ?_, ?_, ?_, shows⟩
      · rw [← List.length_pos_iff, List.length_take, List.length_drop]
        omega
      · rw [List.length_take, List.length_drop]
      · refine List.ext_getElem (by simp) fun j here _ => ?_
        rw [List.getElem_map, List.getElem_take, List.getElem_drop, word, List.getElem_map,
          List.getElem_range, Nat.add_assoc]

end Memory

open Memory in
/-- Blocks that lie in memory can be read and dumped, and no others. What comes out are the words
that reading one by one gives, wherever the block lies and whether its pages exist, and the walk
from page to page ends with them. -/
theorem dumps_agree_with_words (m : Memory) (start length : Int) :
    m.dump start length = m.readBlock start length ∧
      ((∃ words, m.readBlock start length = .ok words) ↔ Spans start length) ∧
      (∀ words, m.readBlock start length = .ok words →
        words.toList.map .ok = (List.range length.toNat).map (fun i : Nat => m.read (start + i)) ∧
          Walk.Ends m ⟨start.toNat, length.toNat, #[]⟩
            (Walk.pages start.toNat length.toNat) words) ∧
      ((∃ text, m.hexdump start length = .ok text) ↔ Spans start length) ∧
      ∀ text, m.hexdump start length = .ok text → m.Shows start.toNat length.toNat text := by
  refine ⟨rfl, exists_readBlock_iff, fun words done => ?_, exists_hexdump_iff,
    fun text => shows_of_hexdump⟩
  have spans := exists_readBlock_iff.1 ⟨words, done⟩
  obtain rfl := Except.ok.inj ((readBlock_eq spans).symm.trans done)
  exact ⟨map_block spans, m.walk_ends _ _ _⟩

open Memory in
/-- A block that begins at the end of one page, has all of the next, which does not exist, and ends
in a third. -/
theorem dumps_agree_with_words_gap :
    let m := (Memory.empty.set 4095 1).set 8192 2
    Spans 4094 4100 ∧ ¬ m.isTouched 5000 ∧
      (∃ words, m.readBlock 4094 4100 = .ok words ∧
        words.toList.map .ok = (List.range 4100).map (fun i : Nat => m.read (4094 + i)) ∧
        Walk.Ends m ⟨4094, 4100, #[]⟩ 3 words) ∧
      ∃ text, m.hexdump 4094 4100 = .ok text ∧ m.Shows 4094 4100 text := by
  intro m
  obtain ⟨_, readable, agree, printable, shows⟩ := dumps_agree_with_words m 4094 4100
  have spans : Spans 4094 4100 := by unfold Spans; omega
  obtain ⟨words, read⟩ := readable.2 spans
  obtain ⟨text, printed⟩ := printable.2 spans
  exact ⟨spans, by decide +kernel, ⟨words, read, agree words read⟩, text, printed,
    shows text printed⟩

end Chifir
