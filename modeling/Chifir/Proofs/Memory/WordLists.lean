import Mathlib.Algebra.Order.Floor.Div
import Chifir.Proofs.Memory.Loading

/-!
# Lists of words

A list of integers is disassembled as the memory that it makes: `cell words n` is the word at the
address that `n` wraps to, zero behind the end of the list.

1. `load_list`: memory that a list was loaded into has these cells.
2. `Covers`: the instructions that are taken from a list without a count.
3. `lists_disassemble`: what is taken, with and without a count, from every start.
-/

namespace Chifir

/-- The word that a list leaves where `n` wraps to. -/
def cell (words : List Int) (n : Int) : Word := ((words[(n % 2 ^ 32).toNat]?).map Word.ofInt).getD 0

/-- The instruction that a list leaves where `n` wraps to. -/
def instructionIn (words : List Int) (n : Int) : Instruction Word :=
  ⟨Word.ofInt n, cell words n, cell words (n + 1), cell words (n + 2), cell words (n + 3)⟩

/-- What is taken from a list, from `start` to its end. -/
structure Covers (words : List Int) (start : Nat) (taken : List (Instruction Word)) : Prop where
  count : taken.length = (words.length - start) ⌈/⌉ 4
  addresses : taken.map (Word.toInt ·.address) = (List.range taken.length).map fun (i : Nat) =>
    (start + 4 * i : Int)
  /-- No word is left out, and fewer than four are added: zeros, unless memory ends with the list.
  Then the last instruction goes on at address 0. -/
  words : ∃ added, added < 4 ∧ taken.flatMap (·.quad.toList) = (words.drop start).map Word.ofInt ++
    (List.range added).map fun j => if words.length + j < 2 ^ 32 then 0 else cell words
      (words.length + j : Nat)

namespace Memory

/-! ## Memory made of a list -/

/-- Numbers are loaded as the words they are reduced to. -/
theorem load_reduced (m : Memory) (words : List Int) (base : Int) :
    m.load words base = m.load ((words.map Word.ofInt).map Word.toInt) base := by
  induction words generalizing m base with
  | nil => rfl
  | cons v rest ih =>
    have same : m.write base v = m.write base (Word.toInt (Word.ofInt v)) := by
      rw [write, write, Word.ofInt_toInt]
    rw [List.map_cons, List.map_cons, load, load, ← same]
    cases m.write base v with
    | error e => rfl
    | ok m' => exact ih m' (base + 1)

theorem load_list (words : List Int) (room : words.length ≤ 2 ^ 32) :
    ∃ m, empty.load words 0 = (m, none) ∧ ∀ n, m.get (Word.ofInt n) = cell words n := by
  obtain ⟨m, loaded, holds, outside⟩ := empty.load_words (words.map Word.ofInt) 0 (by decide)
    (by rw [List.length_map]; omega)
  refine ⟨m, (load_reduced _ _ _).trans loaded, ?_⟩
  intro n
  have wraps : Word.toInt (Word.ofInt n) = (n % 2 ^ 32).toNat := by
    rw [Word.toInt_ofInt]
    omega
  rw [cell]
  cases inside : words[(n % 2 ^ 32).toNat]? with
  | some v =>
    have there := holds (n % 2 ^ 32).toNat (Word.ofInt v) (by rw [List.getElem?_map, inside]; rfl)
    rwa [Int.zero_add, ← wraps, Word.ofInt_toInt] at there
  | none =>
    have behind := List.getElem?_eq_none_iff.1 inside
    rw [outside _ (.inr (by rw [wraps, List.length_map]; omega)), get_empty]
    rfl

theorem decode_list {m : Memory} {words : List Int}
    (cells : ∀ n, m.get (Word.ofInt n) = cell words n) (n : Int) :
    m.decode (Word.ofInt n) = instructionIn words n := by
  have next (k : Nat) : m.get (Word.ofInt n + UInt32.ofNat k) = cell words (n + k) := by
    rw [← Word.ofInt_add_natCast, cells]
  have a : m.get (Word.ofInt n + 1) = cell words (n + 1) := next 1
  have b : m.get (Word.ofInt n + 2) = cell words (n + 2) := next 2
  have c : m.get (Word.ofInt n + 3) = cell words (n + 3) := next 3
  rw [decode, cells, a, b, c, instructionIn]

theorem instructions_list {m : Memory} {words : List Int}
    (cells : ∀ n, m.get (Word.ofInt n) = cell words n) (start : Int) (count : Nat) :
    m.instructions start count = (List.range count).map fun (i : Nat) => instructionIn words
      (start + 4 * i) :=
  List.map_congr_left fun _ _ => decode_list cells _

end Memory

/-! ## Lists to their end -/

theorem cell_of_lt (words : List Int) {n : Nat} (address : n < 2 ^ 32) :
    cell words n = ((words[n]?).map Word.ofInt).getD 0 := by
  rw [cell, Int.emod_eq_of_lt (Int.natCast_nonneg n) (by omega), Int.toNat_natCast]

theorem cells_drop (words : List Int) (start : Nat) (room : words.length ≤ 2 ^ 32) :
    (List.range (words.length - start)).map (fun (i : Nat) => cell words (start + i : Nat)) =
      (words.drop start).map Word.ofInt := by
  apply List.ext_getElem
  · simp
  · intro i inside _
    rw [List.length_map, List.length_range] at inside
    rw [List.getElem_map, List.getElem_range, cell_of_lt words (by omega), List.getElem_map,
      List.getElem_drop, List.getElem?_eq_getElem (by omega)]
    rfl

theorem flatMap_instructionIn (words : List Int) (start count : Nat) :
    ((List.range count).map fun (i : Nat) => instructionIn words (start + 4 * i)).flatMap
    (·.quad.toList) =
      (List.range (4 * count)).map fun (i : Nat) => cell words (start + i : Nat) := by
  induction count with
  | zero => rfl
  | succ count ih =>
    rw [List.range_succ, List.map_append, List.flatMap_append, ih, Nat.mul_succ, List.range_add,
      List.map_append, List.map_map]
    simp [instructionIn, Quad.toList, List.range_succ, Int.add_assoc]

theorem cell_behind {words : List Int} {n : Nat} (behind : words.length ≤ n)
    (address : n < 2 ^ 32) :
    cell words n = 0 := by
  rw [cell_of_lt words address, List.getElem?_eq_none behind]
  rfl

theorem covers_instructions {words : List Int} (room : words.length ≤ 2 ^ 32) {start count : Nat}
    (inside : start ≤ words.length) (whole : count = (words.length - start) ⌈/⌉ 4) :
    Covers words start
      ((List.range count).map fun (i : Nat) => instructionIn words (start + 4 * i)) := by
  have rounded := whole
  rw [Nat.ceilDiv_eq_add_pred_div] at rounded
  obtain ⟨added, split, few⟩ : ∃ added, 4 * count = words.length - start + added ∧ added < 4 :=
    ⟨4 * count - (words.length - start), by omega, by omega⟩
  refine ⟨?count, ?addresses, ?words⟩
  case count => rw [List.length_map, List.length_range, whole]
  case addresses =>
    rw [List.map_map, List.length_map, List.length_range]
    apply List.map_congr_left
    intro i mem
    have below := List.mem_range.1 mem
    rw [Function.comp_apply, instructionIn, Word.toInt_ofInt,
      Int.emod_eq_of_lt (by omega) (by omega)]
  case words =>
    refine ⟨added, few, ?_⟩
    rw [flatMap_instructionIn, split, List.range_add, List.map_append, cells_drop words start room,
      List.map_map]
    refine congrArg _ (List.map_congr_left fun j _ => ?_)
    have index : start + (words.length - start + j) = words.length + j := by omega
    rw [Function.comp_apply, index]
    split
    case isTrue address => exact cell_behind (Nat.le_add_right _ _) address
    case isFalse => rfl

/-! ## Lists longer than memory -/

theorem load_beyond (m : Memory) (words : List Int) (base : Nat) (low : base ≤ 2 ^ 32)
    (beyond : 2 ^ 32 < base + words.length) :
    (m.load words base).2 = some (.outOfRange (2 ^ 32)) := by
  induction words generalizing m base with
  | nil =>
    rw [List.length_nil] at beyond
    omega
  | cons v rest ih =>
    rw [List.length_cons] at beyond
    rcases Nat.lt_or_eq_of_le low with address | rfl
    · obtain ⟨a, here⟩ := exists_toInt (n := base) ⟨by omega, by omega⟩
      rw [Memory.load, Memory.write, here, Word.address_toInt, ← here]
      exact ih _ (base + 1) address (by omega)
    · rw [Memory.load, Memory.write, address_of_not (by decide)]
      rfl

/-- Whatever the list, what is taken from it is what memory holds that the list was loaded into.
Without a count, it is all words from `start` on. Only a list that is longer than memory is refused.
-/
theorem lists_disassemble (words : List Int) :
    (words.length ≤ 2 ^ 32 → ∃ m, Memory.empty.load words 0 = (m, none) ∧
      (∀ start count : Int, ∃ taken, disassembleImage words start (some count) = .ok taken ∧
        disassembleMemory m start (some count) = .ok taken ∧ taken.length = count.toNat ∧
        ∀ i < count.toNat, taken[i]? = some (instructionIn words (start + 4 * i))) ∧
      (∀ start : Nat, start ≤ words.length →
        ∃ taken, disassembleImage words start none = .ok taken ∧ Covers words start taken) ∧
      ∀ start : Int, words.length < start → disassembleImage words start none = .ok []) ∧
    (2 ^ 32 < words.length →
      ∀ start count, disassembleImage words start count = .error (.outOfRange (2 ^ 32))) := by
  constructor
  · intro room
    obtain ⟨m, loaded, cells⟩ := Memory.load_list words room
    have image (start : Int) (count : Option Int) : disassembleImage words start count =
        .ok (m.instructions start (count.getD (instructionsTo words.length start)).toNat) := by
      rw [disassembleImage, disassembleWords, loaded]
    refine ⟨m, loaded, ?counted, ?whole, ?past⟩
    case counted =>
      intro start count
      refine ⟨_, image start (some count), rfl, by simp [Memory.instructions], ?_⟩
      intro i below
      rw [Option.getD_some, Memory.instructions_list cells, List.getElem?_map,
        List.getElem?_range below]
      rfl
    case whole =>
      intro start inside
      have count : (instructionsTo words.length start).toNat = (words.length - start) ⌈/⌉ 4 := by
        rw [instructionsTo, Nat.ceilDiv_eq_add_pred_div]
        omega
      refine ⟨_, image start none, ?_⟩
      rw [Option.getD_none, count, Memory.instructions_list cells]
      exact covers_instructions room inside rfl
    case past =>
      intro start past
      have none : (instructionsTo words.length start).toNat = 0 := by
        rw [instructionsTo]
        omega
      rw [image, Option.getD_none, none]
      rfl
  · intro beyond start count
    have refused := load_beyond Memory.empty words 0 (by decide) (by omega)
    rw [disassembleImage]
    rw [Int.natCast_zero] at refused
    rw [refused]

/-- From before address 0 with a count, from within a group to the end, from behind the end, and a
list that is longer than memory. -/
theorem lists_disassemble_unaligned :
    let words : List Int := [7, -1, 2 ^ 32 + 5, 4, 9, 8, 3]
    (∃ taken, disassembleImage words (-2) (some 2) = .ok taken ∧ taken.length = 2 ∧
      taken[0]? = some ⟨0xFFFFFFFE, 0, 0, 7, 0xFFFFFFFF⟩ ∧ taken[1]? = some ⟨2, 5, 4, 9, 8⟩) ∧
    (∃ taken, disassembleImage words 2 none = .ok taken ∧ Covers words 2 taken) ∧
    disassembleImage words 8 none = .ok [] ∧
    disassembleImage (List.replicate (2 ^ 32 + 1) 0) 0 none = .error (.outOfRange (2 ^ 32)) := by
  intro words
  obtain ⟨_, _, counted, whole, past⟩ := (lists_disassemble words).1 (by decide)
  obtain ⟨taken, done, _, length, each⟩ := counted (-2) 2
  refine ⟨⟨taken, done, length, (each 0 (by decide)).trans (by decide),
    (each 1 (by decide)).trans (by decide)⟩, whole 2 (by decide), past 8 (by decide), ?_⟩
  refine (lists_disassemble (List.replicate (2 ^ 32 + 1) 0)).2 ?_ 0 none
  rw [List.length_replicate]
  exact Nat.lt_succ_self _

end Chifir
