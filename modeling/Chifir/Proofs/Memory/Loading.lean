import Chifir.Instruction.Disassembly
import Chifir.Proofs.Memory.Histories
import Chifir.Proofs.Quads

/-!
# Images in memory

`load_words` says what loading words makes of memory that may hold anything: the words stand where
they were loaded, and all else is as it was. Where the words of instructions stand, these are the
instructions that are taken from there (`instructions_of_holds`).
-/

namespace Chifir

namespace Memory

def Holds (m : Memory) (base : Int) (words : List Word) : Prop :=
  ∀ (i : Nat) (w : Word), words[i]? = some w → m.get (Word.ofInt (base + i)) = w

/-- Whatever the memory, words within the address space are loaded without an error, and nothing
else changes. -/
theorem load_words (m : Memory) (words : List Word) (base : Int) (low : 0 ≤ base)
    (high : base + words.length ≤ 2 ^ 32) :
    ∃ m', m.load (words.map Word.toInt) base = (m', none) ∧ m'.Holds base words ∧
      ∀ a, Word.toInt a < base ∨ base + words.length ≤ Word.toInt a → m'.get a = m.get a := by
  induction words generalizing m base with
  | nil => exact ⟨m, rfl, by simp [Holds], fun _ _ => rfl⟩
  | cons w rest ih =>
    rw [List.length_cons] at high
    obtain ⟨first, here⟩ := exists_toInt (n := base) ⟨low, by omega⟩
    obtain ⟨m', loaded, inside, outside⟩ := ih (m.set first w) (base + 1) (by omega) (by omega)
    refine ⟨m', ?_, ?_, ?_⟩
    · rw [List.map_cons, load, write, here, Word.address_toInt, ← here]
      show (m.set first (Word.ofInt (Word.toInt w))).load _ _ = _
      rw [Word.ofInt_toInt]
      exact loaded
    · intro i v there
      cases i with
      | zero =>
        cases there
        rw [Int.ofNat_zero, Int.add_zero, here, Word.ofInt_toInt, outside first (by omega), get_set,
          if_pos rfl]
      | succ i =>
        have next := inside i v there
        rwa [Int.add_assoc, Int.add_comm 1] at next
    · intro a apart
      rw [List.length_cons] at apart
      rw [outside a (by omega), get_set, if_neg]
      rintro rfl
      omega

theorem room_of_load {m m' : Memory} {words : List Int} {base : Int}
    (loaded : m.load words base = (m', none)) :
    words = [] ∨ base + words.length ≤ 2 ^ 32 := by
  induction words generalizing m base with
  | nil => exact .inl rfl
  | cons v rest ih =>
    rw [List.length_cons]
    by_cases address : IsAddress base
    · obtain ⟨a, rfl⟩ := exists_toInt address
      rw [load, write, Word.address_toInt] at loaded
      rcases ih loaded with rfl | room
      · have below := address.2
        exact .inr (by simp only [List.length_nil]; omega)
      · exact .inr (by omega)
    · rw [load, write, address_of_not address] at loaded
      cases loaded

/-! ## Instructions -/

theorem Holds.append {m : Memory} {base : Int} {words words' : List Word}
    (holds : m.Holds base (words ++ words')) :
    m.Holds base words ∧ m.Holds (base + words.length) words' := by
  constructor
  · intro i w there
    exact holds i w ((List.getElem?_append_left (List.getElem?_eq_some_iff.1 there).1).trans there)
  · intro i w there
    have found :=
      holds (words.length + i) w (by rw [List.getElem?_append_right (by omega)]; simpa using there)
    rwa [Int.natCast_add, ← Int.add_assoc] at found

end Memory

/-- Instructions as they stand one behind the other from `start` on. -/
def standing (start : Int) : List (Quad Word) → List (Instruction Int)
  | [] => []
  | q :: quads => ⟨start, q.map Word.toInt⟩ :: standing (start + 4) quads

theorem getElem?_standing (start : Int) (quads : List (Quad Word)) (i : Nat) :
    (standing start quads)[i]? = quads[i]?.map fun q => ⟨start + 4 * i, q.map Word.toInt⟩ := by
  induction quads generalizing start i with
  | nil => rfl
  | cons q quads ih =>
    cases i with
    | zero => simp [standing]
    | succ i =>
      rw [standing, List.getElem?_cons_succ, List.getElem?_cons_succ, ih, Int.natCast_succ]
      congr 2
      funext q
      congr 1
      omega

namespace Memory

theorem decode_of_holds {m : Memory} {base : Int} {q : Quad Word} (holds : m.Holds base q.toList) :
    m.decode (Word.ofInt base) = ⟨Word.ofInt base, q⟩ := by
  have cell (i : Nat) (w : Word) (there : q.toList[i]? = some w) :
      m.get (Word.ofInt base + UInt32.ofNat i) = w := by
    rw [← Word.ofInt_add_natCast]
    exact holds i w there
  have opcode : m.get (Word.ofInt base) = q.opcode := by
    rw [← UInt32.add_zero (Word.ofInt base)]
    exact cell 0 q.opcode rfl
  have a : m.get (Word.ofInt base + 1) = q.a := cell 1 q.a rfl
  have b : m.get (Word.ofInt base + 2) = q.b := cell 2 q.b rfl
  have c : m.get (Word.ofInt base + 3) = q.c := cell 3 q.c rfl
  rw [decode, opcode, a, b, c]

theorem instructions_succ (m : Memory) (start : Int) (count : Nat) :
    m.instructions start (count + 1) = m.decode (Word.ofInt start) :: m.instructions
      (start + 4) count := by
  rw [instructions, List.range_succ_eq_map, List.map_cons, List.map_map, instructions]
  refine congrArg₂ _ (by simp) (List.map_congr_left fun i _ => ?_)
  rw [Function.comp_apply, Int.natCast_succ]
  congr 2
  omega

/-- Where the words of instructions stand, those are the instructions from there on. -/
theorem instructions_of_holds {m : Memory} {quads : List (Quad Word)} {base : Int} (low : 0 ≤ base)
    (high : base + 4 * quads.length ≤ 2 ^ 32) (holds : m.Holds base (quads.flatMap Quad.toList)) :
    (m.instructions base quads.length).map Instruction.toInt = standing base quads := by
  induction quads generalizing base with
  | nil => rfl
  | cons q quads ih =>
    rw [List.length_cons] at high
    obtain ⟨here, behind⟩ : m.Holds base q.toList ∧
        m.Holds (base + 4) (quads.flatMap Quad.toList) :=
      Holds.append holds
    obtain ⟨first, address⟩ := exists_toInt (n := base) ⟨low, by omega⟩
    rw [List.length_cons, instructions_succ, List.map_cons, decode_of_holds here, standing,
      ih (by omega) (by omega) behind, Instruction.toInt, address, Word.ofInt_toInt]

end Memory

theorem disassembleImage_eq (quads : List (Quad Word)) (room : 4 * quads.length ≤ 2 ^ 32) :
    ∃ decoded, disassembleImage ((quads.flatMap Quad.toList).map Word.toInt) 0 none = .ok decoded ∧
      decoded.map Instruction.toInt = standing 0 quads := by
  have length := length_flatMap_toList quads
  obtain ⟨m, loaded, holds, _⟩ :=
    Memory.empty.load_words (quads.flatMap Quad.toList) 0 (by decide) (by omega)
  have count : (instructionsTo ((quads.flatMap Quad.toList).map Word.toInt).length 0).toNat =
      quads.length := by
    rw [instructionsTo, List.length_map]
    omega
  refine ⟨m.instructions 0 quads.length, ?_, m.instructions_of_holds (by decide) (by omega) holds⟩
  rw [disassembleImage, disassembleWords, loaded, Option.getD_none, count]

theorem room_of_disassembleImage {words : List Int} {decoded : List (Instruction Word)}
    (done : disassembleImage words 0 none = .ok decoded) : words.length ≤ 2 ^ 32 := by
  cases outcome : Memory.empty.load words 0 with
  | mk m error =>
    rw [disassembleImage, outcome] at done
    cases error with
    | some e => cases done
    | none =>
      rcases Memory.room_of_load outcome with rfl | room
      · exact Nat.zero_le _
      · omega

end Chifir
