import Chifir.Proofs.Assembly.Layout
import Chifir.Proofs.Assembly.Reading
import Chifir.Proofs.Memory.Loading

/-!
# Programs recovered from memory

What was assembled can be loaded anywhere and disassembled again. `Recovers` says what comes back:
the instructions that the lines have emitted, in order, and for a line that names an operation the
mnemonic of the line. `recovers_of_assemble` says it of memory that may hold anything before, and of
the words themselves.
-/

namespace Chifir

open Text Assembly

namespace Assembly

/-- The instructions of all lines, in the order of their addresses. -/
def quads (a : Assembly) : List (Quad Word) := a.lines.flatMap (·.emitted)

/-- What was decoded from `start` on are the instructions of an assembly. -/
structure Recovers (a : Assembly) (start : Int) (decoded : List (Instruction Int)) : Prop where
  instructions : decoded = standing start a.quads
  /-- The instruction of a line with the mnemonic of an operation stands behind those of the lines
  before it. -/
  mnemonics : ∀ (i : Nat) (p : Placed) (mnemonic : String) (op : Opcode), a.lines[i]? = some p →
    p.statement.mnemonic = some mnemonic → lowered mnemonic = op.name →
    ∃ instruction, decoded[((a.lines.take i).flatMap (·.emitted)).length]? = some instruction ∧
      p.emitted.map (·.map Word.toInt) = [instruction.quad] ∧
        instruction.mnemonic = .ok (lowered mnemonic)

theorem emitted_of_instruction {p : Placed} {symbols : Symbols} {mnemonic : String} {op : Opcode}
    (encoded : p.encode symbols = .ok p.emitted) (named : p.statement.mnemonic = some mnemonic)
    (code : lowered mnemonic = op.name) : ∃ q, p.emitted = [q] ∧ q.opcode = op.word := by
  rw [Placed.encode, named] at encoded
  obtain ⟨values, _, rest⟩ := bind_eq_ok.1 encoded
  rw [Operation.read?_instruction.2 code] at rest
  exact ⟨Operation.quad op.word values, (Except.ok.inj rest).symm, rfl⟩

theorem mnemonic_of_opcode {op : Opcode} {q : Quad Word} (code : q.opcode = op.word)
    (address : Int) :
    Instruction.mnemonic ⟨address, q.map Word.toInt⟩ = .ok op.name := by
  have operation : Instruction.operation? ⟨address, q.map Word.toInt⟩ = some op := by
    show Opcode.ofInt? (Word.toInt q.opcode) = some op
    rw [code, Word.toInt, op.toNat_word]
    exact op.ofInt?_number
  rw [Instruction.mnemonic, operation]

theorem getElem?_quads {a : Assembly} {i : Nat} {p : Placed} {q : Quad Word}
    (found : a.lines[i]? = some p) (single : p.emitted = [q]) :
    a.quads[((a.lines.take i).flatMap (·.emitted)).length]? = some q := by
  obtain ⟨inside, rfl⟩ := List.getElem?_eq_some_iff.1 found
  have split : a.quads = (a.lines.take i).flatMap (·.emitted) ++
      (a.lines[i].emitted ++ (a.lines.drop (i + 1)).flatMap (·.emitted)) := by
    rw [quads, ← List.flatMap_cons, ← List.drop_eq_getElem_cons inside, ← List.flatMap_append,
      List.take_append_drop]
  rw [split, single, List.getElem?_append_right (Nat.le_refl _), Nat.sub_self]
  rfl

theorem recovers_standing {a : Assembly}
    (encoded : ∀ p ∈ a.lines, p.encode a.symbols = .ok p.emitted) (start : Int) :
    a.Recovers start (standing start a.quads) := by
  refine ⟨rfl, ?_⟩
  intro i p mnemonic op found named code
  obtain ⟨q, single, first⟩ :=
    emitted_of_instruction (encoded p (List.mem_of_getElem? found)) named code
  refine ⟨_, by rw [getElem?_standing, getElem?_quads found single]; rfl, by rw [single]; rfl, ?_⟩
  rw [mnemonic_of_opcode first, code]

end Assembly

/-- An accepted source, loaded anywhere into memory that may hold anything, is disassembled to the
instructions of its lines; all other cells keep what they hold. So is the image itself. -/
theorem recovers_of_assemble {source : String} {words : List Word}
    (accepted : assemble source = .ok words) (m : Memory) {base : Int} (low : 0 ≤ base)
    (high : base + words.length ≤ 2 ^ 32) :
    let a := Assembly.ofSource source
    words.length = 4 * a.quads.length ∧
      (∃ m' decoded, a.load m base = (m', none) ∧
        disassembleMemory m' base (some (words.length / 4 : Nat)) = .ok decoded ∧
        a.Recovers base (decoded.map Instruction.toInt) ∧
        ∀ n, n < base ∨ base + words.length ≤ n → m'.read n = m.read n) ∧
      ∃ decoded, disassembleImage (words.map Word.toInt) 0 none = .ok decoded ∧
        a.Recovers 0 (decoded.map Instruction.toInt) := by
  intro a
  obtain ⟨_, _, encoded, image⟩ := laid_of_assemble accepted
  have flat : words = a.quads.flatMap Quad.toList := by
    rw [image, Assembly.imageOf, quads, List.flatMap_assoc]
  have length : words.length = 4 * a.quads.length := by rw [flat, length_flatMap_toList]
  refine ⟨length, ?memory, ?image⟩
  case memory =>
    obtain ⟨m', loaded, holds, outside⟩ := m.load_words words base low high
    have decoded :
        (m'.instructions base a.quads.length).map Instruction.toInt = standing base a.quads :=
      m'.instructions_of_holds low (by omega) (flat ▸ holds)
    refine ⟨m', m'.instructions base a.quads.length, ?_, ?_,
      decoded ▸ recovers_standing encoded base, ?_⟩
    · rw [Assembly.load, words_of_assemble accepted]
      exact loaded
    · rw [disassembleMemory, Int.toNat_natCast, length, Nat.mul_div_cancel_left _ (by decide)]
    · intro n apart
      by_cases address : IsAddress n
      · obtain ⟨c, rfl⟩ := exists_toInt address
        rw [Memory.read, Memory.read, Word.address_toInt, ok_bind, ok_bind, outside c apart]
      · rw [Memory.read, Memory.read, address_of_not address]
        rfl
  case image =>
    obtain ⟨decoded, disassembled, same⟩ := disassembleImage_eq a.quads (by omega)
    rw [flat]
    exact ⟨decoded, disassembled, same ▸ recovers_standing encoded 0⟩

/-- A program across a page's border, over what another has left there. -/
theorem recovers_of_assemble_straddling :
    let source := "start: ADD 1 2\n jlt start 1 2\n 7 start"
    let words : List Word := [7, 1, 2, 0, 12, 14, 1, 2, 2, 11, 14, 16, 1, 15, 0, 0, 7, 0, 0, 0]
    let m := (Memory.empty.load [5, 6, 7] 4090).1
    assemble source = .ok words ∧ (0 : Int) ≤ 4092 ∧ (4092 : Int) + words.length ≤ 2 ^ 32 ∧
      ∃ m' decoded, (Assembly.ofSource source).load m 4092 = (m', none) ∧
        disassembleMemory m' 4092 (some (words.length / 4 : Nat)) = .ok decoded ∧
        (Assembly.ofSource source).Recovers 4092 (decoded.map Instruction.toInt) := by
  intro source words m
  have accepted : assemble source = .ok words := by decide +kernel
  have low : (0 : Int) ≤ 4092 := by decide
  have high : (4092 : Int) + words.length ≤ 2 ^ 32 := by decide
  obtain ⟨_, ⟨m', decoded, loaded, disassembled, recovers, _⟩, _⟩ :=
    recovers_of_assemble accepted m low high
  exact ⟨accepted, low, high, m', decoded, loaded, disassembled, recovers⟩

end Chifir
