import Chifir.Assembly.Image
import Chifir.Proofs.Assembly.Meaning
import Chifir.Proofs.Memory.Histories

/-!
# Packing words into bytes

An image is packed from numbers, each of which has to fit into four bytes, and unpacked into
numbers. Numbers here are unbounded, so packing can fail: that it does not fail on what was
assembled is a property of the two walks.

1. `pack_eq_ok_iff`: packing and unpacking are inverse to each other, and `exists_pack` says which
   numbers can be packed.
2. `StandsFor`: the numbers that the lines of a source stand for, said from the source alone.
3. `flat_of_assemble`: these are the numbers that were assembled, so they fit.
4. `images_correspond`: both, and that a rejected source leaves an empty image.
-/

namespace Chifir

open Text Assembly

namespace Image

/-! ## The codec -/

structure RangeError where
  number : Int
deriving DecidableEq, Repr

def packNumber (n : Int) : Except RangeError (List UInt8) :=
  if 0 ≤ n ∧ n < 2 ^ 32 then .ok ((List.range 4).map fun i => UInt8.ofNat (n.toNat / 256 ^ i))
    else .error ⟨n⟩

/-- The bytes of numbers, each of which must fit into four (`packNumber`). -/
def pack (ns : List Int) : Except RangeError (List UInt8) := return (← ns.mapM packNumber).flatten

def unpack (bytes : List UInt8) : Except LengthError (List Int) :=
  (decode bytes).map (·.map Word.toInt)

theorem packNumber_of_fits {n : Int} (fits : 0 ≤ n ∧ n < 2 ^ 32) :
    packNumber n = .ok ((List.range 4).map fun i => UInt8.ofNat (n.toNat / 256 ^ i)) := if_pos fits

theorem packNumber_toInt (w : Word) : packNumber (Word.toInt w) = .ok (bytesOf w) := by
  rw [packNumber_of_fits (isAddress_toInt w), bytesOf, Word.toInt, Int.toNat_natCast]
  simp [List.range_succ]

theorem exists_packNumber {n : Int} : (∃ bytes, packNumber n = .ok bytes) ↔ 0 ≤ n ∧ n < 2 ^ 32 := by
  constructor
  · rintro ⟨bytes, packed⟩
    by_contra large
    rw [packNumber, if_neg large] at packed
    cases packed
  · exact fun fits => ⟨_, packNumber_of_fits fits⟩

theorem pack_toInt (words : List Word) : pack (words.map Word.toInt) = .ok (encode words) := by
  have each : ∀ w ∈ words, (packNumber ∘ Word.toInt) w = .ok (bytesOf w) := by
    intro w _
    rw [Function.comp_apply, packNumber_toInt]
  rw [pack, List.mapM_map, mapM_eq_ok_map each, encode, List.flatMap_def]
  rfl

theorem exists_words {ns : List Int} (fit : ∀ n ∈ ns, 0 ≤ n ∧ n < 2 ^ 32) :
    ∃ words : List Word, ns = words.map Word.toInt := by
  have same : ∀ n ∈ ns, (Word.toInt ∘ Word.ofInt) n = n := by
    intro n mem
    obtain ⟨w, rfl⟩ := exists_toInt (fit n mem)
    rw [Function.comp_apply, Word.ofInt_toInt]
  exact ⟨ns.map Word.ofInt, by rw [List.map_map, List.map_congr_left same, List.map_id']⟩

theorem exists_pack {ns : List Int} :
    (∃ bytes, pack ns = .ok bytes) ↔ ∀ n ∈ ns, 0 ≤ n ∧ n < 2 ^ 32 := by
  constructor
  · rintro ⟨bytes, packed⟩
    obtain ⟨parts, each, -⟩ := bind_eq_ok.1 packed
    exact fun n mem => exists_packNumber.1 (exists_mapM.1 ⟨parts, each⟩ n mem)
  · intro fit
    obtain ⟨words, rfl⟩ := exists_words fit
    exact ⟨_, pack_toInt words⟩

/-- Bytes are packed from the numbers that they are unpacked into, and from no others: `pack` and
`unpack` are inverse. -/
theorem pack_eq_ok_iff {ns : List Int} {bytes : List UInt8} :
    pack ns = .ok bytes ↔ unpack bytes = .ok ns := by
  constructor
  · intro packed
    obtain ⟨words, rfl⟩ := exists_words (exists_pack.1 ⟨bytes, packed⟩)
    rw [pack_toInt] at packed
    rw [unpack, ← Except.ok.inj packed, decode_encode]
    rfl
  · intro unpacked
    obtain ⟨words, decoded, rfl⟩ := map_eq_ok.1 unpacked
    rw [pack_toInt, decode_eq_ok.1 decoded]

theorem length_of_pack {ns : List Int} {bytes : List UInt8} (packed : pack ns = .ok bytes) :
    bytes.length = 4 * ns.length := by
  obtain ⟨words, decoded, rfl⟩ := map_eq_ok.1 (pack_eq_ok_iff.1 packed)
  rw [decode_eq_ok.1 decoded, length_encode, List.length_map]

end Image

namespace Assembly

/-! ## The numbers of a source -/

/-- What a line stands for: no instruction, or those of its mnemonic and its operands. -/
inductive LineStandsFor (lines : List String) (i : Nat) (line : String) : List (List Nat) → Prop
  | bare (empty : body line = []) : LineStandsFor lines i line []
  | instruction (mnemonic : String) (operands : List String) (rows : List (List Nat))
      (whole : body line = mnemonic :: operands) (means : Means lines i mnemonic operands rows) :
      LineStandsFor lines i line rows

/-- What the lines of a source stand for, line by line. -/
structure StandsFor (lines : List String) (rows : List (List (List Nat))) : Prop where
  length : rows.length = lines.length
  each : ∀ (i : Nat) (line : String) (own : List (List Nat)), lines[i]? = some line →
    rows[i]? = some own → LineStandsFor lines i line own

/-- The numbers that a whole source stands for, in order. -/
def flat (rows : List (List (List Nat))) : List Int := rows.flatten.flatten.map Int.ofNat

section Laid
variable {sources : List String} {a : Assembly}

theorem Laid.means_iff (laid : Laid [] 0 1 sources a.lines a.symbols a.pc)
    (encoded : ∀ p ∈ a.lines, p.encode a.symbols = .ok p.emitted) {i : Nat} {p : Placed}
    {mnemonic : String} (found : a.lines[i]? = some p)
    (named : p.statement.mnemonic = some mnemonic) {rows : List (List Nat)} :
    Means sources i mnemonic p.statement.operands rows ↔ rows = numbers p.emitted := by
  obtain ⟨_, _, _, _, here⟩ := laid.laidAt found
  have instruction : p.isInstruction = true := by rw [Placed.isInstruction, named]; rfl
  have address : p.address.toNat = addressOf sources i := by
    rw [laid.address_eq found instruction, laid.toNat_extent]
  have through := encoded p (List.mem_of_getElem? found)
  simp only [Placed.encode, named] at through
  obtain ⟨values, resolved, through⟩ := bind_eq_ok.1 through
  obtain ⟨operation, read, counted⟩ := Statement.count_eq_ok.1 (here.sized mnemonic named).2.1
  rw [(forall₂_of_mapM resolved).length_eq] at counted
  simp only [read] at through
  rw [Means, ← address]
  simp only [laid.denote_iff resolved, exists_eq_left]
  exact encodes_iff read counted through

/-- A line stands for what it was assembled to, and for nothing else. -/
theorem Laid.lineStandsFor_iff (laid : Laid [] 0 1 sources a.lines a.symbols a.pc)
    (encoded : ∀ p ∈ a.lines, p.encode a.symbols = .ok p.emitted) {i : Nat} {line : String}
    {p : Placed} (there : sources[i]? = some line) (found : a.lines[i]? = some p)
    {rows : List (List Nat)} :
    LineStandsFor sources i line rows ↔ rows = numbers p.emitted := by
  obtain ⟨line', there', parsed⟩ := laid.parsed found
  rw [there] at there'
  cases there'
  have reads := Statement.reads_of_parse parsed
  cases named : p.statement.mnemonic with
  | none =>
    have empty : body line = [] := List.head?_eq_none_iff.1 (reads.mnemonic.symm.trans named)
    have nothing := encoded p (List.mem_of_getElem? found)
    rw [Placed.encode, named] at nothing
    rw [← Except.ok.inj nothing]
    constructor
    · rintro (_ | ⟨mnemonic, operands, _, whole, _⟩)
      · rfl
      · rw [empty] at whole
        cases whole
    · rintro rfl
      exact .bare empty
  | some mnemonic =>
    rw [← laid.means_iff encoded found named]
    have whole := reads.body_eq named
    constructor
    · rintro (empty | ⟨mnemonic', operands, _, whole', means⟩)
      · rw [empty] at whole
        cases whole
      · rw [whole] at whole'
        cases whole'
        exact means
    · exact .instruction mnemonic p.statement.operands rows whole

theorem Laid.standsFor_iff (laid : Laid [] 0 1 sources a.lines a.symbols a.pc)
    (encoded : ∀ p ∈ a.lines, p.encode a.symbols = .ok p.emitted) {rows : List (List (List Nat))} :
    StandsFor sources rows ↔ rows = a.lines.map (numbers ·.emitted) := by
  constructor
  · intro stands
    apply List.ext_getElem
    · rw [stands.length, List.length_map, laid.length_eq]
    · intro i inside _
      have there := List.getElem?_eq_getElem (stands.length ▸ inside)
      obtain ⟨p, found, -⟩ := laid.exists_line there
      have own := stands.each i _ _ there (List.getElem?_eq_getElem inside)
      obtain ⟨_, rfl⟩ := List.getElem?_eq_some_iff.1 found
      rw [(laid.lineStandsFor_iff encoded there found).1 own, List.getElem_map]
  · rintro rfl
    refine ⟨by rw [List.length_map, laid.length_eq], ?_⟩
    intro i line own there same
    obtain ⟨p, found, -⟩ := laid.exists_line there
    rw [List.getElem?_map, found] at same
    exact (laid.lineStandsFor_iff encoded there found).2 (Option.some.inj same).symm

end Laid

theorem flat_numbers (lines : List Placed) :
    flat (lines.map (numbers ·.emitted)) = (imageOf lines).map Word.toInt := by
  simp only [flat, imageOf, numbers, List.flatten_flatten, List.map_flatten, List.map_map,
    List.flatMap_def, Function.comp_def]
  rfl

end Assembly

/-! ## What an assembly leaves -/

/-- An accepted source stands for the words of its image, put one after another by `flat`. -/
theorem flat_of_assemble {source : String} {words : List Word}
    (accepted : assemble source = .ok words) {rows : List (List (List Nat))}
    (stands : StandsFor (linesOf source) rows) : flat rows = words.map Word.toInt := by
  obtain ⟨laid, _, encoded, image⟩ := laid_of_assemble accepted
  rw [(laid.standsFor_iff encoded).1 stands, flat_numbers, image]

theorem existsUnique_standsFor {source : String} {words : List Word}
    (accepted : assemble source = .ok words) :
    ∃! rows, StandsFor (linesOf source) rows := by
  obtain ⟨laid, _, encoded, _⟩ := laid_of_assemble accepted
  exact ⟨_, (laid.standsFor_iff encoded).2 rfl, fun _ => (laid.standsFor_iff encoded).1⟩

/-- Only the last step of `ofSource` fills the image. -/
theorem words_of_error {source : String} (failed : (Assembly.ofSource source).error ≠ none) :
    (Assembly.ofSource source).words = [] := by
  unfold Assembly.ofSource at failed ⊢
  dsimp only at failed ⊢
  split
  case h_1 => rfl
  case h_2 first =>
    simp only [first] at failed
    split
    case h_1 => rfl
    case h_2 second =>
      simp only [second] at failed
      exact absurd rfl failed

theorem words_of_rejected {source : String} {error : SourceError}
    (rejected : assemble source = .error error) :
    (Assembly.ofSource source).words = [] := by
  apply words_of_error
  intro clean
  rw [assemble, Assembly.result, clean] at rejected
  cases rejected

/-- Images and lists of words stand for each other, and what an assembly leaves is always an image:
that of the numbers that the source stands for, or the empty one. -/
theorem images_correspond :
    (∀ ns : List Int, (∀ n ∈ ns, 0 ≤ n ∧ n < 2 ^ 32) →
      ∃ bytes, Image.pack ns = .ok bytes ∧ bytes.length = 4 * ns.length ∧
        Image.unpack bytes = .ok ns) ∧
    (∀ bytes : List UInt8, bytes.length % 4 = 0 →
      ∃ ns, Image.unpack bytes = .ok ns ∧ (∀ n ∈ ns, 0 ≤ n ∧ n < 2 ^ 32) ∧
        Image.pack ns = .ok bytes) ∧
    (∀ bytes : List UInt8, bytes.length % 4 ≠ 0 → Image.unpack bytes = .error ⟨bytes.length⟩) ∧
    (∀ source words, assemble source = .ok words →
      (∃! rows, StandsFor (linesOf source) rows) ∧
      ∀ rows, StandsFor (linesOf source) rows → flat rows = words.map Word.toInt ∧
        (∀ n ∈ flat rows, 0 ≤ n ∧ n < 2 ^ 32) ∧
        Image.pack (flat rows) = .ok (Image.encode (Assembly.ofSource source).words)) ∧
    ∀ source error, assemble source = .error error →
      (Assembly.ofSource source).words = [] ∧
      Image.pack [] = .ok (Image.encode (Assembly.ofSource source).words) := by
  refine ⟨?packs, ?unpacks, ?odd, ?accepted, ?rejected⟩
  case packs =>
    intro ns fit
    obtain ⟨bytes, packed⟩ := Image.exists_pack.2 fit
    exact ⟨bytes, packed, Image.length_of_pack packed, Image.pack_eq_ok_iff.1 packed⟩
  case unpacks =>
    intro bytes whole
    have unpacked : Image.unpack bytes = .ok ((Image.wordsOf bytes).map Word.toInt) := by
      rw [Image.unpack, Image.decode, if_pos whole]
      rfl
    have packed := Image.pack_eq_ok_iff.2 unpacked
    exact ⟨_, unpacked, Image.exists_pack.1 ⟨bytes, packed⟩, packed⟩
  case odd =>
    intro bytes odd
    rw [Image.unpack, Image.decode, if_neg odd]
    rfl
  case accepted =>
    intro source words accepted
    refine ⟨existsUnique_standsFor accepted, ?_⟩
    intro rows stands
    have same := flat_of_assemble accepted stands
    have packed : Image.pack (flat rows) = .ok (Image.encode (Assembly.ofSource source).words) := by
      rw [same, words_of_assemble accepted, Image.pack_toInt]
    exact ⟨same, Image.exists_pack.1 ⟨_, packed⟩, packed⟩
  case rejected =>
    intro source error rejected
    rw [words_of_rejected rejected]
    exact ⟨rfl, rfl⟩

/-- Two numbers at the ends of the range, bytes cut off within a word, a source that reaches below
zero, and one whose second line is rejected after the first was encoded. -/
theorem images_correspond_ends :
    (∃ bytes, Image.pack [0x1020304, 2 ^ 32 - 1] = .ok bytes ∧
      Image.unpack bytes = .ok [0x1020304, 2 ^ 32 - 1]) ∧
    Image.unpack [4, 3, 2, 1, 255] = .error ⟨5⟩ ∧
    (∀ rows, StandsFor (linesOf "ldi /-1 ffffffff") rows →
      Image.pack (flat rows) = .ok (Image.encode [4, 0xFFFFFFFC, 3, 0xFFFFFFFF])) ∧
    (Assembly.ofSource "jmp 8
add nowhere").words = [] := by
  obtain ⟨packs, _, odd, accepted, rejected⟩ := images_correspond
  refine ⟨?_, odd [4, 3, 2, 1, 255] (by decide), ?_, ?_⟩
  · obtain ⟨bytes, packed, _, unpacked⟩ := packs [0x1020304, 2 ^ 32 - 1] (by decide)
    exact ⟨bytes, packed, unpacked⟩
  · have assembled : assemble "ldi /-1 ffffffff" = .ok [4, 0xFFFFFFFC, 3, 0xFFFFFFFF] := by
      decide +kernel
    intro rows stands
    rw [← words_of_assemble assembled]
    exact ((accepted _ _ assembled).2 rows stands).2.2
  · exact (rejected _ ⟨2, "add nowhere", .undefinedLabel "nowhere"⟩ (by decide +kernel)).1

end Chifir
