import Chifir.Proofs.Assembly.Walks
import Chifir.Proofs.Quads

/-!
# The layout of an image

The first walk counts instructions without encoding them, the second one encodes without counting.
`Coherent` says that they agree: each line is in the image where the first walk has put it, and each
label is the address of the instruction that follows it. `coherent_of_assemble` says it of every
source that is accepted.
-/

namespace Chifir

open Assembly

/-- The image of an assembly is laid out as its lines and its labels say. -/
structure Assembly.Coherent (a : Assembly) : Prop where
  /-- A line without an instruction takes no room. -/
  bare : ∀ p ∈ a.lines, p.isInstruction = false → p.size = 0 ∧ p.emitted = []
  /-- A line with an instruction has as many of them as were counted. -/
  sized : ∀ p ∈ a.lines, p.isInstruction = true → p.emitted.length = p.size
  /-- It stands behind the instructions of the lines before it. -/
  placed : ∀ i p, a.lines[i]? = some p → p.isInstruction = true →
    p.address.toNat = 4 * (((a.lines.take i).filter (·.isInstruction)).map (·.size)).sum
  /-- The image is the instructions in the order of the lines. -/
  image : a.words = (a.lines.flatMap (·.emitted)).flatMap Quad.toList
  /-- The words at the address of a line are those that the line has emitted. -/
  slice : ∀ p ∈ a.lines, p.isInstruction = true →
    (a.words.drop p.address.toNat).take (4 * p.size) = p.emitted.flatMap Quad.toList
  /-- The address counter ends behind the image. -/
  counter : a.words.length = a.pc.toNat
  /-- The labels are those of the lines, each with the address of the first instruction from its
  line on, or that behind the image if there is none. -/
  labels : ∀ name address, a.symbols.lookup name = some address ↔
    ∃ (i : Nat) (p : Placed), a.lines[i]? = some p ∧ p.statement.label = some name ∧
      address = nextAddress a.pc (a.lines.drop i)

namespace Assembly

/-! ## What a line emits -/

/-- The second walk gives as many instructions as the first one has counted. -/
theorem length_emitted {p : Placed} {symbols before after : Symbols} {pc : Word}
    (laid : p.LaidAt before pc after) (encoded : p.encode symbols = .ok p.emitted) :
    p.emitted.length = p.size := by
  cases named : p.statement.mnemonic with
  | none =>
    rw [Placed.encode, named] at encoded
    rw [laid.bare named, ← Except.ok.inj encoded]
    rfl
  | some mnemonic =>
    have through := encoded
    simp only [Placed.encode, named] at through
    obtain ⟨values, resolved, _⟩ := bind_eq_ok.1 through
    obtain ⟨quads, same, length⟩ := laid.encodes named resolved
    rw [encoded] at same
    cases same
    exact length

theorem Laid.sized {symbols symbols' known : Symbols} {pc pc' : Word} {number : Nat}
    {sources : List String} {lines : List Placed}
    (laid : Laid symbols pc number sources lines symbols' pc')
    (encoded : ∀ p ∈ lines, p.encode known = .ok p.emitted) :
    ∀ p ∈ lines, p.emitted.length = p.size := by
  intro p mem
  obtain ⟨i, found⟩ := List.mem_iff_getElem?.1 mem
  obtain ⟨_, _, _, _, here⟩ := laid.laidAt found
  exact length_emitted here (encoded p mem)

/-! ## Where a line stands in the image -/

theorem imageOf_append (lines lines' : List Placed) :
    imageOf (lines ++ lines') = imageOf lines ++ imageOf lines' := by
  simp [imageOf]

/-- The image of lines is as long as they were counted. -/
theorem length_imageOf {lines : List Placed} (sized : ∀ p ∈ lines, p.emitted.length = p.size) :
    (imageOf lines).length = extent lines := by
  induction lines with
  | nil => rfl
  | cons p lines ih =>
    rw [imageOf, List.flatMap_cons, List.length_append, length_flatMap_toList,
      sized p List.mem_cons_self, extent_cons, ← ih fun q hq => sized q (List.mem_cons_of_mem p hq)]
    rfl

/-- The words of a line stand in the image behind those of the lines before it. -/
theorem take_drop_imageOf {lines : List Placed} (sized : ∀ p ∈ lines, p.emitted.length = p.size)
    {i : Nat} {p : Placed} (found : lines[i]? = some p) :
    ((imageOf lines).drop (extent (lines.take i))).take (4 * p.size) =
      p.emitted.flatMap Quad.toList := by
  obtain ⟨inside, rfl⟩ := List.getElem?_eq_some_iff.1 found
  have before : (imageOf (lines.take i)).length = extent (lines.take i) :=
    length_imageOf fun q hq => sized q (List.mem_of_mem_take hq)
  have own : (lines[i].emitted.flatMap Quad.toList).length = 4 * lines[i].size := by
    rw [length_flatMap_toList, sized _ (List.getElem_mem inside)]
  have split : imageOf lines = imageOf (lines.take i) ++
      (lines[i].emitted.flatMap Quad.toList ++ imageOf (lines.drop (i + 1))) := by
    conv_lhs => rw [← List.take_append_drop i lines, List.drop_eq_getElem_cons inside]
    rw [imageOf_append]
    rfl
  rw [split, ← before, List.drop_left, ← own, List.take_left]

theorem extent_filter {lines : List Placed}
    (bare : ∀ p ∈ lines, p.isInstruction = false → p.size = 0) :
    extent (lines.filter (·.isInstruction)) = extent lines := by
  induction lines with
  | nil => rfl
  | cons p lines ih =>
    have rest := ih fun q hq => bare q (List.mem_cons_of_mem p hq)
    cases instruction : p.isInstruction with
    | true => rw [List.filter_cons_of_pos instruction, extent_cons, extent_cons, rest]
    | false =>
      rw [List.filter_cons_of_neg (by simp [instruction]), extent_cons, rest,
        bare p List.mem_cons_self instruction, Nat.mul_zero, Nat.zero_add]

theorem Laid.sources_eq {symbols symbols' : Symbols} {pc pc' : Word} {number : Nat}
    {sources : List String} {lines : List Placed}
    (laid : Laid symbols pc number sources lines symbols' pc') :
    lines.map (·.statement.source) = sources := by
  induction laid with
  | done => rfl
  | next parsed _ _ ih => rw [List.map_cons, ih, (Statement.line_of_parse parsed).2]

end Assembly

/-- What the first walk lays out and the second one encodes is laid out as its lines and its labels
say. The image has to leave an address behind it, or the address counter wraps. -/
theorem coherent_of_laid {a : Assembly} {sources : List String}
    (laid : Laid [] 0 1 sources a.lines a.symbols a.pc)
    (encoded : ∀ p ∈ a.lines, p.encode a.symbols = .ok p.emitted)
    (image : a.words = imageOf a.lines) (small : a.words.length < 2 ^ 32) : a.Coherent := by
  have at_line : ∀ p ∈ a.lines, ∃ before pc after, p.LaidAt before pc after := fun p hp => by
    obtain ⟨i, found⟩ := List.mem_iff_getElem?.1 hp
    obtain ⟨before, pc, after, _, here⟩ := laid.laidAt found
    exact ⟨before, pc, after, here⟩
  have sized := laid.sized encoded
  have bare : ∀ p ∈ a.lines, p.isInstruction = false → p.size = 0 := fun p hp none => by
    obtain ⟨_, _, _, here⟩ := at_line p hp
    exact here.bare (by simpa [Placed.isInstruction] using none)
  have fits : extent a.lines < 2 ^ 32 := by
    rw [← length_imageOf sized, ← image]
    exact small
  have below : ∀ i, extent (a.lines.take i) ≤ extent a.lines := fun i => by
    conv_rhs => rw [← List.take_append_drop i a.lines, extent_append]
    exact Nat.le_add_right _ _
  have placed : ∀ i p, a.lines[i]? = some p → p.isInstruction = true →
      p.address.toNat = extent (a.lines.take i) := fun i p found instruction => by
    rw [laid.address_eq found instruction, UInt32.zero_add, UInt32.toNat_ofNat']
    exact Nat.mod_eq_of_lt (Nat.lt_of_le_of_lt (below i) fits)
  refine ⟨?_, ?_, ?_, ?_, ?_, ?_, ?_⟩
  · intro p hp none
    exact ⟨bare p hp none, List.length_eq_zero_iff.1 ((sized p hp).trans (bare p hp none))⟩
  · exact fun p hp _ => sized p hp
  · intro i p found instruction
    rw [placed i p found instruction,
      ← extent_filter fun q hq => bare q (List.mem_of_mem_take hq)]
    rfl
  · rw [image, imageOf, List.flatMap_assoc]
  · intro p hp instruction
    obtain ⟨i, found⟩ := List.mem_iff_getElem?.1 hp
    rw [image, placed i p found instruction]
    exact take_drop_imageOf sized found
  · rw [image, length_imageOf sized, laid.pc_eq, UInt32.zero_add, UInt32.toNat_ofNat',
      Nat.mod_eq_of_lt fits]
  · intro name address
    constructor
    · intro known
      rcases laid.label_of_lookup known with before | ⟨i, p, found, labelled⟩
      · cases before
      · obtain ⟨bound, next⟩ := laid.lookup_of_label found labelled
        rw [bound, ← next] at known
        exact ⟨i, p, found, labelled, (Option.some.inj known).symm⟩
    · rintro ⟨i, p, found, labelled, rfl⟩
      obtain ⟨bound, next⟩ := laid.lookup_of_label found labelled
      rw [bound, ← next]

/-- The two walks over an accepted source agree, as long as the image leaves an address behind it.
-/
theorem coherent_of_assemble {source : String} {words : List Word}
    (accepted : assemble source = .ok words) (small : words.length < 2 ^ 32) :
    (Assembly.ofSource source).words = words ∧
      (Assembly.ofSource source).lines.map (·.statement.source) = Text.linesOf source ∧
      (layout (Text.linesOf source)).lines = (Assembly.ofSource source).lines.map Placed.unfilled ∧
      (Assembly.ofSource source).Coherent := by
  have same := words_of_assemble accepted
  obtain ⟨laid, first, encoded, image⟩ := laid_of_assemble accepted
  refine ⟨same, laid.sources_eq, first, coherent_of_laid laid encoded (same.trans image) ?_⟩
  rw [same]
  exact small

/-- Lines of all kinds: a comment, a label with a macro, a blank line, an instruction, and a label
behind everything. -/
theorem coherent_of_assemble_mixed :
    let source := "; start\nadd: jlt end add 3\n\nadd end\n end:"
    let words : List Word := [12, 10, 0, 3, 2, 7, 10, 12, 1, 11, 0, 16, 7, 16, 0, 0]
    assemble source = .ok words ∧ words.length < 2 ^ 32 ∧ (Assembly.ofSource source).Coherent := by
  have accepted : assemble "; start\nadd: jlt end add 3\n\nadd end\n end:" =
      .ok [12, 10, 0, 3, 2, 7, 10, 12, 1, 11, 0, 16, 7, 16, 0, 0] := by decide +kernel
  have small : List.length ([12, 10, 0, 3, 2, 7, 10, 12, 1, 11, 0, 16, 7, 16, 0, 0] : List Word) <
      2 ^ 32 := by
    decide
  exact ⟨accepted, small, (coherent_of_assemble accepted small).2.2.2⟩

end Chifir
