import Chifir.Proofs.Assembly.Reading
import Chifir.Proofs.Text.Rows

/-!
# Headings

Lines without tokens can stand before a program, and its image stays the same (`assemble_append`).
All that changes is the numbers of its lines, which both walks carry along and do not look at:
`layoutFrom_later`, `emit_later`.
-/

namespace Chifir.Assembly

open Text

/-! ## Line numbers -/

section Later
variable (k : Nat)

def Statement.later (s : Statement) : Statement := { s with number := s.number + k }

def Placed.later (p : Placed) : Placed := { p with statement := p.statement.later k }

def SourceError.later (e : SourceError) : SourceError := { e with line := e.line + k }

def Layout.later (l : Layout) : Layout :=
  { l with lines := l.lines.map (·.later k), error := l.error.map (·.later k) }

theorem Statement.parse_later (number : Nat) (source : String) :
    parse (number + k) source = (parse number source).map (·.later k) := by
  unfold parse
  dsimp only
  cases tokensOf source.toList with
  | nil => rfl
  | cons token rest =>
    dsimp only
    cases labelOf? token with
    | none => rfl
    | some name =>
      dsimp only
      split
      · cases rest with
        | nil => rfl
        | cons => rfl
      · rfl

theorem Statement.place_later (s : Statement) (symbols : Symbols) (pc : Word) :
    (s.later k).place symbols pc = (s.place symbols pc).later k := by
  have binds : (s.later k).bind symbols pc = s.bind symbols pc := rfl
  have named : (s.later k).mnemonic = s.mnemonic := rfl
  have counts (mnemonic : String) : (s.later k).count mnemonic = s.count mnemonic := rfl
  have operands : (s.later k).operands = s.operands := rfl
  unfold place
  simp only [binds, named, counts, operands]
  cases s.bind symbols pc with
  | error defect => rfl
  | ok bound =>
    cases s.mnemonic with
    | none => rfl
    | some mnemonic =>
      dsimp only
      cases s.count mnemonic with
      | error defect => rfl
      | ok size =>
        dsimp only
        cases s.operands.forM checkOperand with
        | error defect => rfl
        | ok => rfl

theorem layoutFrom_later (symbols : Symbols) (pc : Word) (number : Nat) (lines : List String) :
    layoutFrom symbols pc (number + k) lines = (layoutFrom symbols pc number lines).later k := by
  induction lines generalizing symbols pc number with
  | nil => rfl
  | cons source rest ih =>
    unfold layoutFrom
    rw [Statement.parse_later]
    cases Statement.parse number source with
    | error defect => rfl
    | ok s =>
      simp only [Except.map, Statement.place_later]
      have first := ih (s.place symbols pc).symbols (s.place symbols pc).pc (number + 1)
      rw [Nat.add_right_comm] at first
      simp only [Layout.later, Option.isSome_map, first]
      split
      · rfl
      · rw [List.map_append]

theorem emit_later (symbols : Symbols) (lines : List Placed) :
    emit symbols (lines.map (·.later k)) =
      ((emit symbols lines).1.map (·.later k), (emit symbols lines).2.map (·.later k)) := by
  induction lines with
  | nil => rfl
  | cons p rest ih =>
    have encodes : (p.later k).encode symbols = p.encode symbols := rfl
    rw [List.map_cons]
    unfold emit
    simp only [encodes, ih]
    cases p.encode symbols with
    | error defect => rfl
    | ok emitted => rfl

theorem imageOf_later (lines : List Placed) : imageOf (lines.map (·.later k)) = imageOf lines := by
  unfold imageOf
  rw [List.flatMap_map]
  rfl

end Later

/-! ## Lines without tokens -/

/-- A line is all comment from a semicolon on. -/
theorem tokens_of_comment {line : String} (comment : line.toList.head? = some ';') :
    tokens line = [] := by
  obtain ⟨text, split⟩ : ∃ text, line.toList = ';' :: text := List.head?_eq_some_iff.1 comment
  unfold tokens Statement.tokensOf
  rw [split, List.takeWhile_cons_of_neg (by decide), words_eq_nil.2 (List.forall_mem_nil _)]
  rfl

theorem layout_cons {line : String} (empty : tokens line = []) (lines : List String) :
    ∃ p : Placed, p.statement.mnemonic = none ∧
      layout (line :: lines) =
        { (layout lines).later 1 with lines := p :: ((layout lines).later 1).lines } := by
  have taken : Statement.tokensOf line.toList = [] := List.map_eq_nil_iff.1 empty
  refine ⟨{ statement :=
    { number := 1, source := line,
      comment := (Statement.commentOf line.toList).map String.ofList } }, rfl, ?_⟩
  rw [layout, layout, ← layoutFrom_later, layoutFrom, Statement.parse]
  dsimp only
  rw [taken]
  rfl

theorem assemble_cons {line source source' : String} {words : List Word} (empty : tokens line = [])
    (lines : linesOf source' = line :: linesOf source) (accepted : assemble source = .ok words) :
    assemble source' = .ok words := by
  obtain ⟨p, bare, laid⟩ := layout_cons empty (linesOf source)
  obtain ⟨clean, through⟩ := no_error_of_assemble accepted
  have image := words_of_assemble accepted
  unfold Assembly.ofSource at image
  simp only [clean, through] at image
  unfold assemble Assembly.ofSource
  rw [lines, laid]
  have blank : p.encode (layout (linesOf source)).symbols = .ok [] := by rw [Placed.encode, bare]
  simp only [Layout.later, clean, Option.map_none, emit, blank, emit_later, through]
  show Except.ok (imageOf ((emit _ _).1.map (·.later 1))) = _
  rw [imageOf_later, image]

/-- The image of rows, if `layout` and `emit` get through them. -/
theorem assemble_of_layout {rows : List String} {words : List Word} (some : rows ≠ [])
    (inside : ∀ row ∈ rows, IsRow row.toList)
    (walked : let laid := layout rows
      let (lines, error) := emit laid.symbols laid.lines
      laid.error = none ∧ error = none ∧ imageOf lines = words) : assemble (joinLines rows) =
        .ok words := by
  obtain ⟨clean, through, image⟩ := walked
  unfold assemble Assembly.ofSource
  rw [linesOf_joinLines some inside]
  simp only [clean, through, image]
  rfl

/-- Lines without tokens before the lines of a program leave its image as it is. -/
theorem assemble_append {heading rows : List String} {words : List Word}
    (empty : ∀ line ∈ heading, tokens line = []) (inside : ∀ line ∈ heading, IsRow line.toList)
    (some : rows ≠ []) (rest : ∀ row ∈ rows, IsRow row.toList)
    (accepted : assemble (joinLines rows) = .ok words) :
    assemble (joinLines (heading ++ rows)) = .ok words := by
  induction heading with
  | nil => exact accepted
  | cons line heading ih =>
    obtain ⟨first, others⟩ := List.forall_mem_cons.1 empty
    obtain ⟨row, further⟩ := List.forall_mem_cons.1 inside
    refine assemble_cons first ?_ (ih others further)
    have all : ∀ row ∈ heading ++ rows, IsRow row.toList := List.forall_mem_append.2 ⟨further, rest⟩
    rw [linesOf_joinLines (List.append_ne_nil_of_right_ne_nil heading some) all, List.cons_append,
      linesOf_joinLines (List.cons_ne_nil line _) (List.forall_mem_cons.2 ⟨row, all⟩)]

end Chifir.Assembly
