import Chifir.Proofs.Assembly.Language

/-!
# Which error is reported

A source can have several lines in error, and only one of them is reported. The first walk looks at
the label, the mnemonic, the number of operands and the form of each operand; the second walk, which
comes to the values of the operands, runs only if the first one found nothing. So a line that is not
well-formed is reported even if an operand further up has no value (`missing_label_passed_over`),
and among the lines that fail for one walk it is the first one (`names_first_of_assemble`).
-/

namespace Chifir.Assembly

open Text

/-- The error is that of the first line which is not well-formed (`IsWellFormed`). If all are, it is
that of the first line which is not as it should be (`IsValid`), for an operand of it names no label
or does not fit into a word. -/
theorem names_first_of_assemble {source : String} {e : SourceError}
    (rejected : assemble source = .error e) :
    e.NamesFirst (fun j => IsWellFormed ((linesOf source).take j)) (linesOf source) ∨
      (∀ j line, (linesOf source)[j]? = some line → IsWellFormed ((linesOf source).take j) line) ∧
        e.NamesFirst (IsValid (linesOf source)) (linesOf source) := by
  rcases walk_of_assemble rejected with failed | ⟨clean, failed⟩
  · exact .inl (first_of_layout failed)
  · have laid := (laid_of_layoutFrom clean).1
    exact .inr ⟨fun _ _ there => laid.isWellFormed there, first_of_emit clean failed⟩

/-- Three lines in error: a number too wide, a label that is there already, and a missing label. The
second one is reported. -/
theorem names_first_of_assemble_duplicate :
    let lines := ["x: ldi 0 100000000", "x: nop", "jmp y"]
    let e : SourceError := ⟨2, "x: nop", .duplicateLabel "x" 0⟩
    assemble "x: ldi 0 100000000\nx: nop\njmp y" = .error e ∧
      (e.NamesFirst (fun j => IsWellFormed (lines.take j)) lines ∨
        (∀ j line, lines[j]? = some line → IsWellFormed (lines.take j) line) ∧
          e.NamesFirst (IsValid lines) lines) := by
  have failed : assemble "x: ldi 0 100000000\nx: nop\njmp y" =
      .error ⟨2, "x: nop", .duplicateLabel "x" 0⟩ := by decide +kernel
  have lines : linesOf "x: ldi 0 100000000\nx: nop\njmp y" =
      ["x: ldi 0 100000000", "x: nop", "jmp y"] := by decide +kernel
  have first := names_first_of_assemble failed
  rw [lines] at first
  exact ⟨failed, first⟩

/-- A line whose label is missing is passed over: the error is that of the second line, and not that
of the first line which is not as it should be. -/
theorem missing_label_passed_over :
    let e : SourceError := ⟨2, "next", .unknownMnemonic "next"⟩
    assemble "jmp y\nnext" = .error e ∧
      ¬ e.NamesFirst (IsValid (linesOf "jmp y\nnext")) (linesOf "jmp y\nnext") := by
  refine ⟨by decide +kernel, ?_⟩
  have lines : linesOf "jmp y\nnext" = ["jmp y", "next"] := by decide +kernel
  rw [lines]
  rintro ⟨i, line, _, _, before⟩
  obtain rfl : 1 = i := Nat.succ.inj line
  have valid := before 0 Nat.zero_lt_one "jmp y" rfl
  -- The operand of the jump is neither a number nor the label of one of the two lines.
  rcases valid.operands "jmp" ["y"] (by decide +kernel) "y" List.mem_cons_self with
    ⟨other, mem, _, rest, own⟩ | ⟨digits, slash, _⟩ | ⟨digits, slash, _⟩ | fits
  · rcases List.mem_pair.1 mem with rfl | rfl
    · have read : tokens "jmp y" = ["jmp", "y"] := by decide +kernel
      rw [read] at own
      exact absurd (List.cons.inj own).1 (by decide)
    · have read : tokens "next" = ["next"] := by decide +kernel
      rw [read] at own
      exact absurd (List.cons.inj own).1 (by decide)
  · exact absurd (List.cons.inj slash).1 (by decide)
  · exact absurd (List.cons.inj slash).1 (by decide)
  · exact absurd fits.1 (by decide)

end Chifir.Assembly
