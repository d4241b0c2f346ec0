import Mathlib.Data.List.Basic
import Chifir.Memory.Dump
import Chifir.Proofs.Text.Words

/-!
# Text in rows

What is printed in rows of words is read back as those rows and words, if no row holds a line break
and no word a blank. A text that is read with all its line breaks as line feeds has the lines that
it has (`linesOf_unixBreaks`).
-/

namespace Chifir.Text

theorem toString_text (s : String) : toString s = s := rfl

theorem mem_of_mem_intercalate {α : Type} {sep : List α} {ls : List (List α)} {c : α}
    (mem : c ∈ sep.intercalate ls) :
    c ∈ sep ∨ ∃ l ∈ ls, c ∈ l := by
  induction ls with
  | nil => cases mem
  | cons l ls ih =>
    cases ls with
    | nil =>
      rw [List.intercalate_singleton] at mem
      exact .inr ⟨l, List.mem_singleton_self l, mem⟩
    | cons l' ls =>
      rw [List.intercalate_cons_cons] at mem
      rcases List.mem_append.1 mem with front | rest
      · rcases List.mem_append.1 front with own | between
        · exact .inr ⟨l, List.mem_cons_self, own⟩
        · exact .inl between
      · rcases ih rest with between | ⟨l'', there, own⟩
        · exact .inl between
        · exact .inr ⟨l'', List.mem_cons_of_mem l there, own⟩

/-! ## Words of a row -/

def IsSolid (word : List Char) : Prop := word ≠ [] ∧ ∀ c ∈ word, isBlank c = false

-- not by inference, which may look at every character that there is
instance (word : List Char) : Decidable (IsSolid word) :=
  decidable_of_iff ((!word.isEmpty && word.all (!isBlank ·)) = true) (by simp [IsSolid])

theorem isSplit_intercalate {ws : List (List Char)} (solid : ∀ w ∈ ws, IsSolid w) :
    IsSplit ([' '].intercalate ws) ws := by
  have empty : ∀ c ∈ ([] : List Char), isBlank c = true := by simp
  induction ws with
  | nil => exact .done empty
  | cons w rest ih =>
    obtain ⟨⟨some, run⟩, others⟩ := List.forall_mem_cons.1 solid
    cases rest with
    | nil =>
      have only : IsSplit ([] ++ (w ++ [])) [w] := .word empty some run (by simp) (.done empty)
      rw [List.nil_append, List.append_nil] at only
      rwa [List.intercalate_singleton]
    | cons w' rest =>
      rw [List.intercalate_cons_cons, List.append_assoc]
      refine .word empty some run ?_ ((ih others).cons_blank (by decide))
      intro c first
      cases first
      decide

theorem toList_spaced (texts : List String) :
    (spaced texts).toList = [' '].intercalate (texts.map String.toList) :=
  String.toList_intercalate

theorem mem_of_mem_trimEnd {s : List Char} {c : Char} (mem : c ∈ trimEnd s) : c ∈ s :=
  List.mem_reverse.1 ((List.dropWhile_sublist isBlank).mem (List.mem_reverse.1 mem))

theorem mem_of_mem_trim {s : List Char} {c : Char} (mem : c ∈ trim s) : c ∈ s :=
  (List.dropWhile_sublist isBlank).mem (mem_of_mem_trimEnd mem)

theorem trimEnd_append {s : List Char} {c : Char} (last : s.getLast? = some c)
    (visible : isBlank c = false) (r : List Char) : trimEnd (s ++ r) = s ++ trimEnd r := by
  obtain ⟨front, rfl⟩ := List.getLast?_eq_some_iff.1 last
  have kept : (front ++ [c]).reverse.dropWhile isBlank = (front ++ [c]).reverse := by
    rw [List.reverse_append, List.reverse_singleton, List.singleton_append,
      List.dropWhile_cons_of_neg (by simp [visible])]
  unfold trimEnd
  rw [List.reverse_append, List.dropWhile_append, kept]
  split
  · next blank =>
    rw [List.isEmpty_iff.1 blank, List.reverse_reverse, List.reverse_nil, List.append_nil]
  · rw [List.reverse_append, List.reverse_reverse]

/-! ## Lines -/

theorem isBlank_of_isBreak {c : Char} (ends : isBreak c = true) : isBlank c = true := by
  simp only [isBreak, isBlank, Bool.or_eq_true, Bool.and_eq_true, decide_eq_true_eq, beq_iff_eq]
    at ends ⊢
  omega

/-- A text that is all on one line: no character of it `isBreak`. -/
def IsRow (row : List Char) : Prop := ∀ c ∈ row, isBreak c = false

instance (row : List Char) : Decidable (IsRow row) :=
  decidable_of_iff (row.all (!isBreak ·) = true) (by simp [IsRow])

theorem IsSolid.isRow {word : List Char} (solid : IsSolid word) : IsRow word := by
  intro c mem
  have visible := solid.2 c mem
  cases ends : isBreak c with
  | false => rfl
  | true => exact absurd (isBlank_of_isBreak ends) (by simp [visible])

theorem isRow_spaced {texts : List String} (solid : ∀ text ∈ texts, IsSolid text.toList) :
    IsRow (spaced texts).toList := by
  intro c mem
  rw [toList_spaced] at mem
  rcases mem_of_mem_intercalate mem with between | ⟨l, there, own⟩
  · rw [List.mem_singleton.1 between]
    decide
  · obtain ⟨text, known, rfl⟩ := List.mem_map.1 there
    exact (solid text known).isRow c own

theorem splitLinesFrom_of_ne {line r : List Char} {c : Char} (plain : c ≠ '\r') :
    splitLinesFrom line (c :: r) = if isBreak c then line.reverse :: splitLinesFrom [] r
      else splitLinesFrom (c :: line) r := by
  rw [splitLinesFrom]
  exact fun _ same _ => plain same

theorem splitLinesFrom_cons {line r : List Char} {c : Char} (inside : isBreak c = false) :
    splitLinesFrom line (c :: r) = splitLinesFrom (c :: line) r := by
  rw [splitLinesFrom_of_ne, inside, if_neg Bool.false_ne_true]
  rintro rfl
  cases inside

theorem splitLinesFrom_row {line row : List Char} (inside : IsRow row) (r : List Char) :
    splitLinesFrom line (row ++ r) = splitLinesFrom (row.reverse ++ line) r := by
  induction row generalizing line with
  | nil => rfl
  | cons c row ih =>
    obtain ⟨first, rest⟩ := List.forall_mem_cons.1 inside
    rw [List.cons_append, splitLinesFrom_cons first, ih rest, List.reverse_cons, List.append_assoc]
    rfl

theorem splitLines_intercalate {rows : List (List Char)} (some : rows ≠ [])
    (inside : ∀ row ∈ rows, IsRow row) :
    splitLines (['\n'].intercalate rows) = rows := by
  unfold splitLines
  induction rows with
  | nil => exact absurd rfl some
  | cons row rows ih =>
    obtain ⟨first, others⟩ := List.forall_mem_cons.1 inside
    cases rows with
    | nil =>
      rw [List.intercalate_singleton, ← List.append_nil row, splitLinesFrom_row first]
      simp [splitLinesFrom]
    | cons row' rows =>
      rw [List.intercalate_cons_cons, List.append_assoc, splitLinesFrom_row first, List.append_nil,
        List.singleton_append, splitLinesFrom, List.reverse_reverse, ih (by simp) others]
      · rfl
      · simp

theorem splitLines_row {row : List Char} (inside : IsRow row) : splitLines row = [row] := by
  have whole := @splitLinesFrom_row [] row inside []
  rw [List.append_nil, List.append_nil, splitLinesFrom, List.reverse_reverse] at whole
  exact whole

theorem isRow_of_mem_splitLinesFrom {line s row : List Char} (inside : IsRow line)
    (mem : row ∈ splitLinesFrom line s) : IsRow row := by
  have whole {line : List Char} (inside : IsRow line) : IsRow line.reverse := fun c mem =>
    inside c (List.mem_reverse.1 mem)
  have none : IsRow [] := by simp [IsRow]
  fun_induction splitLinesFrom line s with
  | case1 line =>
    rw [List.mem_singleton.1 mem]
    exact whole inside
  | case2 line r ih =>
    rcases List.mem_cons.1 mem with rfl | later
    · exact whole inside
    · exact ih none later
  | case3 line c r _ ends ih =>
    rcases List.mem_cons.1 mem with rfl | later
    · exact whole inside
    · exact ih none later
  | case4 line c r _ plain ih =>
      exact ih (List.forall_mem_cons.2 ⟨by simpa using plain, inside⟩) mem

theorem isRow_of_mem_linesOf {s line : String} (mem : line ∈ linesOf s) : IsRow line.toList := by
  obtain ⟨row, there, rfl⟩ := List.mem_map.1 mem
  rw [String.toList_ofList]
  exact isRow_of_mem_splitLinesFrom (by simp [IsRow]) there

/-- The lines of rows are the rows: `linesOf` undoes `joinLines`. -/
theorem linesOf_joinLines {rows : List String} (some : rows ≠ [])
    (inside : ∀ row ∈ rows, IsRow row.toList) :
    linesOf (joinLines rows) = rows := by
  rw [linesOf, joinLines, String.toList_intercalate]
  rw [show "\n".toList = ['\n'] from rfl, splitLines_intercalate (by simpa using some)
    (by simpa using inside)]
  simp [Function.comp_def]

theorem not_mem_joinLines {rows : List String} (inside : ∀ row ∈ rows, IsRow row.toList) :
    '\r' ∉ (joinLines rows).toList := by
  rw [joinLines, String.toList_intercalate]
  intro mem
  rcases mem_of_mem_intercalate mem with between | ⟨row, there, own⟩
  · exact absurd between (by decide)
  · obtain ⟨text, known, rfl⟩ := List.mem_map.1 there
    have none := inside text known _ own
    cases none

theorem linesOf_append_lineFeed {s : String} (plain : '\r' ∉ s.toList) :
    linesOf (s ++ "\n") = linesOf s ++ [""] := by
  suffices ∀ line,
      splitLinesFrom line (s.toList ++ ['\n']) = splitLinesFrom line s.toList ++ [[]] by
    rw [linesOf, String.toList_append, splitLines, show "\n".toList = ['\n'] from rfl, this,
      List.map_append]
    rfl
  generalize s.toList = cs at plain
  intro line
  induction cs generalizing line with
  | nil => rfl
  | cons c r ih =>
    obtain ⟨first, others⟩ := List.ne_and_not_mem_of_not_mem_cons plain
    rw [List.cons_append, splitLinesFrom_of_ne first.symm, splitLinesFrom_of_ne first.symm]
    split
    · rw [ih others, List.cons_append]
    · exact ih others (c :: line)

/-! ## Line breaks -/

section Breaks
variable {α : Type} {g : List Char → List α} (empty : g [] = [])
include empty

/-- A carriage return and a line feed can be taken for two breaks, where empty lines do not count.
-/
theorem flatMap_splitLinesFrom_cons (line : List Char) (c : Char) (r : List Char) :
    (splitLinesFrom line (c :: r)).flatMap g =
      if isBreak c then g line.reverse ++ (splitLinesFrom [] r).flatMap g
      else (splitLinesFrom (c :: line) r).flatMap g := by
  by_cases pair : c = '\r' ∧ ∃ r', r = '\n' :: r'
  · obtain ⟨rfl, r', rfl⟩ := pair
    have second : splitLinesFrom [] ('\n' :: r') = [] :: splitLinesFrom [] r' :=
      splitLinesFrom_of_ne (by decide)
    rw [splitLinesFrom, second, if_pos (by decide), List.flatMap_cons, List.flatMap_cons, empty,
      List.nil_append]
  · rw [splitLinesFrom]
    · split
      · rw [List.flatMap_cons]
      · rfl
    · exact fun r' first second => pair ⟨first, r', second⟩

/-- Where empty lines do not count, every break is the end of one text and the start of another, as
`flatMap` goes over both. -/
theorem flatMap_splitLines_append (before : List Char) {c : Char} (ends : isBreak c = true)
    (after : List Char) :
    (splitLines (before ++ c :: after)).flatMap g =
      (splitLines before).flatMap g ++ (splitLines after).flatMap g := by
  unfold splitLines
  suffices ∀ line, (splitLinesFrom line (before ++ c :: after)).flatMap g =
      (splitLinesFrom line before).flatMap g ++ (splitLinesFrom [] after).flatMap g from this []
  induction before with
  | nil =>
    intro line
    rw [List.nil_append, flatMap_splitLinesFrom_cons empty, if_pos ends, splitLinesFrom,
      List.flatMap_singleton]
  | cons c' before ih =>
    intro line
    rw [List.cons_append, flatMap_splitLinesFrom_cons empty, flatMap_splitLinesFrom_cons empty, ih,
      ih]
    split
    · rw [List.append_assoc]
    · rfl

end Breaks

theorem splitLinesFrom_withLineFeeds (line s : List Char) :
    splitLinesFrom line (withLineFeeds s) = splitLinesFrom line s := by
  fun_induction withLineFeeds s generalizing line with
  | case1 => rfl
  | case2 r ih =>
    rw [splitLinesFrom, splitLinesFrom, ih]
    · rfl
    · simp
  | case3 r other ih =>
    rw [splitLinesFrom, splitLinesFrom, ih]
    · rfl
    · simpa using other
    · simp
  | case4 c r pair other ih =>
    rw [splitLinesFrom, splitLinesFrom, ih, ih]
    · exact pair
    · exact fun _ same _ => other same

/-- The lines of a text are the same with all line breaks as line feeds (`unixBreaks`). -/
theorem linesOf_unixBreaks (s : String) : linesOf (unixBreaks s) = linesOf s := by
  unfold unixBreaks
  split
  · rw [linesOf, String.toList_ofList, splitLines, splitLinesFrom_withLineFeeds]
    rfl
  · rfl

end Chifir.Text
