import Mathlib.Data.List.Basic
import Chifir.Text.Blank

/-!
# Words of a text

`IsSplit` says what the words of a text are without saying how to find them. Each text is split in
just one way (`words_of_isSplit`), and `words` finds it (`isSplit_words`).

A text that ends in a blank has its own words, and what follows it has the others (`words_append`).
-/

namespace Chifir.Text

/-- The words of a text: gaps of blanks, and between them runs of other characters, none of which is
cut in two. -/
inductive IsSplit : List Char → List (List Char) → Prop
  | done {gap : List Char} (blank : ∀ c ∈ gap, isBlank c = true) : IsSplit gap []
  | word {gap word rest : List Char} {others : List (List Char)}
      (blank : ∀ c ∈ gap, isBlank c = true) (some : word ≠ [])
      (solid : ∀ c ∈ word, isBlank c = false) (ends : ∀ c, rest.head? = .some c → isBlank c = true)
      (split : IsSplit rest others) :
      IsSplit (gap ++ (word ++ rest)) (word :: others)

theorem isSplit_words (s : List Char) : IsSplit s (words s) := by
  induction s using words.induct with
  | case1 s none =>
    rw [words_eq_nil.2 (dropWhile_isBlank_eq_nil.1 none)]
    exact .done (dropWhile_isBlank_eq_nil.1 none)
  | case2 s c r start ih =>
    have own : words s = (c :: r.takeWhile (! isBlank ·)) :: words (r.dropWhile (! isBlank ·)) := by
      rw [words]
      split <;> rename_i start'
      · rw [start] at start'
        cases start'
      · rw [start] at start'
        cases start'
        rfl
    have cut : s = s.takeWhile isBlank ++
        ((c :: r.takeWhile (! isBlank ·)) ++ r.dropWhile (! isBlank ·)) := by
      rw [List.cons_append, List.takeWhile_append_dropWhile, ← start,
        List.takeWhile_append_dropWhile]
    have first : isBlank c = false := by
      have h := List.head?_dropWhile_not isBlank s
      rw [start] at h
      simpa using h
    rw [own]
    conv => arg 1; rw [cut]
    refine .word ?_ (by simp) ?_ ?_ ih
    · exact fun c' mem => List.all_eq_true.1 List.all_takeWhile c' mem
    · intro c' mem
      rcases List.mem_cons.1 mem with rfl | mem
      · exact first
      · simpa using List.all_eq_true.1 (List.all_takeWhile (p := (! isBlank ·))) c' mem
    · intro c' head
      have h := List.head?_dropWhile_not (! isBlank ·) r
      rw [head] at h
      simpa using h

theorem words_of_isSplit {s : List Char} {ws : List (List Char)} (h : IsSplit s ws) :
    words s = ws := by
  induction h with
  | done blank => exact words_eq_nil.2 blank
  | @word gap word rest others blank some solid ends _ ih =>
    obtain ⟨c, word, rfl⟩ := List.exists_cons_of_ne_nil some
    have start : (gap ++ ((c :: word) ++ rest)).dropWhile isBlank = c :: (word ++ rest) := by
      rw [List.dropWhile_append_of_pos blank, List.cons_append,
        List.dropWhile_cons_of_neg (by simp [solid c List.mem_cons_self])]
    have run : ∀ x ∈ word, (! isBlank x) = true := fun x mem => by
      simp [solid x (List.mem_cons_of_mem c mem)]
    have stop : rest.takeWhile (! isBlank ·) = [] ∧ rest.dropWhile (! isBlank ·) = rest := by
      cases rest with
      | nil => exact ⟨rfl, rfl⟩
      | cons x rest => simp [ends x rfl]
    rw [words]
    split <;> rename_i start'
    · rw [start] at start'
      cases start'
    · rw [start] at start'
      cases start'
      rw [List.takeWhile_append_of_pos run, List.dropWhile_append_of_pos run, stop.1, stop.2,
        List.append_nil, ih]

/-! ## Gaps -/

section Gaps
variable {s s' : List Char} {ws ws' : List (List Char)}

theorem IsSplit.cons_blank {c : Char} (blank : isBlank c = true) (split : IsSplit s ws) :
    IsSplit (c :: s) ws := by
  cases split with
  | done gap => exact .done (List.forall_mem_cons.2 ⟨blank, gap⟩)
  | word gap some solid ends rest =>
      exact .word (List.forall_mem_cons.2 ⟨blank, gap⟩) some solid ends rest

theorem IsSplit.blank_append {gap : List Char} (blank : ∀ c ∈ gap, isBlank c = true)
    (split : IsSplit s ws) :
    IsSplit (gap ++ s) ws := by
  induction gap with
  | nil => exact split
  | cons c gap ih =>
    obtain ⟨first, others⟩ := List.forall_mem_cons.1 blank
    exact (ih others).cons_blank first

theorem IsSplit.append_blank {gap : List Char} (blank : ∀ c ∈ gap, isBlank c = true)
    (split : IsSplit s ws) :
    IsSplit (s ++ gap) ws := by
  induction split with
  | done own => exact .done (List.forall_mem_append.2 ⟨own, blank⟩)
  | @word own word rest others own_blank some solid ends _ ih =>
    rw [List.append_assoc, List.append_assoc]
    refine .word own_blank some solid (fun c first => ?_) ih
    cases rest with
    | nil => exact blank c (List.mem_of_mem_head? first)
    | cons c' rest => exact ends c first

/-- A text that ends in a blank, or is empty, cuts no word of what follows it. -/
theorem IsSplit.append (split : IsSplit s ws) (last : ∀ c, s.getLast? = some c → isBlank c = true)
    (split' : IsSplit s' ws') : IsSplit (s ++ s') (ws ++ ws') := by
  induction split with
  | done gap => exact split'.blank_append gap
  | @word own word rest others own_blank some solid ends _ ih =>
    have more : rest ≠ [] := by
      rintro rfl
      have visible := solid _ (List.getLast_mem some)
      rw [last (word.getLast some)
        (by simp [List.getLast?_append, List.getLast?_eq_some_getLast some])] at visible
      cases visible
    rw [List.append_assoc, List.append_assoc]
    refine .word own_blank some solid (fun c first => ?_) (ih fun c end_ => last c ?_)
    · rw [List.head?_append_of_ne_nil _ more] at first
      exact ends c first
    · rw [List.getLast?_append_of_ne_nil _ (by simp [more]), List.getLast?_append_of_ne_nil _ more]
      exact end_

theorem words_blank_append {gap : List Char} (blank : ∀ c ∈ gap, isBlank c = true) (s : List Char) :
    words (gap ++ s) = words s :=
  words_of_isSplit ((isSplit_words s).blank_append blank)

theorem words_append_blank (s : List Char) {gap : List Char} (blank : ∀ c ∈ gap, isBlank c = true) :
    words (s ++ gap) = words s :=
  words_of_isSplit ((isSplit_words s).append_blank blank)

theorem words_append (last : ∀ c, s.getLast? = some c → isBlank c = true) (s' : List Char) :
    words (s ++ s') = words s ++ words s' :=
  words_of_isSplit ((isSplit_words s).append last (isSplit_words s'))

end Gaps

end Chifir.Text
