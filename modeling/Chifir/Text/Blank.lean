/-!
# Blank characters

Twenty-nine characters separate words; every other character belongs to one.

1. `isBlank` is the class.
2. `words` are the maximal runs of other characters (`words_eq_nil`, `not_isBlank_of_mem_words`).
3. `trim` and `trimEnd` drop the blanks at the ends.
-/

namespace Chifir.Text

/-- The tab and line controls, the four separators, the space, and the spaces beyond ASCII. -/
def isBlank (c : Char) : Bool :=
  let n := c.toNat
  (0x09 ≤ n && n ≤ 0x0D) || (0x1C ≤ n && n ≤ 0x20) || n == 0x85 || n == 0xA0 || n == 0x1680 ||
    (0x2000 ≤ n && n ≤ 0x200A) || n == 0x2028 || n == 0x2029 || n == 0x202F || n == 0x205F ||
    n == 0x3000

def trimStart (s : List Char) : List Char := s.dropWhile isBlank

def trimEnd (s : List Char) : List Char := (s.reverse.dropWhile isBlank).reverse

def trim (s : List Char) : List Char := trimEnd (trimStart s)

theorem length_dropWhile_le (p : Char → Bool) (s : List Char) :
    (s.dropWhile p).length ≤ s.length :=
  (List.dropWhile_sublist p).length_le

/-- The words of a text: its maximal runs of characters that are not blank, in order. -/
def words (s : List Char) : List (List Char) :=
  match _h : s.dropWhile isBlank with
  | [] => []
  | c :: r => (c :: r.takeWhile (! isBlank ·)) :: words (r.dropWhile (! isBlank ·))
termination_by s.length
decreasing_by
  have h₁ := length_dropWhile_le isBlank s
  have h₂ := length_dropWhile_le (! isBlank ·) r
  rw [_h, List.length_cons] at h₁
  omega

theorem dropWhile_isBlank_eq_nil {s : List Char} :
    s.dropWhile isBlank = [] ↔ ∀ c ∈ s, isBlank c := by
  induction s with
  | nil => simp
  | cons c r ih => by_cases h : isBlank c <;> simp [h, ih]

theorem words_eq_nil {s : List Char} : words s = [] ↔ ∀ c ∈ s, isBlank c := by
  rw [words, ← dropWhile_isBlank_eq_nil]
  split <;> rename_i h <;> simp [h]

/-- No word of `words` holds a blank, and none is empty. -/
theorem not_isBlank_of_mem_words {s w : List Char} (h : w ∈ words s) :
    w ≠ [] ∧ ∀ c ∈ w, isBlank c = false := by
  induction s using words.induct with
  | case1 s hs =>
    rw [words] at h
    split at h <;> simp_all
  | case2 s c r hs ih =>
    rw [words] at h
    split at h
    · cases h
    · rename_i c' r' hs'
      obtain ⟨rfl, rfl⟩ : c = c' ∧ r = r' := by simpa [hs] using hs'
      rcases List.mem_cons.1 h with rfl | h
      · refine ⟨by simp, fun x hx => ?_⟩
        rcases List.mem_cons.1 hx with rfl | hx
        · have := List.head?_dropWhile_not isBlank s
          rw [hs] at this
          simpa using this
        · simpa using List.all_eq_true.1 (List.all_takeWhile (p := (! isBlank ·))) x hx
      · exact ih h

/-- `words` on strings. -/
def splitWords (s : String) : List String := (words s.toList).map String.ofList

example : splitWords " add\t1 \x1c 2 " = ["add", "1", "2"] := by cbv

end Chifir.Text
