import Chifir.Proofs.Text.Rows
import Chifir.Text.LetterCase
import Mathlib.Tactic.SplitIfs

/-!
# Words in any letter case

A text spells a word if it is the word in some letter case with blanks around it (`Spells`).
Lower-casing what `trim` leaves finds this out (`lower_trim_eq_iff`) for words of the letters that
no sign beyond ASCII is lowered to.

Texts that differ in the case of ASCII letters only are `SameLetters`, and have the same lower case
(`lowered_congr`). A single line is a single line in lower case (`lineFeed_not_mem_lowered`).
-/

namespace Chifir.Text

/-- A text is a word with blanks around it, its letters small or capital. -/
def Spells (word s : List Char) : Prop :=
  ∃ before middle after, s = before ++ (middle ++ after) ∧ (∀ c ∈ before, isBlank c = true) ∧
    (∀ c ∈ after, isBlank c = true) ∧ middle.map Char.toLower = word

/-! ## Blanks around a word -/

theorem exists_trim (s : List Char) :
    ∃ before after, s = before ++ (trim s ++ after) ∧ (∀ c ∈ before, isBlank c = true) ∧
      ∀ c ∈ after, isBlank c = true := by
  have blank (s : List Char) : ∀ c ∈ s.takeWhile isBlank, isBlank c = true :=
    fun c mem => List.all_eq_true.1 List.all_takeWhile c mem
  refine ⟨s.takeWhile isBlank, ((trimStart s).reverse.takeWhile isBlank).reverse, ?_, blank s,
    fun c mem => blank _ c (List.mem_reverse.1 mem)⟩
  rw [trim, trimEnd, ← List.reverse_append, List.takeWhile_append_dropWhile, List.reverse_reverse,
    trimStart, List.takeWhile_append_dropWhile]

theorem dropWhile_append_of_head {p : Char → Bool} {before rest : List Char}
    (dropped : ∀ c ∈ before, p c = true) (kept : ∀ c, rest.head? = some c → p c = false) :
    (before ++ rest).dropWhile p = rest := by
  rw [List.dropWhile_append_of_pos dropped]
  cases rest with
  | nil => rfl
  | cons c rest => exact List.dropWhile_cons_of_neg (by simp [kept c rfl])

theorem dropWhile_reverse_append {p : Char → Bool} {before middle after : List Char}
    (some : middle ≠ []) (kept : ∀ c ∈ middle, p c = false)
    (before_dropped : ∀ c ∈ before, p c = true) (after_dropped : ∀ c ∈ after, p c = true) :
    (((before ++ (middle ++ after)).dropWhile p).reverse.dropWhile p).reverse = middle := by
  have ahead : (before ++ (middle ++ after)).dropWhile p = middle ++ after := by
    refine dropWhile_append_of_head before_dropped fun c head => kept c ?_
    rw [List.head?_append_of_ne_nil _ some] at head
    exact List.mem_of_mem_head? head
  rw [ahead, List.reverse_append, dropWhile_append_of_head, List.reverse_reverse]
  · exact fun c mem => after_dropped c (List.mem_reverse.1 mem)
  · exact fun c head => kept c (List.mem_reverse.1 (List.mem_of_mem_head? head))

theorem trim_append {before middle after : List Char} (solid : IsSolid middle)
    (before_blank : ∀ c ∈ before, isBlank c = true) (after_blank : ∀ c ∈ after, isBlank c = true) :
    trim (before ++ (middle ++ after)) = middle :=
  dropWhile_reverse_append solid.1 solid.2 before_blank after_blank

/-! ## Letter case -/

/-- The letters whose capitals are found in ASCII only, so that `lower` makes them of no other
character. -/
def IsPlain (c : Char) : Prop := 0x61 ≤ c.toNat ∧ c.toNat ≤ 0x7A ∧ c ≠ 'i' ∧ c ≠ 'k'

instance (c : Char) : Decidable (IsPlain c) := inferInstanceAs (Decidable (_ ∧ _))

theorem toLower_eq_self {c : Char} (other : c.toNat < 0x41 ∨ 0x5A < c.toNat) : c.toLower = c := by
  refine dif_neg fun capital => ?_
  have low : 0x41 ≤ c.toNat := capital.1
  have high : c.toNat ≤ 0x5A := capital.2
  omega

theorem not_isBlank_of_isPlain_toLower {c : Char} (plain : IsPlain c.toLower) :
    isBlank c = false := by
  cases blank : isBlank c with
  | false => rfl
  | true =>
    have codes : c.toNat < 0x41 ∨ 0x80 ≤ c.toNat := by
      simp only [isBlank, Bool.or_eq_true, Bool.and_eq_true, decide_eq_true_eq, beq_iff_eq] at blank
      omega
    rw [toLower_eq_self (by omega)] at plain
    have := plain.1
    have := plain.2.1
    omega

/-- Beyond ASCII only the Kelvin sign has a lower-case form in ASCII. -/
theorem form_of_lowerRun {run : LowerRun} (listed : run ∈ lowerRuns) {n : Nat} (beyond : 0x80 ≤ n)
    (first : run.first ≤ n) (last : n ≤ run.last) :
    0x80 ≤ (n + run.shift).toNat ∨ (n + run.shift).toNat = 0x6B := by
  have shifts : ∀ run ∈ lowerRuns, run.last < 0x80 ∨ 0x80 ≤ run.first + run.shift ∨
      (run.first = run.last ∧ run.first + run.shift = 0x6B) := by decide +kernel
  rcases shifts run listed with below | above | ⟨one, kelvin⟩ <;> omega

theorem toNat_lowerChar {c : Char} (beyond : 0x80 ≤ c.toNat) :
    0x80 ≤ (lowerChar c).toNat ∨ (lowerChar c).toNat = 0x6B ∨ (lowerChar c).toNat = 0 := by
  unfold lowerChar
  simp only [Nat.not_lt.2 beyond, if_false]
  split
  · next run found =>
    have inside := List.find?_some found
    simp only [Bool.and_eq_true, decide_eq_true_eq] at inside
    have form := form_of_lowerRun (List.mem_of_find?_eq_some found) beyond inside.1.1 inside.1.2
    -- A number of no character gives the null character.
    have code : ∀ n, (Char.ofNat n).toNat = n ∨ (Char.ofNat n).toNat = 0 := by
      intro n
      by_cases valid : n.isValidChar
      · exact .inl (congrArg Char.toNat (dif_pos valid))
      · exact .inr (congrArg Char.toNat (dif_neg valid))
    rcases code (c.toNat + run.shift).toNat with same | null
    · rw [same]
      omega
    · exact .inr (.inr null)
  · exact .inl beyond

theorem lowerChar_ne {c x : Char} (plain : IsPlain x) (beyond : 0x80 ≤ c.toNat) :
    lowerChar c ≠ x := by
  obtain ⟨low, high, _, other⟩ := plain
  rintro rfl
  have notK : (lowerChar c).toNat ≠ 0x6B := fun eq => other (Char.toNat_inj.1 eq)
  rcases toNat_lowerChar beyond with above | kelvin | null
  · omega
  · exact notK kelvin
  · omega

theorem lowerChar_eq_iff {c x : Char} (plain : IsPlain x) : lowerChar c = x ↔ c.toLower = x := by
  by_cases ascii : c.toNat < 0x80
  · simp only [lowerChar, ascii, if_true]
  · have beyond : 0x80 ≤ c.toNat := Nat.not_lt.1 ascii
    refine iff_of_false (lowerChar_ne plain beyond) ?_
    rw [toLower_eq_self (.inr (by omega))]
    rintro rfl
    exact absurd plain.2.1 (by omega)

/-- A dotted capital I and a capital sigma are lowered to no plain letter. -/
theorem lowerFrom_special {before r word : List Char} {c x : Char} (plain : IsPlain x)
    (special : c = '\u0130' ∨ c = '\u03a3') : lowerFrom before (c :: r) ≠ x :: word := by
  intro eq
  rcases special with rfl | rfl
  · exact plain.2.2.1 (List.cons.inj eq).1.symm
  · have form : (if casedNext before && ! casedNext r then '\u03c2' else '\u03c3') = x :=
      (List.cons.inj eq).1
    split at form <;> subst form <;> exact absurd plain (by decide)

theorem lowerFrom_eq_iff {word : List Char} (plain : ∀ x ∈ word, IsPlain x) {before s : List Char} :
    lowerFrom before s = word ↔ s.map Char.toLower = word := by
  induction s generalizing before word with
  | nil => exact Iff.rfl
  | cons c r ih =>
    cases word with
    | nil => exact iff_of_false (by unfold lowerFrom; dsimp only; split_ifs <;> simp) (by simp)
    | cons x word =>
      obtain ⟨first, others⟩ := List.forall_mem_cons.1 plain
      by_cases special : c = '\u0130' ∨ c = '\u03a3'
      · refine iff_of_false (lowerFrom_special first special) fun eq => ?_
        have head : c.toLower = x := (List.cons.inj eq).1
        rcases special with rfl | rfl <;> subst head <;> exact absurd first (by decide)
      · obtain ⟨notDot, notSigma⟩ := not_or.1 special
        have form : lowerFrom before (c :: r) = lowerChar c :: lowerFrom (c :: before) r := by
          simp [lowerFrom, notDot, notSigma]
        rw [form, List.map_cons, List.cons.injEq, List.cons.injEq, lowerChar_eq_iff first,
          ih others]

/-- Lower case without the blanks around a text is a word if and only if the text spells the word.
-/
theorem lower_trim_eq_iff {word s : List Char} (some : word ≠ []) (plain : ∀ x ∈ word, IsPlain x) :
    lower (trim s) = word ↔ Spells word s := by
  rw [lower, lowerFrom_eq_iff plain]
  constructor
  · intro same
    obtain ⟨before, after, cut, before_blank, after_blank⟩ := exists_trim s
    exact ⟨before, trim s, after, cut, before_blank, after_blank, same⟩
  · rintro ⟨before, middle, after, rfl, before_blank, after_blank, same⟩
    have solid : IsSolid middle := by
      refine ⟨fun none => some (by rw [← same, none]; rfl), fun c mem => ?_⟩
      exact not_isBlank_of_isPlain_toLower (plain _ (same ▸ List.mem_map_of_mem mem))
    rw [trim_append solid before_blank after_blank, same]

/-! ## Capitals and small letters of ASCII -/

/-- A letter of ASCII: those whose case `SameLetters` leaves open. -/
def IsLetter (c : Char) : Prop :=
  (0x41 ≤ c.toNat ∧ c.toNat ≤ 0x5A) ∨ (0x61 ≤ c.toNat ∧ c.toNat ≤ 0x7A)

instance (c : Char) : Decidable (IsLetter c) := inferInstanceAs (Decidable (_ ∨ _))

/-- Two texts differ at most in the case of letters of ASCII. -/
def SameLetters (s s' : List Char) : Prop := s.map Char.toLower = s'.map Char.toLower

instance (s s' : List Char) : Decidable (SameLetters s s') := inferInstanceAs (Decidable (_ = _))

theorem toLower_cases (c : Char) : c.toLower = c ∨ (IsLetter c ∧ IsLetter c.toLower) := by
  by_cases other : c.toNat < 0x41 ∨ 0x5A < c.toNat
  · exact .inl (toLower_eq_self other)
  · have capitals : ∀ n < 0x5B, 0x41 ≤ n → IsLetter (Char.ofNat n) ∧
      IsLetter (Char.ofNat n).toLower := by decide
    have own := capitals c.toNat (by omega) (by omega)
    rw [Char.ofNat_toNat] at own
    exact .inr own

theorem toLower_of_not_isLetter {c : Char} (other : ¬ IsLetter c) : c.toLower = c :=
  (toLower_cases c).resolve_right fun letters => other letters.1

theorem toLower_eq_iff {c x : Char} (other : ¬ IsLetter x) : c.toLower = x ↔ c = x := by
  rcases toLower_cases c with same | ⟨letter, lowered⟩
  · rw [same]
  · refine iff_of_false ?_ ?_
    · rintro rfl
      exact other lowered
    · rintro rfl
      exact other letter

theorem letters_of_toLower_eq {c c' : Char} (same : c.toLower = c'.toLower) :
    c = c' ∨ (IsLetter c ∧ IsLetter c') := by
  by_cases letter : IsLetter c
  · by_cases letter' : IsLetter c'
    · exact .inr ⟨letter, letter'⟩
    · rw [toLower_of_not_isLetter letter', toLower_eq_iff letter'] at same
      exact .inl same
  · rw [eq_comm, toLower_of_not_isLetter letter, toLower_eq_iff letter] at same
    exact .inl same.symm

theorem not_isBlank_of_isLetter {c : Char} (letter : IsLetter c) : isBlank c = false := by
  cases blank : isBlank c with
  | false => rfl
  | true =>
    simp only [isBlank, Bool.or_eq_true, Bool.and_eq_true, decide_eq_true_eq, beq_iff_eq] at blank
    unfold IsLetter at letter
    omega

/-- Letters of ASCII have case, and a sigma beside them is not final. -/
theorem casing_of_isLetter {c : Char} (letter : IsLetter c) :
    isCased c = true ∧ isCaseIgnorable c = false := by
  have outside : ∀ range ∈ caseIgnorableRanges,
      (range.2 < 0x41 ∨ 0x5A < range.1) ∧ (range.2 < 0x61 ∨ 0x7A < range.1) := by
    decide +kernel
  constructor
  · rw [isCased, inRanges, List.any_eq_true]
    rcases letter with capital | small
    · exact ⟨(0x41, 0x5A), by decide, by simpa using capital⟩
    · exact ⟨(0x61, 0x7A), by decide, by simpa using small⟩
  · rw [isCaseIgnorable, inRanges, List.any_eq_false]
    intro range listed
    have apart := outside range listed
    simp only [Bool.and_eq_true, decide_eq_true_eq]
    unfold IsLetter at letter
    omega

theorem lowerChar_congr {c c' : Char} (same : c.toLower = c'.toLower) :
    lowerChar c = lowerChar c' := by
  have ascii {c : Char} (letter : IsLetter c) : lowerChar c = c.toLower := by
    unfold IsLetter at letter
    exact if_pos (by omega)
  rcases letters_of_toLower_eq same with rfl | ⟨letter, letter'⟩
  · rfl
  · rw [ascii letter, ascii letter', same]

namespace SameLetters
variable {s s' : List Char}

theorem mem_iff (same : SameLetters s s') {x : Char} (other : ¬ IsLetter x) : x ∈ s ↔ x ∈ s' := by
  have lowered (s : List Char) : x ∈ s ↔ x ∈ s.map Char.toLower := by simp [toLower_eq_iff other]
  rw [lowered s, lowered s', same]

theorem getLast?_iff (same : SameLetters s s') {x : Char} (other : ¬ IsLetter x) :
    s.getLast? = some x ↔ s'.getLast? = some x := by
  have lowered (s : List Char) : s.getLast? = some x ↔ (s.map Char.toLower).getLast? = some x := by
    simp [List.getLast?_map, toLower_eq_iff other]
  rw [lowered s, lowered s', same]

theorem isSolid (same : SameLetters s s') (solid : IsSolid s) : IsSolid s' := by
  refine ⟨fun empty => solid.1 ?_, fun c mem => ?_⟩
  · rw [empty] at same
    exact List.map_eq_nil_iff.1 same
  · by_cases letter : IsLetter c
    · exact not_isBlank_of_isLetter letter
    · exact solid.2 c ((same.mem_iff letter).2 mem)

theorem casedNext_eq (same : SameLetters s s') : casedNext s = casedNext s' := by
  induction s generalizing s' with
  | nil =>
    obtain rfl : s' = [] := List.map_eq_nil_iff.1 same.symm
    rfl
  | cons c r ih =>
    obtain ⟨c', r', rfl, first, rest⟩ := List.map_eq_cons_iff.1 same.symm
    rcases letters_of_toLower_eq first.symm with rfl | ⟨letter, letter'⟩
    · unfold casedNext
      rw [List.dropWhile_cons, List.dropWhile_cons]
      split
      · exact ih rest.symm
      · rfl
    · have settled (r : List Char) {c : Char} (letter : IsLetter c) :
          casedNext (c :: r) = true := by
        simp [casedNext, casing_of_isLetter letter]
      rw [settled r letter, settled r' letter']

theorem lowerFrom_eq (same : SameLetters s s') {before before' : List Char}
    (ahead : SameLetters before before') :
    lowerFrom before s = lowerFrom before' s' := by
  induction s generalizing s' before before' with
  | nil =>
    obtain rfl : s' = [] := List.map_eq_nil_iff.1 same.symm
    rfl
  | cons c r ih =>
    obtain ⟨c', r', rfl, first, rest⟩ := List.map_eq_cons_iff.1 same.symm
    have further : lowerFrom (c :: before) r = lowerFrom (c' :: before') r' :=
      ih rest.symm (congrArg₂ List.cons first.symm ahead)
    have dotted : c = '\u0130' ↔ c' = '\u0130' := by
      rw [← toLower_eq_iff (by decide), ← toLower_eq_iff (c := c') (by decide), first]
    have sigma : c = '\u03a3' ↔ c' = '\u03a3' := by
      rw [← toLower_eq_iff (by decide), ← toLower_eq_iff (c := c') (by decide), first]
    simp only [lowerFrom, beq_iff_eq, dotted, sigma, lowerChar_congr first.symm, casedNext_eq ahead,
      casedNext_eq rest.symm, further]

end SameLetters

/-- The case of letters of ASCII does not matter to lower case. -/
theorem lowered_congr {s s' : List Char} (same : SameLetters s s') :
    lowered (String.ofList s) = lowered (String.ofList s') := by
  simp only [lowered, lower, String.toList_ofList, same.lowerFrom_eq (s := s) rfl]

/-! ## Line feeds -/

theorem lowerChar_eq_lineFeed_iff {c : Char} : lowerChar c = '\n' ↔ c = '\n' := by
  by_cases ascii : c.toNat < 0x80
  · rw [lowerChar, if_pos ascii]
    exact toLower_eq_iff (by decide)
  · have beyond : 0x80 ≤ c.toNat := Nat.not_lt.1 ascii
    have code : ('\n' : Char).toNat = 10 := rfl
    refine iff_of_false (fun same => ?_) (fun same => ?_)
    · have form := toNat_lowerChar beyond
      rw [same] at form
      omega
    · rw [same] at beyond
      omega

theorem lineFeed_not_mem_lowered {s : String} (inline : '\n' ∉ s.toList) :
    '\n' ∉ (lowered s).toList := by
  suffices ∀ before, '\n' ∉ lowerFrom before s.toList by simpa [lowered, lower] using this []
  generalize s.toList = s at inline
  induction s with
  | nil => exact fun _ => List.not_mem_nil
  | cons c r ih =>
    obtain ⟨other, inline⟩ := not_or.1 (List.mem_cons.not.1 inline)
    intro before mem
    rcases List.mem_append.1 mem with form | rest
    · split at form
      · exact absurd form (by decide)
      · split at form
        · split at form <;> exact absurd form (by decide)
        · exact other (lowerChar_eq_lineFeed_iff.1 (List.mem_singleton.1 form).symm).symm
    · exact ih inline (c :: before) rest

end Chifir.Text
