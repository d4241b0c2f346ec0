import Mathlib.Data.List.Induction
import Mathlib.Data.List.TakeWhile
import Chifir.Proofs.Except
import Chifir.Proofs.Text.Digits
import Chifir.Proofs.Text.LetterCase
import Chifir.Text.Decimal

/-!
# Numerals

`IsNumeral` are the digits that spell a natural number in a base. `IsArgument`, `IsHexArgument` and
`IsSetting` are what may stand for the number where one is asked for: digits with the marks that are
known there.

1. `isNumeral_of_digits`, `isNumeral_toDigits`: all digits spell a number, and each number has
   digits that spell it.
2. `IsNumeral.value_eq`: digits are worth the number that they spell.
3. `readArgument_of_surrounds`, `readHex_of_surrounds`, `readInt_any_of_surrounds`: what stands for
   a number is read as it, with blanks around it.
4. `readHex_hex8`: so is what is printed in eight digits.
-/

namespace Chifir.Text

/-! ## Digits -/

/-- Digits that spell a number, the first of which counts most. Letters are small or capital, and
there may be zeros in front. -/
inductive IsNumeral (radix : Nat) : List Char → Nat → Prop
  | digit {c : Char} {d : Nat} (known : hexValue? c = some d) (small : d < radix) :
      IsNumeral radix [c] d
  | next {digits : List Char} {n : Nat} {c : Char} {d : Nat} (front : IsNumeral radix digits n)
      (known : hexValue? c = some d) (small : d < radix) :
      IsNumeral radix (digits ++ [c]) (n * radix + d)

/-- What holds of all digits is found out from the characters up to the last of them, so `decide`
can look at each. -/
theorem of_hexValue? {p : Char → Nat → Bool}
    (each : ∀ n < 0x67, (hexValue? (Char.ofNat n)).all (p (Char.ofNat n)) = true)
    {c : Char} {d : Nat} (known : hexValue? c = some d) : p c d = true := by
  have low : c.toNat < 0x67 := by
    have last (x : Char) (upTo : c ≤ x) : c.toNat ≤ x.toNat := upTo
    unfold hexValue? at known
    split at known
    · next digit => exact (last '9' digit.2).trans_lt (by decide)
    · split at known
      · next small => exact (last 'f' small.2).trans_lt (by decide)
      · split at known
        · next capital => exact (last 'F' capital.2).trans_lt (by decide)
        · cases known
  have own := each c.toNat low
  rwa [Char.ofNat_toNat, known] at own

/-- No digit is a blank, a sign, an underscore or a mark, in a mark only the one that is eleven
names a base, and only one is zero. -/
theorem hexValue?_facts {c : Char} {d : Nat} (known : hexValue? c = some d) :
    isBlank c = false ∧ c ∉ ['_', '-', '+', '$', 'x', 'X'] ∧ radixOfLetter? c ≠ some 16 ∧
      (10 ≤ d ∨ radixOfLetter? c = none) ∧ (d ≠ 0 ∨ c = '0') :=
  of_decide_eq_true (of_hexValue? (p := fun c d => isBlank c = false ∧
    c ∉ ['_', '-', '+', '$', 'x', 'X'] ∧ radixOfLetter? c ≠ some 16 ∧
      (10 ≤ d ∨ radixOfLetter? c = none) ∧ (d ≠ 0 ∨ c = '0')) (by decide) known)

theorem hexValue?_toUpper {c : Char} {d : Nat} (known : hexValue? c = some d) :
    hexValue? c.toUpper = some d :=
  of_decide_eq_true (of_hexValue? (p := fun c d => hexValue? c.toUpper = some d) (by decide) known)

namespace IsNumeral
variable {radix : Nat} {digits : List Char} {n : Nat}

theorem ne_nil (spelled : IsNumeral radix digits n) : digits ≠ [] := by
  cases spelled with
  | digit => exact List.cons_ne_nil _ _
  | next => exact List.append_ne_nil_of_right_ne_nil _ (List.cons_ne_nil _ _)

theorem digit_of_mem (spelled : IsNumeral radix digits n) {c : Char} (mem : c ∈ digits) :
    ∃ d < radix, hexValue? c = some d := by
  induction spelled with
  | digit known small => exact ⟨_, small, List.mem_singleton.1 mem ▸ known⟩
  | next _ known small ih =>
    rcases List.mem_append.1 mem with front | last
    · exact ih front
    · exact ⟨_, small, List.mem_singleton.1 last ▸ known⟩

theorem cons_zero (spelled : IsNumeral radix digits n) (some : 0 < radix) :
    IsNumeral radix ('0' :: digits) n := by
  have zero : IsNumeral radix ['0'] 0 := .digit (by decide) some
  induction spelled with
  | @digit c d known small => simpa using zero.next known small
  | next _ known small ih => exact ih.next known small

theorem padLeft (spelled : IsNumeral radix digits n) (some : 0 < radix) (width : Nat) :
    IsNumeral radix (padLeft '0' width digits) n := by
  rw [Text.padLeft]
  induction width - digits.length with
  | zero => exact spelled
  | succ zeros ih => exact ih.cons_zero some

theorem digitsToNat_eq (spelled : IsNumeral radix digits n) : digitsToNat radix digits = n := by
  have step (n : Nat) {c : Char} {d : Nat} (known : hexValue? c = some d) :
      (if c == '_' then n else n * radix + (digitValue? c).getD 0) = n * radix + d := by
    have plain : c ≠ '_' := fun same => (hexValue?_facts known).2.1 (same ▸ List.mem_cons_self)
    rw [if_neg (by simpa using plain), digitValue?, known]
    rfl
  induction spelled with
  | digit known _ => exact (step 0 known).trans (by rw [Nat.zero_mul, Nat.zero_add])
  | next _ known _ ih =>
    rw [digitsToNat, List.foldl_append, ← digitsToNat, ih]
    exact step _ known

end IsNumeral

theorem isNumeral_of_digits {radix : Nat} {digits : List Char} (some : digits ≠ [])
    (each : ∀ c ∈ digits, (hexValue? c).any (· < radix) = true) :
    IsNumeral radix digits (digitsToNat radix digits) := by
  have exists_numeral : ∃ n, IsNumeral radix digits n := by
    induction digits using List.reverseRecOn with
    | nil => exact absurd rfl some
    | append_singleton front c ih =>
      obtain ⟨d, known, small⟩ := (Option.any_eq_true _ _).1 (each c (by simp))
      have last : d < radix := by simpa using small
      cases front with
      | nil => exact ⟨d, .digit known last⟩
      | cons c' front =>
        obtain ⟨n, spelled⟩ :=
          ih (List.cons_ne_nil c' front) fun x mem => each x (List.mem_append_left _ mem)
        exact ⟨_, spelled.next known last⟩
  obtain ⟨n, spelled⟩ := exists_numeral
  rwa [spelled.digitsToNat_eq]

theorem isNumeral_toDigits {radix : Nat} (more : 1 < radix) (few : radix ≤ 16) (n : Nat) :
    IsNumeral radix (Nat.toDigits radix n) n := by
  have value : ∀ d < 16, hexValue? d.digitChar = some d := by decide
  induction n using Nat.strongRecOn with
  | _ n ih =>
    rw [Nat.toDigits_eq_if more]
    split
    · next small => exact .digit (value n (by omega)) small
    · next large =>
      have last := Nat.mod_lt n (show 0 < radix by omega)
      have front := ih (n / radix) (Nat.div_lt_self (by omega) more)
      have whole := front.next (value _ (by omega)) last
      rwa [Nat.div_add_mod'] at whole

theorem hexDigits_eq_toDigits (n : Nat) : hexDigits n = Nat.toDigits 16 n := by
  have same : ∀ d < 16, hexDigit d = d.digitChar := by decide
  induction n using hexDigits.induct with
  | case1 n small => rw [hexDigits, if_pos small, Nat.toDigits_of_lt_base small, same n small]
  | case2 n large ih =>
    rw [hexDigits, if_neg large, Nat.toDigits_of_base_le (by decide) (by omega), ih,
      same _ (Nat.mod_lt n (by decide))]

theorem isNumeral_hexDigits (n : Nat) : IsNumeral 16 (hexDigits n) n :=
  hexDigits_eq_toDigits n ▸ isNumeral_toDigits (by decide) (by decide) n

theorem IsNumeral.toUpper {radix : Nat} {digits : List Char} {n : Nat}
    (spelled : IsNumeral radix digits n) :
    IsNumeral radix (digits.map Char.toUpper) n := by
  induction spelled with
  | digit known small => exact .digit (hexValue?_toUpper known) small
  | next _ known small ih =>
    rw [List.map_append]
    exact ih.next (hexValue?_toUpper known) small

/-! ## Marks -/

def hexMarks : List (List Char) := [['0', 'x'], ['0', 'X'], ['$']]

/-- What names a base behind a zero where any base may be named, and which it names. -/
def baseLetters : List (Char × Nat) :=
  [('x', 16), ('X', 16), ('o', 8), ('O', 8), ('b', 2), ('B', 2)]

/-- What stands for a number in an argument: decimal digits, not too many, or marked hexadecimal
digits. -/
inductive IsArgument : List Char → Nat → Prop
  | decimal {digits : List Char} {n : Nat} (spelled : IsNumeral 10 digits n)
      (short : digits.length ≤ decimalDigitLimit) :
      IsArgument digits n
  | marked {mark digits : List Char} {n : Nat} (known : mark ∈ hexMarks)
      (spelled : IsNumeral 16 digits n) :
      IsArgument (mark ++ digits) n

/-- What stands for a number where hexadecimal digits are expected: these, marked or not. -/
inductive IsHexArgument : List Char → Nat → Prop
  | bare {digits : List Char} {n : Nat} (spelled : IsNumeral 16 digits n) : IsHexArgument digits n
  | marked {mark digits : List Char} {n : Nat} (known : mark ∈ hexMarks)
      (spelled : IsNumeral 16 digits n) :
      IsHexArgument (mark ++ digits) n

/-- What stands for a number in a setting: decimal digits, not too many and with no zero in front
unless the number is zero, or the digits of another base behind its mark. -/
inductive IsSetting : List Char → Nat → Prop
  | decimal {digits : List Char} {n : Nat} (spelled : IsNumeral 10 digits n)
      (short : digits.length ≤ decimalDigitLimit) (zero : digits.head? = some '0' → n = 0) :
      IsSetting digits n
  | marked {letter : Char} {digits : List Char} {radix n : Nat}
      (known : (letter, radix) ∈ baseLetters) (spelled : IsNumeral radix digits n) :
      IsSetting ('0' :: letter :: digits) n

/-! ## Values -/

theorem wellSpaced_of_not_mem {s : List Char} (some : s ≠ []) (none : '_' ∉ s) :
    wellSpaced s = true := by
  fun_induction wellSpaced s with
  | case1 => exact absurd rfl some
  | case2 => exact absurd List.mem_cons_self none
  | case3 => rfl
  | case4 => simp at none
  | case5 c r _ more _ ih => exact ih more fun mem => none (List.mem_cons_of_mem c mem)

namespace IsNumeral
variable {radix : Nat} {digits : List Char} {n : Nat}

theorem not_mem (spelled : IsNumeral radix digits n) {c : Char}
    (other : c ∈ ['_', '-', '+', '$', 'x', 'X']) :
    c ∉ digits := by
  intro mem
  obtain ⟨_, _, known⟩ := spelled.digit_of_mem mem
  exact (hexValue?_facts known).2.1 other

theorem isSolid (spelled : IsNumeral radix digits n) : IsSolid digits := by
  refine ⟨spelled.ne_nil, fun c mem => ?_⟩
  obtain ⟨_, _, known⟩ := spelled.digit_of_mem mem
  exact (hexValue?_facts known).1

theorem takeSign_eq (spelled : IsNumeral radix digits n) : takeSign digits = (false, digits) := by
  unfold takeSign
  split
  · exact absurd List.mem_cons_self (spelled.not_mem (by decide))
  · exact absurd List.mem_cons_self (spelled.not_mem (by decide))
  · rfl

theorem value_eq (spelled : IsNumeral radix digits n) {zeroOnly : Bool}
    (short : radix = 10 → digits.length ≤ decimalDigitLimit) (zero : zeroOnly = true → n = 0)
    (error : NumeralError) :
    Magnitude.value ⟨radix, digits, zeroOnly⟩ error = .ok n := by
  have run : digits.takeWhile (fun c => isDigitIn radix c || c == '_') = digits := by
    refine List.takeWhile_eq_self_iff.2 fun c mem => ?_
    obtain ⟨d, small, known⟩ := spelled.digit_of_mem mem
    rw [isDigitIn, digitValue?, known]
    simpa using .inl small
  have spaced := wellSpaced_of_not_mem spelled.ne_nil (spelled.not_mem (by decide))
  have count :
      ¬ ((radix == 10 && decide (decimalDigitLimit < digits.countP (· != '_'))) = true) := by
    intro long
    rw [Bool.and_eq_true, beq_iff_eq, decide_eq_true_eq] at long
    exact absurd (short long.1) (Nat.not_le.2 (long.2.trans_le List.countP_le_length))
  have small : ¬ ((zeroOnly && n != 0) = true) := by
    intro other
    rw [Bool.and_eq_true, bne_iff_ne] at other
    exact other.2 (zero other.1)
  unfold Magnitude.value
  simp only [run, spaced, count, spelled.digitsToNat_eq, small, Bool.not_true, Bool.false_eq_true,
    if_false, Nat.lt_irrefl]

end IsNumeral

/-! ## Bases -/

theorem split_ten (s : List Char) : Base.ten.split s = ⟨10, s, false⟩ := by
  rcases s with _ | ⟨z, _ | ⟨x, r⟩⟩
  · rfl
  · rfl
  · exact ite_self _

theorem split_sixteen {digits : List Char} {n : Nat} (spelled : IsNumeral 16 digits n) :
    Base.sixteen.split digits = ⟨16, digits, false⟩ := by
  rcases digits with _ | ⟨z, _ | ⟨x, r⟩⟩
  · rfl
  · rfl
  · obtain ⟨d, _, known⟩ := spelled.digit_of_mem (c := x) (by simp)
    obtain ⟨_, _, other, _⟩ := hexValue?_facts known
    unfold Base.split
    dsimp only
    split
    · split
      · next any _ => cases any
      · next named => exact absurd named other
      · rfl
    · rfl

theorem split_any {digits : List Char} {n : Nat} (spelled : IsNumeral 10 digits n) :
    Base.any.split digits = ⟨10, digits, digits.head?.any isZeroDigit⟩ := by
  rcases digits with _ | ⟨z, _ | ⟨x, r⟩⟩
  · rfl
  · rfl
  · obtain ⟨d, small, known⟩ := spelled.digit_of_mem (c := x) (by simp)
    obtain ⟨_, _, _, large | other, _⟩ := hexValue?_facts known
    · exact absurd small (Nat.not_lt.2 large)
    · simp [Base.split, other]

theorem IsNumeral.dropUnderscore_eq {radix : Nat} {digits : List Char} {n : Nat}
    (spelled : IsNumeral radix digits n) :
    dropUnderscore digits = digits := by
  unfold dropUnderscore
  split
  · exact absurd List.mem_cons_self (spelled.not_mem (by decide))
  · rfl

theorem baseLetters_facts {letter : Char} {radix : Nat} (known : (letter, radix) ∈ baseLetters) :
    radixOfLetter? letter = some radix ∧ isBlank letter = false ∧ radix ≠ 10 := by
  have all : baseLetters.all (fun x => radixOfLetter? x.1 = some x.2 ∧ isBlank x.1 = false ∧
    x.2 ≠ 10) = true := by decide
  exact of_decide_eq_true (List.all_eq_true.1 all _ known)

theorem split_marked {letter : Char} {digits : List Char} {radix n : Nat}
    (known : (letter, radix) ∈ baseLetters) (spelled : IsNumeral radix digits n) :
    Base.any.split ('0' :: letter :: digits) = ⟨radix, digits, false⟩ ∧
      (radix = 16 → Base.sixteen.split ('0' :: letter :: digits) = ⟨radix, digits, false⟩) := by
  have names := (baseLetters_facts known).1
  have zero : isZeroDigit '0' = true := by decide
  constructor
  · simp [Base.split, zero, names, spelled.dropUnderscore_eq]
  · rintro rfl
    simp [Base.split, zero, names, spelled.dropUnderscore_eq]

/-! ## Reading -/

/-- A text is another one with characters of a class around it. -/
def Surrounds (p : Char → Bool) (middle : List Char) (text : String) : Prop :=
  ∃ before after, text.toList = before ++ (middle ++ after) ∧
    (∀ c ∈ before, p c = true) ∧ ∀ c ∈ after, p c = true

theorem isNumeralBlank_of_not_isBlank {c : Char} (visible : isBlank c = false) :
    isNumeralBlank c = false := by
  rw [isNumeralBlank, visible, Bool.false_and]

theorem Surrounds.of_all {p : Char → Bool} {middle : List Char} {text : String}
    (before after : List Char) (same : text.toList = before ++ (middle ++ after))
    (first : before.all p = true) (last : after.all p = true) :
    Surrounds p middle text :=
  ⟨before, after, same, List.all_eq_true.1 first, List.all_eq_true.1 last⟩

theorem Surrounds.of_text (p : Char → Bool) (s : List Char) : Surrounds p s (String.ofList s) :=
  ⟨[], [], by simp, by simp, by simp⟩

theorem Surrounds.trim_eq {s : List Char} {text : String} (around : Surrounds isBlank s text)
    (solid : IsSolid s) :
    trim text.toList = s := by
  obtain ⟨before, after, same, before_blank, after_blank⟩ := around
  rw [same, trim_append solid before_blank after_blank]

/-- An integer is read from what stands between blanks: a sign, if there is one, and a number in its
base. -/
theorem readInt_of_surrounds (base : Base) {s : List Char} {text : String} {n : Nat}
    (around : Surrounds isNumeralBlank s text) (solid : IsSolid s)
    (value : ∀ error, (base.split (takeSign s).2).value error = .ok n) :
    readInt base text = .ok (if (takeSign s).1 then -(n : Int) else n) := by
  obtain ⟨before, after, same, before_blank, after_blank⟩ := around
  have inner :=
    dropWhile_reverse_append solid.1 (fun c mem => isNumeralBlank_of_not_isBlank (solid.2 c mem))
    before_blank
    after_blank
  simp only [readInt, same, inner, value]
  rfl

section Spelled
variable {digits : List Char} {n : Nat} {text : String}

theorem isSolid_marked {letter : Char} {radix : Nat} (known : (letter, radix) ∈ baseLetters)
    (spelled : IsNumeral radix digits n) : IsSolid ('0' :: letter :: digits) := by
  have zero : isBlank '0' = false := by decide
  refine ⟨List.cons_ne_nil _ _,
    List.forall_mem_cons.2 ⟨zero, List.forall_mem_cons.2 ⟨?_, spelled.isSolid.2⟩⟩⟩
  exact (baseLetters_facts known).2.1

theorem readInt_sixteen (spelled : IsNumeral 16 digits n) :
    readInt .sixteen (String.ofList digits) = .ok n := by
  have read :=
    readInt_of_surrounds .sixteen (n := n) (.of_text _ digits) spelled.isSolid fun error => by
    rw [spelled.takeSign_eq, split_sixteen spelled]
    exact spelled.value_eq (by simp) (by simp) error
  rwa [spelled.takeSign_eq] at read

theorem readInt_sixteen_marked {letter : Char} (known : (letter, 16) ∈ baseLetters)
    (spelled : IsNumeral 16 digits n) :
    readInt .sixteen (String.ofList ('0' :: letter :: digits)) = .ok n := by
  refine readInt_of_surrounds .sixteen (n := n) (.of_text _ _) (isSolid_marked known spelled)
    fun error => ?_
  rw [show takeSign ('0' :: letter :: digits) = (false, '0' :: letter :: digits) from rfl,
    (split_marked known spelled).2 rfl]
  exact spelled.value_eq (by simp) (by simp) error

theorem readArgument_decimal (spelled : IsNumeral 10 digits n)
    (short : digits.length ≤ decimalDigitLimit) (around : Surrounds isBlank digits text) :
    readArgument text = .ok n := by
  have read :=
    readInt_of_surrounds .ten (n := n) (.of_text _ digits) spelled.isSolid fun error => by
    rw [spelled.takeSign_eq, split_ten]
    exact spelled.value_eq (fun _ => short) (by simp) error
  rw [spelled.takeSign_eq] at read
  rw [readArgument, around.trim_eq spelled.isSolid]
  split
  · next x r =>
    have second : x ∈ '0' :: x :: r := List.mem_cons_of_mem _ List.mem_cons_self
    have letter : x ≠ 'x' ∧ x ≠ 'X' := by
      constructor
      · rintro rfl
        exact spelled.not_mem (by decide) second
      · rintro rfl
        exact spelled.not_mem (by decide) second
    rw [if_neg (by simpa using letter)]
    exact read
  · exact absurd List.mem_cons_self (spelled.not_mem (by decide))
  · exact read

/-- Digits behind one of the `hexMarks` are read the same way by `readArgument` and `readHex`. -/
theorem read_marked {mark : List Char} (known : mark ∈ hexMarks) (spelled : IsNumeral 16 digits n)
    (around : Surrounds isBlank (mark ++ digits) text) :
    readArgument text = .ok n ∧ readHex text = .ok n := by
  have dollar : IsSolid ('$' :: digits) :=
    ⟨List.cons_ne_nil _ _, List.forall_mem_cons.2 ⟨by decide, spelled.isSolid.2⟩⟩
  have zero (letter : Char) (named : (letter, 16) ∈ baseLetters)
    (same : (letter == 'x' || letter == 'X') = true)
      (around : Surrounds isBlank ('0' :: letter :: digits) text) : readArgument text = .ok n ∧
        readHex text = .ok n := by
    rw [readArgument, readHex, around.trim_eq (isSolid_marked named spelled)]
    simp only [same, if_true]
    exact ⟨readInt_sixteen_marked named spelled, readInt_sixteen_marked named spelled⟩
  simp only [hexMarks, List.mem_cons, List.not_mem_nil, or_false] at known
  rcases known with rfl | rfl | rfl
  · exact zero 'x' (by decide) rfl around
  · exact zero 'X' (by decide) rfl around
  · rw [readArgument, readHex, around.trim_eq dollar]
    exact ⟨readInt_sixteen spelled, readInt_sixteen spelled⟩

theorem readHex_bare (spelled : IsNumeral 16 digits n) (around : Surrounds isBlank digits text) :
    readHex text = .ok n := by
  rw [readHex, around.trim_eq spelled.isSolid]
  split
  · exact absurd List.mem_cons_self (spelled.not_mem (by decide))
  · exact readInt_sixteen spelled

theorem readHex_minus (spelled : IsNumeral 16 digits n) :
    readHex (String.ofList ('-' :: digits)) = .ok (-(n : Int)) := by
  have solid : IsSolid ('-' :: digits) :=
    ⟨List.cons_ne_nil _ _, List.forall_mem_cons.2 ⟨by decide, spelled.isSolid.2⟩⟩
  rw [readHex, (Surrounds.of_text isBlank _).trim_eq solid]
  refine readInt_of_surrounds .sixteen (n := n) (.of_text _ _) solid fun error => ?_
  rw [show takeSign ('-' :: digits) = (true, digits) from rfl, split_sixteen spelled]
  exact spelled.value_eq (by simp) (by simp) error

variable {s : List Char}

/-- What stands for a number in an argument is read as the number. -/
theorem readArgument_of_surrounds (given : IsArgument s n) (around : Surrounds isBlank s text) :
    readArgument text = .ok n := by
  cases given with
  | decimal spelled short => exact readArgument_decimal spelled short around
  | marked known spelled => exact (read_marked known spelled around).1

theorem readHex_of_surrounds (given : IsHexArgument s n) (around : Surrounds isBlank s text) :
    readHex text = .ok n := by
  cases given with
  | bare spelled => exact readHex_bare spelled around
  | marked known spelled => exact (read_marked known spelled around).2

/-- In a setting the four separators are no blanks (`isNumeralBlank`). -/
theorem readInt_any_of_surrounds (given : IsSetting s n)
    (around : Surrounds isNumeralBlank s text) :
    readInt .any text = .ok n := by
  cases given with
  | decimal spelled short zero =>
    have read := readInt_of_surrounds .any (n := n) around spelled.isSolid fun error => by
      rw [spelled.takeSign_eq, split_any spelled]
      refine spelled.value_eq (fun _ => short) (fun first => zero ?_) error
      obtain ⟨c, head, isZero⟩ := (Option.any_eq_true _ _).1 first
      obtain ⟨d, _, digit⟩ := spelled.digit_of_mem (List.mem_of_mem_head? head)
      rw [isZeroDigit, digitValue?, digit] at isZero
      rw [head, (hexValue?_facts digit).2.2.2.2.resolve_left (by simpa using isZero)]
    rwa [spelled.takeSign_eq] at read
  | @marked letter digits radix _ known spelled =>
    refine readInt_of_surrounds .any (n := n) around (isSolid_marked known spelled) fun error => ?_
    rw [show takeSign ('0' :: letter :: digits) = (false, '0' :: letter :: digits) from rfl,
      (split_marked known spelled).1]
    exact spelled.value_eq (fun ten => absurd ten (baseLetters_facts known).2.2) (by simp) error

end Spelled

/-! ## Addresses -/

/-- What is printed in eight digits is read back, also a number below zero or one that needs more
digits. -/
theorem readHex_hex8 (n : Int) : readHex (hex8 n) = .ok n := by
  have spelled (width : Nat) := (isNumeral_hexDigits n.natAbs).toUpper.padLeft (by decide) width
  by_cases below : n < 0
  · have value := readHex_minus (spelled 7)
    rw [Int.ofNat_natAbs_of_nonpos below.le, Int.neg_neg] at value
    rw [hex8, minus, if_pos below]
    exact value
  · have value := readHex_bare (spelled 8) (.of_text _ _)
    rw [Int.natAbs_of_nonneg (Int.not_lt.1 below)] at value
    rw [hex8, minus, if_neg below]
    exact value

end Chifir.Text
