import Mathlib.Algebra.Order.Ring.Int
import Chifir.Proofs.Text.Rows
import Chifir.Text.LetterCase

/-!
# Printed digits

`IsDigits` are the texts made of lower-case hexadecimal digits, which is what numbers are printed
as. Such a text is one word, and it is its own lower case. Addresses are printed in upper case, and
they are read back too (`hexToNat_hex8`).
-/

namespace Chifir.Text

/-- One or more lower-case digits, as `hexDigits` writes them. -/
def IsDigits (s : List Char) : Prop := s ≠ [] ∧ ∀ c ∈ s, ∃ d < 16, c = hexDigit d

theorem isDigits_hexDigits (n : Nat) : IsDigits (hexDigits n) := by
  refine ⟨hexDigits_ne_nil n, ?_⟩
  induction n using hexDigits.induct with
  | case1 n small =>
    rw [hexDigits, if_pos small]
    exact List.forall_mem_singleton.2 ⟨n, small, rfl⟩
  | case2 n large ih =>
    rw [hexDigits, if_neg large]
    intro c mem
    rcases List.mem_append.1 mem with front | last
    · exact ih c front
    · exact ⟨n % 16, Nat.mod_lt _ (by decide), List.mem_singleton.1 last⟩

theorem IsDigits.padLeft {s : List Char} (digits : IsDigits s) (width : Nat) :
    IsDigits (padLeft '0' width s) := by
  refine ⟨by simp [Text.padLeft, digits.1], ?_⟩
  intro c mem
  rcases List.mem_append.1 mem with filled | own
  · exact ⟨0, by decide, List.eq_of_mem_replicate filled⟩
  · exact digits.2 c own

theorem hexDigit_facts {d : Nat} (small : d < 16) :
    isBlank (hexDigit d) = false ∧ hexDigit d ≠ ';' ∧ hexDigit d ≠ ':' ∧ hexDigit d ≠ '\u0130' ∧
      hexDigit d ≠ '\u03a3' ∧ lowerChar (hexDigit d) = hexDigit d := by
  revert d
  decide

namespace IsDigits

variable {s : List Char}

theorem isSolid (digits : IsDigits s) : IsSolid s := by
  refine ⟨digits.1, fun c mem => ?_⟩
  obtain ⟨d, small, rfl⟩ := digits.2 c mem
  exact (hexDigit_facts small).1

theorem isHex (digits : IsDigits s) : isHex s = true := by
  rw [Text.isHex, Bool.and_eq_true, List.all_eq_true]
  refine ⟨by simpa using digits.1, fun c mem => ?_⟩
  obtain ⟨d, small, rfl⟩ := digits.2 c mem
  rw [hexValue?_hexDigit small]
  rfl

theorem lower_eq (digits : IsDigits s) : lower s = s := by
  suffices ∀ before, lowerFrom before s = s from this []
  have each := digits.2
  clear digits
  induction s with
  | nil => exact fun _ => rfl
  | cons c r ih =>
    obtain ⟨⟨d, small, rfl⟩, rest⟩ := List.forall_mem_cons.1 each
    obtain ⟨_, _, _, noDot, noSigma, same⟩ := hexDigit_facts small
    intro before
    simp only [lowerFrom, beq_eq_false_iff_ne.2 noDot, beq_eq_false_iff_ne.2 noSigma, same, ih rest]
    rfl

end IsDigits

theorem hexToNat_padLeft (width : Nat) (s : List Char) :
    hexToNat (padLeft '0' width s) = hexToNat s := by
  have zeros : ∀ n,
      (List.replicate n '0').foldl (fun n c => n * 16 + (hexValue? c).getD 0) 0 = 0 := by
    intro n
    induction n with
    | zero => rfl
    | succ n ih => exact ih
  rw [hexToNat, padLeft, List.foldl_append, zeros]
  rfl

theorem length_padLeft_le (fill : Char) (width : Nat) (s : List Char) :
    width ≤ (padLeft fill width s).length := by
  rw [padLeft, List.length_append, List.length_replicate]
  omega

/-! ## Upper case -/

theorem toUpper_hexDigit {d : Nat} (small : d < 16) :
    isBlank (hexDigit d).toUpper = false ∧
      (hexDigit d).toUpper ≠ ':' ∧ hexValue? (hexDigit d).toUpper = some d := by
  revert d
  decide

theorem mem_hex8 {n : Int} {c : Char} (mem : c ∈ (hex8 n).toList) :
    c = '-' ∨ ∃ d < 16, c = (hexDigit d).toUpper := by
  rw [hex8, String.toList_ofList] at mem
  rcases List.mem_append.1 mem with sign | padded
  · rw [minus] at sign
    split at sign
    · exact .inl (List.mem_singleton.1 sign)
    · cases sign
  · rcases List.mem_append.1 padded with filled | digit
    · exact .inr ⟨0, by decide, List.eq_of_mem_replicate filled⟩
    · obtain ⟨c', own, rfl⟩ := List.mem_map.1 digit
      obtain ⟨d, small, rfl⟩ := (isDigits_hexDigits n.natAbs).2 c' own
      exact .inr ⟨d, small, rfl⟩

theorem isSolid_hex8 (n : Int) : IsSolid (hex8 n).toList := by
  refine ⟨?_, fun c mem => ?_⟩
  · rw [hex8, String.toList_ofList]
    simp [Text.padLeft, hexDigits_ne_nil]
  · rcases mem_hex8 mem with rfl | ⟨d, small, rfl⟩
    · decide
    · exact (toUpper_hexDigit small).1

theorem colon_not_mem_hex8 (n : Int) : ':' ∉ (hex8 n).toList := by
  intro mem
  rcases mem_hex8 mem with dash | ⟨d, small, same⟩
  · cases dash
  · exact (toUpper_hexDigit small).2.1 same.symm

theorem hexToNat_upper (n : Nat) : hexToNat ((hexDigits n).map Char.toUpper) = n := by
  induction n using hexDigits.induct with
  | case1 n small =>
    rw [hexDigits, if_pos small]
    simp [hexToNat, (toUpper_hexDigit small).2.2]
  | case2 n large ih =>
    have last := (toUpper_hexDigit (Nat.mod_lt n (show 0 < 16 by decide))).2.2
    rw [hexDigits, if_neg large, List.map_append, List.map_singleton, hexToNat_append_singleton, ih,
      last, Option.getD_some]
    omega

theorem hexToNat_hex8 (n : Nat) : hexToNat (hex8 n).toList = n := by
  have unsigned : minus n = [] := if_neg (by omega)
  rw [hex8, String.toList_ofList, unsigned, List.nil_append, hexToNat_padLeft, hexToNat_upper,
    Int.natAbs_natCast]

theorem length_hexDigits_le {n width : Nat} (some : 0 < width) (small : n < 16 ^ width) :
    (hexDigits n).length ≤ width := by
  induction n using hexDigits.induct generalizing width with
  | case1 n digit =>
    rw [hexDigits, if_pos digit]
    exact some
  | case2 n large ih =>
    obtain ⟨width, rfl⟩ := Nat.exists_eq_add_of_lt some
    rw [Nat.zero_add] at small ⊢
    rw [Nat.pow_succ] at small
    have more : 0 < width := by
      rcases Nat.eq_zero_or_pos width with rfl | more
      · omega
      · exact more
    rw [hexDigits, if_neg large, List.length_append, List.length_singleton]
    exact Nat.succ_le_succ (ih more (by omega))

theorem length_hex8 {n : Nat} (word : n < 2 ^ 32) : (hex8 n).toList.length = 8 := by
  have unsigned : minus n = [] := if_neg (by omega)
  have short := length_hexDigits_le (show 0 < 8 by decide) (show n < 16 ^ 8 from word)
  rw [hex8, String.toList_ofList, unsigned, List.nil_append, padLeft, List.length_append,
    List.length_replicate, List.length_map, Int.natAbs_natCast, List.length_nil, Nat.sub_zero]
  omega

theorem isHex_hex8 (n : Nat) : isHex (hex8 n).toList = true := by
  rw [isHex, Bool.and_eq_true, List.all_eq_true]
  refine ⟨by simpa using (isSolid_hex8 n).1, fun c mem => ?_⟩
  have unsigned : minus n = [] := if_neg (by omega)
  rw [hex8, String.toList_ofList, unsigned, List.nil_append] at mem
  rcases List.mem_append.1 mem with filled | digit
  · rw [List.eq_of_mem_replicate filled]
    rfl
  · obtain ⟨c', own, rfl⟩ := List.mem_map.1 digit
    obtain ⟨d, small, rfl⟩ := (isDigits_hexDigits _).2 c' own
    rw [(toUpper_hexDigit small).2.2]
    rfl

end Chifir.Text
