import Mathlib.Data.List.Basic
import Chifir.Instruction.Basic
import Chifir.Memory.Dump

/-!
# Words in fours

A list of words whose length is a multiple of four is the words of instructions (`exists_quads`).
-/

namespace Chifir

variable {ω ω' : Type}

theorem length_flatMap_toList (quads : List (Quad ω)) :
    (quads.flatMap Quad.toList).length = 4 * quads.length := by
  induction quads with
  | nil => rfl
  | cons q quads ih =>
    rw [List.flatMap_cons, List.length_append, ih]
    simp [Quad.toList]
    omega

theorem exists_quads {words : List ω} (whole : words.length % 4 = 0) :
    ∃ quads : List (Quad ω), words = quads.flatMap Quad.toList := by
  fun_induction inFours words with
  | case1 a b c d r ih =>
    simp only [List.length_cons] at whole
    obtain ⟨quads, rfl⟩ := ih (by omega)
    exact ⟨⟨a, b, c, d⟩ :: quads, rfl⟩
  | case2 => exact ⟨[], rfl⟩
  | case3 words long some =>
    rcases words with _ | ⟨a, _ | ⟨b, _ | ⟨c, _ | ⟨d, r⟩⟩⟩⟩
    · exact absurd rfl some
    · simp at whole
    · simp at whole
    · simp at whole
    · exact absurd rfl (long a b c d r)

theorem map_flatMap_toList (f : ω → ω') (quads : List (Quad ω)) :
    (quads.flatMap Quad.toList).map f = (quads.map (Quad.map f)).flatMap Quad.toList := by
  rw [List.map_flatMap, List.flatMap_map]
  rfl

theorem inFours_flatMap_toList (quads : List (Quad ω)) :
    inFours (quads.flatMap Quad.toList) = quads.map Quad.toList := by
  induction quads with
  | nil => rfl
  | cons q quads ih =>
    rw [List.flatMap_cons, List.map_cons, ← ih]
    rfl

end Chifir
