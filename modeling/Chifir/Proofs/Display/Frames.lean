import Chifir.Display.Sixel

/-!
# Frames are ASCII

`isAscii_frame`: whatever is in the pixels, each character of a frame is below 128, so that a frame
can be sent byte for byte.
-/

namespace Chifir.Sixel

def IsAscii (cs : List Char) : Prop := ∀ c ∈ cs, c.toNat < 128

instance : DecidablePred IsAscii := List.decidableBAll (fun c : Char => c.toNat < 128)

theorem isAscii_append {cs cs' : List Char} : IsAscii (cs ++ cs') ↔ IsAscii cs ∧ IsAscii cs' :=
  List.forall_mem_append

theorem columnBits_lt (pixels : Array Bool) (width offset n : Nat) :
    columnBits pixels width offset n < 1 <<< n := by
  induction n with
  | zero => exact Nat.zero_lt_one
  | succ n ih =>
    rw [columnBits, Nat.shiftLeft_succ]
    split
    · omega
    · omega

theorem toNat_column (pixels : Array Bool) (width band x : Nat) :
    (column pixels width band x).toNat =
      dark + columnBits pixels width (x + band * bandHeight * width) bandHeight := by
  have few := columnBits_lt pixels width (x + band * bandHeight * width) bandHeight
  have valid :
      (dark + columnBits pixels width (x + band * bandHeight * width) bandHeight).isValidChar := by
    simp only [dark, bandHeight] at few ⊢
    exact .inl (by omega)
  -- For an invalid number `Char.ofNat` would be the character 0.
  rw [column, Char.ofNat, dif_pos valid]
  rfl

theorem column_bounds (pixels : Array Bool) (width band x : Nat) :
    63 ≤ (column pixels width band x).toNat ∧ (column pixels width band x).toNat ≤ 126 := by
  have few := columnBits_lt pixels width (x + band * bandHeight * width) bandHeight
  rw [toNat_column]
  simp only [dark, bandHeight] at few ⊢
  omega

theorem isAscii_columns (pixels : Array Bool) (width band : Nat) :
    IsAscii (columns pixels width band) := by
  intro c inside
  obtain ⟨x, -, rfl⟩ := List.mem_map.1 inside
  exact Nat.lt_of_le_of_lt (column_bounds pixels width band x).2 (by decide)

theorem isAscii_rule {c : Char} (small : c.toNat < 128) (width : Int) : IsAscii (rule c width) := by
  refine isAscii_append.2 ⟨fun c' inside => ?_, by decide⟩
  rw [List.eq_of_mem_replicate inside]
  exact small

theorem isAscii_band (pixels : Array Bool) (width : Nat) (border : Bool) (n : Nat) :
    IsAscii (band pixels width border n) := by
  have edge : IsAscii (if border then ['~'] else []) := by
    cases border
    · decide
    · decide
  simp only [band, isAscii_append]
  exact ⟨⟨⟨edge, isAscii_columns pixels width n⟩, edge⟩, by decide⟩

theorem isAscii_encode (pixels : Array Bool) (width height : Int) (border : Bool) :
    IsAscii (encode pixels width height border) := by
  have bands :
      IsAscii ((List.range (bandCount height)).flatMap (band pixels width.toNat border)) := by
    intro c inside
    obtain ⟨n, -, inside⟩ := List.mem_flatMap.1 inside
    exact isAscii_band pixels width.toNat border n c inside
  rw [encode]
  split
  · simp only [isAscii_append]
    exact ⟨⟨isAscii_rule (by decide) width, bands⟩, isAscii_rule (by decide) width⟩
  · exact bands

theorem isAscii_frame (pixels : Array Bool) (width height : Int) (border : Bool) :
    IsAscii (frame pixels width height border).toList := by
  simp only [frame, String.toList_ofList, isAscii_append]
  exact ⟨⟨by decide, isAscii_encode pixels width height border⟩, by decide⟩

end Chifir.Sixel
