import Mathlib.Data.List.Basic
import Mathlib.Data.Nat.Bitwise
import Mathlib.Tactic.Ring
import Chifir.Proofs.Display.Frames

/-!
# What a picture shows

A picture is sent as text. Taken apart into its bands it shows a bit for each column of each row,
and `Depicts` says which of them are set.

1. `bandsOf` finds the bands of a text, and `bandsOf_flatMap` that they are those it was put
   together from.
2. `testBit_columnBits`, by induction on the rows of a column: its bits are pixels of the buffer.
3. `depicts_bandsFor`: so the bands of a buffer depict what it holds, wherever it ends. `encode_eq`:
   they are sent, with a border around them if there is one, and `framed_injective` says that
   nothing of them is lost in it.
4. `depicts_encode` is about pictures without a border. Rows below the height they are made for may
   be lit, and it says when.
-/

namespace Chifir.Sixel

/-! ## Reading a picture -/

/-- The bands of a text, each of which ends with `$-`. -/
def bandsOf : List Char → List (List Char)
  | [] => []
  | '$' :: '-' :: rest => [] :: bandsOf rest
  | c :: rest =>
    match bandsOf rest with
    | [] => [[c]]
    | band :: bands => (c :: band) :: bands

/-- The bit for a row of a column, the rows being counted over all bands. -/
def bitAt (bands : List (List Char)) (x row : Nat) : Option Bool := do
  let band ← bands[row / 6]?
  let c ← band[x]?
  return (c.toNat - 63).testBit (row % 6)

/-- Bands for a picture of this size, in which just the pixels are lit that `lit` tells of. -/
structure Depicts (bands : List (List Char)) (width height : Nat) (lit : Nat → Nat → Prop) :
    Prop where
  count : bands.length = (height + 5) / 6
  columns : ∀ band ∈ bands, band.length = width
  characters : ∀ band ∈ bands, ∀ c ∈ band, '?' ≤ c ∧ c ≤ '~'
  bits : ∀ x row, x < width → row < 6 * ((height + 5) / 6) →
    (bitAt bands x row = some true ↔ lit x row)

theorem bandsOf_append {band : List Char} (free : '$' ∉ band) (rest : List Char) :
    bandsOf (band ++ nextBand ++ rest) = band :: bandsOf rest := by
  induction band with
  | nil => rfl
  | cons c band ih =>
    obtain ⟨other, free⟩ := List.ne_and_not_mem_of_not_mem_cons free
    have later := ih free
    rw [List.cons_append, List.cons_append, bandsOf, later]
    exact fun _ same _ => other same.symm

theorem bandsOf_flatMap {bands : List (List Char)} (free : ∀ band ∈ bands, '$' ∉ band) :
    bandsOf (bands.flatMap (· ++ nextBand)) = bands := by
  induction bands with
  | nil => rfl
  | cons band bands ih =>
    obtain ⟨first, others⟩ := List.forall_mem_cons.1 free
    rw [List.flatMap_cons, bandsOf_append first, ih others]

section Depicts
variable {bands : List (List Char)} {width height : Nat} {lit lit' : Nat → Nat → Prop}

theorem Depicts.free (depicts : Depicts bands width height lit) : ∀ band ∈ bands, '$' ∉ band := by
  intro band inside dollar
  exact absurd (depicts.characters band inside '$' dollar).1 (by decide)

/-- Bands depict one thing: what else they depict is lit alike in all rows of the bands. -/
theorem Depicts.iff (depicts : Depicts bands width height lit) :
    Depicts bands width height lit' ↔
      ∀ x row, x < width → row < 6 * ((height + 5) / 6) → (lit x row ↔ lit' x row) := by
  constructor
  · intro depicts' x row column below
    rw [← depicts.bits x row column below, depicts'.bits x row column below]
  · intro same
    refine ⟨depicts.count, depicts.columns, depicts.characters, fun x row column below => ?_⟩
    rw [depicts.bits x row column below, same x row column below]

end Depicts

/-! ## What is sent -/

variable (pixels : Array Bool)

theorem testBit_columnBits (width offset n y : Nat) :
    (columnBits pixels width offset n).testBit y =
      (decide (y < n) && pixels.getD (offset + y * width) false) := by
  induction n with
  | zero => simp [columnBits]
  | succ n ih =>
    have small := columnBits_lt pixels width offset n
    rw [columnBits]
    rw [Nat.one_shiftLeft] at small ⊢
    split
    · next lit =>
      rw [Nat.add_comm]
      rcases Nat.lt_trichotomy y n with before | rfl | after
      · rw [Nat.testBit_two_pow_add_gt before, ih, decide_eq_true before,
          decide_eq_true (Nat.lt_succ_of_lt before)]
      · simp [Nat.testBit_two_pow_add_eq, ih, lit]
      · have above : 2 ^ (n + 1) ≤ 2 ^ y := Nat.pow_le_pow_right (by decide) after
        rw [Nat.testBit_lt_two_pow (by omega), decide_eq_false (by omega), Bool.false_and]
    · next unlit =>
      rw [Nat.add_zero, ih]
      by_cases here : y = n
      · simp [here, unlit]
      · rw [decide_eq_decide.2 (show y < n ↔ y < n + 1 by omega)]

theorem testBit_column (width band x y : Nat) (inBand : y < 6) :
    ((column pixels width band x).toNat - 63).testBit y = pixels.getD
    (x + (6 * band + y) * width) false := by
  have offset : x + band * bandHeight * width + y * width = x + (6 * band + y) * width := by
    simp only [bandHeight]
    ring
  rw [toNat_column, dark, Nat.add_sub_cancel_left, testBit_columnBits, offset, bandHeight,
    decide_eq_true inBand, Bool.true_and]

def bandsFor (width height : Nat) : List (List Char) :=
  (List.range (bandCount height)).map (columns pixels width)

theorem bitAt_bandsFor {width height x row : Nat} (column : x < width)
    (below : row < 6 * ((height + 5) / 6)) :
    bitAt (bandsFor pixels width height) x row = some (pixels.getD (x + row * width) false) := by
  have inside : row / 6 < bandCount height := Nat.div_lt_of_lt_mul below
  have found :
      (bandsFor pixels width height)[row / 6]? = some (columns pixels width (row / 6)) := by
    simp [bandsFor, inside]
  have found' :
      (columns pixels width (row / 6))[x]? = some (Sixel.column pixels width (row / 6) x) := by
    simp [columns, column]
  simp only [bitAt, found, found', Option.bind_eq_bind, Option.bind_some, Option.pure_def,
    testBit_column pixels _ _ _ _ (Nat.mod_lt row (by decide)), Nat.div_add_mod]

theorem depicts_bandsFor (width height : Nat) :
    Depicts (bandsFor pixels width height) width height fun x row => pixels[x + row * width]? =
      some true := by
  refine ⟨?_, ?_, ?_, fun x row column below => ?_⟩
  · rw [bandsFor, List.length_map, List.length_range]
    rfl
  · intro band inside
    obtain ⟨n, _, rfl⟩ := List.mem_map.1 inside
    rw [columns, List.length_map, List.length_range]
  · intro band inside c place
    obtain ⟨n, _, rfl⟩ := List.mem_map.1 inside
    obtain ⟨x, _, rfl⟩ := List.mem_map.1 place
    simp only [Char.le_def, UInt32.le_iff_toNat_le]
    exact column_bounds pixels width n x
  · rw [bitAt_bandsFor pixels column below, Option.some.injEq, Array.getD_eq_getD_getElem?]
    cases pixels[x + row * width]? with
    | none => simp
    | some lit => simp

def framed (border : Bool) (width : Nat) (bands : List (List Char)) : List (List Char) :=
  if border then
    List.replicate (width + 2) '_' :: bands.map (fun band => '~' :: band ++ ['~']) ++
      [List.replicate (width + 2) '@']
  else bands

section Framed
variable {bands bands' : List (List Char)} {border : Bool} {width : Nat}

theorem free_framed (free : ∀ band ∈ bands, '$' ∉ band) :
    ∀ band ∈ framed border width bands, '$' ∉ band := by
  cases border with
  | false => exact free
  | true =>
    have rule {c : Char} (other : '$' ≠ c) : '$' ∉ List.replicate (width + 2) c :=
      fun inside => other (List.eq_of_mem_replicate inside)
    intro band inside
    simp only [framed, if_true, List.cons_append, List.mem_cons, List.mem_append, List.mem_map,
      List.not_mem_nil, or_false] at inside
    rcases inside with rfl | ⟨inner, place, rfl⟩ | rfl
    · exact rule (by decide)
    · simpa using free inner place
    · exact rule (by decide)

theorem framed_injective (same : framed border width bands = framed border width bands') :
    bands = bands' := by
  cases border with
  | false => exact same
  | true =>
    simp only [framed, if_true, List.cons_append, List.cons.injEq, true_and] at same
    have edged : Function.Injective fun band : List Char => '~' :: band ++ ['~'] :=
      fun _ _ same => List.append_cancel_right (List.cons.inj same).2
    exact List.map_injective_iff.2 edged (List.append_cancel_right same)

end Framed

theorem encode_eq (width height : Nat) (border : Bool) :
    encode pixels width height border = (framed border width (bandsFor pixels width height)).flatMap
      (· ++ nextBand) := by
  cases border with
  | false =>
    have plain : band pixels width false = fun n => columns pixels width n ++ nextBand := by
      funext n
      simp [band]
    simp [encode, framed, bandsFor, List.flatMap_map, plain]
  | true =>
    have edged : band pixels width true = fun n => '~' :: columns pixels width n ++
        ['~'] ++ nextBand := by
      funext n
      simp [band]
    have rules (c : Char) : rule c width = List.replicate (width + 2) c ++ nextBand := rfl
    simp [encode, framed, bandsFor, List.flatMap_map, edged, rules]

theorem bandsOf_encode (width height : Nat) :
    bandsOf (encode pixels width height false) = bandsFor pixels width height := by
  rw [encode_eq]
  exact bandsOf_flatMap (depicts_bandsFor pixels width height).free

/-- Where a pixel lies in a row-major buffer: before its end exactly if its `row` is in the picture.
-/
theorem index_lt_iff {width height x row : Nat} (column : x < width) :
    x + row * width < width * height ↔ row < height := by
  have wide : 0 < width := by omega
  rw [Nat.mul_comm width, ← Nat.div_lt_iff_lt_mul wide, Nat.add_mul_div_right _ _ wide,
    Nat.div_eq_of_lt column, Nat.zero_add]

/-- What `encode` shows of a buffer of any length. The bit for a row of a column is set exactly if
the buffer holds a nonzero number for that pixel, be the row in the picture or below it. So the rows
that are missing in the last band are dark exactly if the buffer holds nothing but zeros there, as
when it ends with the picture. -/
theorem depicts_encode (pixels : List Int) (width height : Nat) :
    let text := encode (pixels.map (· != 0)).toArray width height false
    let bands := bandsOf text
    let stored (x row : Nat) : Prop := ∃ v, pixels[x + row * width]? = some v ∧ v ≠ 0
    text = bands.flatMap (· ++ nextBand) ∧
      Depicts bands width height stored ∧
      (Depicts bands width height (fun x row => row < height ∧ stored x row) ↔
        ∀ i v, width * height ≤ i → i < width * (6 * ((height + 5) / 6)) → pixels[i]? = some v →
          v = 0) := by
  intro text bands stored
  have found : bands = bandsFor (pixels.map (· != 0)).toArray width height :=
    bandsOf_encode _ width height
  have depicts : Depicts bands width height stored := by
    rw [found, (depicts_bandsFor _ width height).iff]
    intro x row _ _
    simp [stored]
  refine ⟨?_, depicts, depicts.iff.trans ⟨fun same i v after before held => ?_,
    fun dark x row column below => ?_⟩⟩
  · rw [found]
    exact encode_eq _ width height false
  · by_contra lit
    have wide : 0 < width := Nat.pos_of_lt_mul_right before
    have index : i % width + i / width * width = i := Nat.mod_add_div' i width
    have below : i / width < 6 * ((height + 5) / 6) := Nat.div_lt_of_lt_mul before
    obtain ⟨inside, _⟩ :=
      (same (i % width) (i / width) (Nat.mod_lt i wide) below).1 ⟨v, by rwa [index], lit⟩
    rw [← index_lt_iff (Nat.mod_lt i wide), index] at inside
    omega
  · refine ⟨fun lit => ⟨?_, lit⟩, And.right⟩
    obtain ⟨v, held, lit⟩ := lit
    by_contra beyond
    refine lit (dark (x + row * width) v ?_ ((index_lt_iff column).2 below) held)
    exact Nat.le_of_not_lt fun inside => beyond ((index_lt_iff column).1 inside)

/-- One of two pixels is below a picture of one. The claim that all rows below are dark fails for
it. -/
theorem row_below_lit :
    ¬ Depicts (bandsOf (encode (([1, 1] : List Int).map (· != 0)).toArray 1 1 false)) 1 1
      fun x row => row < 1 ∧ ∃ v, ([1, 1] : List Int)[x + row * 1]? = some v ∧ v ≠ 0 := by
  intro depicts
  have below := (depicts.bits 0 1 (by decide) (by decide)).1 (by decide)
  exact absurd below.1 (by decide)

end Chifir.Sixel
