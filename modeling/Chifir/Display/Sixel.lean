/-!
# Sixel graphics

A character carries six pixels below each other: 63 plus one bit per lit pixel, the top one lowest.
A band is a row of such characters and ends with `$-`. Rows below the last band's pixels take what
the buffer holds there, and nothing past its end.

A border is a band of `_` above, a `~` at both ends of each band, and a band of `@` below.
-/

namespace Chifir.Sixel

def bandHeight : Nat := 6

def dark : Nat := 63

def nextBand : List Char := ['$', '-']

/-- The bits of the pixels below each other that start at `offset`. -/
def columnBits (pixels : Array Bool) (width offset : Nat) : Nat → Nat
  | 0 => 0
  | n + 1 =>
    columnBits pixels width offset n +
      if pixels.getD (offset + n * width) false then 1 <<< n else 0

/-- The character of column `x` in a band. -/
def column (pixels : Array Bool) (width band x : Nat) : Char :=
  Char.ofNat (dark + columnBits pixels width (x + band * bandHeight * width) bandHeight)

def columns (pixels : Array Bool) (width band : Nat) : List Char :=
  (List.range width).map (column pixels width band)

def rule (c : Char) (width : Int) : List Char := List.replicate (width + 2).toNat c ++ nextBand

/-- A band of pixels, between the ends of the border if there is one. -/
def band (pixels : Array Bool) (width : Nat) (border : Bool) (n : Nat) : List Char :=
  let edge := if border then ['~'] else []
  edge ++ columns pixels width n ++ edge ++ nextBand

/-- How many bands of `bandHeight` show so many rows. -/
def bandCount (height : Int) : Nat := (height.toNat + (bandHeight - 1)) / bandHeight

/-- The bands of a row-major buffer. Nothing is shown of a picture without rows, and a picture
without columns has empty bands. A pixel counts if its place is below the size of the buffer,
whatever its row. -/
def encode (pixels : Array Bool) (width height : Int) (border : Bool) : List Char :=
  let bands := (List.range (bandCount height)).flatMap (band pixels width.toNat border)
  if border then rule '_' width ++ bands ++ rule '@' width else bands

def opening : List Char := "\x1b[1;1H\x1bPq".toList

def closing : List Char := "\x1b\\".toList

/-- All that is sent for a picture: `opening`, the bands of `encode`, and `closing`. -/
def frame (pixels : Array Bool) (width height : Int) (border : Bool) : String :=
  String.ofList (opening ++ encode pixels width height border ++ closing)

example : encode #[true, false, true] 1 7 true = "___$-~D~$-~?~$-@@@$-".toList := by decide +kernel

end Chifir.Sixel
