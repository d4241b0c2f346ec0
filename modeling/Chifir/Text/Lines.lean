/-!
# Lines

A line ends at one of eight breaks: line feed, carriage return, the two together, vertical tab, form
feed, next line, line separator, paragraph separator.

1. `splitLines` gives the lines between the breaks, one more than there are breaks.
2. `joinLines` puts line feeds between lines; output is written with it.
-/

namespace Chifir.Text

/-- The characters that end a line on their own. -/
def isBreak (c : Char) : Bool :=
  let n := c.toNat
  (0x0A ≤ n && n ≤ 0x0D) || n == 0x85 || n == 0x2028 || n == 0x2029

/-- The lines of a text whose current line already holds `line`, newest character first. -/
def splitLinesFrom (line : List Char) : List Char → List (List Char)
  | [] => [line.reverse]
  | '\r' :: '\n' :: r => line.reverse :: splitLinesFrom [] r
  | c :: r =>
    if isBreak c then line.reverse :: splitLinesFrom [] r else splitLinesFrom (c :: line) r

/-- The lines of a text; a text that ends in a break has an empty last line. -/
def splitLines (s : List Char) : List (List Char) := splitLinesFrom [] s

def linesOf (s : String) : List String := (splitLines s.toList).map String.ofList

/-- Text in which every carriage return, with a line feed behind it or without, is a line feed. -/
def withLineFeeds : List Char → List Char
  | [] => []
  | '\r' :: '\n' :: r => '\n' :: withLineFeeds r
  | '\r' :: r => '\n' :: withLineFeeds r
  | c :: r => c :: withLineFeeds r

/-- `withLineFeeds` on strings. -/
def unixBreaks (s : String) : String :=
  if s.toList.contains '\r' then String.ofList (withLineFeeds s.toList) else s

/-- The lines that a reader of input gets: each ends at a line feed, and the end of the input ends
the last. -/
def inputLines (s : String) : List String :=
  let pieces := (unixBreaks s).splitOn "\n"
  if pieces.getLast? = some "" then pieces.dropLast else pieces

def joinLines (rows : List String) : String := "\n".intercalate rows

example : linesOf "a\r\nb\r\r\nc\x0b\n" = ["a", "b", "", "c", "", ""] := by decide +kernel

end Chifir.Text
