import Chifir.Text.Numeral

/-!
# Decimal text

Integers are written in decimal with a leading minus. One of more digits than a numeral may have is
not written; what stands in its place says so.
-/

namespace Chifir.Text

def tooLongToWrite : String :=
  s!"Exceeds the limit ({decimalDigitLimit} digits) for integer string conversion; " ++
    "use sys.set_int_max_str_digits() to increase the limit"

def isWritable (n : Int) : Bool := n.natAbs < Nat.pow 10 decimalDigitLimit

def decimal (n : Int) : String := toString n

end Chifir.Text
