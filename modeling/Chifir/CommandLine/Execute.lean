import Chifir.CommandLine.BareHost
import Chifir.CommandLine.Command

/-!
# Commands on a bare host

`respond` is `answer` on `Host.bare`, the host that the program has when it is run by itself.
-/

namespace Chifir.CommandLine

/-- The answer to a command line on a host without devices. -/
def respond (arguments : List String) (disk : Disk) (stdin : String) : Answer :=
  answer .bare arguments disk stdin

end Chifir.CommandLine
