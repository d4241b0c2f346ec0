import Chifir.Main
import Chifir.CommandLine.Execute
import Chifir.Logging
import Chifir.Machine.Panel
import Chifir.Proofs.Machine.Macro
import Chifir.Proofs.Assembly.Layout
import Chifir.Proofs.Assembly.Language
import Chifir.Proofs.Assembly.Meaning
import Chifir.Proofs.Assembly.FirstError
import Chifir.Proofs.Machine.Table
import Chifir.Proofs.Display.Frames
import Chifir.Proofs.Machine.Checked
import Chifir.Proofs.Machine.Faults
import Chifir.Proofs.Machine.Safety
import Chifir.Proofs.Machine.Breakpoints
import Chifir.Proofs.Machine.Iteration
import Chifir.Proofs.Machine.Budgets
import Chifir.Proofs.Machine.Attended
import Chifir.Proofs.Machine.Resuming
import Chifir.Proofs.Machine.Debugging
import Chifir.Proofs.Memory.Histories
import Chifir.Proofs.Assembly.Recovery
import Chifir.Proofs.Assembly.Reassembly
import Chifir.Proofs.CommandLine.Outputs
import Chifir.Proofs.Machine.Waiting
import Chifir.Proofs.Monitor.Complaints
import Chifir.Proofs.Monitor.Reset
import Chifir.Proofs.Display.Bands
import Chifir.Proofs.Machine.Stopped
import Chifir.Proofs.Machine.Engine
import Chifir.Proofs.Memory.Blocks
import Chifir.Proofs.Display.Painting
import Chifir.Proofs.Keyboard
import Chifir.Proofs.Memory.Dumps
import Chifir.Proofs.Memory.Notices
import Chifir.Proofs.Json
import Chifir.Proofs.Text.LetterCase
import Chifir.Proofs.Config.Plans
import Chifir.Proofs.Config.Overrides
import Chifir.Proofs.CommandLine.Configuration
import Chifir.Proofs.Display.Agreement
import Chifir.Proofs.Assembly.Items
import Chifir.Proofs.Assembly.Appending
import Chifir.Proofs.Assembly.Edits
import Chifir.Proofs.Assembly.Listing
import Chifir.Proofs.Assembly.Packing
import Chifir.Proofs.Memory.WordLists
import Chifir.Proofs.Machine.Traces
import Chifir.Proofs.CommandLine.Failures
import Chifir.Proofs.CommandLine.Effects
import Chifir.Proofs.CommandLine.Statuses
import Chifir.Proofs.Assembly.LineNumbers
import Chifir.Proofs.Assembly.Reuse
import Chifir.Proofs.Spellings
import Chifir.Proofs.Monitor.Announcements
