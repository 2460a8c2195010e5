import Graft.Config
import Graft.Conversion
import Graft.Report
import Graft.Tree.Compare
import Graft.Tree.Exchange
import Graft.Tree.Render
import Graft.Proofs.Agree
import Graft.Proofs.Follow
import Graft.Proofs.Modes
import Graft.Proofs.Statements
import Graft.Proofs.Place
import Graft.Proofs.Reads
import Graft.Proofs.Constructions
import Graft.Proofs.Depth
import Graft.Proofs.Dropped
import Graft.Proofs.Alike
import Graft.Proofs.Respelled
import Graft.Proofs.Lookalike
import Graft.Proofs.Absence
import Graft.Proofs.Subtree
import Graft.Proofs.Sound
import Graft.Proofs.Fits
import Graft.Proofs.Builds
import Graft.Proofs.Trees
import Graft.Proofs.Walked
import Graft.Proofs.Edited
import Graft.Proofs.Compared
import Graft.Proofs.Bracketing
import Graft.Proofs.Moved
import Graft.Proofs.Tied
import Graft.Proofs.Carried
import Graft.Proofs.Positions
import Graft.Proofs.Blame
import Graft.Proofs.Canonical
import Graft.Proofs.RoundTrip
import Graft.Proofs.Enumerated
import Graft.Proofs.Renamed
import Graft.Proofs.Delimited
import Graft.Proofs.Rendered
import Graft.Proofs.Faithful
import Graft.Proofs.Envelope
import Graft.Proofs.Loops
import Graft.Proofs.Anywhere
import Graft.Proofs.Rearranged
import Graft.Proofs.Exchanged
import Graft.Proofs.Tolerated
import Graft.Proofs.Lenient
import Graft.Proofs.Variables
import Graft.Proofs.Comparisons
import Graft.Proofs.Clauses
import Graft.Proofs.Offsets
import Graft.Proofs.Reports
import Graft.Proofs.LineEndings
import Graft.Proofs.Integers
import Graft.Proofs.Parameters
import Graft.Proofs.Lookahead
import Graft.Proofs.Members
import Graft.Proofs.Replaced
import Graft.Proofs.Pointers
import Graft.Proofs.Numerals
import Graft.Proofs.Calls
import Graft.Proofs.Literals
