import MemberOrder.CommandLine.Grammar
import MemberOrder.CommandLine.Reader
import MemberOrder.CommandLine.Request
import MemberOrder.CommandLine.Run
import MemberOrder.CommandLine.ShellWords
import MemberOrder.Decimal.Shortest
import MemberOrder.Declaration.Initializer
import MemberOrder.Declaration.LineStart
import MemberOrder.Declaration.MethodHead
import MemberOrder.Declaration.Tail
import MemberOrder.Declaration.TypeHeader
import MemberOrder.Document.Basic
import MemberOrder.Files.Building
import MemberOrder.Files.Path
import MemberOrder.Files.System
import MemberOrder.Layout.Assembly
import MemberOrder.Layout.Basic
import MemberOrder.Layout.Leading
import MemberOrder.Layout.Member
import MemberOrder.Layout.Region
import MemberOrder.Layout.Report
import MemberOrder.Log
import MemberOrder.Main
import MemberOrder.Method.Access
import MemberOrder.Method.AccessOrder
import MemberOrder.Method.Basic
import MemberOrder.Method.Calls
import MemberOrder.Order.CallGraph
import MemberOrder.Order.Cluster
import MemberOrder.Order.Comparison
import MemberOrder.Order.Name
import MemberOrder.Order.Options
import MemberOrder.Order.Shuffle
import MemberOrder.Order.Sorting
import MemberOrder.Proofs.Layout.Leading
import MemberOrder.Proofs.Source.Reading
import MemberOrder.Random.Twister
import MemberOrder.Rearrange
import MemberOrder.Rearrange.Raw
import MemberOrder.RunSort.Basic
import MemberOrder.RunSort.Merge
import MemberOrder.RunSort.Search
import MemberOrder.Settings.Basic
import MemberOrder.Settings.Comparison
import MemberOrder.Settings.Draft
import MemberOrder.Settings.Value
import MemberOrder.Shell.Arithmetic
import MemberOrder.Shell.Builtin
import MemberOrder.Shell.Evaluation
import MemberOrder.Shell.Expansion
import MemberOrder.Shell.Format
import MemberOrder.Shell.Grammar
import MemberOrder.Shell.Host
import MemberOrder.Shell.Launch
import MemberOrder.Shell.Octets
import MemberOrder.Shell.Pattern
import MemberOrder.Shell.Process
import MemberOrder.Shell.Program
import MemberOrder.Shell.State
import MemberOrder.Shell.Syntax
import MemberOrder.Shell.Test
import MemberOrder.Shell.Token
import MemberOrder.Shell.Utility.Basic
import MemberOrder.Shell.Utility.Calculation
import MemberOrder.Shell.Utility.Files
import MemberOrder.Shell.Utility.Streams
import MemberOrder.Shell.Word
import MemberOrder.Source.Basic
import MemberOrder.Source.Delimiter
import MemberOrder.Source.Query
import MemberOrder.Text.Alphanumeric
import MemberOrder.Text.Basic
import MemberOrder.Text.Blank
import MemberOrder.Text.Case
import MemberOrder.Text.CaseTable
import MemberOrder.Text.Numeral
import MemberOrder.Text.Printable
import MemberOrder.Text.Quoted
import MemberOrder.Text.Ranges
import MemberOrder.Text.Raw
import MemberOrder.Text.Utf8
import MemberOrder.Text.Word
import MemberOrder.Tools.Call
import MemberOrder.Tools.Server
import MemberOrder.Proofs.Layout.Member
import MemberOrder.Proofs.Layout.Tiling
import MemberOrder.Proofs.RunSort.Sorting
import MemberOrder.Proofs.Layout.Content
import MemberOrder.Proofs.Order.Permutation
import MemberOrder.Proofs.Rearrange.Content
import MemberOrder.Proofs.Source.Modes
import MemberOrder.Proofs.Source.Transport
import MemberOrder.Proofs.Source.Nesting
import MemberOrder.Proofs.Declaration.Locality
import MemberOrder.Proofs.Layout.Sweep
import MemberOrder.Proofs.Splice.Basic
import MemberOrder.Proofs.Splice.Regions
import MemberOrder.Proofs.Splice.Piece
import MemberOrder.Proofs.Splice.Members
import MemberOrder.Proofs.Splice.Opening
import MemberOrder.Proofs.Splice.Pieces
import MemberOrder.Proofs.Layout.Blocks
import MemberOrder.Proofs.Rearrange.Reread
import MemberOrder.Proofs.Layout.Surroundings
import MemberOrder.Proofs.Layout.Rendering
import MemberOrder.Proofs.Order.Search
import MemberOrder.Proofs.Order.Calls
import MemberOrder.Proofs.Rearrange.Again
import MemberOrder.Proofs.RunSort.Naturality
import MemberOrder.Proofs.Order.Comparison
import MemberOrder.Proofs.Order.Settled
import MemberOrder.Proofs.Rearrange.Idempotence
import MemberOrder.Proofs.RunSort.Ascent
import MemberOrder.Proofs.Order.Callers
import MemberOrder.Proofs.Layout.Cuts
import MemberOrder.Proofs.Layout.Balance
import MemberOrder.Proofs.Source.WhiteSpace
import MemberOrder.Proofs.Layout.Lexical
import MemberOrder.Proofs.Order.Groups
import MemberOrder.Proofs.Order.Uniformity
import MemberOrder.Proofs.Text.Utf8
import MemberOrder.Proofs.Source.Query
import MemberOrder.Proofs.Layout.RegionWalk
import MemberOrder.Proofs.Layout.Climb
import MemberOrder.Proofs.Layout.MemberWalk
import MemberOrder.Proofs.Rearrange.Safety
import MemberOrder.Proofs.Order.Independence
import MemberOrder.Proofs.Order.Overloads
import MemberOrder.Proofs.Order.Accessors
import MemberOrder.Proofs.Order.Reclustering
import MemberOrder.Proofs.Source.Tokens
import MemberOrder.Proofs.Source.Matching
import MemberOrder.Proofs.Declaration.Discovery
import MemberOrder.Proofs.Layout.Fields
import MemberOrder.Proofs.Layout.Overlap
import MemberOrder.Proofs.Layout.LeadingRun
import MemberOrder.Proofs.Layout.CallSites
import MemberOrder.Proofs.Layout.Separation
import MemberOrder.Proofs.Text.Raw
import MemberOrder.Proofs.Settings.Showing
import MemberOrder.Proofs.Settings.Merging
import MemberOrder.Proofs.Files.System
import MemberOrder.Proofs.Files.Path
import MemberOrder.Proofs.Document.Files
import MemberOrder.Proofs.Document.Reports
import MemberOrder.Proofs.Document.Sorting
import MemberOrder.Proofs.Rearrange.Raw
import MemberOrder.Proofs.Tools.Files
import MemberOrder.Proofs.Tools.Answers
import MemberOrder.Proofs.CommandLine.Sorting
