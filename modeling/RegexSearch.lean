import RegexSearch.Branch.Equations
import RegexSearch.Regex
import RegexSearch.Main
import RegexSearch.Proofs.Branch.Consumption
import RegexSearch.Proofs.Branch.Semantics
import RegexSearch.Proofs.Search.Trace
import RegexSearch.Proofs.Search.Correctness
import RegexSearch.Proofs.Search.Offsets
import RegexSearch.Proofs.Branch.Closing
import RegexSearch.Proofs.Search.Faults
import RegexSearch.Proofs.Branch.Choices
import RegexSearch.Proofs.Search.Order
import RegexSearch.Proofs.Branch.Enumeration
import RegexSearch.Proofs.Branch.Seam
import RegexSearch.Proofs.Search.Concatenation
import RegexSearch.Proofs.Search.Cost
import RegexSearch.Proofs.Search.Records
import RegexSearch.Proofs.Bracket.Display
import RegexSearch.Proofs.Search.Alike
import RegexSearch.Proofs.Search.Substitution
import RegexSearch.Proofs.Search.Greedy
import RegexSearch.Proofs.Search.NestedStars
import RegexSearch.Proofs.Bracket.Items
import RegexSearch.Proofs.Bracket.RoundTrip
import RegexSearch.Proofs.Search.Repetition
import RegexSearch.Proofs.Search.Extension
import RegexSearch.Proofs.Bracket.Printing
import RegexSearch.Proofs.Search.Literal
import RegexSearch.Proofs.Search.PrintedUnits
import RegexSearch.Bracket.Bytes
import RegexSearch.Proofs.Text.Utf8
import RegexSearch.Proofs.Bracket.Bytes
import RegexSearch.Proofs.Bracket.Joining
import RegexSearch.Proofs.Branch.Boundary
import RegexSearch.Proofs.Search.Budget
import RegexSearch.Proofs.Search.Nesting
import RegexSearch.Proofs.Log.Filter
