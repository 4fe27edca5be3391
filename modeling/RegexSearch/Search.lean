import RegexSearch.Branch.Basic
import RegexSearch.Log.Record
import RegexSearch.Outcome

/-! # Searching

A backtracking search for a pattern in a text. Counts of a repetition are tried from the least
upwards and offsets from the left; the first choice that does not fail decides, and a fault of the
pattern decides as a match does. -/

namespace RegexSearch

open Log (Record)

/-- The outcome of a search with the records it left, in order. -/
structure Trace where
  outcome : Outcome
  records : List Record
deriving DecidableEq

namespace Trace

def ofOutcome (outcome : Outcome) : Trace := ⟨outcome, []⟩

def cons (record : Record) (trace : Trace) : Trace :=
  ⟨trace.outcome, record :: trace.records⟩

/-- A search with a second one to fall back on: if the first finds nothing, the second decides. -/
def orElse (first : Trace) (second : Unit → Trace) : Trace :=
  match first.outcome with
  | .unmatched =>
    let later := second ()
    ⟨later.outcome, first.records ++ later.records⟩
  | _ => first

end Trace

namespace Search

/-- Tries to continue after so many further characters: none, one, and so on up to the given
number. -/
def ascend (next : List Char → Trace) : Nat → List Char → Trace
  | 0, text => next text
  | extra + 1, text => (next text).orElse fun _ => ascend next extra text.tail

/-- Repeats an atom within its bounds at the start of a text and continues after it. The counts
tried reach up to the run of accepted characters or the upper bound, whichever is less. -/
def repeated (atom : Atom) (bounds : Bounds) (next : List Char → Trace)
    (text : List Char) : Trace :=
  let run := atom.runLength text
  let most := min run bounds.upper
  .cons (.repetition atom bounds run) <|
    if bounds.lower ≤ most then
      ascend next (most - bounds.lower) (text.drop bounds.lower)
    else .ofOutcome .unmatched

end Search

/-- What an ending makes of the text that the pieces have left. -/
def Ending.trace : Ending → List Char → Trace
  | exhausted, _ => .ofOutcome .matched
  | endOfText, text => .ofOutcome (if text.isEmpty then .matched else .unmatched)
  | unclosed rest, _ => ⟨.invalid (.unclosedBracket rest), [.unclosed rest]⟩

namespace Branch

/-- Consumes the pieces one by one at the start of a text, then looks at the ending. -/
def traceFrom (ending : Ending) : List Piece → List Char → Trace
  | [], text => ending.trace text
  | .single atom :: pieces, text =>
    match text with
    | [] => .ofOutcome .unmatched
    | c :: rest => if atom.accepts c then traceFrom ending pieces rest else .ofOutcome .unmatched
  | .repeated atom bounds :: pieces, text =>
    Search.repeated atom bounds (traceFrom ending pieces) text

def trace (branch : Branch) (text : List Char) : Trace :=
  traceFrom branch.ending branch.pieces text

/-- Searches at every offset of a text from the left, the one behind its last character included. -/
def scan (branch : Branch) : List Char → Trace
  | [] => branch.trace []
  | c :: rest => (branch.trace (c :: rest)).orElse fun _ => scan branch rest

end Branch

namespace Search

/-- Searches for a pattern at the start of a text. A leading anchor has no meaning here. -/
def atStart (pattern text : List Char) : Trace :=
  (Branch.parse pattern).trace text

/-- Searches for an atom repeated within bounds and then a pattern, at the start of a text. -/
def repeatedThen (atom : Atom) (bounds : Bounds) (pattern text : List Char) : Trace :=
  let branch := Branch.parse pattern
  repeated atom bounds branch.trace text

/-- Searches for a pattern in a text: at its start if the pattern begins with the anchor, and
otherwise at every offset. -/
def anywhere (pattern text : List Char) : Trace :=
  match pattern with
  | '^' :: rest => .cons (.start rest true) (atStart rest text)
  | _ => .cons (.start pattern false) ((Branch.parse pattern).scan text)

end Search

end RegexSearch
