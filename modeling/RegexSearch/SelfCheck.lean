import RegexSearch.Log.Entry
import RegexSearch.Log.Filter
import RegexSearch.Search

/-! # Self-check

A fixed table of patterns and texts with the expected answers, the report on it, and the log it
leaves. -/

namespace RegexSearch.SelfCheck

/-- A pattern and a text, and whether the one is to be found in the other. -/
structure Case where
  pattern : String
  text : String
  expected : Bool

def cases : List Case :=
  [⟨"^a[bc]*d$", "abcbcd", true⟩,
   ⟨"a[xyz]+z", "axyzxyzxz", true⟩,
   ⟨"^[A-Z]+[0-9]*$", "HELLO123", true⟩,
   ⟨".[aeiou]*.", "baiiiz", true⟩,
   ⟨"^[^0-9]*$", "NoDigitsHere", true⟩,
   ⟨"h[ae]*llo", "hello", true⟩,
   ⟨"^colou?r$", "color", true⟩,
   ⟨"ab*bc", "abbc", true⟩,
   ⟨"^a[bc]*d$", "abcecd", false⟩,
   ⟨"^[A-Z]+[0-9]*$", "Hello123", false⟩,
   ⟨"^h[ae]*llo$", "hxllo", false⟩]

/-- The report on a case: the answer, the pattern and the text in columns, and a verdict. -/
def Case.line (sample : Case) (found : Bool) : List Char :=
  (if found then "true" else "false").toList.rightpad 5 ' ' ++ "  ".toList
    ++ sample.pattern.toList.rightpad 16 ' ' ++ [' ']
    ++ sample.text.toList.rightpad 16 ' ' ++ [' ']
    ++ (if found = sample.expected then "ok" else "UNEXPECTED").toList

/-- What the cases produce: the report, the log entries, and whether every answer was the expected
one. A faulty pattern ends the check. -/
structure Report where
  lines : List (List Char)
  entries : List Log.Entry
  verdict : Except PatternError Bool

def report : List Case → Report
  | [] => ⟨[], [], .ok true⟩
  | sample :: others =>
    let trace := Search.anywhere sample.pattern.toList sample.text.toList
    let entries := trace.records.map Log.Entry.ofRecord
    match trace.outcome with
    | .invalid error => ⟨[], entries, .error error⟩
    | outcome =>
      let found := decide (outcome = .matched)
      let later := report others
      ⟨sample.line found :: later.lines, entries ++ later.entries,
        later.verdict.map (decide (found = sample.expected) && ·)⟩

def opening : Log.Entry :=
  ⟨"samples".toList, .debug, "logging initialized".toList⟩

/-- What a check leaves behind: the exit status, the report and the log. -/
structure Result where
  status : Nat
  output : List (List Char)
  log : List (List Char)

/-- Runs the check under a written log filter. Without one only errors are logged, and the check
does not announce itself. -/
def runWith (reader : Log.ExpressionReader) (cases : List Case) (spec : Option (List Char)) :
    Result :=
  let report := report cases
  let spec := spec.map (Log.Spec.read reader)
  let filter := spec.elim .errorsOnly Log.Spec.filter
  let entries := (if spec.isSome then [opening] else []) ++ report.entries
  let warnings := (spec.elim [] Log.Spec.faults).map fun fault =>
    "warning: ".toList ++ fault.message
  let log := warnings ++ (entries.filter filter.admits).map Log.Entry.line
  match report.verdict with
  | .ok expected => ⟨if expected then 0 else 1, report.lines, log⟩
  | .error error => ⟨2, report.lines, log ++ ["error: ".toList ++ error.message]⟩

/-- Reads an expression as a pattern to search for. -/
def readPattern (pattern : List Char) : Except (List Char) (List Char → Bool) :=
  match (Branch.parse pattern).ending with
  | .unclosed rest => .error (PatternError.unclosedBracket rest).message
  | _ => .ok fun wording => decide ((Search.anywhere pattern wording).outcome = .matched)

/-- Runs the check with patterns as the expressions of its log filter. -/
def run (cases : List Case) (spec : Option (List Char)) : Result :=
  runWith readPattern cases spec

end RegexSearch.SelfCheck
