import RegexSearch.Text.Quoted

/-! # Outcomes of a search

A search finds a match, finds none, or meets a part of the pattern that cannot be read. The last
is a fault of the pattern and not a failed match. -/

namespace RegexSearch

inductive PatternError where
  /-- A bracket opens an expression that nothing closes. Holds the pattern from that bracket on. -/
  | unclosedBracket (rest : List Char)
deriving DecidableEq

namespace PatternError

def message : PatternError → List Char
  | unclosedBracket rest => "unclosed character class ".toList ++ Text.quoted rest

/-- The fault with its kind spelled out. -/
def inspect : PatternError → List Char
  | unclosedBracket rest => "UnclosedClass(".toList ++ Text.quoted rest ++ [')']

end PatternError

inductive Outcome where
  | matched
  | unmatched
  | invalid (error : PatternError)
deriving DecidableEq

end RegexSearch
