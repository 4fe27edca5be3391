import RegexSearch.Search

/-! # Regular expressions

A pattern kept for use on many texts. It is stored as written and read anew by every search, so
every text is a regular expression. -/

namespace RegexSearch

/-- A pattern as written. -/
structure Regex where
  source : List Char
deriving DecidableEq, Inhabited

instance : Hashable Regex where
  hash regex := hash (String.ofList regex.source)

namespace Regex

def ofString (source : String) : Regex := ⟨source.toList⟩

/-- Whether only a match at the start of a text counts. -/
def isAnchored (regex : Regex) : Bool :=
  regex.source.head? == some '^'

def trace (regex : Regex) (text : List Char) : Trace :=
  Search.anywhere regex.source text

def search (regex : Regex) (text : List Char) : Outcome :=
  (regex.trace text).outcome

/-- The source with the kind of the value spelled out. -/
def inspect (regex : Regex) : List Char :=
  "Pattern \x7b raw: ".toList ++ Text.quoted regex.source ++ " \x7d".toList

end Regex

end RegexSearch
