/-! # Bracket expressions

A bracket expression is a list of character ranges, possibly negated. Its body is read from the
left: `x-y` is a range wherever a character follows the dash, and any other character stands for
itself. -/

namespace RegexSearch

/-- A closed range of characters by code point. A range that runs backwards holds nothing. -/
structure CharRange where
  first : Char
  last : Char
deriving DecidableEq

namespace CharRange

def single (c : Char) : CharRange := ⟨c, c⟩

def contains (range : CharRange) (c : Char) : Bool :=
  decide (range.first ≤ c) && decide (c ≤ range.last)

end CharRange

/-- A set of characters: those in some range or, when negated, those in none. -/
structure Bracket where
  ranges : List CharRange
  negated : Bool
deriving DecidableEq

namespace Bracket

def contains (bracket : Bracket) (c : Char) : Bool :=
  bracket.ranges.any (·.contains c) != bracket.negated

/-! ## Reading -/

/-- The ranges a body denotes, from left to right. -/
def readRanges : List Char → List CharRange
  | first :: '-' :: last :: rest => ⟨first, last⟩ :: readRanges rest
  | c :: rest => .single c :: readRanges rest
  | [] => []

/-- The expression with the given text between its brackets: a leading `^` negates it. -/
def ofBody : List Char → Bracket
  | '^' :: body => ⟨readRanges body, true⟩
  | body => ⟨readRanges body, false⟩

def dropOpening : List Char → List Char
  | '[' :: rest => rest
  | token => token

def dropClosing (token : List Char) : List Char :=
  if token.getLast? = some ']' then token.dropLast else token

/-- Reads an expression from a token in which either bracket may be missing. -/
def ofToken (token : List Char) : Bracket :=
  ofBody (dropClosing (dropOpening token))

end Bracket

end RegexSearch
