import RegexSearch.Bracket.Display

/-! # Atoms

An atom accepts or refuses one character of the text. It is what a repetition repeats. -/

namespace RegexSearch

/-- A pattern element that stands for exactly one character. -/
inductive Atom where
  /-- Accepts every character. -/
  | any
  /-- Accepts one character. -/
  | char (c : Char)
  /-- Accepts the characters of a bracket expression. -/
  | bracket (bracket : Bracket)
deriving DecidableEq

namespace Atom

/-- The atom of a pattern character outside brackets: the dot accepts everything, any other
character itself. -/
def ofChar (c : Char) : Atom :=
  if c = '.' then .any else .char c

def accepts : Atom → Char → Bool
  | any, _ => true
  | char expected, c => expected == c
  | bracket b, c => b.contains c

/-- The length of the longest stretch of accepted characters at the start of a text. -/
def runLength (atom : Atom) (text : List Char) : Nat :=
  (text.takeWhile atom.accepts).length

def display : Atom → List Char
  | any => ['.']
  | char c => [c]
  | bracket b => b.display

/-- The atom with its kind spelled out. -/
def inspect : Atom → List Char
  | any => "Any".toList
  | char c => "Literal(".toList ++ Text.quotedChar c ++ [')']
  | bracket b => "Class(".toList ++ b.inspect ++ [')']

end Atom

end RegexSearch
