import RegexSearch.Bracket.Basic
import RegexSearch.Text.Quoted

/-! # Written forms of a bracket expression

The bracket form, in which a range of one character is that character alone, and the structural
form, which shows every range in full. -/

namespace RegexSearch

def CharRange.display (range : CharRange) : List Char :=
  if range.first = range.last then [range.first] else [range.first, '-', range.last]

/-- A range with both of its ends. -/
def CharRange.inspect (range : CharRange) : List Char :=
  Text.quotedChar range.first ++ "..=".toList ++ Text.quotedChar range.last

namespace Bracket

def display (bracket : Bracket) : List Char :=
  '[' :: (if bracket.negated then ['^'] else []) ++ bracket.ranges.flatMap (·.display) ++ [']']

/-- The expression with all its ranges, in the order read. -/
def inspect (bracket : Bracket) : List Char :=
  let items := ", ".toList.intercalate (bracket.ranges.map (·.inspect))
  let negate := if bracket.negated then "true" else "false"
  "CharClass \x7b items: [".toList ++ items ++ "], negate: ".toList ++ negate.toList
    ++ " \x7d".toList

end Bracket

end RegexSearch
