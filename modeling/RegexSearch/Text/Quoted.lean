import RegexSearch.Text.Extender
import RegexSearch.Text.Ignorable
import RegexSearch.Text.Unprintable

/-! # Quoted text

A text between two equal marks in which every character can be told apart: the mark itself, the
backslash and whatever would not show are written as escapes. -/

namespace RegexSearch.Text

def doubleMark : Char := '\x22'

def singleMark : Char := '\x27'

/-- The halfwidth sound marks of kana. They extend the character before them and yet are letters
with a place of their own on display. -/
def isHalfwidthMark (c : Char) : Bool :=
  c == '\uff9e' || c == '\uff9f'

/-- A character that would not be seen for what it is: it has no form of its own, or merges with
its neighbour. -/
def isObscure (c : Char) : Bool :=
  isExtender c && !isHalfwidthMark c || isIgnorable c || isUnprintable c

/-- A code point in lower-case hexadecimal between braces, without leading zeros. -/
def codeEscape (c : Char) : List Char :=
  ['\\', 'u', '\x7b'] ++ Nat.toDigits 16 c.toNat ++ ['\x7d']

/-- What is written for a character between two marks. -/
def escape (mark c : Char) : List Char :=
  if c = mark ∨ c = '\\' then ['\\', c]
  else if c = '\x00' then ['\\', '0']
  else if c = '\t' then ['\\', 't']
  else if c = '\n' then ['\\', 'n']
  else if c = '\r' then ['\\', 'r']
  else if isObscure c then codeEscape c
  else [c]

def quoted (text : List Char) : List Char :=
  doubleMark :: text.flatMap (escape doubleMark) ++ [doubleMark]

def quotedChar (c : Char) : List Char :=
  singleMark :: escape singleMark c ++ [singleMark]

end RegexSearch.Text
