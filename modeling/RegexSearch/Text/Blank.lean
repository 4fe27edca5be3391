import RegexSearch.Text.CodeTable

/-! # Blank characters

The property White_Space of Unicode, and trimming by it. -/

namespace RegexSearch.Text

def blanks : CodeTable where
  ranges :=
    [(0x09, 0x0D), (0x20, 0x20), (0x85, 0x85), (0xA0, 0xA0), (0x1680, 0x1680), (0x2000, 0x200A),
     (0x2028, 0x2029), (0x202F, 0x202F), (0x205F, 0x205F), (0x3000, 0x3000)]

/-- A character that counts as space between words. -/
def isBlank (c : Char) : Bool := blanks.covers c.toNat

/-- The text without the blanks at either end. -/
def trim (text : List Char) : List Char :=
  ((text.dropWhile isBlank).reverse.dropWhile isBlank).reverse

end RegexSearch.Text
