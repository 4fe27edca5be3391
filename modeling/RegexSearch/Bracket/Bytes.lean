import RegexSearch.Text.Utf8

/-! # Bracket tokens among bytes

A pattern is stored as bytes. The end of a bracket token is looked for among them, without regard to
the characters they belong to. -/

namespace RegexSearch.Bracket

def closingByte : UInt8 := 0x5D

/-- Reads a bracket token off the front of a pattern stored as bytes: the token and what follows it,
or nothing for want of a closing bracket. The given function searches bytes for one byte. -/
def readTokenBytes (find : UInt8 → List UInt8 → Option Nat) (pattern : List UInt8) :
    Except Text.CutError (Option (List UInt8 × List UInt8)) :=
  match find closingByte pattern with
  | none => .ok none
  | some last => do
    let token ← Text.bytesBefore pattern (last + 1)
    let rest ← Text.bytesFrom pattern (last + 1)
    return some (token, rest)

end RegexSearch.Bracket
