/-! # Bytes of a text

A text is stored as the bytes of its characters, one to four for each. It is cut at a byte, and a
cut must not divide a character. -/

namespace RegexSearch.Text

def utf8 (text : List Char) : List UInt8 :=
  text.flatMap String.utf8EncodeChar

/-- Whether a byte goes on with a character that an earlier byte began. -/
def continuesChar (byte : UInt8) : Bool :=
  decide (0x80 ≤ byte) && decide (byte < 0xC0)

/-- Whether bytes may be cut at an index: at either end, or in front of a byte that begins a
character. -/
def isBoundary (bytes : List UInt8) (index : Nat) : Bool :=
  index == 0 ||
    match bytes[index]? with
    | some byte => !continuesChar byte
    | none => index == bytes.length

inductive CutError where
  /-- The index lies within a character or behind the end. -/
  | notBoundary (index : Nat)
deriving DecidableEq

def bytesBefore (bytes : List UInt8) (index : Nat) : Except CutError (List UInt8) :=
  if isBoundary bytes index then .ok (bytes.take index) else .error (.notBoundary index)

def bytesFrom (bytes : List UInt8) (index : Nat) : Except CutError (List UInt8) :=
  if isBoundary bytes index then .ok (bytes.drop index) else .error (.notBoundary index)

end RegexSearch.Text
