import RegexSearch.Atom
import RegexSearch.Bounds
import RegexSearch.Log.Level

/-! # Records of a search

What a search tells about itself while it runs. The order of the records is the order in which it
tries its choices. -/

namespace RegexSearch.Log

/-- One event of a search. -/
inductive Record where
  /-- A search begins, at the start of the text only or at every offset. -/
  | start (pattern : List Char) (anchored : Bool)
  /-- A repetition is entered where a run of so many accepted characters begins. -/
  | repetition (atom : Atom) (bounds : Bounds) (run : Nat)
  /-- A bracket without its counterpart was reached. -/
  | unclosed (rest : List Char)
deriving DecidableEq

namespace Record

/-- The level of a record: only a fault of the pattern is more than a trace. -/
def level : Record → Level
  | start .. => .trace
  | repetition .. => .trace
  | unclosed .. => .debug

/-- The counts in the record of a repetition. -/
def figures (bounds : Bounds) (run : Nat) : List Char :=
  Nat.toDigits 10 bounds.lower ++ "..=".toList ++ Nat.toDigits 10 bounds.upper ++
    " over run of ".toList ++ Nat.toDigits 10 run

def message : Record → List Char
  | start pattern anchored =>
    "matching ".toList ++ Text.quoted pattern
      ++ (if anchored then " anchored at start" else " at every offset").toList
  | repetition atom bounds run =>
    "repeat ".toList ++ atom.display ++ [' '] ++ figures bounds run
  | unclosed rest => "unclosed character class in ".toList ++ Text.quoted rest

def line (record : Record) : List Char :=
  record.level.name.toList ++ [' '] ++ record.message

def isRepetition : Record → Bool
  | repetition .. => true
  | _ => false

theorem isRepetition_iff {record : Record} :
    record.isRepetition ↔ ∃ atom bounds run, record = .repetition atom bounds run := by
  cases record <;> simp [isRepetition]

theorem level_of_isRepetition {record : Record} (h : record.isRepetition) :
    record.level = .trace := by
  obtain ⟨_, _, _, rfl⟩ := isRepetition_iff.mp h
  rfl

theorem line_repetition (atom : Atom) (bounds : Bounds) (run : Nat) :
    (repetition atom bounds run).line =
      "TRACE repeat ".toList ++ atom.display ++ [' '] ++ figures bounds run := by
  have hwords : "TRACE repeat ".toList = "TRACE".toList ++ [' '] ++ "repeat ".toList := by decide
  unfold line message
  rw [hwords]
  simp only [level, Level.name, List.append_assoc]

theorem line_repetition_any (run : Nat) :
    (repetition .any .anyNumber run).line =
      "TRACE repeat . 0..=18446744073709551615 over run of ".toList ++ Nat.toDigits 10 run := by
  have hlower : Nat.toDigits 10 Bounds.anyNumber.lower = ['0'] := by decide
  have hupper : Nat.toDigits 10 Bounds.anyNumber.upper = "18446744073709551615".toList := by
    decide +kernel
  simp [line_repetition, figures, hlower, hupper, Atom.display]

theorem line_unclosed (rest : List Char) :
    (unclosed rest).line =
      "DEBUG unclosed character class in ".toList ++ Text.quoted rest := by
  have hwords : "DEBUG unclosed character class in ".toList =
      "DEBUG".toList ++ [' '] ++ "unclosed character class in ".toList := by decide
  rw [hwords, List.append_assoc]
  rfl

end Record

end RegexSearch.Log
