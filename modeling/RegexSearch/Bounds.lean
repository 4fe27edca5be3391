/-! # Repetition bounds

How often an atom may be repeated, and the symbols that say so. -/

namespace RegexSearch

/-- The least and the greatest count of a repetition. -/
structure Bounds where
  lower : Nat
  upper : Nat
  lower_le_upper : lower ≤ upper
deriving DecidableEq

/-- Why two numbers are no bounds. -/
inductive BoundsError where
  /-- The least count exceeds the greatest. -/
  | reversed
deriving DecidableEq

def BoundsError.message : BoundsError → String
  | reversed => "assertion failed: min <= max"

namespace Bounds

/-- The greatest count there is, the largest number of 64 bits: no text is longer. -/
def unlimited : Nat := 18446744073709551615

def anyNumber : Bounds := ⟨0, unlimited, Nat.zero_le _⟩

def atLeastOnce : Bounds := ⟨1, unlimited, by decide⟩

def atMostOnce : Bounds := ⟨0, 1, Nat.zero_le _⟩

/-- The bounds between two counts, unless they are in the wrong order. -/
def ofLimits (lower upper : Nat) : Except BoundsError Bounds :=
  if h : lower ≤ upper then .ok ⟨lower, upper, h⟩ else .error .reversed

def ofSymbol? : Char → Option Bounds
  | '*' => some anyNumber
  | '+' => some atLeastOnce
  | '?' => some atMostOnce
  | _ => none

/-- Reads a repetition symbol off the front of a pattern: its bounds and what follows it. -/
def read? : List Char → Option (Bounds × List Char)
  | [] => none
  | c :: rest => (ofSymbol? c).map fun bounds => (bounds, rest)

theorem length_of_read? {pattern rest : List Char} {bounds : Bounds}
    (h : read? pattern = some (bounds, rest)) : rest.length + 1 = pattern.length := by
  cases pattern with
  | nil => simp [read?] at h
  | cons c tail =>
      obtain ⟨_, _, heq⟩ := Option.map_eq_some_iff.mp h
      simp [(Prod.mk.inj heq).2]

end Bounds

end RegexSearch
