/-! # Levels of log records

Five levels of growing detail. A threshold lets through the levels up to its own, or none. -/

namespace RegexSearch.Log

/-- How much detail a record belongs to. -/
inductive Level where
  | error
  | warn
  | info
  | debug
  | trace
deriving DecidableEq

namespace Level

def all : List Level := [error, warn, info, debug, trace]

def rank : Level → Nat
  | error => 1
  | warn => 2
  | info => 3
  | debug => 4
  | trace => 5

def name : Level → String
  | error => "ERROR"
  | warn => "WARN"
  | info => "INFO"
  | debug => "DEBUG"
  | trace => "TRACE"

end Level

/-- The most detailed level let through, if any is. -/
abbrev Threshold := Option Level

namespace Threshold

def admits (threshold : Threshold) (level : Level) : Bool :=
  match threshold with
  | none => false
  | some most => decide (level.rank ≤ most.rank)

/-- Reads the name of a level or the word for no level, in any mixture of cases. -/
def ofName? (name : List Char) : Option Threshold :=
  let name := String.ofList (name.map Char.toUpper)
  if name = "OFF" then some none
  else (Level.all.find? fun level => level.name = name).map some

end Threshold

end RegexSearch.Log
