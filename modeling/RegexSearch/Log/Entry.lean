import RegexSearch.Log.Record

/-! # Log entries

A record of a search as it appears in a program's log: with the name of the part it comes from. -/

namespace RegexSearch.Log

/-- An entry of a log: where it comes from, its level and its wording. -/
structure Entry where
  target : List Char
  level : Level
  message : List Char
deriving DecidableEq

namespace Entry

def ofRecord (record : Record) : Entry :=
  let target := match record with
    | .start .. => "minire::pattern"
    | .repetition .. => "minire::repeat"
    | .unclosed .. => "minire::matcher"
  ⟨target.toList, record.level, record.message⟩

/-- The entry as written, its level in a column of five. -/
def line (entry : Entry) : List Char :=
  ['['] ++ entry.level.name.toList.rightpad 5 ' ' ++ [' '] ++ entry.target ++ "] ".toList
    ++ entry.message

end Entry

end RegexSearch.Log
