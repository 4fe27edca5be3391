import RegexSearch.Proofs.Branch.Semantics
import Mathlib.Data.List.DropRight

/-! Which bracket of a pattern nothing closes. It is found from the end of the pattern, without
reading any piece. -/

namespace RegexSearch

namespace Branch

/-- What follows the last closing bracket of a pattern, all of it if there is none. -/
def lastSection (pattern : List Char) : List Char :=
  pattern.rtakeWhile (· != ']')

/-- A pattern from the first bracket on that opens behind the last closing one. -/
def openPart (pattern : List Char) : List Char :=
  (lastSection pattern).dropWhile (· != '[')

def Closed (pattern : List Char) : Prop :=
  '[' ∉ lastSection pattern

instance : DecidablePred Closed :=
  fun pattern => inferInstanceAs (Decidable ('[' ∉ lastSection pattern))

theorem openPart_eq_nil_iff {pattern : List Char} : openPart pattern = [] ↔ Closed pattern := by
  rw [openPart, List.dropWhile_eq_nil_iff, Closed]
  constructor
  · intro h hmem
    simpa using h _ hmem
  · intro h c hc
    simpa using ne_of_mem_of_not_mem hc h

theorem lastSection_of_not_mem {pattern : List Char} (h : ']' ∉ pattern) :
    lastSection pattern = pattern := by
  rw [lastSection, List.rtakeWhile_eq_self_iff]
  intro c hc
  simpa using ne_of_mem_of_not_mem hc h

theorem lastSection_append_of_mem (front : List Char) {rest : List Char} (h : ']' ∈ rest) :
    lastSection (front ++ rest) = lastSection rest := by
  have hshort : (rest.reverse.takeWhile (· != ']')).length ≠ rest.reverse.length := by
    intro hlength
    have hself := (List.takeWhile_prefix (l := rest.reverse) (· != ']')).eq_of_length hlength
    simpa using List.takeWhile_eq_self_iff.mp hself ']' (by simpa using h)
  simp only [lastSection, List.rtakeWhile, List.reverse_append, List.takeWhile_append, hshort,
    if_false]

theorem lastSection_append_of_not_mem (front : List Char) {rest : List Char} (h : ']' ∉ rest) :
    lastSection (front ++ rest) = lastSection front ++ rest := by
  have hall : ∀ c ∈ rest.reverse, (c != ']') = true := by
    intro c hc
    simpa using ne_of_mem_of_not_mem (List.mem_reverse.mp hc) h
  simp [lastSection, List.rtakeWhile, List.takeWhile_append_of_pos hall]

/-- Only what follows a closed pattern can be open. -/
theorem openPart_append {front : List Char} (h : Closed front) (rest : List Char) :
    openPart (front ++ rest) = openPart rest := by
  by_cases hrest : ']' ∈ rest
  · rw [openPart, openPart, lastSection_append_of_mem front hrest]
  · have hall : ∀ c ∈ lastSection front, (c != '[') = true := by
      intro c hc
      simpa using ne_of_mem_of_not_mem hc h
    rw [openPart, openPart, lastSection_append_of_not_mem front hrest,
      lastSection_of_not_mem hrest, List.dropWhile_append_of_pos hall]

theorem Closed.append {front rest : List Char} (hfront : Closed front) (hrest : Closed rest) :
    Closed (front ++ rest) := by
  rw [← openPart_eq_nil_iff, openPart_append hfront, openPart_eq_nil_iff]
  exact hrest

theorem closed_of_not_mem {pattern : List Char} (h : '[' ∉ pattern) : Closed pattern :=
  fun hmem => h ((List.rtakeWhile_suffix _ pattern).subset hmem)

theorem openPart_of_not_mem {rest : List Char} (h : ']' ∉ rest) :
    openPart ('[' :: rest) = '[' :: rest := by
  rw [openPart, lastSection_of_not_mem (by simpa using h)]
  rfl

end Branch

/-! ## Readings -/

theorem Atom.Spelled.closed {unit : List Char} {atom : Atom} (h : Spelled unit atom) :
    Branch.Closed unit := by
  cases h with
  | dot => decide
  | char c hopen => exact Branch.closed_of_not_mem (by simpa using hopen.symm)
  | bracket body =>
      rw [Branch.Closed, Branch.lastSection_append_of_mem _ (List.mem_singleton_self _)]
      decide

theorem Piece.Spelled.exists_symbol {atom : Atom} {suffix rest : List Char} {piece : Piece}
    (h : Spelled atom suffix piece rest) :
    ∃ symbol, suffix = symbol ++ rest ∧ Branch.Closed symbol := by
  cases h with
  | star => exact ⟨['*'], rfl, by decide⟩
  | plus => exact ⟨['+'], rfl, by decide⟩
  | mark => exact ⟨['?'], rfl, by decide⟩
  | once => exact ⟨[], rfl, by decide⟩

namespace Branch

theorem Reads.ending_eq_unclosed_iff {pattern rest : List Char} {branch : Branch}
    (h : Reads pattern branch) :
    branch.ending = .unclosed rest ↔ ¬ Closed pattern ∧ openPart pattern = rest := by
  rw [← openPart_eq_nil_iff]
  induction h with
  | exhausted => simp [openPart, lastSection]
  | endOfText =>
      have hclosed : openPart ['$'] = [] := rfl
      simp [hclosed]
  | unclosed rest h => simp [openPart_of_not_mem h]
  | piece _ hunit hpiece _ ih =>
      obtain ⟨symbol, rfl, hsymbol⟩ := hpiece.exists_symbol
      rw [openPart_append hunit.closed, openPart_append hsymbol]
      exact ih

end Branch

end RegexSearch
