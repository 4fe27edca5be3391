import RegexSearch.Proofs.Branch.Closing
import RegexSearch.Proofs.Search.Offsets

/-! Whether a search can meet a fault, and which one, does not depend on the text: the part of the
pattern behind its last closing bracket tells. -/

namespace RegexSearch

namespace Branch

/-- The verdict a pattern comes to, by its characters alone. -/
theorem verdict_parse (pattern : List Char) :
    (parse pattern).ending.verdict =
      if Closed pattern then .matched else .invalid (.unclosedBracket (openPart pattern)) := by
  have hreads := reads_parse pattern
  by_cases h : Closed pattern
  · cases hending : (parse pattern).ending with
    | exhausted => simp [Ending.verdict, h]
    | endOfText => simp [Ending.verdict, h]
    | unclosed rest => exact absurd h (hreads.ending_eq_unclosed_iff.mp hending).1
  · simp [hreads.ending_eq_unclosed_iff.mpr ⟨h, rfl⟩, Ending.verdict, h]

theorem openPart_cons_anchor (pattern : List Char) :
    openPart ('^' :: pattern) = openPart pattern := by
  have hanchor : Closed ['^'] := by decide
  exact openPart_append hanchor pattern

theorem closed_cons_anchor {pattern : List Char} : Closed ('^' :: pattern) ↔ Closed pattern := by
  rw [← openPart_eq_nil_iff, openPart_cons_anchor, openPart_eq_nil_iff]

end Branch

namespace Search

open Branch (Closed openPart lastSection)

theorem atStart_eq_unmatched_or (pattern text : List Char) :
    (atStart pattern text).outcome = .unmatched ∨ (atStart pattern text).outcome =
      if Closed pattern then .matched else .invalid (.unclosedBracket (openPart pattern)) := by
  rw [← Branch.verdict_parse]
  exact Branch.trace_eq_unmatched_or_verdict _ text

/-- The anchor is no part of what can be open. -/
theorem anywhere_eq_unmatched_or (pattern text : List Char) :
    (anywhere pattern text).outcome = .unmatched ∨ (anywhere pattern text).outcome =
      if Closed pattern then .matched else .invalid (.unclosedBracket (openPart pattern)) := by
  by_cases h : pattern.head? = some '^'
  · obtain ⟨rest, rfl⟩ := List.head?_eq_some_iff.mp h
    simp only [Branch.closed_cons_anchor, Branch.openPart_cons_anchor]
    exact atStart_eq_unmatched_or rest text
  · rw [anywhere_of_head_ne h, ← Branch.verdict_parse]
    exact Branch.scan_eq_unmatched_or_verdict _ text

/-- If a bracket opens behind the last closing one, no search for the pattern succeeds, and the
only fault is that bracket, the first of them. Otherwise no search meets a fault. -/
theorem fault_iff_open_bracket (pattern : List Char) :
    ('[' ∉ lastSection pattern → ∀ text error,
      (atStart pattern text).outcome ≠ .invalid error ∧
        (anywhere pattern text).outcome ≠ .invalid error) ∧
    ('[' ∈ lastSection pattern → ∀ text,
      let fault := PatternError.unclosedBracket ((lastSection pattern).dropWhile (· != '['))
      ((atStart pattern text).outcome = .unmatched ∨
        (atStart pattern text).outcome = .invalid fault) ∧
      ((anywhere pattern text).outcome = .unmatched ∨
        (anywhere pattern text).outcome = .invalid fault)) := by
  constructor
  · intro (hclosed : Closed pattern) text error
    have hstart := atStart_eq_unmatched_or pattern text
    have hanywhere := anywhere_eq_unmatched_or pattern text
    rw [if_pos hclosed] at hstart hanywhere
    constructor
    · rcases hstart with h | h <;> simp [h]
    · rcases hanywhere with h | h <;> simp [h]
  · intro hopen text
    have hclosed : ¬ Closed pattern := not_not_intro hopen
    have hstart := atStart_eq_unmatched_or pattern text
    have hanywhere := anywhere_eq_unmatched_or pattern text
    rw [if_neg hclosed] at hstart hanywhere
    exact ⟨hstart, hanywhere⟩

end Search

end RegexSearch
