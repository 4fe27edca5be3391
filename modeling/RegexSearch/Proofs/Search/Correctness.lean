import RegexSearch.Proofs.Branch.Semantics
import RegexSearch.Proofs.Search.Trace

/-! The search at the start of a text finds nothing exactly if no division of the text suits the
pattern. Otherwise the ending of the pattern alone decides the outcome. -/

namespace RegexSearch

/-! ## Endings -/

namespace Ending

/-- The outcome of a search that comes to its end. -/
def verdict : Ending → Outcome
  | exhausted => .matched
  | endOfText => .matched
  | unclosed rest => .invalid (.unclosedBracket rest)

theorem verdict_ne_unmatched (ending : Ending) : ending.verdict ≠ .unmatched := by
  cases ending <;> simp [verdict]

theorem trace_eq_unmatched_iff {ending : Ending} {rest : List Char} :
    (ending.trace rest).outcome = .unmatched ↔ ¬ ending.Admits rest := by
  cases ending <;> simp [trace, Admits]

theorem trace_eq_unmatched_or_verdict (ending : Ending) (rest : List Char) :
    (ending.trace rest).outcome = .unmatched ∨ (ending.trace rest).outcome = ending.verdict := by
  cases ending with
  | exhausted => exact .inr rfl
  | endOfText => cases rest <;> simp [trace, verdict]
  | unclosed rest => exact .inr rfl

theorem verdict_eq_matched_iff {ending : Ending} :
    ending.verdict = .matched ↔ ending = .exhausted ∨ ending = .endOfText := by
  cases ending <;> simp [verdict]

theorem verdict_eq_invalid_iff {ending : Ending} {error : PatternError} :
    ending.verdict = .invalid error ↔
      ∃ rest, ending = .unclosed rest ∧ error = .unclosedBracket rest := by
  cases ending <;> simp [verdict, eq_comm]

end Ending

namespace Branch

/-! ## Outcomes of a branch -/

theorem traceFrom_eq_unmatched_iff (ending : Ending) (pieces : List Piece) (text : List Char) :
    (traceFrom ending pieces text).outcome = .unmatched ↔
      ∀ choice rest, Consumes pieces choice text rest → ¬ ending.Admits rest := by
  induction pieces generalizing text with
  | nil => simp [traceFrom, Ending.trace_eq_unmatched_iff]
  | cons piece pieces ih =>
      cases piece with
      | single atom =>
          cases text with
          | nil => simp [traceFrom, Consumes.single_iff]
          | cons c tail =>
              by_cases h : atom.accepts c <;> simp [traceFrom, Consumes.single_iff, h, ih]
      | repeated atom bounds =>
          rw [traceFrom, Search.repeated_eq_unmatched_iff]
          simp only [ih, Consumes.repeated_iff]
          constructor
          · intro h choice rest ⟨count, counts, _, hadmits, hrun, htail⟩
            exact h count hadmits hrun counts rest htail
          · intro h count hadmits hrun counts rest htail
            exact h _ rest ⟨count, counts, rfl, hadmits, hrun, htail⟩

/-- Only the ending can decide. -/
theorem traceFrom_eq_unmatched_or_verdict (ending : Ending) (pieces : List Piece)
    (text : List Char) :
    (traceFrom ending pieces text).outcome = .unmatched ∨
      (traceFrom ending pieces text).outcome = ending.verdict := by
  induction pieces, text using search_induction with
  | finished text => exact ending.trace_eq_unmatched_or_verdict text
  | starved atom pieces => exact .inl rfl
  | refused atom pieces c rest h =>
      rw [traceFrom_of_not_accepts h]
      exact .inl rfl
  | accepted atom pieces c rest h ih =>
      rw [traceFrom_of_accepts h]
      exact ih
  | repeated atom bounds pieces text ih => exact Search.repeated_eq_unmatched_or ih text

theorem traceFrom_eq_verdict_iff (ending : Ending) (pieces : List Piece) (text : List Char) :
    (traceFrom ending pieces text).outcome = ending.verdict ↔
      ∃ choice rest, Consumes pieces choice text rest ∧ ending.Admits rest := by
  have hunmatched := traceFrom_eq_unmatched_iff ending pieces text
  rcases traceFrom_eq_unmatched_or_verdict ending pieces text with h | h
  · simpa [h, ending.verdict_ne_unmatched.symm] using hunmatched.mp h
  · simpa [h, ending.verdict_ne_unmatched] using hunmatched

/-! ## Divisions of the text -/

/-- A text is split into segments that the pieces cover and a remainder. A remainder may be left
unless the text must end. -/
def Splits (branch : Branch) (text : List Char) : Prop :=
  ∃ segments remainder, List.Forall₂ Piece.Covers branch.pieces segments ∧
    text = segments.flatten ++ remainder ∧ (branch.ending = .endOfText → remainder = [])

theorem splits_iff {branch : Branch} {text : List Char} :
    branch.Splits text ↔
      ∃ choice rest, Consumes branch.pieces choice text rest ∧ branch.ending.Admits rest := by
  constructor
  · intro ⟨segments, remainder, hcovers, htext, hremainder⟩
    obtain ⟨choice, hchoice⟩ := Consumes.exists_iff.mpr ⟨segments, hcovers, htext⟩
    exact ⟨choice, remainder, hchoice, hremainder⟩
  · intro ⟨choice, rest, hconsumes, hadmits⟩
    obtain ⟨segments, hcovers, htext⟩ := Consumes.exists_iff.mp ⟨choice, hconsumes⟩
    exact ⟨segments, rest, hcovers, htext, hadmits⟩

theorem splits_cons_iff {piece : Piece} {branch : Branch} {text : List Char} :
    (branch.cons piece).Splits text ↔
      ∃ segment rest, text = segment ++ rest ∧ piece.Covers segment ∧ branch.Splits rest := by
  constructor
  · intro ⟨segments, remainder, hcovers, htext, hremainder⟩
    obtain ⟨segment, others, hsegment, hothers, rfl⟩ := List.forall₂_cons_left_iff.mp hcovers
    rw [List.flatten_cons, List.append_assoc] at htext
    exact ⟨segment, _, htext, hsegment, others, remainder, hothers, rfl, hremainder⟩
  · intro ⟨segment, rest, htext, hsegment, others, remainder, hothers, hrest, hremainder⟩
    refine ⟨segment :: others, remainder, .cons hsegment hothers, ?_, hremainder⟩
    rw [htext, hrest, List.flatten_cons, List.append_assoc]

theorem trace_eq_unmatched_or_verdict (branch : Branch) (text : List Char) :
    (branch.trace text).outcome = .unmatched ∨
      (branch.trace text).outcome = branch.ending.verdict :=
  traceFrom_eq_unmatched_or_verdict _ _ text

theorem trace_eq_verdict_iff {branch : Branch} {text : List Char} :
    (branch.trace text).outcome = branch.ending.verdict ↔ branch.Splits text :=
  (traceFrom_eq_verdict_iff _ _ text).trans splits_iff.symm

theorem trace_eq_unmatched_iff {branch : Branch} {text : List Char} :
    (branch.trace text).outcome = .unmatched ↔ ¬ branch.Splits text := by
  rw [splits_iff]
  simpa [trace] using traceFrom_eq_unmatched_iff branch.ending branch.pieces text

/-- A decided search has the verdict of the ending. -/
theorem trace_eq_iff {branch : Branch} {text : List Char} {outcome : Outcome}
    (h : outcome ≠ .unmatched) :
    (branch.trace text).outcome = outcome ↔
      branch.ending.verdict = outcome ∧ branch.Splits text := by
  rw [← trace_eq_verdict_iff]
  constructor
  · intro htrace
    have hverdict := (branch.trace_eq_unmatched_or_verdict text).resolve_left
      (fun hunmatched => h (htrace.symm.trans hunmatched))
    exact ⟨hverdict.symm.trans htrace, hverdict⟩
  · intro ⟨hverdict, htrace⟩
    exact htrace.trans hverdict

theorem trace_outcome_congr {branch other : Branch} {text : List Char}
    (hending : branch.ending = other.ending) (hsplits : branch.Splits text ↔ other.Splits text) :
    (branch.trace text).outcome = (other.trace text).outcome := by
  by_cases h : branch.Splits text
  · rw [trace_eq_verdict_iff.mpr h, trace_eq_verdict_iff.mpr (hsplits.mp h), hending]
  · rw [trace_eq_unmatched_iff.mpr h, trace_eq_unmatched_iff.mpr (mt hsplits.mpr h)]

end Branch

namespace Search

/-- A pattern has one reading, and that reading tells for every text how the search for the
pattern at the start of the text ends. -/
theorem atStart_outcome (pattern : List Char) :
    ∃ branch, Branch.Reads pattern branch ∧
      (∀ other, Branch.Reads pattern other → other = branch) ∧
      ∀ text,
        (∀ error, (atStart pattern text).outcome = .invalid error ↔
          ∃ rest, branch.ending = .unclosed rest ∧ error = .unclosedBracket rest ∧
            branch.Splits text) ∧
        ((atStart pattern text).outcome = .matched ↔
          (branch.ending = .exhausted ∨ branch.ending = .endOfText) ∧ branch.Splits text) ∧
        ((atStart pattern text).outcome = .unmatched ↔ ¬ branch.Splits text) := by
  have hreads := Branch.reads_parse pattern
  refine ⟨Branch.parse pattern, hreads, fun other h => h.deterministic hreads, ?_⟩
  intro text
  refine ⟨?_, ?_, Branch.trace_eq_unmatched_iff⟩
  · intro error
    rw [atStart, Branch.trace_eq_iff (by simp), Ending.verdict_eq_invalid_iff]
    simp only [← and_assoc, exists_and_right]
  · rw [atStart, Branch.trace_eq_iff (by simp), Ending.verdict_eq_matched_iff]

end Search

end RegexSearch
