import RegexSearch.Proofs.Search.Correctness
import Mathlib.Algebra.Group.Nat.Defs

/-! Trying a pattern at every offset of a text is one more repetition: of the wildcard, as often as
one likes, in front of the pattern. -/

namespace RegexSearch

/-- The offsets of a text are the counts of an ascent over all of it. -/
theorem Branch.scan_eq_ascend (branch : Branch) (text : List Char) :
    branch.scan text = Search.ascend branch.trace text.length text := by
  induction text with
  | nil => rfl
  | cons c rest ih => simp only [scan, List.length_cons, Search.ascend, List.tail_cons, ih]

theorem Branch.scan_eq_unmatched_or_verdict (branch : Branch) (text : List Char) :
    (branch.scan text).outcome = .unmatched ∨
      (branch.scan text).outcome = branch.ending.verdict := by
  rw [scan_eq_ascend]
  exact Search.ascend_eq_unmatched_or branch.trace_eq_unmatched_or_verdict text.length text

theorem Branch.scan_eq_unmatched_iff {branch : Branch} {text : List Char} :
    (branch.scan text).outcome = .unmatched ↔ ∀ rest, rest <:+ text → ¬ branch.Splits rest := by
  rw [scan_eq_ascend, Search.ascend_eq_unmatched_iff]
  simp only [trace_eq_unmatched_iff]
  constructor
  · rintro h rest ⟨front, rfl⟩
    simpa using h front.length (by simp)
  · intro h k _
    exact h _ (List.drop_suffix k text)

theorem Branch.scan_eq_verdict_iff {branch : Branch} {text : List Char} :
    (branch.scan text).outcome = branch.ending.verdict ↔
      ∃ rest, rest <:+ text ∧ branch.Splits rest := by
  have hunmatched : (branch.scan text).outcome = .unmatched ↔
      ∀ rest, rest <:+ text → ¬ branch.Splits rest := scan_eq_unmatched_iff
  rcases branch.scan_eq_unmatched_or_verdict text with h | h
  · simpa [h, branch.ending.verdict_ne_unmatched.symm] using hunmatched.mp h
  · simpa [h, branch.ending.verdict_ne_unmatched] using hunmatched

/-- Two symbols that are read alike whatever follows them. -/
theorem Branch.parse_wildcard (pattern : List Char) :
    parse (".*".toList ++ pattern) = (parse pattern).cons (.repeated .any .anyNumber) :=
  parse_of_read? (by simp) rfl

namespace Search

theorem anywhere_of_anchor (pattern text : List Char) :
    anywhere ('^' :: pattern) text = .cons (.start pattern true) (atStart pattern text) := rfl

theorem anywhere_of_head_ne {pattern : List Char} (h : pattern.head? ≠ some '^')
    (text : List Char) :
    anywhere pattern text = .cons (.start pattern false) ((Branch.parse pattern).scan text) := by
  unfold anywhere
  split
  · simp at h
  · rfl

/-- A pattern without the anchor it begins with, if it does. -/
def unanchored (pattern : List Char) : List Char :=
  if pattern.head? = some '^' then pattern.tail else pattern

theorem anywhere_eq_cons (pattern text : List Char) :
    anywhere pattern text = .cons (.start (unanchored pattern) (pattern.head? = some '^'))
      (if pattern.head? = some '^' then (Branch.parse (unanchored pattern)).trace text
        else (Branch.parse (unanchored pattern)).scan text) := by
  by_cases h : pattern.head? = some '^'
  · obtain ⟨rest, rfl⟩ := List.head?_eq_some_iff.mp h
    simp only [anywhere_of_anchor, unanchored, List.head?_cons, decide_true, if_true,
      List.tail_cons, atStart]
  · simp only [anywhere_of_head_ne h, unanchored, h, decide_false, if_false]

/-- An atom that accepts the whole text, repeated, takes the pattern behind it to every offset. -/
theorem repeated_eq_scan {atom : Atom} {bounds : Bounds} {text : List Char} (branch : Branch)
    (haccepts : ∀ c ∈ text, atom.accepts c) (hlower : bounds.lower = 0)
    (hupper : text.length ≤ bounds.upper) :
    repeated atom bounds branch.trace text =
      .cons (.repetition atom bounds text.length) (branch.scan text) := by
  simp only [repeated, Atom.runLength_eq_length haccepts, hlower, Nat.min_eq_left hupper,
    Nat.zero_le, if_true, Nat.sub_zero, List.drop_zero, Branch.scan_eq_ascend]

theorem atStart_wildcard {text : List Char} (h : text.length < 2 ^ 64) (pattern : List Char) :
    atStart (".*".toList ++ pattern) text =
      .cons (.repetition .any .anyNumber text.length) ((Branch.parse pattern).scan text) := by
  have hupper : text.length ≤ Bounds.anyNumber.upper := Nat.le_of_lt_succ h
  rw [atStart, Branch.parse_wildcard, Branch.trace_cons_repeated]
  exact repeated_eq_scan _ (fun _ _ => rfl) rfl hupper

/-- A search at every offset is one behind a repeated wildcard, but for the record of this. -/
theorem offsets_agree_with_counts {pattern text : List Char} (hanchor : pattern.head? ≠ some '^')
    (htext : text.length < 2 ^ 64) :
    (anywhere ("^.*".toList ++ pattern) text).outcome = (anywhere pattern text).outcome ∧
      (atStart (".*".toList ++ pattern) text).outcome = (anywhere pattern text).outcome ∧
      ∃ searched,
        (anywhere pattern text).records = .start pattern false :: searched ∧
        (anywhere ("^.*".toList ++ pattern) text).records =
          .start (".*".toList ++ pattern) true ::
            .repetition .any .anyNumber text.length :: searched ∧
        (Log.Record.repetition .any .anyNumber text.length).line =
          "TRACE repeat . 0..=18446744073709551615 over run of ".toList ++
            Nat.toDigits 10 text.length := by
  have hanchored : anywhere ("^.*".toList ++ pattern) text =
      .cons (.start (".*".toList ++ pattern) true) (atStart (".*".toList ++ pattern) text) :=
    anywhere_of_anchor _ text
  rw [hanchored, anywhere_of_head_ne hanchor, atStart_wildcard htext]
  exact ⟨rfl, rfl, _, rfl, rfl, Log.Record.line_repetition_any text.length⟩

/-- A leading star is a literal in the one search and stands behind another star in the other. -/
theorem offsets_agree_with_counts_leading_star :
    ("*[a".toList.head? ≠ some '^' ∧ "b*c".toList.length < 2 ^ 64) ∧
      (anywhere "^.**[a".toList "b*c".toList).outcome =
        (anywhere "*[a".toList "b*c".toList).outcome ∧
      (atStart ".**[a".toList "b*c".toList).outcome =
        (anywhere "*[a".toList "b*c".toList).outcome ∧
      ∃ searched,
        (anywhere "*[a".toList "b*c".toList).records = .start "*[a".toList false :: searched ∧
        (anywhere "^.**[a".toList "b*c".toList).records =
          .start ".**[a".toList true :: .repetition .any .anyNumber 3 :: searched ∧
        (Log.Record.repetition .any .anyNumber 3).line =
          "TRACE repeat . 0..=18446744073709551615 over run of ".toList ++ Nat.toDigits 10 3 :=
  ⟨by decide, @offsets_agree_with_counts "*[a".toList "b*c".toList (by decide) (by decide)⟩

end Search

end RegexSearch
