import RegexSearch.Proofs.Search.Offsets
import RegexSearch.Proofs.Search.Order
import Mathlib.Algebra.Order.BigOperators.Group.Finset
import Mathlib.Data.Nat.Choose.Basic

/-! How often a search enters a repetition. The length of the text and the number of repetitions in
the pattern bound it, and a search that decides early only saves entries. -/

namespace RegexSearch

open Finset (range)

/-! ## The budget -/

/-- The entries that a row of repetitions may need on a text of the given length: one for the first
of them, and those of the others on every suffix of the text. -/
def entryBudget : ℕ → ℕ → ℕ
  | 0, _ => 0
  | repetitions + 1, length => 1 + ∑ suffix ∈ range (length + 1), entryBudget repetitions suffix

theorem entryBudget_mono (repetitions : ℕ) {shorter longer : ℕ} (h : shorter ≤ longer) :
    entryBudget repetitions shorter ≤ entryBudget repetitions longer := by
  cases repetitions with
  | zero => exact le_rfl
  | succ repetitions =>
      apply Nat.add_le_add_left
      exact Finset.sum_le_sum_of_subset (Finset.range_mono (Nat.succ_le_succ h))

/-- The sum over all suffixes moves up one row and one column in Pascal's triangle. -/
theorem one_add_sum_choose (repetitions length : ℕ) :
    1 + ∑ suffix ∈ range (length + 1), (suffix + repetitions).choose (suffix + 1) =
      (length + repetitions + 1).choose (length + 1) := by
  induction length with
  | zero => simp [Nat.add_comm]
  | succ length ih =>
      have hpascal := Nat.choose_succ_succ (length + 1 + repetitions) (length + 1)
      have hindex : length + 1 + repetitions = length + repetitions + 1 := by omega
      rw [Finset.sum_range_succ, ← Nat.add_assoc, ih, ← hindex]
      exact hpascal.symm

theorem entryBudget_eq_choose (repetitions length : ℕ) :
    entryBudget repetitions length = (length + repetitions).choose (length + 1) := by
  induction repetitions generalizing length with
  | zero => exact (Nat.choose_succ_self length).symm
  | succ repetitions ih =>
      simp only [entryBudget, ih]
      exact one_add_sum_choose repetitions length

theorem entryBudget_eq_sum (repetitions length : ℕ) :
    entryBudget repetitions length = ∑ k ∈ range repetitions, (length + k).choose k := by
  rw [entryBudget_eq_choose]
  induction repetitions with
  | zero => exact Nat.choose_succ_self length
  | succ repetitions ih =>
      have hpascal := Nat.choose_succ_succ (length + repetitions) length
      have hsymm : (length + repetitions).choose length =
          (length + repetitions).choose repetitions := Nat.choose_symm_add
      rw [Finset.sum_range_succ, ← ih, ← hsymm]
      exact hpascal.trans (Nat.add_comm _ _)

theorem entryBudget_succ_eq_choose (repetitions length : ℕ) :
    entryBudget (repetitions + 1) length = (length + repetitions + 1).choose repetitions := by
  rw [entryBudget_eq_choose]
  have hindex : length + (repetitions + 1) = length + 1 + repetitions := by omega
  have hindex' : length + repetitions + 1 = length + 1 + repetitions := by omega
  rw [hindex, hindex']
  exact Nat.choose_symm_add

theorem entryBudget_lt_succ (repetitions length : ℕ) :
    entryBudget repetitions length < entryBudget (repetitions + 1) length := by
  rw [entryBudget, Finset.sum_range_succ]
  omega

/-! ## Entries of a search -/

@[simp] theorem Trace.repetitions_cons_start (pattern : List Char) (anchored : Bool)
    (trace : Trace) : (cons (.start pattern anchored) trace).repetitions = trace.repetitions :=
  rfl

theorem Trace.length_repetitions_orElse_le (first : Trace) (second : Unit → Trace) :
    (first.orElse second).repetitions.length ≤
      first.repetitions.length + (second ()).repetitions.length := by
  by_cases h : first.outcome = .unmatched
  · rw [repetitions_orElse_of_unmatched h, List.length_append]
  · rw [orElse_of_ne_unmatched h]
    exact Nat.le_add_right _ _

namespace Search

variable {next : List Char → Trace} {cost : ℕ → ℕ}

/-- An ascent comes past each suffix of the text at most once. -/
theorem length_repetitions_ascend_le
    (h : ∀ text, (next text).repetitions.length ≤ cost text.length) {extra : ℕ}
    {text : List Char} (hextra : extra ≤ text.length) :
    (ascend next extra text).repetitions.length ≤
      ∑ suffix ∈ range (text.length + 1), cost suffix := by
  induction extra generalizing text with
  | zero =>
      rw [ascend, Finset.sum_range_succ]
      exact (h text).trans (Nat.le_add_left _ _)
  | succ extra ih =>
      cases text with
      | nil => simp at hextra
      | cons c rest =>
          have hlater : (ascend next extra rest).repetitions.length ≤
              ∑ suffix ∈ range (rest.length + 1), cost suffix :=
            ih (Nat.le_of_succ_le_succ hextra)
          rw [ascend, List.tail_cons, Finset.sum_range_succ, Nat.add_comm]
          apply (Trace.length_repetitions_orElse_le _ _).trans
          exact Nat.add_le_add (h (c :: rest)) hlater

theorem length_repetitions_repeated_le
    (h : ∀ text, (next text).repetitions.length ≤ cost text.length) (atom : Atom)
    (bounds : Bounds) (text : List Char) :
    (repeated atom bounds next text).repetitions.length ≤
      1 + ∑ suffix ∈ range (text.length + 1), cost suffix := by
  have hrun : atom.runLength text ≤ text.length := (Atom.le_runLength_iff.mp le_rfl).1
  simp only [repeated, Trace.repetitions_cons, List.length_cons, Nat.add_comm _ 1]
  apply Nat.add_le_add_left
  split
  · have hextra : min (atom.runLength text) bounds.upper - bounds.lower ≤
        (text.drop bounds.lower).length := by
      rw [List.length_drop]
      omega
    apply (length_repetitions_ascend_le h hextra).trans
    apply Finset.sum_le_sum_of_subset
    apply Finset.range_mono
    rw [List.length_drop]
    omega
  · exact Nat.zero_le _

end Search

namespace Branch

def repetitionCount (branch : Branch) : ℕ :=
  branch.pieces.countP (·.isRepeated)

theorem length_repetitions_traceFrom_le (ending : Ending) (pieces : List Piece)
    (text : List Char) :
    (traceFrom ending pieces text).repetitions.length ≤
      entryBudget (pieces.countP (·.isRepeated)) text.length := by
  induction pieces, text using search_induction with
  | finished text => simp [traceFrom]
  | starved atom pieces => exact Nat.zero_le _
  | refused atom pieces c rest h =>
      rw [traceFrom_of_not_accepts h]
      exact Nat.zero_le _
  | accepted atom pieces c rest h ih =>
      have hsingle : (Piece.single atom :: pieces).countP (·.isRepeated) =
          pieces.countP (·.isRepeated) := by simp
      rw [traceFrom_of_accepts h, hsingle]
      exact ih.trans (entryBudget_mono _ (by simp))
  | repeated atom bounds pieces text ih =>
      have hrepeated : (Piece.repeated atom bounds :: pieces).countP (·.isRepeated) =
          pieces.countP (·.isRepeated) + 1 := by simp
      rw [hrepeated, traceFrom, entryBudget]
      exact Search.length_repetitions_repeated_le ih atom bounds text

theorem length_repetitions_trace_le (branch : Branch) (text : List Char) :
    (branch.trace text).repetitions.length ≤ entryBudget branch.repetitionCount text.length :=
  length_repetitions_traceFrom_le branch.ending branch.pieces text

/-- Going through all offsets costs what one more repetition would, less its own entry. -/
theorem length_repetitions_scan_le (branch : Branch) (text : List Char) :
    (branch.scan text).repetitions.length ≤
      entryBudget (branch.repetitionCount + 1) text.length - 1 := by
  rw [scan_eq_ascend, entryBudget, Nat.add_sub_cancel_left]
  exact Search.length_repetitions_ascend_le branch.length_repetitions_trace_le le_rfl

end Branch

namespace Search

open Branch (Reads repetitionCount)

/-- The binomials of the length of the text and the number of repetitions in the pattern bound the
entries, at the start of the text and over all offsets. -/
theorem entries_le_binomials (pattern : List Char) :
    (∃ branch, Reads pattern branch ∧ ∀ text : List Char,
      (atStart pattern text).repetitions.length ≤
        ∑ k ∈ range branch.repetitionCount, (text.length + k).choose k ∧
      ∑ k ∈ range branch.repetitionCount, (text.length + k).choose k =
        if branch.repetitionCount = 0 then 0
        else (text.length + branch.repetitionCount).choose (branch.repetitionCount - 1)) ∧
    ∃ branch, Reads (unanchored pattern) branch ∧ ∀ text : List Char,
      (anywhere pattern text).repetitions.length ≤
        (text.length + branch.repetitionCount + 1).choose branch.repetitionCount - 1 := by
  refine ⟨⟨_, Branch.reads_parse pattern, ?_⟩, _, Branch.reads_parse (unanchored pattern), ?_⟩
  · intro text
    rw [← entryBudget_eq_sum]
    refine ⟨Branch.length_repetitions_trace_le _ text, ?_⟩
    cases (Branch.parse pattern).repetitionCount with
    | zero => rfl
    | succ count => exact entryBudget_succ_eq_choose count text.length
  · intro text
    rw [← entryBudget_succ_eq_choose, anywhere_eq_cons, Trace.repetitions_cons_start]
    split
    · apply (Branch.length_repetitions_trace_le _ text).trans
      exact Nat.le_sub_one_of_lt (entryBudget_lt_succ _ _)
    · exact Branch.length_repetitions_scan_le _ text

end Search

end RegexSearch
