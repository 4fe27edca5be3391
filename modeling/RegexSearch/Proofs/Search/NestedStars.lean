import RegexSearch.Proofs.Search.Cost
import RegexSearch.Proofs.Search.Records

/-! The bound on the entries of a search is attained. A row of stars in front of a letter that the
text lacks finds nothing, but only after every choice of counts at every offset. -/

namespace RegexSearch

open Finset (range)

/-! ## Searches that fail -/

/-- A search finds nothing and has entered so many repetitions by then. -/
structure Trace.FailsAfter (trace : Trace) (entries : ℕ) : Prop where
  unmatched : trace.outcome = .unmatched
  entered : trace.repetitions.length = entries

namespace Trace.FailsAfter

variable {trace other : Trace} {entries more : ℕ}

theorem at_once : (ofOutcome .unmatched).FailsAfter 0 :=
  ⟨rfl, rfl⟩

theorem enter (h : trace.FailsAfter entries) (atom : Atom) (bounds : Bounds) (run : ℕ) :
    (cons (.repetition atom bounds run) trace).FailsAfter (1 + entries) where
  unmatched := h.unmatched
  entered := by rw [repetitions_cons, List.length_cons, h.entered, Nat.add_comm]

theorem orElse (h : trace.FailsAfter entries) (k : other.FailsAfter more) :
    (trace.orElse fun _ => other).FailsAfter (entries + more) where
  unmatched := by
    rw [orElse_of_unmatched h.unmatched]
    exact k.unmatched
  entered := by
    rw [repetitions_orElse_of_unmatched h.unmatched, List.length_append, h.entered, k.entered]

end Trace.FailsAfter

namespace Branch

theorem failsAfter_scan_replicate {branch : Branch} {a : Char} {cost : ℕ → ℕ} {length : ℕ}
    (h : ∀ suffix ≤ length, (branch.trace (.replicate suffix a)).FailsAfter (cost suffix)) :
    (branch.scan (.replicate length a)).FailsAfter
      (∑ suffix ∈ range (length + 1), cost suffix) := by
  induction length with
  | zero =>
      rw [Finset.sum_range_one]
      exact h 0 le_rfl
  | succ length ih =>
      have hlater := ih fun suffix hsuffix => h suffix (Nat.le_succ_of_le hsuffix)
      rw [Finset.sum_range_succ, Nat.add_comm _ (cost _)]
      exact (h (length + 1) le_rfl).orElse hlater

/-! ## Stars over one letter -/

variable {a b : Char}

/-- So many stars over one letter, and another letter behind them. -/
def starPattern (a b : Char) (stars : ℕ) : List Char :=
  (List.replicate stars [a, '*']).flatten ++ [b]

def nestedStars (a b : Char) : ℕ → Branch
  | 0 => ⟨[.single (.char b)], .exhausted⟩
  | stars + 1 => (nestedStars a b stars).cons (.repeated (.char a) .anyNumber)

theorem parse_starPattern (ha : a ∉ ['[', '.']) (hb : b ∉ ['[', '.', '$']) (stars : ℕ) :
    parse (starPattern a b stars) = nestedStars a b stars := by
  simp only [List.mem_cons, List.not_mem_nil, or_false, not_or] at ha hb
  apply Reads.execution
  induction stars with
  | zero =>
      have hmore : [b] ++ [] ≠ ['$'] := by simpa using hb.2.2
      exact .piece hmore (.char b hb.1 hb.2.1) (.once [] (by simp)) .exhausted
  | succ stars ih =>
      have hpattern : starPattern a b (stars + 1) = [a] ++ '*' :: starPattern a b stars := rfl
      rw [hpattern]
      exact .piece (by simp) (.char a ha.1 ha.2) (.star _) ih

/-- All the entries that a row of stars may need are made. -/
theorem failsAfter_trace_nestedStars (hab : a ≠ b) (stars : ℕ) {length : ℕ}
    (hlength : length < 2 ^ 64) :
    ((nestedStars a b stars).trace (.replicate length a)).FailsAfter
      (entryBudget stars length) := by
  induction stars generalizing length with
  | zero =>
      cases length with
      | zero => exact .at_once
      | succ length =>
          have hrefused : ¬ (Atom.char b).accepts a := by simpa [Atom.accepts] using hab.symm
          rw [List.replicate_succ, nestedStars, trace, traceFrom_of_not_accepts hrefused]
          exact .at_once
  | succ stars ih =>
      have haccepts : ∀ c ∈ List.replicate length a, (Atom.char a).accepts c := by
        intro c hc
        simp [Atom.accepts, List.eq_of_mem_replicate hc]
      have hupper : (List.replicate length a).length ≤ Bounds.anyNumber.upper := by
        rw [List.length_replicate]
        exact Nat.le_of_lt_succ hlength
      rw [nestedStars, trace_cons_repeated, Search.repeated_eq_scan _ haccepts rfl hupper]
      apply Trace.FailsAfter.enter
      apply failsAfter_scan_replicate
      intro suffix hsuffix
      exact ih (Nat.lt_of_le_of_lt hsuffix hlength)

theorem failsAfter_scan_nestedStars (hab : a ≠ b) (stars : ℕ) {length : ℕ}
    (hlength : length < 2 ^ 64) :
    ((nestedStars a b stars).scan (.replicate length a)).FailsAfter
      ((length + stars + 1).choose stars - 1) := by
  rw [← entryBudget_succ_eq_choose, entryBudget, Nat.add_sub_cancel_left]
  apply failsAfter_scan_replicate
  intro suffix hsuffix
  exact failsAfter_trace_nestedStars hab stars (Nat.lt_of_le_of_lt hsuffix hlength)

end Branch

namespace Search

open Branch (nestedStars starPattern)

/-- A row of stars in front of a letter that the text lacks leaves as many records as the binomial
of the two lengths: the first one, and one for each entry of a star. -/
theorem anywhere_starPattern (stars length : ℕ) (hlength : length < 2 ^ 64) {a b : Char}
    (hab : a ≠ b) (ha : a ∉ ['[', '.', '*', '+', '?', '$', '^'])
    (hb : b ∉ ['[', '.', '*', '+', '?', '$', '^']) :
    (anywhere (starPattern a b stars) (List.replicate length a)).outcome = .unmatched ∧
    (anywhere (starPattern a b stars) (List.replicate length a)).records.length =
      (length + stars + 1).choose stars ∧
    ∃ searched,
      (anywhere (starPattern a b stars) (List.replicate length a)).records =
        .start (starPattern a b stars) false :: searched ∧
      searched.length = (length + stars + 1).choose stars - 1 ∧
      ∀ record ∈ searched, ∃ atom bounds run, record = .repetition atom bounds run := by
  simp only [List.mem_cons, List.not_mem_nil, or_false, not_or] at ha hb
  have hanchor : (starPattern a b stars).head? ≠ some '^' := by
    cases stars with
    | zero => simp [starPattern, hb]
    | succ stars => simp [starPattern, List.replicate_succ, ha]
  have hparse : Branch.parse (starPattern a b stars) = nestedStars a b stars :=
    Branch.parse_starPattern (by simp [ha]) (by simp [hb]) stars
  have hfails := Branch.failsAfter_scan_nestedStars hab stars hlength
  have hrecords := (Branch.orderly_scan _ _).records_of_unmatched hfails.unmatched
  have hpositive : 0 < (length + stars + 1).choose stars := Nat.choose_pos (by omega)
  rw [anywhere_of_head_ne hanchor, hparse, Trace.cons_records, hrecords]
  refine ⟨hfails.unmatched, ?_, _, rfl, hfails.entered, ?_⟩
  · rw [List.length_cons, hfails.entered, Nat.sub_add_cancel hpositive]
  · intro record hrecord
    exact Log.Record.isRepetition_iff.mp (Trace.isRepetition_of_mem_repetitions hrecord)

theorem anywhere_starPattern_two_three :
    (3 < 2 ^ 64 ∧ 'x' ≠ 'y' ∧ 'x' ∉ ['[', '.', '*', '+', '?', '$', '^'] ∧
      'y' ∉ ['[', '.', '*', '+', '?', '$', '^']) ∧
    (anywhere "x*x*y".toList "xxx".toList).outcome = .unmatched ∧
    (anywhere "x*x*y".toList "xxx".toList).records.length = 15 ∧
    ∃ searched, (anywhere "x*x*y".toList "xxx".toList).records =
        .start "x*x*y".toList false :: searched ∧ searched.length = 14 ∧
      ∀ record ∈ searched, ∃ atom bounds run, record = .repetition atom bounds run :=
  ⟨by decide, anywhere_starPattern 2 3 (by decide) (a := 'x') (b := 'y') (by decide) (by decide)
    (by decide)⟩

end Search

end RegexSearch
