import RegexSearch.Proofs.Branch.Seam
import RegexSearch.Proofs.Search.Offsets

/-! What a search has decided on a text it decides alike on a text around it. Only a pattern tied to
one end of the text can tell the difference at that end. -/

namespace RegexSearch

namespace Branch

variable {branch : Branch} {text : List Char}

theorem Splits.append (h : branch.Splits text) (hending : branch.ending ≠ .endOfText)
    (after : List Char) : branch.Splits (text ++ after) := by
  obtain ⟨segments, remainder, hcovers, rfl, -⟩ := h
  refine ⟨segments, remainder ++ after, hcovers, List.append_assoc _ _ _, ?_⟩
  intro hend
  exact absurd hend hending

theorem trace_append_outcome (hdecided : (branch.trace text).outcome ≠ .unmatched)
    (hending : branch.ending ≠ .endOfText) (after : List Char) :
    (branch.trace (text ++ after)).outcome = (branch.trace text).outcome := by
  have hsplits : branch.Splits text := by
    rw [ne_eq, trace_eq_unmatched_iff, not_not] at hdecided
    exact hdecided
  rw [trace_eq_verdict_iff.mpr hsplits, trace_eq_verdict_iff.mpr (hsplits.append hending after)]

/-- If every end of one text that the branch splits gives rise to such an end of another text, what
is decided on the one is decided alike on the other. -/
theorem scan_outcome_of_ends {other : List Char}
    (hdecided : (branch.scan text).outcome ≠ .unmatched)
    (hends : ∀ rest, rest <:+ text → branch.Splits rest →
      ∃ later, later <:+ other ∧ branch.Splits later) :
    (branch.scan other).outcome = (branch.scan text).outcome := by
  have hverdict := (branch.scan_eq_unmatched_or_verdict text).resolve_left hdecided
  obtain ⟨rest, hrest, hsplits⟩ := scan_eq_verdict_iff.mp hverdict
  rw [hverdict, scan_eq_verdict_iff]
  exact hends rest hrest hsplits

theorem scan_prepend_outcome (hdecided : (branch.scan text).outcome ≠ .unmatched)
    (before : List Char) : (branch.scan (before ++ text)).outcome = (branch.scan text).outcome := by
  apply scan_outcome_of_ends hdecided
  intro rest hrest hsplits
  exact ⟨rest, hrest.trans (List.suffix_append before text), hsplits⟩

theorem scan_append_outcome (hdecided : (branch.scan text).outcome ≠ .unmatched)
    (hending : branch.ending ≠ .endOfText) (after : List Char) :
    (branch.scan (text ++ after)).outcome = (branch.scan text).outcome := by
  apply scan_outcome_of_ends hdecided
  rintro rest ⟨front, rfl⟩ hsplits
  refine ⟨rest ++ after, ?_, hsplits.append hending after⟩
  rw [List.append_assoc]
  exact List.suffix_append front (rest ++ after)

theorem ending_parse_ne_endOfText {pattern : List Char} (h : pattern.getLast? ≠ some '$') :
    (parse pattern).ending ≠ .endOfText :=
  fun hending => h ((reads_parse pattern).getLast?_of_endOfText hending)

end Branch

namespace Search

/-- A match or a fault is met again when the text goes on. It may begin earlier unless the pattern
begins with the anchor, and end later unless the pattern ends with a dollar sign. -/
theorem anywhere_outcome_of_longer_text {pattern text : List Char}
    (hdecided : (anywhere pattern text).outcome ≠ .unmatched) (before after : List Char) :
    (pattern.head? ≠ some '^' →
      (anywhere pattern (before ++ text)).outcome = (anywhere pattern text).outcome) ∧
    (pattern.head? ≠ some '^' → pattern.getLast? ≠ some '$' →
      (anywhere pattern (before ++ text ++ after)).outcome = (anywhere pattern text).outcome) ∧
    (pattern.head? = some '^' → pattern.getLast? ≠ some '$' →
      (anywhere pattern (text ++ after)).outcome = (anywhere pattern text).outcome) := by
  refine ⟨?_, ?_, ?_⟩
  · intro hanchor
    simp only [anywhere_of_head_ne hanchor, Trace.cons_outcome] at hdecided ⊢
    exact Branch.scan_prepend_outcome hdecided before
  · intro hanchor hdollar
    simp only [anywhere_of_head_ne hanchor, Trace.cons_outcome] at hdecided ⊢
    have hending := Branch.ending_parse_ne_endOfText hdollar
    have hbefore := Branch.scan_prepend_outcome hdecided before
    rw [← hbefore] at hdecided ⊢
    exact Branch.scan_append_outcome hdecided hending after
  · intro hanchor hdollar
    obtain ⟨rest, rfl⟩ := List.head?_eq_some_iff.mp hanchor
    simp only [anywhere_of_anchor, Trace.cons_outcome] at hdecided ⊢
    have hrest : rest.getLast? ≠ some '$' := by
      intro hlast
      exact hdollar (by simp [List.getLast?_cons, hlast])
    exact Branch.trace_append_outcome hdecided (Branch.ending_parse_ne_endOfText hrest) after

/-- More letters in front of a fault, and behind the run that an anchored match ends with. -/
theorem anywhere_outcome_of_longer_text_runs :
    (((anywhere "a+[b".toList "ca".toList).outcome ≠ .unmatched ∧
        "a+[b".toList.head? ≠ some '^' ∧ "a+[b".toList.getLast? ≠ some '$') ∧
      (anywhere "a+[b".toList ("a[".toList ++ "ca".toList)).outcome =
        (anywhere "a+[b".toList "ca".toList).outcome ∧
      (anywhere "a+[b".toList ("a[".toList ++ "ca".toList ++ "ab".toList)).outcome =
        (anywhere "a+[b".toList "ca".toList).outcome) ∧
    ((anywhere "^c$a*".toList "c$a".toList).outcome ≠ .unmatched ∧
        "^c$a*".toList.head? = some '^' ∧ "^c$a*".toList.getLast? ≠ some '$') ∧
      (anywhere "^c$a*".toList ("c$a".toList ++ "aa$".toList)).outcome =
        (anywhere "^c$a*".toList "c$a".toList).outcome := by
  have hfault : (anywhere "a+[b".toList "ca".toList).outcome ≠ .unmatched := by decide +kernel
  have hmatch : (anywhere "^c$a*".toList "c$a".toList).outcome ≠ .unmatched := by decide +kernel
  have hopen : "a+[b".toList.head? ≠ some '^' := by decide
  have hrest : "a+[b".toList.getLast? ≠ some '$' := by decide
  have hanchor : "^c$a*".toList.head? = some '^' := by decide
  have hlast : "^c$a*".toList.getLast? ≠ some '$' := by decide
  obtain ⟨hlonger, hlongest, -⟩ :=
    anywhere_outcome_of_longer_text hfault "a[".toList "ab".toList
  exact ⟨⟨⟨hfault, hopen, hrest⟩, hlonger hopen, hlongest hopen hrest⟩,
    ⟨hmatch, hanchor, hlast⟩,
    (anywhere_outcome_of_longer_text hmatch [] "aa$".toList).2.2 hanchor hlast⟩

end Search

end RegexSearch
