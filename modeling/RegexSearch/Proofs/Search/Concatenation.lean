import RegexSearch.Proofs.Branch.Seam
import RegexSearch.Proofs.Search.Correctness

/-! A search for two patterns in a row divides the text: the first one has to match all that stands
in front of a cut, and the second one decides behind it. -/

namespace RegexSearch

namespace Branch

variable {pieces : List Piece} {branch : Branch}

theorem Splits.prepend {first later : List Char} (h : Splits ⟨pieces, .endOfText⟩ first)
    (k : branch.Splits later) : (branch.prepend pieces).Splits (first ++ later) := by
  obtain ⟨segments, remainder, hcovers, rfl, hend⟩ := h
  obtain ⟨others, rest, hothers, rfl, hrest⟩ := k
  obtain rfl := hend rfl
  refine ⟨segments ++ others, rest, List.rel_append hcovers hothers, ?_, hrest⟩
  simp only [List.flatten_append, List.append_nil, List.append_assoc]

theorem Splits.exists_cut {text : List Char} (h : (branch.prepend pieces).Splits text) :
    ∃ k ≤ text.length, Splits ⟨pieces, .endOfText⟩ (text.take k) ∧
      branch.Splits (text.drop k) := by
  obtain ⟨segments, remainder, hcovers, rfl, hend⟩ := h
  have hfirst : List.Forall₂ Piece.Covers pieces (segments.take pieces.length) :=
    (List.forall₂_take_append _ _ _ hcovers.flip).flip
  have hlater : List.Forall₂ Piece.Covers branch.pieces (segments.drop pieces.length) :=
    (List.forall₂_drop_append _ _ _ hcovers.flip).flip
  have hsegments : segments.flatten = (segments.take pieces.length).flatten ++
      (segments.drop pieces.length).flatten := by
    rw [← List.flatten_append, List.take_append_drop]
  rw [hsegments, List.append_assoc]
  refine ⟨(segments.take pieces.length).flatten.length, by simp, ?_, ?_⟩
  · rw [List.take_left]
    exact ⟨_, [], hfirst, (List.append_nil _).symm, fun _ => rfl⟩
  · rw [List.drop_left]
    exact ⟨_, remainder, hlater, rfl, hend⟩

theorem splits_prepend_iff {text : List Char} :
    (branch.prepend pieces).Splits text ↔
      ∃ k ≤ text.length, Splits ⟨pieces, .endOfText⟩ (text.take k) ∧
        branch.Splits (text.drop k) := by
  refine ⟨Splits.exists_cut, ?_⟩
  intro ⟨k, _, hfirst, hlater⟩
  simpa only [List.take_append_drop] using hfirst.prepend hlater

end Branch

namespace Search

open Branch (Closed lastSection)

/-- The dollar sign asks for the end of the text, also behind one that ends the closed pattern. -/
theorem atStart_dollar_eq_matched_iff {front : List Char} (hclosed : Closed front)
    (text : List Char) :
    (atStart (front ++ ['$']) text).outcome = .matched ↔
      Branch.Splits ⟨(Branch.parse front).opened, .endOfText⟩ text := by
  have hparse : Branch.parse (front ++ ['$']) = ⟨(Branch.parse front).opened, .endOfText⟩ := by
    rw [Branch.parse_append hclosed (by simp) (by simp), Branch.parse_dollar, Branch.prepend,
      List.append_nil]
  rw [atStart, hparse, Branch.trace_eq_iff (by simp)]
  simp [Ending.verdict]

/-- A search for two patterns in a row decides as the second one does, behind a part of the text
that the first one matches whole. -/
theorem atStart_append_iff {front back : List Char} (hclosed : '[' ∉ lastSection front)
    (hsymbol : ∀ c ∈ back.head?, c ≠ '*' ∧ c ≠ '+' ∧ c ≠ '?')
    (hdollar : back = [] → front.getLast? ≠ some '$') (text : List Char) {outcome : Outcome}
    (houtcome : outcome ≠ .unmatched) :
    (atStart (front ++ back) text).outcome = outcome ↔
      ∃ k ≤ text.length, (atStart (front ++ ['$']) (text.take k)).outcome = .matched ∧
        (atStart back (text.drop k)).outcome = outcome := by
  simp only [atStart_dollar_eq_matched_iff hclosed]
  rw [atStart, Branch.parse_append hclosed hsymbol hdollar, Branch.trace_eq_iff houtcome,
    Branch.splits_prepend_iff]
  simp only [atStart, Branch.trace_eq_iff houtcome]
  constructor
  · rintro ⟨hverdict, k, hk, hfirst, hlater⟩
    exact ⟨k, hk, hfirst, hverdict, hlater⟩
  · rintro ⟨k, hk, hfirst, hverdict, hlater⟩
    exact ⟨hverdict, k, hk, hfirst, hlater⟩

/-- The dollar sign of the first pattern is a literal here, and the second one meets its fault. -/
theorem atStart_append_iff_literal_dollar :
    ('[' ∉ lastSection "a*$".toList ∧
      (∀ c ∈ "[b".toList.head?, c ≠ '*' ∧ c ≠ '+' ∧ c ≠ '?') ∧
      ("[b".toList = [] → "a*$".toList.getLast? ≠ some '$') ∧
      Outcome.invalid (.unclosedBracket "[b".toList) ≠ .unmatched) ∧
    ∃ k ≤ "aa$b".toList.length,
      (atStart "a*$$".toList ("aa$b".toList.take k)).outcome = .matched ∧
      (atStart "[b".toList ("aa$b".toList.drop k)).outcome =
        .invalid (.unclosedBracket "[b".toList) := by
  have hfault : (atStart ("a*$".toList ++ "[b".toList) "aa$b".toList).outcome =
      .invalid (.unclosedBracket "[b".toList) := by decide +kernel
  have hsymbol : ∀ c ∈ "[b".toList.head?, c ≠ '*' ∧ c ≠ '+' ∧ c ≠ '?' := by simp
  refine ⟨⟨by decide, hsymbol, by decide, by decide⟩, ?_⟩
  exact (atStart_append_iff (by decide) hsymbol (by decide) _ (by decide)).mp hfault

end Search

end RegexSearch
