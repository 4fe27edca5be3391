import RegexSearch.Proofs.Branch.Boundary
import RegexSearch.Proofs.Search.Trace

/-! A search that reads the pattern lazily, one piece at a time, and may have only so many
repetitions open at once. It gives up as soon as it would enter one more. -/

namespace RegexSearch

/-! ## The search -/

namespace Search

/-- Tries to continue after so many further characters. An attempt that gives up ends the ascent. -/
def ascendWithin (next : List Char → Option Trace) : ℕ → List Char → Option Trace
  | 0, text => next text
  | extra + 1, text =>
    (next text).bind fun first =>
      if first.outcome = .unmatched then
        (ascendWithin next extra text.tail).map fun later => first.orElse fun _ => later
      else some first

def repeatedWithin (atom : Atom) (bounds : Bounds) (next : List Char → Option Trace)
    (text : List Char) : Option Trace :=
  let run := atom.runLength text
  let most := min run bounds.upper
  (if bounds.lower ≤ most then
    ascendWithin next (most - bounds.lower) (text.drop bounds.lower)
  else some (.ofOutcome .unmatched)).map (.cons (.repetition atom bounds run))

end Search

/-- Goes past a piece and continues. A repetition takes one of the budget while it is open. -/
def Piece.traceWithin (next : ℕ → List Char → Option Trace) :
    Piece → ℕ → List Char → Option Trace
  | single _, _, [] => some (.ofOutcome .unmatched)
  | single atom, budget, c :: rest =>
    if atom.accepts c then next budget rest else some (.ofOutcome .unmatched)
  | repeated _ _, 0, _ => none
  | repeated atom bounds, budget + 1, text => Search.repeatedWithin atom bounds (next budget) text

/-- Searches for a pattern at the start of a text with at most so many repetitions open at once. -/
def Search.atStartWithin (pattern : List Char) (budget : ℕ) (text : List Char) : Option Trace :=
  match pattern with
  | [] => some (Ending.exhausted.trace text)
  | ['$'] => some (Ending.endOfText.trace text)
  | first :: rest =>
    match h : Piece.read? first rest with
    | none => some ((Ending.unclosed (first :: rest)).trace text)
    | some (piece, tail) =>
      have : tail.length < rest.length + 1 := Nat.lt_succ_of_le (Piece.length_of_read? h)
      piece.traceWithin (atStartWithin tail) budget text
termination_by pattern.length

open Search (ascendWithin atStartWithin repeatedWithin)

theorem Search.atStartWithin_nil (budget : ℕ) (text : List Char) :
    atStartWithin [] budget text = some (Ending.exhausted.trace text) := by
  rw [atStartWithin]

theorem Search.atStartWithin_dollar (budget : ℕ) (text : List Char) :
    atStartWithin ['$'] budget text = some (Ending.endOfText.trace text) := by
  rw [atStartWithin]

theorem Search.atStartWithin_unclosed {rest : List Char} (h : ']' ∉ rest) (budget : ℕ)
    (text : List Char) :
    atStartWithin ('[' :: rest) budget text =
      some ((Ending.unclosed ('[' :: rest)).trace text) := by
  have hnone := Piece.read?_eq_none_iff.mpr ⟨rfl, h⟩
  rw [atStartWithin]
  · split
    · rfl
    · next hsome => simp [hnone] at hsome
  · simp

theorem Branch.Begins.atStartWithin_eq {pattern rest : List Char} {piece : Piece}
    (h : Begins pattern piece rest) (budget : ℕ) (text : List Char) :
    atStartWithin pattern budget text = piece.traceWithin (atStartWithin rest) budget text := by
  cases pattern with
  | nil => exact absurd h.length_lt (Nat.not_lt_zero _)
  | cons first tail =>
      obtain ⟨hmore, hread⟩ := begins_iff.mp h
      rw [atStartWithin]
      · split
        · next hnone => simp [hread] at hnone
        · next hsome =>
            obtain ⟨rfl, rfl⟩ := Prod.mk.inj (Option.some.inj (hread.symm.trans hsome))
            rfl
      · intro hfirst htail
        exact hmore (by rw [hfirst, htail])

/-! ## One repetition -/

namespace Search

/-- Attempts under a budget that do not give up leave the same trace as without one. -/
def Follows (limited : List Char → Option Trace) (next : List Char → Trace) : Prop :=
  ∀ text found, limited text = some found → found = next text

variable {limited : List Char → Option Trace} {next : List Char → Trace}

theorem Follows.ascend (h : Follows limited next) (extra : ℕ) :
    Follows (ascendWithin limited extra) (ascend next extra) := by
  induction extra with
  | zero => exact h
  | succ extra ih =>
      intro text found hfound
      obtain ⟨first, hfirst, hrest⟩ := Option.bind_eq_some_iff.mp hfound
      obtain rfl := h text first hfirst
      rw [Search.ascend]
      split at hrest
      · obtain ⟨later, hlater, rfl⟩ := Option.map_eq_some_iff.mp hrest
        rw [ih text.tail later hlater]
      · next hdecided =>
          rw [Trace.orElse_of_ne_unmatched hdecided]
          exact (Option.some.inj hrest).symm

theorem Follows.repeated (h : Follows limited next) (atom : Atom) (bounds : Bounds) :
    Follows (repeatedWithin atom bounds limited) (repeated atom bounds next) := by
  intro text found hfound
  obtain ⟨searched, hsearched, rfl⟩ := Option.map_eq_some_iff.mp hfound
  rw [Search.repeated]
  split at hsearched
  · next hle => rw [if_pos hle, h.ascend _ _ _ hsearched]
  · next hlt => rw [if_neg hlt, Option.some.inj hsearched]

theorem ascendWithin_eq_none_iff (h : Follows limited next) (extra : ℕ) (text : List Char) :
    ascendWithin limited extra text = none ↔
      ∃ k ≤ extra, limited (text.drop k) = none ∧
        ∀ j < k, (next (text.drop j)).outcome = .unmatched := by
  induction extra generalizing text with
  | zero => simp [ascendWithin]
  | succ extra ih =>
      rw [ascendWithin, exists_first_le_succ_iff]
      simp only [← List.drop_tail, ← ih text.tail, List.drop_zero]
      cases hfirst : limited text with
      | none => simp
      | some first =>
          obtain rfl := h text first hfirst
          by_cases hunmatched : (next text).outcome = .unmatched <;> simp [hunmatched]

theorem repeatedWithin_eq_none_iff {atom : Atom} {bounds : Bounds} (h : Follows limited next)
    (text : List Char) :
    repeatedWithin atom bounds limited text = none ↔
      ∃ k, bounds.Admits k ∧ k ≤ atom.runLength text ∧ limited (text.drop k) = none ∧
        ∀ j, bounds.lower ≤ j → j < k → (next (text.drop j)).outcome = .unmatched := by
  have hbounds := bounds.lower_le_upper
  rw [repeatedWithin, Option.map_eq_none_iff]
  split
  · next hle =>
      rw [ascendWithin_eq_none_iff h, Bounds.exists_first_iff hle]
      simp only [List.drop_drop]
  · next hlt =>
      simp only [reduceCtorEq, false_iff, not_exists]
      intro k ⟨hadmits, hrun, _⟩
      have hlower := hadmits.lower_le
      omega

end Search

end RegexSearch
