import RegexSearch.Proofs.Search.Correctness

/-! Trying the counts of a repetition downwards comes to the same outcome as trying them upwards:
all counts that decide come to one, for the ending of the pattern alone settles it. -/

namespace RegexSearch

theorem Outcome.eq_of_unmatched_iff {first second verdict : Outcome}
    (hfirst : first = .unmatched ∨ first = verdict)
    (hsecond : second = .unmatched ∨ second = verdict)
    (h : first = .unmatched ↔ second = .unmatched) : first = second := by
  by_cases hunmatched : first = .unmatched
  · rw [hunmatched, h.mp hunmatched]
  · rw [hfirst.resolve_left hunmatched, hsecond.resolve_left (mt h.mpr hunmatched)]

/-! ## Counts in any order -/

/-- The counts that a repetition may take from a run, upwards. -/
def Bounds.counts (bounds : Bounds) (run : ℕ) : List ℕ :=
  List.range' bounds.lower (min run bounds.upper + 1 - bounds.lower)

theorem Bounds.mem_counts_iff {bounds : Bounds} {run count : ℕ} :
    count ∈ bounds.counts run ↔ bounds.Admits count ∧ count ≤ run := by
  rw [counts, List.mem_range'_1]
  constructor
  · intro h
    exact ⟨⟨by omega, by omega⟩, by omega⟩
  · intro ⟨⟨hlower, hupper⟩, hrun⟩
    omega

namespace Search

def tryCounts (next : List Char → Trace) (text : List Char) : List ℕ → Trace
  | [] => .ofOutcome .unmatched
  | count :: counts =>
    (next (text.drop count)).orElse fun _ => tryCounts next text counts

variable {next other : List Char → Trace} {verdict : Outcome} {text : List Char}
  {counts later : List ℕ}

theorem tryCounts_eq_unmatched_iff :
    (tryCounts next text counts).outcome = .unmatched ↔
      ∀ count ∈ counts, (next (text.drop count)).outcome = .unmatched := by
  induction counts with
  | nil => simp [tryCounts]
  | cons count counts ih =>
      rw [tryCounts, List.forall_mem_cons]
      by_cases h : (next (text.drop count)).outcome = .unmatched
      · simp [Trace.orElse_of_unmatched h, ih, h]
      · simp [Trace.orElse_of_ne_unmatched h, h]

theorem tryCounts_eq_unmatched_or
    (h : ∀ text, (next text).outcome = .unmatched ∨ (next text).outcome = verdict) :
    (tryCounts next text counts).outcome = .unmatched ∨
      (tryCounts next text counts).outcome = verdict := by
  induction counts with
  | nil => exact .inl rfl
  | cons count counts ih => exact Trace.orElse_eq_unmatched_or (h _) ih

/-- With but one verdict to come to, the order of the counts does not matter. -/
theorem tryCounts_outcome_congr (hcounts : ∀ count, count ∈ counts ↔ count ∈ later)
    (hsame : ∀ text, (next text).outcome = (other text).outcome)
    (h : ∀ text, (other text).outcome = .unmatched ∨ (other text).outcome = verdict) :
    (tryCounts next text counts).outcome = (tryCounts other text later).outcome := by
  refine Outcome.eq_of_unmatched_iff ?_ (tryCounts_eq_unmatched_or h) ?_
  · apply tryCounts_eq_unmatched_or
    intro text
    rw [hsame]
    exact h text
  · simp only [tryCounts_eq_unmatched_iff, hcounts, hsame]

/-! ## Upwards and downwards -/

theorem ascend_eq_tryCounts (next : List Char → Trace) (text : List Char) (least extra : ℕ) :
    ascend next extra (text.drop least) = tryCounts next text (List.range' least (extra + 1)) := by
  induction extra generalizing least with
  | zero =>
      rw [ascend, List.range'_one, tryCounts, tryCounts, Trace.orElse_unmatched]
  | succ extra ih =>
      rw [ascend, List.range'_succ, tryCounts, List.tail_drop, ih]

theorem repeated_eq_tryCounts (atom : Atom) (bounds : Bounds) (next : List Char → Trace)
    (text : List Char) :
    repeated atom bounds next text =
      .cons (.repetition atom bounds (atom.runLength text))
        (tryCounts next text (bounds.counts (atom.runLength text))) := by
  unfold repeated Bounds.counts
  dsimp only
  split
  · rename_i h
    rw [ascend_eq_tryCounts, Nat.sub_add_comm h]
  · rename_i h
    have hnone : min (atom.runLength text) bounds.upper + 1 - bounds.lower = 0 := by omega
    rw [hnone, List.range'_zero, tryCounts]

/-- The repetition that tries the counts it may take downwards. -/
def repeatedGreedily (atom : Atom) (bounds : Bounds) (next : List Char → Trace)
    (text : List Char) : Trace :=
  .cons (.repetition atom bounds (atom.runLength text))
    (tryCounts next text (bounds.counts (atom.runLength text)).reverse)

theorem repeatedGreedily_outcome (atom : Atom) (bounds : Bounds) (text : List Char)
    (hsame : ∀ text, (next text).outcome = (other text).outcome)
    (h : ∀ text, (other text).outcome = .unmatched ∨ (other text).outcome = verdict) :
    (repeatedGreedily atom bounds next text).outcome =
      (repeated atom bounds other text).outcome := by
  rw [repeated_eq_tryCounts]
  exact tryCounts_outcome_congr (fun _ => List.mem_reverse) hsame h

end Search

namespace Branch

def greedyFrom (ending : Ending) : List Piece → List Char → Trace
  | [], text => ending.trace text
  | .single atom :: pieces, text =>
    match text with
    | [] => .ofOutcome .unmatched
    | c :: rest => if atom.accepts c then greedyFrom ending pieces rest else .ofOutcome .unmatched
  | .repeated atom bounds :: pieces, text =>
    Search.repeatedGreedily atom bounds (greedyFrom ending pieces) text

theorem greedyFrom_outcome (ending : Ending) (pieces : List Piece) (text : List Char) :
    (greedyFrom ending pieces text).outcome = (traceFrom ending pieces text).outcome := by
  induction pieces, text using search_induction with
  | finished text => rfl
  | starved atom pieces => rfl
  | refused atom pieces c rest h => rw [greedyFrom, traceFrom, if_neg h, if_neg h]
  | accepted atom pieces c rest h ih => rw [greedyFrom, traceFrom, if_pos h, if_pos h, ih]
  | repeated atom bounds pieces text ih =>
      exact Search.repeatedGreedily_outcome atom bounds text ih
        (traceFrom_eq_unmatched_or_verdict ending pieces)

end Branch

namespace Search

/-- The search at the start of a text in which every repetition tries its counts downwards. -/
def atStartGreedily (pattern text : List Char) : Trace :=
  Branch.greedyFrom (Branch.parse pattern).ending (Branch.parse pattern).pieces text

theorem atStartGreedily_outcome (pattern text : List Char) :
    (atStartGreedily pattern text).outcome = (atStart pattern text).outcome :=
  Branch.greedyFrom_outcome _ _ text

/-- A repetition may take so many characters from the front of a text. -/
structure MayTake (atom : Atom) (bounds : Bounds) (text : List Char) (count : ℕ) : Prop where
  admits : bounds.Admits count
  le_length : count ≤ text.length
  accepted : ∀ c ∈ text.take count, atom.accepts c

theorem mem_counts_iff_mayTake {atom : Atom} {bounds : Bounds} {count : ℕ} :
    count ∈ bounds.counts (atom.runLength text) ↔ MayTake atom bounds text count := by
  rw [Bounds.mem_counts_iff, Atom.le_runLength_iff]
  constructor
  · intro ⟨hadmits, hlength, haccepted⟩
    exact ⟨hadmits, hlength, haccepted⟩
  · intro ⟨hadmits, hlength, haccepted⟩
    exact ⟨hadmits, hlength, haccepted⟩

/-- All counts with which a repetition decides come to one outcome, so it makes no difference
whether they are tried upwards or downwards. -/
theorem repeatedThen_counts_agree (atom : Atom) (bounds : Bounds) (pattern text : List Char) :
    ((repeatedThen atom bounds pattern text).outcome ≠ .unmatched ↔
      ∃ count, MayTake atom bounds text count ∧
        (atStart pattern (text.drop count)).outcome ≠ .unmatched) ∧
    (∀ count, MayTake atom bounds text count →
      (atStart pattern (text.drop count)).outcome ≠ .unmatched →
      (atStart pattern (text.drop count)).outcome =
        (repeatedThen atom bounds pattern text).outcome) ∧
    (repeatedGreedily atom bounds (atStart pattern) text).outcome =
      (repeatedThen atom bounds pattern text).outcome ∧
    (repeatedGreedily atom bounds (atStartGreedily pattern) text).outcome =
      (repeatedThen atom bounds pattern text).outcome := by
  have hverdict := (Branch.parse pattern).trace_eq_unmatched_or_verdict
  have hunmatched : (repeatedThen atom bounds pattern text).outcome = .unmatched ↔
      ∀ count, MayTake atom bounds text count →
        (atStart pattern (text.drop count)).outcome = .unmatched := by
    rw [repeatedThen, repeated_eq_tryCounts, Trace.cons_outcome, tryCounts_eq_unmatched_iff]
    simp only [mem_counts_iff_mayTake, atStart]
  refine ⟨?_, ?_, ?_, ?_⟩
  · simp only [Ne, hunmatched, not_forall, exists_prop]
  · intro count htake hdecided
    have hrepeated : (repeatedThen atom bounds pattern text).outcome ≠ .unmatched :=
      fun h => hdecided (hunmatched.mp h count htake)
    calc (atStart pattern (text.drop count)).outcome
        = (Branch.parse pattern).ending.verdict := (hverdict _).resolve_left hdecided
      _ = (repeatedThen atom bounds pattern text).outcome :=
          ((repeated_eq_unmatched_or hverdict text).resolve_left hrepeated).symm
  · exact repeatedGreedily_outcome atom bounds text (fun _ => rfl) hverdict
  · exact repeatedGreedily_outcome atom bounds text (atStartGreedily_outcome pattern) hverdict

end Search

end RegexSearch
