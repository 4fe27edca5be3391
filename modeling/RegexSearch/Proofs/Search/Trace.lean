import RegexSearch.Search
import RegexSearch.Proofs.Branch.Consumption

/-! Computation rules for traces, and how the counts of a repetition decide its outcome. -/

namespace RegexSearch

namespace Trace

@[simp] theorem ofOutcome_outcome (outcome : Outcome) : (ofOutcome outcome).outcome = outcome :=
  rfl

@[simp] theorem ofOutcome_records (outcome : Outcome) : (ofOutcome outcome).records = [] := rfl

@[simp] theorem cons_outcome (record : Log.Record) (trace : Trace) :
    (cons record trace).outcome = trace.outcome := rfl

@[simp] theorem cons_records (record : Log.Record) (trace : Trace) :
    (cons record trace).records = record :: trace.records := rfl

theorem orElse_of_unmatched {first : Trace} {second : Unit → Trace}
    (h : first.outcome = .unmatched) :
    first.orElse second = ⟨(second ()).outcome, first.records ++ (second ()).records⟩ := by
  simp [orElse, h]

/-- A search that decides is never continued. -/
theorem orElse_of_ne_unmatched {first : Trace} {second : Unit → Trace}
    (h : first.outcome ≠ .unmatched) : first.orElse second = first := by
  unfold orElse
  split
  · rename_i hunmatched
    exact absurd hunmatched h
  · rfl

theorem orElse_unmatched (first : Trace) :
    (first.orElse fun _ => .ofOutcome .unmatched) = first := by
  by_cases h : first.outcome = .unmatched
  · rw [orElse_of_unmatched h, ofOutcome_outcome, ofOutcome_records, List.append_nil, ← h]
  · exact orElse_of_ne_unmatched h

theorem orElse_eq_unmatched_or {first : Trace} {second : Unit → Trace} {verdict : Outcome}
    (h : first.outcome = .unmatched ∨ first.outcome = verdict)
    (k : (second ()).outcome = .unmatched ∨ (second ()).outcome = verdict) :
    (first.orElse second).outcome = .unmatched ∨ (first.orElse second).outcome = verdict := by
  by_cases hunmatched : first.outcome = .unmatched
  · rw [orElse_of_unmatched hunmatched]
    exact k
  · rw [orElse_of_ne_unmatched hunmatched]
    exact h

end Trace

/-! ## First counts -/

/-- The first count that serves is zero, or zero is passed over and it is found among the others. -/
theorem exists_first_le_succ_iff {p q : ℕ → Prop} {most : ℕ} :
    (∃ k ≤ most + 1, p k ∧ ∀ j < k, q j) ↔
      p 0 ∨ q 0 ∧ ∃ k ≤ most, p (k + 1) ∧ ∀ j < k, q (j + 1) := by
  constructor
  · rintro ⟨k, hk, hp, hq⟩
    cases k with
    | zero => exact .inl hp
    | succ k =>
        obtain ⟨hfirst, hlater⟩ := Nat.forall_lt_succ_left.mp hq
        exact .inr ⟨hfirst, k, Nat.le_of_succ_le_succ hk, hp, hlater⟩
  · rintro (hp | ⟨hfirst, k, hk, hp, hlater⟩)
    · exact ⟨0, Nat.zero_le _, hp, by simp⟩
    · exact ⟨k + 1, Nat.succ_le_succ hk, hp, Nat.forall_lt_succ_left.mpr ⟨hfirst, hlater⟩⟩

/-- An ascent from the lower bound comes to the admitted counts in their order. -/
theorem Bounds.exists_first_iff {bounds : Bounds} {run : ℕ} {p q : ℕ → Prop}
    (h : bounds.lower ≤ min run bounds.upper) :
    (∃ k, bounds.Admits k ∧ k ≤ run ∧ p k ∧ ∀ j, bounds.lower ≤ j → j < k → q j) ↔
      ∃ extra ≤ min run bounds.upper - bounds.lower,
        p (bounds.lower + extra) ∧ ∀ j < extra, q (bounds.lower + j) := by
  constructor
  · rintro ⟨k, ⟨hlower, hupper⟩, hrun, hp, hbefore⟩
    obtain ⟨extra, rfl⟩ := Nat.exists_eq_add_of_le hlower
    refine ⟨extra, by omega, hp, ?_⟩
    intro j hj
    exact hbefore _ (Nat.le_add_right _ _) (Nat.add_lt_add_left hj _)
  · rintro ⟨extra, hextra, hp, hbefore⟩
    refine ⟨bounds.lower + extra, ⟨by omega, by omega⟩, by omega, hp, ?_⟩
    intro j hlower hj
    obtain ⟨less, rfl⟩ := Nat.exists_eq_add_of_le hlower
    exact hbefore less (Nat.lt_of_add_lt_add_left hj)

/-! ## Ascending counts -/

namespace Search

variable {next : List Char → Trace} {verdict : Outcome}

theorem ascend_eq_unmatched_iff (extra : ℕ) (text : List Char) :
    (ascend next extra text).outcome = .unmatched ↔
      ∀ k ≤ extra, (next (text.drop k)).outcome = .unmatched := by
  simp only [← Nat.lt_succ_iff]
  induction extra generalizing text with
  | zero => simp [ascend]
  | succ extra ih =>
      rw [ascend, Nat.forall_lt_succ_left]
      by_cases h : (next text).outcome = .unmatched
      · simp [Trace.orElse_of_unmatched h, ih, h]
      · simp [Trace.orElse_of_ne_unmatched h, h]

theorem ascend_eq_iff (hverdict : verdict ≠ .unmatched) (extra : ℕ) (text : List Char) :
    (ascend next extra text).outcome = verdict ↔
      ∃ k ≤ extra, (next (text.drop k)).outcome = verdict ∧
        ∀ j < k, (next (text.drop j)).outcome = .unmatched := by
  induction extra generalizing text with
  | zero => simp [ascend]
  | succ extra ih =>
      rw [ascend, exists_first_le_succ_iff]
      simp only [← List.drop_tail, ← ih text.tail, List.drop_zero]
      by_cases h : (next text).outcome = .unmatched
      · simp [Trace.orElse_of_unmatched h, h, hverdict.symm]
      · simp [Trace.orElse_of_ne_unmatched h, h]

theorem ascend_eq_unmatched_or
    (h : ∀ text, (next text).outcome = .unmatched ∨ (next text).outcome = verdict)
    (extra : ℕ) (text : List Char) :
    (ascend next extra text).outcome = .unmatched ∨
      (ascend next extra text).outcome = verdict := by
  induction extra generalizing text with
  | zero => exact h text
  | succ extra ih => exact Trace.orElse_eq_unmatched_or (h text) (ih text.tail)

/-! ## Repetitions -/

variable {atom : Atom} {bounds : Bounds}

theorem repeated_outcome_of_le {text : List Char}
    (h : bounds.lower ≤ min (atom.runLength text) bounds.upper) :
    (repeated atom bounds next text).outcome =
      (ascend next (min (atom.runLength text) bounds.upper - bounds.lower)
        (text.drop bounds.lower)).outcome := by
  simp only [repeated, h, if_true, Trace.cons_outcome]

theorem repeated_outcome_of_lt {text : List Char} (h : atom.runLength text < bounds.lower) :
    (repeated atom bounds next text).outcome = .unmatched := by
  have hnot : ¬ bounds.lower ≤ min (atom.runLength text) bounds.upper := by omega
  simp only [repeated, hnot, if_false, Trace.cons_outcome, Trace.ofOutcome_outcome]

theorem repeated_eq_unmatched_iff (text : List Char) :
    (repeated atom bounds next text).outcome = .unmatched ↔
      ∀ k, bounds.Admits k → k ≤ atom.runLength text →
        (next (text.drop k)).outcome = .unmatched := by
  have hbounds := bounds.lower_le_upper
  by_cases h : atom.runLength text < bounds.lower
  · simp only [repeated_outcome_of_lt h, true_iff]
    intro k hadmits hrun
    exact absurd (hadmits.lower_le.trans hrun) (Nat.not_le_of_lt h)
  · rw [repeated_outcome_of_le (by omega), ascend_eq_unmatched_iff]
    simp only [List.drop_drop]
    constructor
    · intro hall k hadmits hrun
      obtain ⟨hlower, hupper⟩ := hadmits
      simpa [hlower] using hall (k - bounds.lower) (by omega)
    · intro hall k hk
      exact hall _ ⟨by omega, by omega⟩ (by omega)

theorem repeated_eq_iff (hverdict : verdict ≠ .unmatched) (text : List Char) :
    (repeated atom bounds next text).outcome = verdict ↔
      ∃ k, bounds.Admits k ∧ k ≤ atom.runLength text ∧
        (next (text.drop k)).outcome = verdict ∧
        ∀ j, bounds.lower ≤ j → j < k → (next (text.drop j)).outcome = .unmatched := by
  have hbounds := bounds.lower_le_upper
  by_cases h : atom.runLength text < bounds.lower
  · simp only [repeated_outcome_of_lt h, hverdict.symm, false_iff, not_exists]
    intro k ⟨hadmits, hrun, _⟩
    exact absurd (hadmits.lower_le.trans hrun) (Nat.not_le_of_lt h)
  · have hle : bounds.lower ≤ min (atom.runLength text) bounds.upper := by omega
    rw [repeated_outcome_of_le hle, ascend_eq_iff hverdict, Bounds.exists_first_iff hle]
    simp only [List.drop_drop]

theorem repeated_eq_unmatched_or
    (h : ∀ text, (next text).outcome = .unmatched ∨ (next text).outcome = verdict)
    (text : List Char) :
    (repeated atom bounds next text).outcome = .unmatched ∨
      (repeated atom bounds next text).outcome = verdict := by
  unfold repeated
  dsimp only [Trace.cons_outcome]
  split
  · exact ascend_eq_unmatched_or h _ _
  · exact .inl rfl

end Search

namespace Branch

variable (branch : Branch) (atom : Atom)

@[simp] theorem trace_cons_single_nil : (branch.cons (.single atom)).trace [] =
    .ofOutcome .unmatched := rfl

@[simp] theorem trace_cons_single_cons (c : Char) (text : List Char) :
    (branch.cons (.single atom)).trace (c :: text) =
      if atom.accepts c then branch.trace text else .ofOutcome .unmatched := rfl

@[simp] theorem trace_cons_repeated (bounds : Bounds) (text : List Char) :
    (branch.cons (.repeated atom bounds)).trace text =
      Search.repeated atom bounds branch.trace text := rfl

variable {ending : Ending} {pieces : List Piece} {atom} {c : Char} {rest : List Char}

theorem traceFrom_of_accepts (h : atom.accepts c) :
    traceFrom ending (.single atom :: pieces) (c :: rest) = traceFrom ending pieces rest :=
  if_pos h

theorem traceFrom_of_not_accepts (h : ¬ atom.accepts c) :
    traceFrom ending (.single atom :: pieces) (c :: rest) = .ofOutcome .unmatched :=
  if_neg h

/-- Induction along a search, in which a repetition may leave any text to what follows it. -/
theorem search_induction {motive : List Piece → List Char → Prop}
    (finished : ∀ text, motive [] text)
    (starved : ∀ atom pieces, motive (.single atom :: pieces) [])
    (refused : ∀ atom pieces c rest, ¬ atom.accepts c →
      motive (.single atom :: pieces) (c :: rest))
    (accepted : ∀ atom pieces c rest, atom.accepts c → motive pieces rest →
      motive (.single atom :: pieces) (c :: rest))
    (repeated : ∀ atom bounds pieces text, (∀ text, motive pieces text) →
      motive (.repeated atom bounds :: pieces) text)
    (pieces : List Piece) (text : List Char) : motive pieces text := by
  induction pieces generalizing text with
  | nil => exact finished text
  | cons piece pieces ih =>
      cases piece with
      | single atom =>
          cases text with
          | nil => exact starved atom pieces
          | cons c rest =>
              by_cases h : atom.accepts c
              · exact accepted atom pieces c rest h (ih rest)
              · exact refused atom pieces c rest h
      | repeated atom bounds => exact repeated atom bounds pieces text ih

end Branch

end RegexSearch
