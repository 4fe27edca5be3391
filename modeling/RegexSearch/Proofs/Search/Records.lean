import RegexSearch.Proofs.Search.Offsets
import RegexSearch.Proofs.Search.Order

/-! The records of a search tell whether it met a fault and which one. The record of the fault is
the last: whatever encloses the place where it was met gives up at once. -/

namespace RegexSearch

/-- The records a search ends with: that of the fault it met, if it met one. -/
def Outcome.faultRecords : Outcome → List Log.Record
  | .invalid (.unclosedBracket rest) => [.unclosed rest]
  | _ => []

/-! ## Repetitions first, then the fault -/

namespace Trace

def Orderly (trace : Trace) : Prop :=
  trace.records = trace.repetitions ++ trace.outcome.faultRecords

namespace Orderly

variable {first trace : Trace} {next : List Char → Trace}

theorem unmatched : Orderly (ofOutcome .unmatched) := rfl

theorem ending (ending : Ending) (text : List Char) : Orderly (ending.trace text) := by
  cases ending with
  | exhausted => rfl
  | endOfText => cases text <;> rfl
  | unclosed rest => rfl

theorem enter (h : Orderly trace) (atom : Atom) (bounds : Bounds) (run : ℕ) :
    Orderly (cons (.repetition atom bounds run) trace) := by
  simpa [Orderly] using h

theorem records_of_unmatched (h : Orderly trace) (hunmatched : trace.outcome = .unmatched) :
    trace.records = trace.repetitions := by
  simpa [Orderly, hunmatched, Outcome.faultRecords] using h

/-- Only a search that met no fault is continued by another. -/
theorem orElse {second : Unit → Trace} (h : Orderly first) (k : Orderly (second ())) :
    Orderly (first.orElse second) := by
  by_cases hunmatched : first.outcome = .unmatched
  · have hrecords := h.records_of_unmatched hunmatched
    have hlater : (second ()).records =
        (second ()).repetitions ++ (second ()).outcome.faultRecords := k
    rw [Orderly, repetitions_orElse_of_unmatched hunmatched, orElse_of_unmatched hunmatched,
      hlater, hrecords, List.append_assoc]
  · rw [orElse_of_ne_unmatched hunmatched]
    exact h

theorem ascend (h : ∀ text, Orderly (next text)) (extra : ℕ) (text : List Char) :
    Orderly (Search.ascend next extra text) := by
  induction extra generalizing text with
  | zero => exact h text
  | succ extra ih => exact (h text).orElse (ih text.tail)

theorem repeated (h : ∀ text, Orderly (next text)) (atom : Atom) (bounds : Bounds)
    (text : List Char) : Orderly (Search.repeated atom bounds next text) := by
  apply Orderly.enter
  split
  · exact ascend h _ _
  · exact unmatched

end Orderly

end Trace

namespace Branch

open Trace (Orderly)

theorem orderly_traceFrom (ending : Ending) (pieces : List Piece) (text : List Char) :
    Orderly (traceFrom ending pieces text) := by
  induction pieces, text using search_induction with
  | finished text => exact .ending ending text
  | starved => exact .unmatched
  | refused atom pieces c rest h =>
      rw [traceFrom_of_not_accepts h]
      exact .unmatched
  | accepted atom pieces c rest h ih =>
      rw [traceFrom_of_accepts h]
      exact ih
  | repeated atom bounds pieces text ih => exact .repeated ih atom bounds text

theorem orderly_trace (branch : Branch) (text : List Char) : Orderly (branch.trace text) :=
  orderly_traceFrom branch.ending branch.pieces text

theorem orderly_scan (branch : Branch) (text : List Char) : Orderly (branch.scan text) := by
  rw [scan_eq_ascend]
  exact .ascend branch.orderly_trace text.length text

end Branch

/-! ## What the records tell -/

/-- A fault is the one thing above a trace in the records, stands last and names the bracket that
the outcome names, and all else enters a repetition. -/
structure Log.Reports (records : List Log.Record) (outcome : Outcome) : Prop where
  fault : ∀ rest, outcome = .invalid (.unclosedBracket rest) →
    records.filter (·.level = .debug) = [.unclosed rest] ∧
      records.getLast? = some (.unclosed rest)
  noFault : outcome = .matched ∨ outcome = .unmatched → ∀ record ∈ records, record.level ≠ .debug
  others : ∀ record ∈ records, record.level ≠ .debug →
    record.level = .trace ∧ ∃ atom bounds run, record = .repetition atom bounds run

namespace Trace

theorem isRepetition_of_mem_repetitions {trace : Trace} {record : Log.Record}
    (h : record ∈ trace.repetitions) : record.isRepetition :=
  (List.mem_filter.mp h).2

theorem level_of_mem_faultRecords {outcome : Outcome} {record : Log.Record}
    (h : record ∈ outcome.faultRecords) : record.level = .debug := by
  cases outcome with
  | matched => simp [Outcome.faultRecords] at h
  | unmatched => simp [Outcome.faultRecords] at h
  | invalid error =>
      cases error with
      | unclosedBracket rest =>
          obtain rfl := List.mem_singleton.mp h
          rfl

theorem Orderly.reports {trace : Trace} (h : Orderly trace) :
    Log.Reports trace.records trace.outcome := by
  have hlevel : ∀ record ∈ trace.repetitions, record.level = .trace := fun record hmem =>
    Log.Record.level_of_isRepetition (isRepetition_of_mem_repetitions hmem)
  have hfilter : trace.repetitions.filter (·.level = .debug) = [] := by
    apply List.filter_eq_nil_iff.mpr
    intro record hmem
    simp [hlevel record hmem]
  rw [h]
  refine ⟨?_, ?_, ?_⟩
  · intro rest hfault
    rw [hfault, List.filter_append, hfilter]
    exact ⟨rfl, List.getLast?_concat⟩
  · intro houtcome record hmem
    have hnone : trace.outcome.faultRecords = [] := by
      rcases houtcome with houtcome | houtcome <;> rw [houtcome] <;> rfl
    rw [hnone, List.append_nil] at hmem
    simp [hlevel record hmem]
  · intro record hmem hdebug
    have hrepetition : record ∈ trace.repetitions :=
      (List.mem_append.mp hmem).resolve_right fun hfault =>
        hdebug (level_of_mem_faultRecords hfault)
    exact ⟨hlevel record hrepetition,
      Log.Record.isRepetition_iff.mp (isRepetition_of_mem_repetitions hrepetition)⟩

end Trace

/-! ## Where a search gives up -/

namespace Search

variable {next : List Char → Trace}

theorem records_ascend_of_first {k extra : ℕ} {text : List Char} (hk : k ≤ extra)
    (hdecided : (next (text.drop k)).outcome ≠ .unmatched)
    (hbefore : ∀ j < k, (next (text.drop j)).outcome = .unmatched) :
    (ascend next extra text).records =
      (List.range (k + 1)).flatMap fun j => (next (text.drop j)).records := by
  induction extra generalizing k text with
  | zero =>
      obtain rfl := Nat.eq_zero_of_le_zero hk
      simp [ascend]
  | succ extra ih =>
      cases k with
      | zero =>
          have hnext : (next text).outcome ≠ .unmatched := hdecided
          simp [ascend, Trace.orElse_of_ne_unmatched hnext]
      | succ k =>
          have hnext : (next text).outcome = .unmatched := hbefore 0 (Nat.succ_pos k)
          have hlater : (ascend next extra text.tail).records =
              (List.range (k + 1)).flatMap fun j => (next (text.tail.drop j)).records := by
            apply ih (Nat.le_of_succ_le_succ hk)
            · simpa using hdecided
            · intro j hj
              simpa using hbefore (j + 1) (Nat.succ_lt_succ hj)
          rw [ascend, Trace.orElse_of_unmatched hnext, hlater, List.range_succ_eq_map (n := k + 1)]
          simp [List.flatMap_map]

variable {atom : Atom} {bounds : Bounds}

theorem records_repeated_of_first {k : ℕ} {text : List Char} (hadmits : bounds.Admits k)
    (hrun : k ≤ atom.runLength text)
    (hdecided : (next (text.drop k)).outcome ≠ .unmatched)
    (hbefore : ∀ j, bounds.lower ≤ j → j < k → (next (text.drop j)).outcome = .unmatched) :
    (repeated atom bounds next text).records =
      .repetition atom bounds (atom.runLength text) ::
        (List.range' bounds.lower (k + 1 - bounds.lower)).flatMap fun j =>
          (next (text.drop j)).records := by
  obtain ⟨hlower, hupper⟩ := hadmits
  have hle : bounds.lower ≤ min (atom.runLength text) bounds.upper := by omega
  have hascend : (ascend next (min (atom.runLength text) bounds.upper - bounds.lower)
      (text.drop bounds.lower)).records = (List.range (k - bounds.lower + 1)).flatMap fun j =>
        (next ((text.drop bounds.lower).drop j)).records := by
    apply records_ascend_of_first (by omega)
    · simpa [List.drop_drop, hlower] using hdecided
    · intro j hj
      rw [List.drop_drop]
      exact hbefore _ (by omega) (by omega)
  have hlength : k + 1 - bounds.lower = k - bounds.lower + 1 := by omega
  rw [repeated, Trace.cons_records, if_pos hle, hascend, hlength, List.range'_eq_map_range,
    List.flatMap_map]
  simp only [List.drop_drop]

/-! ## The log of a search -/

open Log (Reports)

theorem anywhere_reports (pattern text : List Char) :
    ∃ searched, (anywhere pattern text).records =
        .start (unanchored pattern) (pattern.head? = some '^') :: searched ∧
      Reports searched (anywhere pattern text).outcome := by
  rw [anywhere_eq_cons]
  refine ⟨_, rfl, Trace.Orderly.reports ?_⟩
  split
  · exact Branch.orderly_trace _ text
  · exact Branch.orderly_scan _ text

theorem repeatedThen_reports (atom : Atom) (bounds : Bounds) (pattern text : List Char) :
    Reports (repeatedThen atom bounds pattern text).records
      (repeatedThen atom bounds pattern text).outcome := by
  apply Trace.Orderly.reports
  exact .repeated (Branch.orderly_trace _) atom bounds text

theorem exists_last_offset {pattern text : List Char} (hanchor : pattern.head? ≠ some '^')
    (hdecided : (anywhere pattern text).outcome ≠ .unmatched) :
    ∃ offset ≤ text.length,
      (atStart pattern (text.drop offset)).outcome = (anywhere pattern text).outcome ∧
      (anywhere pattern text).records = .start pattern false ::
        (List.range (offset + 1)).flatMap fun k => (atStart pattern (text.drop k)).records := by
  rw [anywhere_of_head_ne hanchor, Trace.cons_outcome, Branch.scan_eq_ascend] at hdecided ⊢
  obtain ⟨offset, hoffset, houtcome, hbefore⟩ := (ascend_eq_iff hdecided _ _).mp rfl
  refine ⟨offset, hoffset, houtcome, ?_⟩
  rw [← houtcome] at hdecided
  rw [Trace.cons_records, records_ascend_of_first hoffset hdecided hbefore]
  rfl

theorem exists_last_count {pattern text : List Char}
    (hdecided : (repeatedThen atom bounds pattern text).outcome ≠ .unmatched) :
    ∃ count, bounds.Admits count ∧ count ≤ atom.runLength text ∧
      (atStart pattern (text.drop count)).outcome =
        (repeatedThen atom bounds pattern text).outcome ∧
      (repeatedThen atom bounds pattern text).records =
        .repetition atom bounds (atom.runLength text) ::
          (List.range' bounds.lower (count + 1 - bounds.lower)).flatMap fun k =>
            (atStart pattern (text.drop k)).records := by
  obtain ⟨count, hadmits, hrun, houtcome, hbefore⟩ := (repeated_eq_iff hdecided text).mp rfl
  refine ⟨count, hadmits, hrun, houtcome, ?_⟩
  apply records_repeated_of_first hadmits hrun _ hbefore
  rw [houtcome]
  exact hdecided

/-- The records of a search agree with its outcome, wherever it begins. A search that decides tries
no further offset and no further count. -/
theorem records_agree_with_outcome (pattern text : List Char) :
    (∃ searched, (anywhere pattern text).records =
        .start (unanchored pattern) (pattern.head? = some '^') :: searched ∧
      Reports searched (anywhere pattern text).outcome) ∧
    Reports (atStart pattern text).records (atStart pattern text).outcome ∧
    (∀ atom bounds,
      (repeatedThen atom bounds pattern text).records.head? =
        some (.repetition atom bounds (atom.runLength text)) ∧
      Reports (repeatedThen atom bounds pattern text).records
        (repeatedThen atom bounds pattern text).outcome) ∧
    (pattern.head? ≠ some '^' → (anywhere pattern text).outcome ≠ .unmatched →
      ∃ offset ≤ text.length,
        (atStart pattern (text.drop offset)).outcome = (anywhere pattern text).outcome ∧
        (anywhere pattern text).records = .start pattern false ::
          (List.range (offset + 1)).flatMap fun k => (atStart pattern (text.drop k)).records) ∧
    (∀ atom bounds, (repeatedThen atom bounds pattern text).outcome ≠ .unmatched →
      ∃ count, bounds.Admits count ∧ count ≤ atom.runLength text ∧
        (atStart pattern (text.drop count)).outcome =
          (repeatedThen atom bounds pattern text).outcome ∧
        (repeatedThen atom bounds pattern text).records =
          .repetition atom bounds (atom.runLength text) ::
            (List.range' bounds.lower (count + 1 - bounds.lower)).flatMap fun k =>
              (atStart pattern (text.drop k)).records) ∧
    ∀ rest, (Log.Record.unclosed rest).line =
      "DEBUG unclosed character class in ".toList ++ Text.quoted rest := by
  refine ⟨anywhere_reports pattern text, (Branch.orderly_trace _ text).reports, ?_, ?_, ?_,
    Log.Record.line_unclosed⟩
  · intro atom bounds
    exact ⟨rfl, repeatedThen_reports atom bounds pattern text⟩
  · intro hanchor hdecided
    exact exists_last_offset hanchor hdecided
  · intro atom bounds hdecided
    exact exists_last_count hdecided

end Search

end RegexSearch
