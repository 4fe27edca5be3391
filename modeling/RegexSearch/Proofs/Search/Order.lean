import RegexSearch.Proofs.Branch.Choices
import RegexSearch.Proofs.Search.Correctness

/-! The records of repetitions list the reachable choices in lexicographic order. A search decides
at the first final choice, and no later one leaves a record. -/

namespace RegexSearch

/-! ## Repetitions in a trace -/

namespace Trace

open Choice

def repetitions (trace : Trace) : List Log.Record :=
  trace.records.filter (·.isRepetition)

@[simp] theorem repetitions_ofOutcome (outcome : Outcome) :
    (ofOutcome outcome).repetitions = [] := rfl

@[simp] theorem repetitions_cons (atom : Atom) (bounds : Bounds) (run : ℕ) (trace : Trace) :
    (cons (.repetition atom bounds run) trace).repetitions =
      .repetition atom bounds run :: trace.repetitions := rfl

@[simp] theorem repetitions_ending (ending : Ending) (text : List Char) :
    (ending.trace text).repetitions = [] := by
  cases ending <;> rfl

theorem repetitions_orElse_of_unmatched {first : Trace} {second : Unit → Trace}
    (h : first.outcome = .unmatched) :
    (first.orElse second).repetitions = first.repetitions ++ (second ()).repetitions := by
  simp [orElse_of_unmatched h, repetitions]

/-! ## Exploring choices -/

/-- A trace explores choices if it decides exactly when one of them is final and its repetitions
are those of the reachable choices in order, up to the first final one. -/
structure Explores (reachable final : Set Choice) (announces : Choice → Log.Record → Prop)
    (trace : Trace) : Prop where
  unmatched_iff : trace.outcome = .unmatched ↔ final = ∅
  exists_first : final.Nonempty → ∃ first, IsFirst final first
  exists_choices : ∃ choices, Enumerates reachable final choices ∧
    List.Forall₂ announces choices trace.repetitions

namespace Explores

variable {reachable final later laterFinal : Set Choice} {announces : Choice → Log.Record → Prop}
  {trace other : Trace}

theorem unmatched : Explores ∅ ∅ announces (ofOutcome .unmatched) where
  unmatched_iff := by simp
  exists_first := by simp
  exists_choices := ⟨[], .empty ∅, .nil⟩

theorem mono {weaker : Choice → Log.Record → Prop}
    (h : Explores reachable final announces trace)
    (hweaker : ∀ choice record, announces choice record → weaker choice record) :
    Explores reachable final weaker trace where
  unmatched_iff := h.unmatched_iff
  exists_first := h.exists_first
  exists_choices := by
    obtain ⟨choices, hchoices, hrecords⟩ := h.exists_choices
    exact ⟨choices, hchoices, hrecords.imp hweaker⟩

/-- An entry adds the empty choice, which is earlier than all others. -/
theorem enter {atom : Atom} {bounds : Bounds} {run : ℕ}
    (h : Explores reachable final announces trace)
    (hentry : announces [] (.repetition atom bounds run))
    (hreachable : [] ∉ reachable) (hfinal : [] ∉ final) :
    Explores (insert [] reachable) final announces (cons (.repetition atom bounds run) trace) where
  unmatched_iff := h.unmatched_iff
  exists_first := h.exists_first
  exists_choices := by
    obtain ⟨choices, hchoices, hrecords⟩ := h.exists_choices
    exact ⟨[] :: choices, hchoices.insert_nil hreachable hfinal, .cons hentry hrecords⟩

theorem prepend {count : ℕ}
    (h : Explores reachable final (fun choice => announces (count :: choice)) trace) :
    Explores ((count :: ·) '' reachable) ((count :: ·) '' final) announces trace where
  unmatched_iff := by simp [h.unmatched_iff]
  exists_first := by
    intro hnonempty
    obtain ⟨first, hfirst⟩ := h.exists_first (Set.image_nonempty.mp hnonempty)
    exact ⟨count :: first, hfirst.prepend count⟩
  exists_choices := by
    obtain ⟨choices, hchoices, hrecords⟩ := h.exists_choices
    exact ⟨choices.map (count :: ·), hchoices.prepend count,
      List.forall₂_map_left_iff.mpr hrecords⟩

/-- The second search is added to the first, unless the first one decides and cuts it off. -/
theorem orElse (h : Explores reachable final announces trace)
    (k : Explores later laterFinal announces other)
    (hbefore : Precedes (reachable ∪ final) (later ∪ laterFinal)) :
    Explores (reachable ∪ later) (final ∪ laterFinal) announces
      (trace.orElse fun _ => other) := by
  obtain ⟨choices, hchoices, hrecords⟩ := h.exists_choices
  have hreachable : Precedes reachable laterFinal :=
    hbefore.mono Set.subset_union_left Set.subset_union_right
  by_cases hunmatched : trace.outcome = .unmatched
  · obtain ⟨others, hothers, hrecords'⟩ := k.exists_choices
    obtain rfl := h.unmatched_iff.mp hunmatched
    rw [Set.empty_union]
    refine ⟨?_, k.exists_first, choices ++ others, ?_, ?_⟩
    · simpa [orElse_of_unmatched hunmatched] using k.unmatched_iff
    · exact hchoices.append hothers
        (hbefore.mono Set.subset_union_left Set.subset_union_left) hreachable
    · rw [repetitions_orElse_of_unmatched hunmatched]
      exact List.rel_append hrecords hrecords'
  · have hnonempty : final.Nonempty :=
      Set.nonempty_iff_ne_empty.mpr (hunmatched ∘ h.unmatched_iff.mpr)
    obtain ⟨first, hfirst⟩ := h.exists_first hnonempty
    rw [orElse_of_ne_unmatched hunmatched]
    refine ⟨?_, ?_, choices, ?_, hrecords⟩
    · simp [hunmatched, hnonempty.ne_empty]
    · intro _
      exact ⟨first, hfirst.union
        (hbefore.mono Set.subset_union_right Set.subset_union_right)⟩
    · exact hchoices.cut hfirst.mem
        (hbefore.mono Set.subset_union_right Set.subset_union_left) hreachable

theorem ascend {next : List Char → Trace} {reachable final : ℕ → Set Choice}
    {least most extra : ℕ} {text : List Char} (hmost : least + extra = most)
    (h : ∀ k ≤ extra, Explores (reachable (least + k)) (final (least + k))
      (fun choice => announces ((least + k) :: choice)) (next (text.drop k))) :
    Explores (counted least most reachable) (counted least most final) announces
      (Search.ascend next extra text) := by
  induction extra generalizing least text with
  | zero =>
      have hzero := h 0 le_rfl
      subst hmost
      simpa only [Nat.add_zero, counted_self, Search.ascend, List.drop_zero] using
        hzero.prepend
  | succ extra ih =>
      have hfirst := (h 0 (Nat.zero_le _)).prepend
      have hlater : Explores (counted (least + 1) most reachable)
          (counted (least + 1) most final) announces
          (Search.ascend next extra text.tail) := by
        apply ih (by omega)
        intro k hk
        simpa only [Nat.add_assoc, Nat.add_comm 1 k, List.drop_tail] using h (k + 1) (by omega)
      have hle : least ≤ most := by omega
      rw [counted_eq_union hle reachable, counted_eq_union hle final]
      apply hfirst.orElse hlater
      rw [Nat.add_zero, ← Set.image_union, counted_union]
      exact precedes_counted least most _ _

theorem ending (ending : Ending) (text : List Char) :
    Explores ∅ (Branch.final ending [] text) announces (ending.trace text) where
  unmatched_iff := by
    rw [Ending.trace_eq_unmatched_iff, Set.eq_empty_iff_forall_notMem]
    simp [Branch.final]
  exists_first := by
    intro hnonempty
    obtain ⟨choice, hfinal⟩ := hnonempty
    refine ⟨choice, hfinal, ?_⟩
    intro other hother
    obtain ⟨_, hchoice, -⟩ := hfinal
    obtain ⟨_, hother, -⟩ := hother
    exact .inl ((Consumes.nil_iff.mp hother).1.trans (Consumes.nil_iff.mp hchoice).1.symm)
  exists_choices := ⟨[], .empty _, by simp⟩

end Explores

end Trace

namespace Branch

open Choice
open Trace (Explores)

theorem explores_repeated {ending : Ending} {pieces : List Piece} (atom : Atom) (bounds : Bounds)
    (text : List Char)
    (h : ∀ text, Explores (reachable pieces text) (final ending pieces text)
      (Announces pieces text) (traceFrom ending pieces text)) :
    Explores (reachable (.repeated atom bounds :: pieces) text)
      (final ending (.repeated atom bounds :: pieces) text)
      (Announces (.repeated atom bounds :: pieces) text)
      (Search.repeated atom bounds (traceFrom ending pieces) text) := by
  rw [reachable_repeated, final_repeated]
  refine Explores.enter ?_ (announces_entry atom bounds pieces text) nil_notMem_counted
    nil_notMem_counted
  split
  · rename_i hle
    refine Explores.ascend (Nat.add_sub_of_le hle) ?_
    intro k hk
    rw [List.drop_drop]
    refine (h _).mono ?_
    intro choice record hannounces
    exact hannounces.repeated ⟨by omega, by omega⟩ (by omega)
  · rename_i hlt
    rw [counted_of_lt (Nat.lt_of_not_le hlt), counted_of_lt (Nat.lt_of_not_le hlt)]
    exact .unmatched

theorem explores_traceFrom (ending : Ending) (pieces : List Piece) (text : List Char) :
    Explores (reachable pieces text) (final ending pieces text) (Announces pieces text)
      (traceFrom ending pieces text) := by
  induction pieces generalizing text with
  | nil =>
      rw [reachable_nil, traceFrom]
      exact .ending ending text
  | cons piece pieces ih =>
      cases piece with
      | single atom =>
          cases text with
          | nil =>
              rw [reachable_single_nil, final_single_nil]
              exact .unmatched
          | cons c tail =>
              rw [reachable_single_cons, final_single_cons, traceFrom]
              split
              · rename_i haccepts
                exact (ih tail).mono fun _ _ hannounces => hannounces.single haccepts
              · exact .unmatched
      | repeated atom bounds => exact explores_repeated atom bounds text ih

end Branch

namespace Search

open Branch (Announces Reads final reachable)
open Choice (Earlier IsFirst)

/-- A search enters the reachable choices, each once and in order, up to the first final one. -/
theorem repetitions_in_order (pattern : List Char) :
    ∃ branch, Reads pattern branch ∧ ∀ text, ∃ choices : List Choice,
      choices.Pairwise Earlier ∧
      List.Forall₂ (Announces branch.pieces text) choices (atStart pattern text).repetitions ∧
      (final branch.ending branch.pieces text = ∅ →
        ∀ choice, choice ∈ choices ↔ choice ∈ reachable branch.pieces text) ∧
      ((final branch.ending branch.pieces text).Nonempty →
        ∃ first, IsFirst (final branch.ending branch.pieces text) first ∧
          ∀ choice, choice ∈ choices ↔ choice ∈ reachable branch.pieces text ∧
            (choice <+: first ∨ Earlier choice first)) := by
  refine ⟨Branch.parse pattern, Branch.reads_parse pattern, ?_⟩
  intro text
  have hexplores := Branch.explores_traceFrom (Branch.parse pattern).ending
    (Branch.parse pattern).pieces text
  obtain ⟨choices, hchoices, hrecords⟩ := hexplores.exists_choices
  refine ⟨choices, hchoices.sorted, hrecords, ?_, ?_⟩
  · intro hempty choice
    simp [hchoices.mem_iff, hempty]
  · intro hnonempty
    obtain ⟨first, hfirst⟩ := hexplores.exists_first hnonempty
    refine ⟨first, hfirst, ?_⟩
    intro choice
    rw [hchoices.mem_iff_of_isFirst hfirst]
    apply and_congr_right
    intro hchoice
    have hlength := Branch.length_lt_of_mem_final hchoice hfirst.mem
    have hne : choice ≠ first := fun heq => by simp [heq] at hlength
    exact (or_iff_right_of_imp fun hprefix => Choice.earlier_of_isPrefix hprefix hne).symm

end Search

end RegexSearch
