import RegexSearch.Proofs.Bracket.Items
import RegexSearch.Proofs.Search.Repetition
import RegexSearch.Proofs.Search.Offsets
import Mathlib.Data.List.Infix

/-! Any text can be looked for as it stands if its characters are written as bracket expressions, in
which no sign but the closing bracket and the caret means anything else. -/

namespace RegexSearch

/-! ## Patterns for characters -/

/-- A pattern for one character. The caret is listed behind a range without members, for in front it
would negate the expression. -/
def verbatimUnit (c : Char) : List Char :=
  if c = ']' then [']']
  else if c = '^' then "[z-a^]".toList
  else ['[', c, ']']

def verbatim (text : List Char) : List Char :=
  text.flatMap verbatimUnit

namespace Bracket

theorem contains_ofBody_single_iff {c d : Char} (h : c ≠ '^') :
    (ofBody [c]).contains d ↔ d = c := by
  have hbody : ofBody [c] = ⟨[Item.char c].map (·.range), false⟩ :=
    ofBody_of_head_ne (by simpa using h)
  rw [hbody, contains_items_iff]
  simp [Item.StandsFor]

/-- The range that runs backwards adds nothing. -/
theorem contains_ofBody_caret_iff {d : Char} :
    (ofBody "z-a^".toList).contains d ↔ d = '^' := by
  have hbody : ofBody "z-a^".toList = ⟨[Item.pair 'z' 'a', .char '^'].map (·.range), false⟩ := rfl
  have hempty : ¬ (Item.pair 'z' 'a').StandsFor d := by
    rintro ⟨hfirst, hlast⟩
    have hbackwards : 'z'.val ≤ 'a'.val := UInt32.le_trans hfirst hlast
    exact absurd hbackwards (by decide)
  rw [hbody, contains_items_iff]
  simp only [List.mem_cons, List.not_mem_nil, or_false, exists_eq_or_imp, exists_eq_left]
  exact or_iff_right hempty

end Bracket

theorem exists_spelled_verbatimUnit (c : Char) :
    ∃ atom, Atom.Spelled (verbatimUnit c) atom ∧ ∀ d, atom.accepts d ↔ d = c := by
  unfold verbatimUnit
  split
  · rename_i hclosing
    refine ⟨.char ']', .char ']' (by decide) (by decide), ?_⟩
    intro d
    rw [hclosing, Atom.accepts, beq_iff_eq]
    exact eq_comm
  split
  · rename_i hcaret
    refine ⟨_, .bracket "z-a^".toList (by decide), ?_⟩
    intro d
    rw [hcaret]
    exact Bracket.contains_ofBody_caret_iff
  · rename_i hclosing hcaret
    refine ⟨_, .bracket [c] (by simpa using Ne.symm hclosing), ?_⟩
    intro d
    rw [Atom.accepts, List.cons_append, Bracket.ofToken_bracketed]
    exact Bracket.contains_ofBody_single_iff hcaret

theorem head?_verbatimUnit (c : Char) :
    (verbatimUnit c).head? = some ']' ∨ (verbatimUnit c).head? = some '[' := by
  unfold verbatimUnit
  split
  · exact .inl rfl
  split <;> exact .inr rfl

/-! ## Patterns for texts -/

theorem verbatim_cons_append (c : Char) (text rest : List Char) :
    verbatim (c :: text) ++ rest = verbatimUnit c ++ (verbatim text ++ rest) :=
  List.append_assoc _ _ _

theorem head?_verbatim_append (text rest : List Char) :
    (verbatim text ++ rest).head? = rest.head? ∨ (verbatim text ++ rest).head? = some ']' ∨
      (verbatim text ++ rest).head? = some '[' := by
  cases text with
  | nil => exact .inl rfl
  | cons c text =>
      rw [verbatim_cons_append, List.head?_append]
      rcases head?_verbatimUnit c with h | h <;> simp [h]

namespace Branch

variable {rest : List Char}

/-- No symbol stands behind a unit, so every character is read as one piece. -/
theorem exists_parse_verbatim_cons (c : Char) (text : List Char)
    (hrest : ∀ c ∈ rest.head?, c ≠ '*' ∧ c ≠ '+' ∧ c ≠ '?') :
    ∃ atom, (∀ d, atom.accepts d ↔ d = c) ∧
      parse (verbatim (c :: text) ++ rest) = once atom (parse (verbatim text ++ rest)) := by
  obtain ⟨atom, hunit, haccepts⟩ := exists_spelled_verbatimUnit c
  refine ⟨atom, haccepts, ?_⟩
  rw [verbatim_cons_append]
  apply parse_unit_once hunit
  · rcases head?_verbatim_append text rest with h | h | h
    · rw [h]
      exact hrest
    · simp [h]
    · simp [h]
  · intro hdollar
    rcases head?_verbatimUnit c with h | h <;> simp [hdollar] at h

theorem ending_parse_verbatim (text : List Char)
    (hrest : ∀ c ∈ rest.head?, c ≠ '*' ∧ c ≠ '+' ∧ c ≠ '?') :
    (parse (verbatim text ++ rest)).ending = (parse rest).ending := by
  induction text with
  | nil => rfl
  | cons c text ih =>
      obtain ⟨atom, -, hparse⟩ := exists_parse_verbatim_cons c text hrest
      rw [hparse]
      exact ih

theorem splits_parse_verbatim_iff {wanted text : List Char}
    (hrest : ∀ c ∈ rest.head?, c ≠ '*' ∧ c ≠ '+' ∧ c ≠ '?') :
    (parse (verbatim wanted ++ rest)).Splits text ↔
      ∃ later, text = wanted ++ later ∧ (parse rest).Splits later := by
  induction wanted generalizing text with
  | nil => simp [verbatim]
  | cons c wanted ih =>
      obtain ⟨atom, haccepts, hparse⟩ := exists_parse_verbatim_cons c wanted hrest
      rw [hparse]
      cases text with
      | nil => simp [not_splits_once_nil]
      | cons d text =>
          rw [splits_once_cons_iff, haccepts, ih]
          simp [and_assoc]

theorem splits_ending_iff {ending : Ending} {text : List Char} :
    Splits ⟨[], ending⟩ text ↔ ending.Admits text := by
  simp [splits_iff]

theorem splits_parse_verbatim_iff_isPrefix {wanted text : List Char} :
    (parse (verbatim wanted)).Splits text ↔ wanted <+: text := by
  have hsplits : (parse (verbatim wanted ++ [])).Splits text ↔
      ∃ later, text = wanted ++ later ∧ (parse []).Splits later :=
    splits_parse_verbatim_iff (by simp)
  rw [List.append_nil, parse_nil] at hsplits
  rw [hsplits]
  simp [splits_ending_iff, Ending.Admits, List.prefix_iff_exists_eq_append]

theorem splits_parse_verbatim_dollar_iff {wanted text : List Char} :
    (parse (verbatim wanted ++ ['$'])).Splits text ↔ text = wanted := by
  rw [splits_parse_verbatim_iff (by simp), parse_dollar]
  simp [splits_ending_iff, Ending.Admits]

/-! ## Outcomes -/

variable {branch : Branch} {text : List Char} {p : Prop} [Decidable p]

theorem trace_outcome_eq_ite (h : branch.Splits text ↔ p) :
    (branch.trace text).outcome = if p then branch.ending.verdict else .unmatched := by
  split
  · rename_i hp
    exact trace_eq_verdict_iff.mpr (h.mpr hp)
  · rename_i hp
    exact trace_eq_unmatched_iff.mpr (mt h.mp hp)

theorem scan_outcome_eq_ite (h : (∃ rest, rest <:+ text ∧ branch.Splits rest) ↔ p) :
    (branch.scan text).outcome = if p then branch.ending.verdict else .unmatched := by
  split
  · rename_i hp
    exact scan_eq_verdict_iff.mpr (h.mpr hp)
  · rename_i hp
    apply scan_eq_unmatched_iff.mpr
    intro rest hrest hsplits
    exact hp (h.mp ⟨rest, hrest, hsplits⟩)

end Branch

namespace Search

open Branch (parse)

/-- The pattern for a text is found where the text stands: anywhere, at the start or, between the
anchor and a dollar sign, alone. No search meets a fault. -/
theorem anywhere_verbatim (wanted text : List Char) :
    (anywhere (verbatim wanted) text).outcome =
        (if wanted <:+: text then .matched else .unmatched) ∧
      (atStart (verbatim wanted) text).outcome =
        (if wanted <+: text then .matched else .unmatched) ∧
      (anywhere ('^' :: (verbatim wanted ++ ['$'])) text).outcome =
        (if text = wanted then .matched else .unmatched) := by
  have hverdict : (parse (verbatim wanted)).ending.verdict = .matched := by
    have hending : (parse (verbatim wanted ++ [])).ending = (parse []).ending :=
      Branch.ending_parse_verbatim wanted (by simp)
    rw [List.append_nil, Branch.parse_nil] at hending
    rw [hending, Ending.verdict]
  have hverdict' : (parse (verbatim wanted ++ ['$'])).ending.verdict = .matched := by
    rw [Branch.ending_parse_verbatim wanted (by simp), Branch.parse_dollar, Ending.verdict]
  have hanchor : (verbatim wanted).head? ≠ some '^' := by
    rcases head?_verbatim_append wanted [] with h | h | h <;> rw [List.append_nil] at h <;> simp [h]
  refine ⟨?_, ?_, ?_⟩
  · rw [anywhere_of_head_ne hanchor, Trace.cons_outcome, ← hverdict]
    apply Branch.scan_outcome_eq_ite
    simp only [Branch.splits_parse_verbatim_iff_isPrefix, List.infix_iff_prefix_suffix, and_comm]
  · rw [atStart, ← hverdict]
    exact Branch.trace_outcome_eq_ite Branch.splits_parse_verbatim_iff_isPrefix
  · rw [anywhere_of_anchor, Trace.cons_outcome, atStart, ← hverdict']
    exact Branch.trace_outcome_eq_ite Branch.splits_parse_verbatim_dollar_iff

end Search

end RegexSearch
