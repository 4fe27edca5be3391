import RegexSearch.Proofs.Search.Correctness
import Mathlib.Algebra.Group.Nat.Defs

/-! The texts are too short for an unlimited repetition to come to the greatest count. So a star
takes no character, or one and then any number again. Its other laws follow by induction. -/

namespace RegexSearch

namespace Branch

variable {atom : Atom} {branch first second : Branch} {c : Char} {text : List Char}

/-- The branch behind one accepted character. -/
def once (atom : Atom) (branch : Branch) : Branch :=
  branch.cons (.single atom)

/-- The branch behind any number of accepted characters. -/
def star (atom : Atom) (branch : Branch) : Branch :=
  branch.cons (.repeated atom .anyNumber)

/-! ## Runs of accepted characters -/

theorem not_splits_once_nil : ¬ (once atom branch).Splits [] := by
  rw [once, splits_cons_iff]
  rintro ⟨segment, rest, hnil, hcovers, -⟩
  obtain ⟨c, rfl, -⟩ := Piece.covers_single_iff.mp hcovers
  cases hnil

theorem splits_once_cons_iff :
    (once atom branch).Splits (c :: text) ↔ atom.accepts c ∧ branch.Splits text := by
  rw [once, splits_cons_iff]
  constructor
  · rintro ⟨segment, rest, htext, hcovers, hrest⟩
    obtain ⟨d, rfl, haccepts⟩ := Piece.covers_single_iff.mp hcovers
    obtain ⟨rfl, rfl⟩ := List.cons.inj htext
    exact ⟨haccepts, hrest⟩
  · rintro ⟨haccepts, hrest⟩
    exact ⟨[c], text, rfl, Piece.covers_single_iff.mpr ⟨c, rfl, haccepts⟩, hrest⟩

/-- In a short text only the lower bound of a repetition matters. -/
theorem splits_repeated_iff {bounds : Bounds} (htext : text.length ≤ bounds.upper) :
    (branch.cons (.repeated atom bounds)).Splits text ↔
      ∃ run rest, text = run ++ rest ∧ bounds.lower ≤ run.length ∧
        (∀ c ∈ run, atom.accepts c) ∧ branch.Splits rest := by
  rw [splits_cons_iff]
  constructor
  · rintro ⟨run, rest, rfl, ⟨⟨hlower, -⟩, haccepted⟩, hrest⟩
    exact ⟨run, rest, rfl, hlower, haccepted, hrest⟩
  · rintro ⟨run, rest, rfl, hlower, haccepted, hrest⟩
    rw [List.length_append] at htext
    have hupper : run.length ≤ bounds.upper := (Nat.le_add_right _ _).trans htext
    exact ⟨run, rest, rfl, ⟨⟨hlower, hupper⟩, haccepted⟩, hrest⟩

theorem splits_once_star_iff (htext : text.length ≤ Bounds.unlimited) :
    (once atom (star atom branch)).Splits text ↔
      ∃ run rest, text = run ++ rest ∧ 1 ≤ run.length ∧ (∀ c ∈ run, atom.accepts c) ∧
        branch.Splits rest := by
  constructor
  · intro h
    cases text with
    | nil => exact absurd h not_splits_once_nil
    | cons c text =>
        obtain ⟨haccepts, hstar⟩ := splits_once_cons_iff.mp h
        obtain ⟨run, rest, rfl, -, haccepted, hrest⟩ :=
          (splits_repeated_iff (Nat.le_of_succ_le htext)).mp hstar
        exact ⟨c :: run, rest, rfl, Nat.succ_pos _,
          List.forall_mem_cons.mpr ⟨haccepts, haccepted⟩, hrest⟩
  · rintro ⟨run, rest, rfl, hlength, haccepted, hrest⟩
    cases run with
    | nil => simp at hlength
    | cons c run =>
        have htail : (run ++ rest).length ≤ Bounds.unlimited := Nat.le_of_succ_le htext
        obtain ⟨haccepts, haccepted⟩ := List.forall_mem_cons.mp haccepted
        have hstar : (star atom branch).Splits (run ++ rest) :=
          (splits_repeated_iff htail).mpr ⟨run, rest, rfl, Nat.zero_le _, haccepted, hrest⟩
        exact splits_once_cons_iff.mpr ⟨haccepts, hstar⟩

/-! ## Unrolling -/

/-- A star lets the branch go on at once, or it takes a character and may take more. -/
theorem splits_star_iff (htext : text.length ≤ Bounds.unlimited) :
    (star atom branch).Splits text ↔
      branch.Splits text ∨ (once atom (star atom branch)).Splits text := by
  rw [splits_once_star_iff htext, star, splits_repeated_iff htext]
  constructor
  · rintro ⟨run, rest, rfl, -, haccepted, hrest⟩
    cases run with
    | nil => exact .inl hrest
    | cons c run => exact .inr ⟨c :: run, rest, rfl, Nat.succ_pos _, haccepted, hrest⟩
  · rintro (h | ⟨run, rest, rfl, -, haccepted, hrest⟩)
    · exact ⟨[], text, rfl, Nat.zero_le _, by simp, h⟩
    · exact ⟨run, rest, rfl, Nat.zero_le _, haccepted, hrest⟩

theorem splits_plus_iff (htext : text.length ≤ Bounds.unlimited) :
    (branch.cons (.repeated atom .atLeastOnce)).Splits text ↔
      (once atom (star atom branch)).Splits text :=
  (splits_repeated_iff htext).trans (splits_once_star_iff htext).symm

theorem splits_mark_iff :
    (branch.cons (.repeated atom .atMostOnce)).Splits text ↔
      branch.Splits text ∨ (once atom branch).Splits text := by
  rw [once, splits_cons_iff, splits_cons_iff]
  constructor
  · rintro ⟨run, rest, rfl, ⟨⟨-, hupper⟩, haccepted⟩, hrest⟩
    cases run with
    | nil => exact .inl hrest
    | cons c run => exact .inr ⟨c :: run, rest, rfl, ⟨⟨Nat.succ_pos _, hupper⟩, haccepted⟩, hrest⟩
  · rintro (h | ⟨segment, rest, rfl, ⟨⟨-, hupper⟩, haccepted⟩, hrest⟩)
    · exact ⟨[], text, rfl, ⟨⟨Nat.zero_le _, Nat.zero_le _⟩, by simp⟩, h⟩
    · exact ⟨segment, rest, rfl, ⟨⟨Nat.zero_le _, hupper⟩, haccepted⟩, hrest⟩

/-- The one character may as well be the last of the run as the first. -/
theorem splits_star_once_iff (htext : text.length ≤ Bounds.unlimited) :
    (star atom (once atom branch)).Splits text ↔ (once atom (star atom branch)).Splits text := by
  induction text with
  | nil => simp [splits_star_iff, not_splits_once_nil]
  | cons c text ih =>
      have htail : text.length ≤ Bounds.unlimited := Nat.le_of_succ_le htext
      rw [splits_star_iff htext, splits_once_cons_iff, splits_once_cons_iff, splits_once_cons_iff,
        ih htail, splits_star_iff htail, and_or_left]

theorem splits_star_star_iff (htext : text.length ≤ Bounds.unlimited) :
    (star atom (star atom branch)).Splits text ↔ (star atom branch).Splits text := by
  rw [splits_star_iff htext]
  apply or_iff_left_of_imp
  intro h
  induction text with
  | nil => exact absurd h not_splits_once_nil
  | cons c text ih =>
      have htail : text.length ≤ Bounds.unlimited := Nat.le_of_succ_le htext
      obtain ⟨haccepts, hstars⟩ := splits_once_cons_iff.mp h
      have hstar := ((splits_star_iff htail).mp hstars).elim id (ih htail)
      exact (splits_star_iff htext).mpr (.inr (splits_once_cons_iff.mpr ⟨haccepts, hstar⟩))

/-! ## Outcomes -/

theorem trace_outcome_of_splits_or (hfirst : branch.ending = first.ending)
    (hsecond : branch.ending = second.ending)
    (hsplits : branch.Splits text ↔ first.Splits text ∨ second.Splits text) :
    (branch.trace text).outcome =
      if (first.trace text).outcome ≠ .unmatched then (first.trace text).outcome
      else (second.trace text).outcome := by
  by_cases h : first.Splits text
  · rw [if_pos (mt trace_eq_unmatched_iff.mp (not_not_intro h))]
    exact trace_outcome_congr hfirst (hsplits.trans (or_iff_left_of_imp fun _ => h))
  · rw [if_neg (not_not_intro (trace_eq_unmatched_iff.mpr h))]
    exact trace_outcome_congr hsecond (hsplits.trans (or_iff_right h))

/-! ## Readings -/

variable {unit rest : List Char}

theorem parse_unit_once (hunit : Atom.Spelled unit atom)
    (hrest : ∀ c ∈ rest.head?, c ≠ '*' ∧ c ≠ '+' ∧ c ≠ '?')
    (hdollar : unit = ['$'] → rest ≠ []) : parse (unit ++ rest) = once atom (parse rest) := by
  refine parse_unit ?_ hunit (.once rest hrest)
  by_cases hnil : rest = []
  · rw [hnil, List.append_nil]
    exact fun h => hdollar h hnil
  · exact hunit.append_ne_dollar hnil

theorem parse_unit_symbol (hunit : Atom.Spelled unit atom) {symbol : Char} {bounds : Bounds}
    (hsymbol : Bounds.ofSymbol? symbol = some bounds) (rest : List Char) :
    parse (unit ++ symbol :: rest) = (parse rest).cons (.repeated atom bounds) := by
  have hread : Bounds.read? (symbol :: rest) = some (bounds, rest) :=
    Bounds.read?_eq_some_iff.mpr ⟨symbol, hsymbol, rfl⟩
  exact parse_unit (hunit.append_ne_dollar (List.cons_ne_nil _ _)) hunit
    (Piece.spelled_iff.mpr (.inl ⟨bounds, hread, rfl⟩))

theorem parse_unit_star (hunit : Atom.Spelled unit atom) (rest : List Char) :
    parse (unit ++ '*' :: rest) = star atom (parse rest) :=
  parse_unit_symbol hunit rfl rest

end Branch

namespace Search

open Branch (once star)

variable {unit pattern text : List Char} {atom : Atom}

/-- A plus is the unit and its star, in either order. A star or a question mark may leave the unit
out and, if that finds nothing, takes it once, with its star behind it or without. -/
theorem atStart_unrolls (hunit : Atom.Spelled unit atom)
    (hfirst : ∀ c ∈ unit.head?, c ≠ '*' ∧ c ≠ '+' ∧ c ≠ '?')
    (hpattern : ∀ c ∈ pattern.head?, c ≠ '*' ∧ c ≠ '+' ∧ c ≠ '?')
    (hdollar : unit = ['$'] → pattern ≠ []) (htext : text.length < 2 ^ 64) :
    (atStart (unit ++ '+' :: pattern) text).outcome =
        (atStart (unit ++ unit ++ '*' :: pattern) text).outcome ∧
      (atStart (unit ++ unit ++ '*' :: pattern) text).outcome =
        (atStart (unit ++ '*' :: (unit ++ pattern)) text).outcome ∧
      (atStart (unit ++ '*' :: pattern) text).outcome =
        (if (atStart pattern text).outcome ≠ .unmatched then (atStart pattern text).outcome
        else (atStart (unit ++ unit ++ '*' :: pattern) text).outcome) ∧
      (atStart (unit ++ '?' :: pattern) text).outcome =
        (if (atStart pattern text).outcome ≠ .unmatched then (atStart pattern text).outcome
        else (atStart (unit ++ pattern) text).outcome) := by
  have hlength : text.length ≤ Bounds.unlimited := Nat.le_of_lt_succ htext
  have honce : Branch.parse (unit ++ pattern) = once atom (Branch.parse pattern) :=
    Branch.parse_unit_once hunit hpattern hdollar
  have hunits : Branch.parse (unit ++ unit ++ '*' :: pattern) =
      once atom (star atom (Branch.parse pattern)) := by
    have hhead : (unit ++ '*' :: pattern).head? = unit.head? :=
      List.head?_append_of_ne_nil unit hunit.ne_nil
    rw [List.append_assoc, Branch.parse_unit_once hunit (hhead ▸ hfirst) (by simp),
      Branch.parse_unit_star hunit]
  have hplus : Branch.parse (unit ++ '+' :: pattern) =
      (Branch.parse pattern).cons (.repeated atom .atLeastOnce) :=
    Branch.parse_unit_symbol hunit rfl pattern
  have hmark : Branch.parse (unit ++ '?' :: pattern) =
      (Branch.parse pattern).cons (.repeated atom .atMostOnce) :=
    Branch.parse_unit_symbol hunit rfl pattern
  simp only [atStart, hunits, honce, hplus, hmark, Branch.parse_unit_star hunit]
  refine ⟨?_, ?_, ?_, ?_⟩
  · exact Branch.trace_outcome_congr rfl (Branch.splits_plus_iff hlength)
  · exact Branch.trace_outcome_congr rfl (Branch.splits_star_once_iff hlength).symm
  · exact Branch.trace_outcome_of_splits_or rfl rfl (Branch.splits_star_iff hlength)
  · exact Branch.trace_outcome_of_splits_or rfl rfl Branch.splits_mark_iff

/-- The dollar sign as a unit, in front of a fault that two of them lead to. -/
theorem atStart_unrolls_dollar :
    let pattern := "a[b".toList
    let text := "$$a".toList
    (Atom.Spelled "$".toList (.char '$') ∧
      (∀ c ∈ "$".toList.head?, c ≠ '*' ∧ c ≠ '+' ∧ c ≠ '?') ∧
      (∀ c ∈ pattern.head?, c ≠ '*' ∧ c ≠ '+' ∧ c ≠ '?') ∧
      ("$".toList = ['$'] → pattern ≠ []) ∧ text.length < 2 ^ 64) ∧
    (atStart "$+a[b".toList text).outcome = (atStart "$$*a[b".toList text).outcome ∧
      (atStart "$$*a[b".toList text).outcome = (atStart "$*$a[b".toList text).outcome ∧
      (atStart "$*a[b".toList text).outcome =
        (if (atStart pattern text).outcome ≠ .unmatched then (atStart pattern text).outcome
        else (atStart "$$*a[b".toList text).outcome) ∧
      (atStart "$?a[b".toList text).outcome =
        (if (atStart pattern text).outcome ≠ .unmatched then (atStart pattern text).outcome
        else (atStart "$a[b".toList text).outcome) := by
  intro pattern text
  have hunit : Atom.Spelled "$".toList (.char '$') := .char '$' (by decide) (by decide)
  have hfirst : ∀ c ∈ "$".toList.head?, c ≠ '*' ∧ c ≠ '+' ∧ c ≠ '?' := by simp
  have hpattern : ∀ c ∈ pattern.head?, c ≠ '*' ∧ c ≠ '+' ∧ c ≠ '?' := by simp [pattern]
  have hdollar : "$".toList = ['$'] → pattern ≠ [] := fun _ => by decide
  exact ⟨⟨hunit, hfirst, hpattern, hdollar, by decide⟩,
    atStart_unrolls hunit hfirst hpattern hdollar (by decide)⟩

/-! ## Stars over one unit -/

theorem atStart_star_star (hunit : Atom.Spelled unit atom) (pattern : List Char)
    (htext : text.length < 2 ^ 64) :
    (atStart (unit ++ '*' :: (unit ++ '*' :: pattern)) text).outcome =
      (atStart (unit ++ '*' :: pattern) text).outcome := by
  rw [atStart, atStart, Branch.parse_unit_star hunit, Branch.parse_unit_star hunit]
  exact Branch.trace_outcome_congr rfl (Branch.splits_star_star_iff (Nat.le_of_lt_succ htext))

/-- A row of stars over one unit finds what one of them finds. -/
theorem atStart_stars (hunit : Atom.Spelled unit atom) (stars : ℕ) (hstars : 1 ≤ stars)
    (pattern : List Char) (htext : text.length < 2 ^ 64) :
    (atStart ((List.replicate stars (unit ++ ['*'])).flatten ++ pattern) text).outcome =
      (atStart (unit ++ '*' :: pattern) text).outcome := by
  have hmore : ∀ stars, (List.replicate (stars + 1) (unit ++ ['*'])).flatten ++ pattern =
      unit ++ '*' :: ((List.replicate stars (unit ++ ['*'])).flatten ++ pattern) := by
    intro stars
    simp [List.replicate_succ]
  induction stars, hstars using Nat.le_induction with
  | base => rw [hmore]; rfl
  | succ stars hstars ih =>
      obtain ⟨fewer, rfl⟩ := Nat.exists_eq_add_of_le' hstars
      rw [hmore, hmore, atStart_star_star hunit _ htext, ← hmore]
      exact ih

/-- The unit is itself a star, and what follows the row of stars is a letter and a fault. -/
theorem atStart_stars_literal_star :
    (Atom.Spelled "*".toList (.char '*') ∧ 1 ≤ 3 ∧ "**a".toList.length < 2 ^ 64) ∧
      (atStart "******a[b".toList "**a".toList).outcome =
        (atStart "**a[b".toList "**a".toList).outcome := by
  have hunit : Atom.Spelled "*".toList (.char '*') := .char '*' (by decide) (by decide)
  exact ⟨⟨hunit, by decide, by decide⟩,
    atStart_stars hunit 3 (by decide) "a[b".toList (by decide)⟩

end Search

end RegexSearch
