import RegexSearch.Bracket.Display
import RegexSearch.Proofs.Branch.Semantics

/-! The written form of a bracket expression is read back as this expression, unless two ranges in
it stand side by side whose forms run together. -/

namespace RegexSearch

namespace CharRange

/-- The forms of the two ranges begin like one range: a character, a dash and a character. -/
def RunsInto (range next : CharRange) (others : List CharRange) : Prop :=
  range.first = range.last ∧ next.first = '-' ∧ (next.first ≠ next.last ∨ others ≠ [])

instance (range next : CharRange) (others : List CharRange) :
    Decidable (RunsInto range next others) :=
  inferInstanceAs (Decidable (_ ∧ _ ∧ (_ ∨ _)))

def Apart : List CharRange → Prop
  | [] => True
  | [_] => True
  | range :: next :: others => ¬ RunsInto range next others ∧ Apart (next :: others)

instance decidableApart : (ranges : List CharRange) → Decidable (Apart ranges)
  | [] => .isTrue trivial
  | [_] => .isTrue trivial
  | range :: next :: others =>
    have := decidableApart (next :: others)
    inferInstanceAs (Decidable (¬ RunsInto range next others ∧ Apart (next :: others)))

theorem Apart.tail {range : CharRange} {others : List CharRange} (h : Apart (range :: others)) :
    Apart others := by
  cases others with
  | nil => trivial
  | cons next others => exact h.2

theorem display_of_eq {range : CharRange} (h : range.first = range.last) :
    range.display = [range.first] :=
  if_pos h

theorem display_of_ne {range : CharRange} (h : range.first ≠ range.last) :
    range.display = [range.first, '-', range.last] :=
  if_neg h

theorem head?_flatMap_display (ranges : List CharRange) :
    (ranges.flatMap (·.display)).head? = ranges.head?.map (·.first) := by
  cases ranges with
  | nil => rfl
  | cons range others =>
      by_cases h : range.first = range.last
      · simp [display_of_eq h]
      · simp [display_of_ne h]

end CharRange

namespace Bracket

open CharRange (Apart RunsInto)

/-! ## Ranges -/

theorem readRanges_range (first last : Char) (rest : List Char) :
    readRanges (first :: '-' :: last :: rest) = ⟨first, last⟩ :: readRanges rest := rfl

theorem readRanges_single {c : Char} {rest : List Char}
    (h : ∀ last others, rest ≠ '-' :: last :: others) :
    readRanges (c :: rest) = .single c :: readRanges rest := by
  rw [readRanges]
  exact h

theorem head?_readRanges (body : List Char) :
    (readRanges body).head?.map (·.first) = body.head? := by
  fun_cases readRanges body <;> rfl

/-- Behind a single character that runs into nothing no range can be read. -/
theorem display_ne_of_apart {range : CharRange} {others : List CharRange}
    (hsingle : range.first = range.last) (h : Apart (range :: others)) (last : Char)
    (rest : List Char) : others.flatMap (·.display) ≠ '-' :: last :: rest := by
  intro heq
  cases others with
  | nil => simp at heq
  | cons next others =>
      have hfirst : next.first = '-' := by
        have hhead := CharRange.head?_flatMap_display (next :: others)
        rw [heq] at hhead
        simpa using hhead.symm
      have hend : next.first = next.last ∧ others = [] := by
        simpa [RunsInto, hsingle, hfirst] using h.1
      obtain ⟨hnext, rfl⟩ := hend
      simp [CharRange.display_of_eq hnext] at heq

theorem readRanges_flatMap_display {ranges : List CharRange} (h : Apart ranges) :
    readRanges (ranges.flatMap (·.display)) = ranges := by
  induction ranges with
  | nil => rfl
  | cons range others ih =>
      have hothers := ih h.tail
      rw [List.flatMap_cons]
      by_cases hsingle : range.first = range.last
      · have hrange : CharRange.single range.first = range := by
          rw [CharRange.single, CharRange.mk.injEq]
          exact ⟨rfl, hsingle⟩
        rw [CharRange.display_of_eq hsingle, List.singleton_append,
          readRanges_single (display_ne_of_apart hsingle h), hothers, hrange]
      · rw [CharRange.display_of_ne hsingle, List.cons_append, List.cons_append,
          List.singleton_append, readRanges_range, hothers]

/-! ## Expressions -/

theorem ofBody_anchor (body : List Char) : ofBody ('^' :: body) = ⟨readRanges body, true⟩ := rfl

theorem ofBody_of_head_ne {body : List Char} (h : body.head? ≠ some '^') :
    ofBody body = ⟨readRanges body, false⟩ := by
  unfold ofBody
  split
  · simp at h
  · rfl

theorem ofToken_display (bracket : Bracket) :
    ofToken bracket.display =
      ofBody ((if bracket.negated then ['^'] else []) ++ bracket.ranges.flatMap (·.display)) := by
  have hbracketed : bracket.display = '[' ::
      (((if bracket.negated then ['^'] else []) ++ bracket.ranges.flatMap (·.display)) ++ [']']) :=
    rfl
  rw [hbracketed, ofToken_bracketed]

/-- The first range of an expression that is not negated cannot begin with the sign of negation. -/
theorem ofToken_display_ofBody_eq (body : List Char) :
    ofToken (ofBody body).display =
      ⟨readRanges ((ofBody body).ranges.flatMap (·.display)), (ofBody body).negated⟩ := by
  rw [ofToken_display]
  by_cases hanchor : body.head? = some '^'
  · obtain ⟨rest, rfl⟩ := List.head?_eq_some_iff.mp hanchor
    simp only [ofBody_anchor, if_true, List.cons_append, List.nil_append]
  · have hhead : ((readRanges body).flatMap (·.display)).head? ≠ some '^' := by
      rw [CharRange.head?_flatMap_display, head?_readRanges]
      exact hanchor
    simp only [ofBody_of_head_ne hanchor, Bool.false_eq_true, if_false, List.nil_append,
      ofBody_of_head_ne hhead]

theorem ofToken_display_ofBody {body : List Char} (h : Apart (ofBody body).ranges) :
    ofToken (ofBody body).display = ofBody body := by
  rw [ofToken_display_ofBody_eq, readRanges_flatMap_display h]

theorem contains_display {token : List Char} (h : Apart (ofToken token).ranges) (c : Char) :
    (ofToken (ofToken token).display).contains c = (ofToken token).contains c := by
  have hread : ofToken (ofToken token).display = ofToken token := ofToken_display_ofBody h
  rw [hread]

/-- A range of one character is written short in front of another range, and a dash at the end. -/
theorem contains_display_short_range :
    Apart (ofToken "[^a-a^-z--".toList).ranges ∧
      (ofToken (ofToken "[^a-a^-z--".toList).display).contains 'a' =
        (ofToken "[^a-a^-z--".toList).contains 'a' :=
  ⟨by decide, contains_display (by decide) 'a'⟩

/-- A literal dash behind a range of one character is read back as the dash of a range. -/
theorem not_forall_contains_display :
    ¬ ∀ (token : List Char) (c : Char),
      (ofToken (ofToken token).display).contains c = (ofToken token).contains c := by
  intro h
  have hgained := h "[a-a-z]".toList 'm'
  revert hgained
  decide

end Bracket

end RegexSearch
