import RegexSearch.Proofs.Bracket.Items

/-! Two bodies joined have the items of the one and then those of the other, unless a dash stands at
the seam. The reader looks two characters ahead, and only for a dash. -/

namespace RegexSearch.Bracket

variable {front back : List Char} {items others : List Item}

/-! ## The seam -/

/-- Without a dash at the seam nothing new can follow a character in front of it. -/
theorem append_ne_dash (hfront : ∀ last rest, front ≠ '-' :: last :: rest)
    (hend : front.getLast? ≠ some '-') (hstart : back.head? ≠ some '-') (last : Char)
    (rest : List Char) : front ++ back ≠ '-' :: last :: rest := by
  intro hdash
  rcases front with _ | ⟨first, _ | ⟨second, tail⟩⟩
  · have hback : back = '-' :: last :: rest := hdash
    exact hstart (by rw [hback, List.head?_cons])
  · obtain ⟨rfl, -⟩ := List.cons.inj hdash
    exact hend rfl
  · obtain ⟨rfl, -⟩ := List.cons.inj hdash
    exact hfront second tail rfl

theorem Cut.append (hfront : Cut front items) (hback : Cut back others)
    (hend : front.getLast? ≠ some '-') (hstart : back.head? ≠ some '-') :
    Cut (front ++ back) (items ++ others) := by
  induction items generalizing front with
  | nil =>
      obtain rfl := cut_nil_iff.mp hfront
      exact hback
  | cons item items ih =>
      obtain ⟨rest, rfl, hrest, halone⟩ := cut_cons_iff.mp hfront
      have hend' : rest.getLast? ≠ some '-' := by
        intro hdash
        exact hend (by rw [List.getLast?_append, hdash, Option.some_or])
      refine cut_cons_iff.mpr ⟨rest ++ back, List.append_assoc _ _ _, ih hrest hend', ?_⟩
      intro c hitem
      exact append_ne_dash (halone c hitem) hend' hstart

theorem readItems_append (hend : front.getLast? ≠ some '-') (hstart : back.head? ≠ some '-') :
    readItems (front ++ back) = readItems front ++ readItems back :=
  (cut_iff.mp ((cut_readItems front).append (cut_readItems back) hend hstart)).symm

theorem readRanges_append (hend : front.getLast? ≠ some '-') (hstart : back.head? ≠ some '-') :
    readRanges (front ++ back) = readRanges front ++ readRanges back := by
  simp only [← map_range_readItems, readItems_append hend hstart, List.map_append]

/-- A dash at the end of the first body joins its neighbours across the seam. -/
example : readItems ("a-".toList ++ "z".toList) = [.pair 'a' 'z'] := by decide

/-! ## Members -/

theorem contains_append (ranges more : List CharRange) (c : Char) :
    (Bracket.mk (ranges ++ more) false).contains c =
      ((Bracket.mk ranges false).contains c || (Bracket.mk more false).contains c) := by
  simp [contains]

theorem contains_negated (ranges : List CharRange) (c : Char) :
    (Bracket.mk ranges true).contains c = !(Bracket.mk ranges false).contains c := by
  simp [contains]

/-- Unless a dash stands at the seam, the expression of two bodies joined has the ranges of the one
and then those of the other. -/
theorem ofToken_append (hfront : front.head? ≠ some '^') (hback : back.head? ≠ some '^')
    (hend : front.getLast? ≠ some '-') (hstart : back.head? ≠ some '-') :
    (ofToken ('[' :: (front ++ back ++ [']']))).ranges =
        (ofToken ('[' :: (front ++ [']']))).ranges ++
          (ofToken ('[' :: (back ++ [']']))).ranges ∧
      ∀ c,
        ((ofToken ('[' :: (front ++ back ++ [']']))).contains c ↔
          (ofToken ('[' :: (front ++ [']']))).contains c ∨
            (ofToken ('[' :: (back ++ [']']))).contains c) ∧
        ((ofToken ('[' :: '^' :: (front ++ back ++ [']']))).contains c ↔
          ¬ (ofToken ('[' :: (front ++ [']']))).contains c ∧
            ¬ (ofToken ('[' :: (back ++ [']']))).contains c) := by
  have hjoined : (front ++ back).head? ≠ some '^' := by
    cases front with
    | nil => exact hback
    | cons first front => exact hfront
  have hpositive : ofToken ('[' :: (front ++ back ++ [']'])) =
      ⟨readRanges front ++ readRanges back, false⟩ := by
    rw [ofToken_bracketed, ofBody_of_head_ne hjoined, readRanges_append hend hstart]
  have hnegated : ofToken ('[' :: '^' :: (front ++ back ++ [']'])) =
      ⟨readRanges front ++ readRanges back, true⟩ := by
    rw [← List.cons_append, ofToken_bracketed, ofBody_anchor, readRanges_append hend hstart]
  rw [hpositive, hnegated, ofToken_bracketed, ofToken_bracketed, ofBody_of_head_ne hfront,
    ofBody_of_head_ne hback]
  refine ⟨rfl, ?_⟩
  intro c
  rw [contains_negated, contains_append, Bool.not_eq_true', Bool.or_eq_false_iff]
  simp only [Bool.or_eq_true, Bool.not_eq_true, and_self]

/-- There are dashes next to the characters at the seam, and a closing bracket behind it. -/
theorem ofToken_append_dashes :
    let front := "a-b-c".toList
    let back := "]-_-".toList
    (front.head? ≠ some '^' ∧ back.head? ≠ some '^' ∧ front.getLast? ≠ some '-' ∧
      back.head? ≠ some '-') ∧
    (ofToken "[a-b-c]-_-]".toList).ranges =
      (ofToken "[a-b-c]".toList).ranges ++ (ofToken "[]-_-]".toList).ranges ∧
    ((ofToken "[a-b-c]-_-]".toList).contains '^' ↔
      (ofToken "[a-b-c]".toList).contains '^' ∨ (ofToken "[]-_-]".toList).contains '^') ∧
    ((ofToken "[^a-b-c]-_-]".toList).contains '^' ↔
      ¬ (ofToken "[a-b-c]".toList).contains '^' ∧ ¬ (ofToken "[]-_-]".toList).contains '^') := by
  intro front back
  have hfront : front.head? ≠ some '^' := by decide
  have hback : back.head? ≠ some '^' := by decide
  have hend : front.getLast? ≠ some '-' := by decide
  have hstart : back.head? ≠ some '-' := by decide
  obtain ⟨hranges, hmembers⟩ := ofToken_append hfront hback hend hstart
  exact ⟨⟨hfront, hback, hend, hstart⟩, hranges, hmembers '^'⟩

end RegexSearch.Bracket
