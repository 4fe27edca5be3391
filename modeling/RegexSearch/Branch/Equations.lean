import RegexSearch.Branch.Basic

/-! # Equations of the reader

One equation for each way a pattern can go on. Together they determine the branch of every
pattern. -/

namespace RegexSearch.Branch

theorem parse_nil : parse [] = ⟨[], .exhausted⟩ := by
  rw [parse]

theorem parse_dollar : parse ['$'] = ⟨[], .endOfText⟩ := by
  rw [parse]

theorem parse_of_read? {first : Char} {rest tail : List Char} {piece : Piece}
    (hopen : first :: rest ≠ ['$']) (h : Piece.read? first rest = some (piece, tail)) :
    parse (first :: rest) = (parse tail).cons piece := by
  rw [parse]
  · split
    · next hnone => simp [h] at hnone
    · next hsome =>
        obtain ⟨rfl, rfl⟩ := Prod.mk.inj (Option.some.inj (h.symm.trans hsome))
        rfl
  · intro hfirst hrest
    exact hopen (by rw [hfirst, hrest])

theorem parse_of_read?_none {first : Char} {rest : List Char}
    (h : Piece.read? first rest = none) :
    parse (first :: rest) = ⟨[], .unclosed (first :: rest)⟩ := by
  rw [parse]
  · split
    · rfl
    · next hsome => simp [h] at hsome
  · rintro rfl rfl
    revert h
    decide

end RegexSearch.Branch
