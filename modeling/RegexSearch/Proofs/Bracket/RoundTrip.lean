import RegexSearch.Proofs.Bracket.Items

/-! Ranges are read back as they were written exactly if none runs into the one behind it. Lengths
leave no other way: no range is written with more characters than the item it was read from. -/

namespace RegexSearch.Bracket

open CharRange (Apart RunsInto)

variable {body : List Char} {ranges : List CharRange} {items : List Item}

/-! ## Lengths -/

namespace Item

theorem length_display_range_le (item : Item) :
    item.range.display.length ≤ item.written.length := by
  cases item with
  | char c =>
      have hsingle : (char c).range.first = (char c).range.last := rfl
      rw [CharRange.display_of_eq hsingle]
      rfl
  | pair first last =>
      unfold CharRange.display
      split <;> simp [written]

theorem exists_char_of_written_eq {item : Item} (hwritten : item.written = item.range.display)
    (h : item.range.first = item.range.last) : ∃ c, item = .char c := by
  cases item with
  | char c => exact ⟨c, rfl⟩
  | pair first last =>
      rw [CharRange.display_of_eq h] at hwritten
      simp [written] at hwritten

end Item

theorem Cut.length_flatMap_display_le (h : Cut body items) :
    ((items.map (·.range)).flatMap (·.display)).length ≤ body.length := by
  induction items generalizing body with
  | nil => exact Nat.zero_le _
  | cons item items ih =>
      obtain ⟨rest, rfl, hcut, -⟩ := cut_cons_iff.mp h
      simp only [List.map_cons, List.flatMap_cons, List.length_append]
      exact Nat.add_le_add item.length_display_range_le (ih hcut)

/-! ## Ranges -/

theorem exists_flatMap_display_eq_dash {range next : CharRange} {others : List CharRange}
    (h : RunsInto range next others) :
    ∃ last rest, (next :: others).flatMap (·.display) = '-' :: last :: rest := by
  obtain ⟨-, hfirst, hmore⟩ := h
  by_cases hsingle : next.first = next.last
  · obtain ⟨other, later, rfl⟩ :=
      List.exists_cons_of_ne_nil (hmore.resolve_left (not_not.mpr hsingle))
    have hhead := CharRange.head?_flatMap_display (other :: later)
    obtain ⟨rest, hrest⟩ := List.head?_eq_some_iff.mp hhead
    refine ⟨other.first, rest, ?_⟩
    rw [List.flatMap_cons, CharRange.display_of_eq hsingle, hfirst, hrest, List.singleton_append]
  · refine ⟨'-', next.last :: others.flatMap (·.display), ?_⟩
    rw [List.flatMap_cons, CharRange.display_of_ne hsingle, hfirst]
    rfl

theorem Cut.apart (h : Cut body items)
    (hdisplay : body = (items.map (·.range)).flatMap (·.display)) :
    Apart (items.map (·.range)) := by
  induction items generalizing body with
  | nil => trivial
  | cons item items ih =>
      obtain ⟨rest, rfl, hcut, halone⟩ := cut_cons_iff.mp h
      -- Neither the item nor the rest is shorter than what is written for it.
      have hitem := item.length_display_range_le
      have hrest := hcut.length_flatMap_display_le
      have hlength := congrArg List.length hdisplay
      simp only [List.map_cons, List.flatMap_cons, List.length_append] at hdisplay hlength
      obtain ⟨hwritten, hlater⟩ := List.append_inj hdisplay (by omega)
      have hapart := ih hcut hlater
      cases items with
      | nil => trivial
      | cons next others =>
          refine ⟨?_, hapart⟩
          intro hruns
          obtain ⟨c, rfl⟩ := Item.exists_char_of_written_eq hwritten hruns.1
          obtain ⟨last, tail, hdash⟩ := exists_flatMap_display_eq_dash hruns
          exact halone c rfl last tail (hlater.trans hdash)

theorem readRanges_flatMap_display_iff :
    readRanges (ranges.flatMap (·.display)) = ranges ↔ Apart ranges := by
  refine ⟨?_, readRanges_flatMap_display⟩
  intro h
  have hranges : (readItems (ranges.flatMap (·.display))).map (·.range) = ranges :=
    (map_range_readItems _).trans h
  rw [← hranges]
  apply (cut_readItems (ranges.flatMap (·.display))).apart
  rw [hranges]

theorem apart_iff :
    Apart ranges ↔ ∀ i range next, ranges[i]? = some range → ranges[i + 1]? = some next →
      ¬ RunsInto range next (ranges.drop (i + 2)) := by
  induction ranges with
  | nil => simp [Apart]
  | cons range others ih =>
      cases others with
      | nil => simp [Apart]
      | cons next others =>
          constructor
          · intro ⟨hfirst, hothers⟩ i
            cases i with
            | zero =>
                rintro _ _ ⟨⟩ ⟨⟩
                exact hfirst
            | succ i => exact ih.mp hothers i
          · intro h
            exact ⟨h 0 range next rfl rfl, ih.mpr fun i => h (i + 1)⟩

/-- An expression read from a token is read back as it was written exactly if no range of one
character in it stands in front of one that begins with a dash, a single last dash apart. -/
theorem ofToken_display_eq_iff (token : List Char) :
    ofToken (ofToken token).display = ofToken token ↔
      ¬ ∃ i range next, (ofToken token).ranges[i]? = some range ∧
        (ofToken token).ranges[i + 1]? = some next ∧ range.first = range.last ∧
        next.first = '-' ∧
        (next.first ≠ next.last ∨ i + 2 < (ofToken token).ranges.length) := by
  have hdisplay : ofToken (ofToken token).display =
      ⟨readRanges ((ofToken token).ranges.flatMap (·.display)), (ofToken token).negated⟩ :=
    ofToken_display_ofBody_eq _
  have hsame : ofToken (ofToken token).display = ofToken token ↔
      Apart (ofToken token).ranges := by
    rw [← readRanges_flatMap_display_iff, hdisplay, Bracket.mk.injEq]
    exact and_iff_left rfl
  rw [hsame, apart_iff]
  simp only [RunsInto, ne_eq, List.drop_eq_nil_iff, not_le, not_exists, not_and]

/-- The first range comes back, but it has swallowed the other two. -/
example : (ofToken (ofToken "[a-a-a]".toList).display).ranges = [.single 'a'] := by decide

end RegexSearch.Bracket
