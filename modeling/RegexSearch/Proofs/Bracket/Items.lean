import RegexSearch.Proofs.Bracket.Display

/-! The body of a bracket expression can be cut into single characters and pairs in just one way, if
no single character stands where a pair could. The expression has the ranges of these items. -/

namespace RegexSearch

theorem CharRange.contains_iff {range : CharRange} {c : Char} :
    range.contains c ↔ range.first ≤ c ∧ c ≤ range.last := by
  rw [contains, Bool.and_eq_true, decide_eq_true_iff, decide_eq_true_iff]

namespace Bracket

/-! ## Items -/

/-- A stretch of a body that makes up one range. -/
inductive Item where
  /-- A character on its own. -/
  | char (c : Char)
  /-- Two characters joined by a dash. -/
  | pair (first last : Char)
deriving DecidableEq

namespace Item

def written : Item → List Char
  | char c => [c]
  | pair first last => [first, '-', last]

def range : Item → CharRange
  | char c => ⟨c, c⟩
  | pair first last => ⟨first, last⟩

/-- The characters the item stands for, by their code points. -/
def StandsFor : Item → Char → Prop
  | char c, d => d = c
  | pair first last, d => first.val ≤ d.val ∧ d.val ≤ last.val

theorem contains_range_iff {item : Item} {c : Char} :
    item.range.contains c ↔ item.StandsFor c := by
  rw [CharRange.contains_iff]
  cases item with
  | char d =>
      constructor
      · intro ⟨hle, hge⟩
        exact Char.le_antisymm hge hle
      · rintro rfl
        exact ⟨Char.le_refl c, Char.le_refl c⟩
  | pair first last => rfl

end Item

theorem contains_items_iff {items : List Item} {c : Char} :
    (Bracket.mk (items.map (·.range)) false).contains c ↔ ∃ item ∈ items, item.StandsFor c := by
  simp [contains, Item.contains_range_iff]

theorem contains_items_negated_iff {items : List Item} {c : Char} :
    (Bracket.mk (items.map (·.range)) true).contains c ↔ ∀ item ∈ items, ¬ item.StandsFor c := by
  simp [contains, ← Item.contains_range_iff]

/-! ## Cuts -/

/-- The items make up the body one after the other. No character is on its own if a dash and at
least one more character follow it. -/
structure Cut (body : List Char) (items : List Item) : Prop where
  written : items.flatMap (·.written) = body
  alone : ∀ front c back, items = front ++ .char c :: back →
    ∀ last rest, back.flatMap (·.written) ≠ '-' :: last :: rest

variable {body : List Char} {item : Item} {items : List Item}

theorem cut_nil_iff : Cut body [] ↔ body = [] := by
  constructor
  · intro h
    exact h.written.symm
  · rintro rfl
    exact ⟨rfl, by simp⟩

/-- Whether a character may be on its own is a matter of what follows it. -/
theorem cut_cons_iff :
    Cut body (item :: items) ↔
      ∃ rest, body = item.written ++ rest ∧ Cut rest items ∧
        ∀ c, item = .char c → ∀ last others, rest ≠ '-' :: last :: others := by
  constructor
  · intro ⟨hwritten, halone⟩
    refine ⟨_, hwritten.symm, ⟨rfl, ?_⟩, ?_⟩
    · intro front c back hitems
      exact halone (item :: front) c back (by rw [hitems, List.cons_append])
    · rintro c rfl
      exact halone [] c items rfl
  · rintro ⟨rest, rfl, ⟨rfl, halone⟩, hfirst⟩
    refine ⟨rfl, ?_⟩
    intro front c back hitems
    rcases List.cons_eq_append_iff.mp hitems with ⟨rfl, hback⟩ | ⟨front, rfl, hback⟩
    · obtain ⟨hitem, rfl⟩ := List.cons.inj hback
      exact hfirst c hitem.symm
    · exact halone front c back hback

/-- The items of a body, from left to right. -/
def readItems : List Char → List Item
  | first :: '-' :: last :: rest => .pair first last :: readItems rest
  | c :: rest => .char c :: readItems rest
  | [] => []

theorem map_range_readItems (body : List Char) :
    (readItems body).map (·.range) = readRanges body := by
  fun_induction readItems body with
  | case1 first last rest ih => rw [List.map_cons, ih, Item.range, readRanges_range]
  | case2 c rest hrest ih =>
      rw [List.map_cons, ih, Item.range, readRanges_single hrest, CharRange.single]
  | case3 => rfl

theorem cut_readItems (body : List Char) : Cut body (readItems body) := by
  fun_induction readItems body with
  | case1 first last rest ih => exact cut_cons_iff.mpr ⟨rest, rfl, ih, by simp⟩
  | case2 c rest hrest ih => exact cut_cons_iff.mpr ⟨rest, rfl, ih, fun _ _ => hrest⟩
  | case3 => exact cut_nil_iff.mpr rfl

/-- There is no other way to cut a body. -/
theorem cut_iff : Cut body items ↔ items = readItems body := by
  constructor
  · intro h
    induction items generalizing body with
    | nil => rw [cut_nil_iff.mp h, readItems]
    | cons item items ih =>
        obtain ⟨rest, rfl, hcut, halone⟩ := cut_cons_iff.mp h
        cases item with
        | char c =>
            rw [ih hcut, Item.written, List.singleton_append, readItems]
            exact halone c rfl
        | pair first last =>
            rw [ih hcut]
            rfl
  · rintro rfl
    exact cut_readItems body

instance (body : List Char) (items : List Item) : Decidable (Cut body items) :=
  decidable_of_iff _ cut_iff.symm

/-! ## Tokens -/

def withoutFirst (c : Char) (text : List Char) : List Char :=
  if text.head? = some c then text.tail else text

def withoutLast (c : Char) (text : List Char) : List Char :=
  if text.getLast? = some c then text.dropLast else text

/-- What a token has between its brackets. Either bracket may be missing. -/
def between (token : List Char) : List Char :=
  withoutLast ']' (withoutFirst '[' token)

theorem withoutFirst_of_head_ne {c : Char} {text : List Char} (h : text.head? ≠ some c) :
    withoutFirst c text = text :=
  if_neg h

theorem dropOpening_eq (token : List Char) : dropOpening token = withoutFirst '[' token := by
  unfold dropOpening
  split
  · rfl
  · rename_i hopen
    rw [withoutFirst_of_head_ne]
    intro hhead
    obtain ⟨rest, rfl⟩ := List.head?_eq_some_iff.mp hhead
    exact hopen rest rfl

theorem dropClosing_eq (token : List Char) : dropClosing token = withoutLast ']' token := rfl

theorem ofBody_eq (text : List Char) :
    ofBody text =
      ⟨(readItems (withoutFirst '^' text)).map (·.range), text.head? = some '^'⟩ := by
  rw [map_range_readItems]
  by_cases h : text.head? = some '^'
  · obtain ⟨rest, rfl⟩ := List.head?_eq_some_iff.mp h
    rfl
  · rw [withoutFirst_of_head_ne h, ofBody_of_head_ne h, decide_eq_false h]

theorem ofToken_eq (token : List Char) :
    ofToken token =
      ⟨(readItems (withoutFirst '^' (between token))).map (·.range),
        (between token).head? = some '^'⟩ := by
  rw [ofToken, dropOpening_eq, dropClosing_eq, ofBody_eq, between]

/-- A body can be cut into items in exactly one way, and its expression has just their ranges. -/
theorem ofToken_cut :
    (∀ body, ∃! items, Cut body items) ∧
    (∀ token items, Cut (withoutFirst '^' (between token)) items →
      ofToken token = ⟨items.map (·.range), (between token).head? = some '^'⟩) ∧
    ∀ body items, Cut body items → ∀ c,
      (body.head? ≠ some '^' →
        ((ofToken ('[' :: (body ++ [']']))).contains c ↔ ∃ item ∈ items, item.StandsFor c)) ∧
      ((ofToken ('[' :: '^' :: (body ++ [']']))).contains c ↔
        ∀ item ∈ items, ¬ item.StandsFor c) := by
  simp only [cut_iff]
  refine ⟨fun body => existsUnique_eq, ?_, ?_⟩
  · rintro token items rfl
    exact ofToken_eq token
  · rintro body items rfl c
    constructor
    · intro hanchor
      rw [ofToken_bracketed, ofBody_of_head_ne hanchor, ← map_range_readItems]
      exact contains_items_iff
    · rw [← List.cons_append, ofToken_bracketed, ofBody_anchor, ← map_range_readItems]
      exact contains_items_negated_iff

/-- The first dash joins two letters, and the second one is itself joined to a letter by the
third. -/
theorem ofToken_cut_dashes :
    let items := [Item.pair 'a' 'b', .pair '-' 'c']
    (Cut (withoutFirst '^' (between "^a-b--c]".toList)) items ∧ Cut "a-b--c".toList items ∧
      "a-b--c".toList.head? ≠ some '^') ∧
    ofToken "^a-b--c]".toList = ⟨items.map (·.range), true⟩ ∧
    ((ofToken "[a-b--c]".toList).contains 'B' ↔ ∃ item ∈ items, item.StandsFor 'B') ∧
    ((ofToken "[^a-b--c]".toList).contains 'B' ↔ ∀ item ∈ items, ¬ item.StandsFor 'B') := by
  intro items
  have hcut : Cut "a-b--c".toList items := by decide
  have hanchor : "a-b--c".toList.head? ≠ some '^' := by decide
  obtain ⟨hpositive, hnegative⟩ := ofToken_cut.2.2 _ items hcut 'B'
  exact ⟨⟨hcut, hcut, hanchor⟩, ofToken_cut.2.1 _ items hcut, hpositive hanchor, hnegative⟩

end Bracket

end RegexSearch
