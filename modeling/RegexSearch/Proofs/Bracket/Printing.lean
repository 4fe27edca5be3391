import RegexSearch.Proofs.Bracket.Items
import Mathlib.Data.List.Basic

/-! The written form of an expression goes through the items of its body. It repeats them as they
stand, but two equal characters joined by a dash become one. -/

namespace RegexSearch.Bracket

namespace Item

def printed : Item → List Char
  | char c => [c]
  | pair first last => if first = last then [first] else [first, '-', last]

/-- Whether the item joins a character to itself. -/
def isDoubled : Item → Bool
  | char _ => false
  | pair first last => first == last

theorem isDoubled_iff {item : Item} : item.isDoubled ↔ ∃ c, item = pair c c := by
  cases item with
  | char c => simp [isDoubled]
  | pair first last =>
      rw [isDoubled, beq_iff_eq]
      constructor
      · rintro rfl
        exact ⟨first, rfl⟩
      · rintro ⟨c, hpair⟩
        obtain ⟨rfl, rfl⟩ := Item.pair.inj hpair
        rfl

theorem display_range (item : Item) : item.range.display = item.printed := by
  cases item with
  | char c => exact CharRange.display_of_eq rfl
  | pair first last => rfl

/-- The dash and the second character are all that is left out. -/
theorem length_printed (item : Item) :
    item.printed.length + 2 * (if item.isDoubled then 1 else 0) = item.written.length := by
  cases item with
  | char c => rfl
  | pair first last => by_cases h : first = last <;> simp [printed, isDoubled, written, h]

theorem printed_of_not_isDoubled {item : Item} (h : ¬ item.isDoubled) :
    item.printed = item.written := by
  cases item with
  | char c => rfl
  | pair first last =>
      have hne : first ≠ last := by simpa [isDoubled] using h
      exact if_neg hne

end Item

variable {items : List Item}

theorem length_flatMap_printed (items : List Item) :
    (items.flatMap (·.printed)).length + 2 * items.countP (·.isDoubled) =
      (items.flatMap (·.written)).length := by
  induction items with
  | nil => rfl
  | cons item items ih =>
      have hitem := item.length_printed
      simp only [List.flatMap_cons, List.length_append, List.countP_cons]
      omega

theorem flatMap_printed_eq_iff :
    items.flatMap (·.printed) = items.flatMap (·.written) ↔ ∀ c, .pair c c ∉ items := by
  constructor
  · intro h c hmem
    have hlength := length_flatMap_printed items
    have hpos : 0 < items.countP (·.isDoubled) :=
      List.countP_pos_iff.mpr ⟨_, hmem, Item.isDoubled_iff.mpr ⟨c, rfl⟩⟩
    rw [h] at hlength
    omega
  · intro h
    apply List.flatMap_congr
    intro item hmem
    apply Item.printed_of_not_isDoubled
    intro hdoubled
    obtain ⟨c, rfl⟩ := Item.isDoubled_iff.mp hdoubled
    exact h c hmem

/-! ## Tokens -/

def caret (body : List Char) : List Char :=
  if body.head? = some '^' then ['^'] else []

theorem caret_append_withoutFirst (body : List Char) :
    caret body ++ withoutFirst '^' body = body := by
  unfold caret
  split
  · rename_i h
    obtain ⟨rest, rfl⟩ := List.head?_eq_some_iff.mp h
    rfl
  · rename_i h
    exact withoutFirst_of_head_ne h

variable {body : List Char}

theorem Cut.display_ofToken (h : Cut (withoutFirst '^' body) items) :
    (ofToken ('[' :: (body ++ [']']))).display =
      '[' :: (caret body ++ items.flatMap (·.printed) ++ [']']) := by
  obtain rfl := cut_iff.mp h
  rw [ofToken_bracketed, ofBody_eq]
  simp only [display, caret, decide_eq_true_eq, List.flatMap_map, Item.display_range,
    List.cons_append]

theorem Cut.token_eq (h : Cut (withoutFirst '^' body) items) :
    '[' :: (body ++ [']']) = '[' :: (caret body ++ items.flatMap (·.written) ++ [']']) := by
  rw [h.written, caret_append_withoutFirst]

theorem Cut.display_ofToken_eq_iff (h : Cut (withoutFirst '^' body) items) :
    (ofToken ('[' :: (body ++ [']']))).display = '[' :: (body ++ [']']) ↔
      ∀ c, .pair c c ∉ items := by
  rw [h.display_ofToken, h.token_eq, ← flatMap_printed_eq_iff]
  simp

theorem Cut.length_display_ofToken (h : Cut (withoutFirst '^' body) items) :
    (ofToken ('[' :: (body ++ [']']))).display.length + 2 * items.countP (·.isDoubled) =
      ('[' :: (body ++ [']'])).length := by
  have hlength := length_flatMap_printed items
  rw [h.display_ofToken, h.token_eq]
  simp only [List.length_cons, List.length_append, List.length_nil]
  omega

end RegexSearch.Bracket
