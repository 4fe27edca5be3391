import RegexSearch.Proofs.Branch.Consumption
import Mathlib.Data.Set.Image

/-! The lexicographic order of choices, and lists that enumerate a set of choices in
this order up to the first one of another set. -/

namespace RegexSearch.Choice

/-! ## The order -/

/-- At the first difference the lesser count comes first. A choice comes before its extensions. -/
def Earlier : Choice → Choice → Prop :=
  List.Lex (· < ·)

theorem Earlier.irrefl (choice : Choice) : ¬ Earlier choice choice :=
  List.lex_irrefl (fun count => Nat.lt_irrefl count) choice

theorem Earlier.trans {first second third : Choice} (h : Earlier first second)
    (k : Earlier second third) : Earlier first third :=
  List.lex_trans (fun hlt hlt' => Nat.lt_trans hlt hlt') h k

theorem Earlier.asymm {first second : Choice} (h : Earlier first second) :
    ¬ Earlier second first :=
  fun k => Earlier.irrefl _ (h.trans k)

theorem earlier_cons_iff {count : ℕ} {first second : Choice} :
    Earlier (count :: first) (count :: second) ↔ Earlier first second := by
  refine ⟨?_, .cons⟩
  intro h
  cases h with
  | rel h => exact absurd h (Nat.lt_irrefl count)
  | cons h => exact h

theorem earlier_of_isPrefix {choice other : Choice} (h : choice <+: other)
    (hne : choice ≠ other) : Earlier choice other := by
  obtain ⟨counts, rfl⟩ := h
  induction choice with
  | nil =>
      cases counts with
      | nil => exact absurd rfl hne
      | cons count counts => exact .nil
  | cons count choice ih => exact .cons (ih fun heq => hne (congrArg (count :: ·) heq))

theorem earlier_nil {choice : Choice} (h : choice ≠ []) : Earlier [] choice :=
  earlier_of_isPrefix choice.nil_prefix h.symm

structure IsFirst (choices : Set Choice) (first : Choice) : Prop where
  mem : first ∈ choices
  eq_or_earlier : ∀ choice ∈ choices, choice = first ∨ Earlier first choice

def Precedes (choices others : Set Choice) : Prop :=
  ∀ choice ∈ choices, ∀ other ∈ others, Earlier choice other

theorem Precedes.mono {choices others fewer fewerOthers : Set Choice}
    (h : Precedes choices others) (hchoices : fewer ⊆ choices) (hothers : fewerOthers ⊆ others) :
    Precedes fewer fewerOthers :=
  fun choice hchoice other hother => h choice (hchoices hchoice) other (hothers hother)

theorem IsFirst.prepend {choices : Set Choice} {first : Choice} (h : IsFirst choices first)
    (count : ℕ) : IsFirst ((count :: ·) '' choices) (count :: first) := by
  refine ⟨Set.mem_image_of_mem _ h.mem, ?_⟩
  intro _ ⟨choice, hchoice, heq⟩
  subst heq
  simpa [earlier_cons_iff] using h.eq_or_earlier choice hchoice

theorem IsFirst.union {choices others : Set Choice} {first : Choice} (h : IsFirst choices first)
    (hbefore : Precedes choices others) : IsFirst (choices ∪ others) first := by
  refine ⟨.inl h.mem, ?_⟩
  intro choice hchoice
  rcases hchoice with hchoice | hother
  · exact h.eq_or_earlier choice hchoice
  · exact .inr (hbefore first h.mem choice hother)

/-! ## Enumerations -/

/-- A list enumerates those choices in order that come before all final ones. -/
structure Enumerates (reachable final : Set Choice) (choices : List Choice) : Prop where
  sorted : choices.Pairwise Earlier
  mem_iff : ∀ choice, choice ∈ choices ↔
    choice ∈ reachable ∧ ∀ other ∈ final, Earlier choice other

namespace Enumerates

variable {reachable final later laterFinal : Set Choice} {choices others : List Choice}

theorem empty (final : Set Choice) : Enumerates ∅ final [] where
  sorted := .nil
  mem_iff := by simp

theorem insert_nil (h : Enumerates reachable final choices) (hreachable : [] ∉ reachable)
    (hfinal : [] ∉ final) : Enumerates (insert [] reachable) final ([] :: choices) where
  sorted := by
    refine List.pairwise_cons.mpr ⟨?_, h.sorted⟩
    intro choice hchoice
    exact earlier_nil (ne_of_mem_of_not_mem ((h.mem_iff choice).mp hchoice).1 hreachable)
  mem_iff choice := by
    rw [List.mem_cons, h.mem_iff, Set.mem_insert_iff, or_and_right]
    apply or_congr_left
    have hnil : choice = [] → ∀ other ∈ final, Earlier choice other := by
      intro hchoice other hother
      subst hchoice
      exact earlier_nil (ne_of_mem_of_not_mem hother hfinal)
    exact (and_iff_left_of_imp hnil).symm

theorem prepend (h : Enumerates reachable final choices) (count : ℕ) :
    Enumerates ((count :: ·) '' reachable) ((count :: ·) '' final)
      (choices.map (count :: ·)) where
  sorted := List.pairwise_map.mpr (h.sorted.imp earlier_cons_iff.mpr)
  mem_iff choice := by
    constructor
    · intro hchoice
      obtain ⟨counts, hcounts, rfl⟩ := List.mem_map.mp hchoice
      obtain ⟨hreachable, hearlier⟩ := (h.mem_iff counts).mp hcounts
      refine ⟨Set.mem_image_of_mem _ hreachable, ?_⟩
      intro _ ⟨other, hother, heq⟩
      subst heq
      exact earlier_cons_iff.mpr (hearlier other hother)
    · intro ⟨⟨counts, hcounts, heq⟩, hearlier⟩
      subst heq
      refine List.mem_map_of_mem ((h.mem_iff counts).mpr ⟨hcounts, ?_⟩)
      intro other hother
      exact earlier_cons_iff.mp (hearlier _ (Set.mem_image_of_mem _ hother))

/-- Without a final choice in the first set nothing is left out. -/
theorem append (h : Enumerates reachable ∅ choices) (k : Enumerates later final others)
    (hlater : Precedes reachable later) (hfinal : Precedes reachable final) :
    Enumerates (reachable ∪ later) final (choices ++ others) where
  sorted := by
    refine List.pairwise_append.mpr ⟨h.sorted, k.sorted, ?_⟩
    intro choice hchoice other hother
    exact hlater choice ((h.mem_iff choice).mp hchoice).1 other ((k.mem_iff other).mp hother).1
  mem_iff choice := by
    have hall : choice ∈ choices ↔ choice ∈ reachable := by simp [h.mem_iff]
    rw [List.mem_append, hall, k.mem_iff, Set.mem_union, or_and_right]
    apply or_congr_left
    exact (and_iff_left_of_imp (hfinal choice)).symm

/-- A final choice in the first set leaves out the second one. -/
theorem cut (h : Enumerates reachable final choices) {first : Choice} (hfirst : first ∈ final)
    (hlater : Precedes final later) (hfinal : Precedes reachable laterFinal) :
    Enumerates (reachable ∪ later) (final ∪ laterFinal) choices where
  sorted := h.sorted
  mem_iff choice := by
    rw [h.mem_iff]
    constructor
    · intro ⟨hchoice, hearlier⟩
      refine ⟨.inl hchoice, ?_⟩
      intro other hother
      rcases hother with hother | hother
      · exact hearlier other hother
      · exact hfinal choice hchoice other hother
    · intro ⟨hchoice, hearlier⟩
      rcases hchoice with hchoice | hchoice
      · exact ⟨hchoice, fun other hother => hearlier other (.inl hother)⟩
      · have hafter := hlater first hfirst choice hchoice
        exact absurd (hearlier first (.inl hfirst)) hafter.asymm

theorem mem_iff_of_isFirst (h : Enumerates reachable final choices) {first : Choice}
    (hfirst : IsFirst final first) (choice : Choice) :
    choice ∈ choices ↔ choice ∈ reachable ∧ Earlier choice first := by
  rw [h.mem_iff]
  apply and_congr_right
  intro _
  refine ⟨fun hearlier => hearlier first hfirst.mem, ?_⟩
  intro hearlier other hother
  rcases hfirst.eq_or_earlier other hother with rfl | hlater
  · exact hearlier
  · exact hearlier.trans hlater

end Enumerates

/-! ## Ranges of counts -/

/-- Choices that begin with a count from an interval and go on as that count allows. -/
def counted (least most : ℕ) (family : ℕ → Set Choice) : Set Choice :=
  {choice | ∃ count counts, choice = count :: counts ∧ least ≤ count ∧ count ≤ most ∧
    counts ∈ family count}

theorem counted_self (count : ℕ) (family : ℕ → Set Choice) :
    counted count count family = (count :: ·) '' family count := by
  ext choice
  simp only [counted, Set.mem_ofPred_eq, Set.mem_image]
  constructor
  · intro h
    obtain ⟨_, counts, rfl, hleast, hmost, hmem⟩ := h
    obtain rfl := Nat.le_antisymm hmost hleast
    exact ⟨counts, hmem, rfl⟩
  · intro h
    obtain ⟨counts, hmem, rfl⟩ := h
    exact ⟨count, counts, rfl, le_rfl, le_rfl, hmem⟩

theorem counted_eq_union {least most : ℕ} (h : least ≤ most) (family : ℕ → Set Choice) :
    counted least most family =
      (least :: ·) '' family least ∪ counted (least + 1) most family := by
  ext choice
  simp only [counted, Set.mem_ofPred_eq, Set.mem_image, Set.mem_union]
  constructor
  · intro h
    obtain ⟨count, counts, rfl, hleast, hmost, hmem⟩ := h
    rcases Nat.eq_or_lt_of_le hleast with rfl | hlt
    · exact .inl ⟨counts, hmem, rfl⟩
    · exact .inr ⟨count, counts, rfl, hlt, hmost, hmem⟩
  · intro h
    rcases h with ⟨counts, hmem, rfl⟩ | ⟨count, counts, rfl, hleast, hmost, hmem⟩
    · exact ⟨least, counts, rfl, le_rfl, h, hmem⟩
    · exact ⟨count, counts, rfl, Nat.le_of_succ_le hleast, hmost, hmem⟩

theorem counted_of_lt {least most : ℕ} (h : most < least) (family : ℕ → Set Choice) :
    counted least most family = ∅ := by
  ext choice
  simp only [counted, Set.mem_ofPred_eq, Set.mem_empty_iff_false, iff_false]
  intro h
  obtain ⟨count, counts, -, hleast, hmost, -⟩ := h
  omega

theorem counted_union (least most : ℕ) (family others : ℕ → Set Choice) :
    counted least most family ∪ counted least most others =
      counted least most fun count => family count ∪ others count := by
  ext choice
  simp only [counted, Set.mem_union, Set.mem_ofPred_eq, and_or_left, exists_or]

theorem nil_notMem_counted {least most : ℕ} {family : ℕ → Set Choice} :
    [] ∉ counted least most family := by
  intro h
  obtain ⟨count, counts, hnil, -⟩ := h
  cases hnil

theorem precedes_counted (count most : ℕ) (choices : Set Choice) (family : ℕ → Set Choice) :
    Precedes ((count :: ·) '' choices) (counted (count + 1) most family) := by
  intro _ ⟨choice, _, hchoice⟩ _ ⟨next, counts, hother, hlt, _⟩
  subst hchoice hother
  exact .rel hlt

end RegexSearch.Choice
