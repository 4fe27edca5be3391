/-! # Tables of code points

A property of characters given as the ascending list of the closed ranges that have it. -/

namespace RegexSearch.Text

/-- Whether closed ranges begin no lower than a bound, each of them above the one before it. -/
def ascending (least : Nat) : List (Nat × Nat) → Bool
  | [] => true
  | (first, last) :: ranges =>
    decide (least ≤ first) && decide (first ≤ last) && ascending (last + 1) ranges

theorem ascending_cons_iff {least first last : Nat} {ranges : List (Nat × Nat)} :
    ascending least ((first, last) :: ranges) = true ↔
      least ≤ first ∧ first ≤ last ∧ ascending (last + 1) ranges = true := by
  simp [ascending, and_assoc]

theorem le_of_ascending {least : Nat} {ranges : List (Nat × Nat)}
    (h : ascending least ranges = true) : ∀ range ∈ ranges, least ≤ range.1 := by
  induction ranges generalizing least with
  | nil => simp
  | cons head ranges ih =>
      obtain ⟨hfirst, hlast, hranges⟩ := ascending_cons_iff.mp h
      intro range hrange
      cases hrange with
      | head => exact hfirst
      | tail _ hmem =>
          have := ih hranges range hmem
          omega

/-- Closed ranges of code points, each wholly below the next. -/
structure CodeTable where
  ranges : List (Nat × Nat)
  ordered : ascending 0 ranges = true := by decide +kernel

namespace CodeTable

/-- Looks for a code point in ascending ranges. The scan stops at the first range that starts above
the code point, because all later ranges do too. -/
def scan (code : Nat) : List (Nat × Nat) → Bool
  | [] => false
  | (first, last) :: ranges =>
    if code < first then false
    else if code ≤ last then true
    else scan code ranges

theorem scan_iff {least code : Nat} {ranges : List (Nat × Nat)}
    (h : ascending least ranges = true) :
    scan code ranges = true ↔ ∃ range ∈ ranges, range.1 ≤ code ∧ code ≤ range.2 := by
  fun_induction scan code ranges generalizing least with
  | case1 => simp
  | case2 first last ranges hbelow =>
      obtain ⟨-, hlast, hranges⟩ := ascending_cons_iff.mp h
      have hfirst : ascending first ((first, last) :: ranges) = true :=
        ascending_cons_iff.mpr ⟨Nat.le_refl first, hlast, hranges⟩
      simp only [Bool.false_eq_true, false_iff]
      intro ⟨range, hmem, hrange, _⟩
      have := le_of_ascending hfirst range hmem
      omega
  | case3 first last ranges hbelow hinside => simp [hinside, Nat.le_of_not_lt hbelow]
  | case4 first last ranges hbelow hbeyond ih =>
      obtain ⟨-, -, hranges⟩ := ascending_cons_iff.mp h
      simp [hbeyond, ih hranges]

def covers (table : CodeTable) (code : Nat) : Bool := scan code table.ranges

/-- Although it stops early, the scan misses no range. -/
theorem covers_iff (table : CodeTable) (code : Nat) :
    table.covers code = true ↔ ∃ range ∈ table.ranges, range.1 ≤ code ∧ code ≤ range.2 :=
  scan_iff table.ordered

end CodeTable

end RegexSearch.Text
