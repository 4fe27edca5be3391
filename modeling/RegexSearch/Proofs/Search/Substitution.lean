import RegexSearch.Proofs.Search.Concatenation

/-! A unit of a pattern may be replaced by any other that accepts the same characters. Behind a
closed pattern both are read as the atom of one piece, and what follows them is read alike. -/

namespace RegexSearch

/-! ## Pieces -/

namespace Piece

def withAtom (atom : Atom) : Piece → Piece
  | single _ => single atom
  | repeated _ bounds => repeated atom bounds

variable {piece : Piece} {atom other : Atom} {suffix rest : List Char}

@[simp] theorem atom_withAtom : (piece.withAtom atom).atom = atom := by
  cases piece <;> rfl

@[simp] theorem bounds_withAtom : (piece.withAtom atom).bounds = piece.bounds := by
  cases piece <;> rfl

theorem Spelled.atom_eq (h : Spelled atom suffix piece rest) : piece.atom = atom := by
  cases h <;> rfl

theorem Spelled.withAtom (h : Spelled atom suffix piece rest) (other : Atom) :
    Spelled other suffix (piece.withAtom other) rest := by
  cases h with
  | star => exact .star _
  | plus => exact .plus _
  | mark => exact .mark _
  | once _ hnone => exact .once _ hnone

theorem exists_spelled (atom : Atom) (suffix : List Char) :
    ∃ piece rest, Spelled atom suffix piece rest := by
  cases hread : Bounds.read? suffix with
  | none => exact ⟨_, _, spelled_iff.mpr (.inr ⟨hread, rfl, rfl⟩)⟩
  | some parts => exact ⟨_, _, spelled_iff.mpr (.inl ⟨parts.1, hread, rfl⟩)⟩

theorem covers_withAtom_iff (h : ∀ c, piece.atom.accepts c = atom.accepts c)
    (segment : List Char) : (piece.withAtom atom).Covers segment ↔ piece.Covers segment := by
  constructor
  · intro ⟨hcount, haccepted⟩
    rw [bounds_withAtom] at hcount
    rw [atom_withAtom] at haccepted
    exact ⟨hcount, fun c hc => (h c).trans (haccepted c hc)⟩
  · intro ⟨hcount, haccepted⟩
    constructor
    · rw [bounds_withAtom]
      exact hcount
    · rw [atom_withAtom]
      exact fun c hc => (h c).symm.trans (haccepted c hc)

end Piece

namespace Branch

/-! ## Readings -/

/-- Behind a closed pattern a unit is read as one, unless its character has another use as well. -/
theorem parse_append_unit {front unit suffix rest : List Char} {atom : Atom} {piece : Piece}
    (hclosed : Closed front) (hunit : Atom.Spelled unit atom)
    (hplain : ∀ c ∈ unit.head?, c ∉ ['*', '+', '?', '$'])
    (hpiece : Piece.Spelled atom suffix piece rest) :
    parse (front ++ (unit ++ suffix)) = ((parse rest).cons piece).prepend (parse front).opened := by
  obtain ⟨first, others, rfl⟩ := List.exists_cons_of_ne_nil hunit.ne_nil
  simp only [List.head?_cons, Option.mem_some_iff, forall_eq', List.mem_cons, List.not_mem_nil,
    or_false, not_or] at hplain
  obtain ⟨hstar, hplus, hmark, hdollar⟩ := hplain
  have hmore : first :: others ++ suffix ≠ ['$'] := by
    intro heq
    exact hdollar (List.cons.inj heq).1
  rw [← parse_unit hmore hunit hpiece]
  apply parse_append hclosed
  · simp [hstar, hplus, hmark]
  · simp

/-! ## Divisions of the text -/

theorem splits_prepend_cons_withAtom_iff {front : List Piece} {piece : Piece} {atom : Atom}
    {branch : Branch} (h : ∀ c, piece.atom.accepts c = atom.accepts c) (text : List Char) :
    ((branch.cons (piece.withAtom atom)).prepend front).Splits text ↔
      ((branch.cons piece).prepend front).Splits text := by
  simp only [splits_prepend_iff, splits_cons_iff, Piece.covers_withAtom_iff h]

end Branch

namespace Search

open Branch (lastSection)

/-- Units that accept the same characters may stand for one another behind any closed pattern and in
front of any other. -/
theorem atStart_congr_unit {front unit other : List Char} {atom twin : Atom}
    (hclosed : '[' ∉ lastSection front)
    (hunit : Atom.Spelled unit atom) (hplain : ∀ c ∈ unit.head?, c ∉ ['*', '+', '?', '$'])
    (hother : Atom.Spelled other twin) (hplain' : ∀ c ∈ other.head?, c ∉ ['*', '+', '?', '$'])
    (hsame : ∀ c, atom.accepts c = twin.accepts c) (back text : List Char) :
    (atStart (front ++ unit ++ back) text).outcome =
      (atStart (front ++ other ++ back) text).outcome := by
  obtain ⟨piece, rest, hpiece⟩ := Piece.exists_spelled atom back
  have hsame' : ∀ c, piece.atom.accepts c = twin.accepts c := by
    rw [hpiece.atom_eq]
    exact hsame
  rw [List.append_assoc, List.append_assoc, atStart, atStart,
    Branch.parse_append_unit hclosed hunit hplain hpiece,
    Branch.parse_append_unit hclosed hother hplain' (hpiece.withAtom twin)]
  apply Branch.trace_outcome_congr
  · rfl
  · exact (Branch.splits_prepend_cons_withAtom_iff hsame' text).symm

/-- The dot and the bracket that excludes nothing, behind a dollar sign that is a literal there. -/
theorem atStart_congr_unit_wildcards :
    ('[' ∉ lastSection "a*$".toList ∧
      Atom.Spelled ".".toList .any ∧ Atom.Spelled "[^]".toList (.bracket (.ofToken "[^]".toList)) ∧
      (∀ c ∈ ".".toList.head?, c ∉ ['*', '+', '?', '$']) ∧
      (∀ c ∈ "[^]".toList.head?, c ∉ ['*', '+', '?', '$']) ∧
      ∀ c, Atom.any.accepts c = (Atom.bracket (.ofToken "[^]".toList)).accepts c) ∧
    (atStart ("a*$".toList ++ ".".toList ++ "+[b".toList) "aa$xb".toList).outcome =
      (atStart ("a*$".toList ++ "[^]".toList ++ "+[b".toList) "aa$xb".toList).outcome := by
  have hclosed : '[' ∉ lastSection "a*$".toList := by decide
  have hdot : ∀ c ∈ ".".toList.head?, c ∉ ['*', '+', '?', '$'] := by simp
  have hbracket : ∀ c ∈ "[^]".toList.head?, c ∉ ['*', '+', '?', '$'] := by simp
  have hsame : ∀ c, Atom.any.accepts c = (Atom.bracket (.ofToken "[^]".toList)).accepts c :=
    fun _ => rfl
  have hspelled : Atom.Spelled "[^]".toList (.bracket (.ofToken "[^]".toList)) :=
    .bracket ['^'] (by decide)
  exact ⟨⟨hclosed, .dot, hspelled, hdot, hbracket, hsame⟩,
    atStart_congr_unit hclosed .dot hdot hspelled hbracket hsame _ _⟩

end Search

end RegexSearch
