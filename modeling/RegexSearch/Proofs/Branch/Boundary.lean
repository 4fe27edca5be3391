import RegexSearch.Proofs.Branch.Seam

/-! Where a pattern may be cut so that both parts are read as in the whole. A pattern is read
lazily, and each piece leaves it from the next boundary on. -/

namespace RegexSearch.Branch

/-- A piece stands at the front of a pattern, and the last list is what it leaves. -/
inductive Begins : List Char → Piece → List Char → Prop where
  | intro {unit atom suffix piece rest} (hmore : unit ++ suffix ≠ ['$']) :
      Atom.Spelled unit atom → Piece.Spelled atom suffix piece rest →
      Begins (unit ++ suffix) piece rest

/-- The pieces stand at the front of a pattern, one after the other. What they leave begins at a
boundary. -/
inductive Leaves : List Char → List Piece → List Char → Prop where
  | nil (pattern) : Leaves pattern [] pattern
  | cons {pattern piece rest pieces back} : Begins pattern piece rest → Leaves rest pieces back →
      Leaves pattern (piece :: pieces) back

variable {pattern rest back : List Char} {piece : Piece} {pieces more : List Piece}

/-! ## One piece -/

namespace Begins

theorem parse_eq (h : Begins pattern piece rest) : parse pattern = (parse rest).cons piece := by
  cases h with
  | intro hmore hunit hpiece => exact parse_unit hmore hunit hpiece

theorem suffix (h : Begins pattern piece rest) : rest <:+ pattern := by
  cases h with
  | @intro unit _ _ _ _ _ _ hpiece =>
      obtain ⟨symbol, rfl, -⟩ := hpiece.exists_symbol
      exact ⟨unit ++ symbol, List.append_assoc _ _ _⟩

theorem length_lt (h : Begins pattern piece rest) : rest.length < pattern.length := by
  cases h with
  | intro _ hunit hpiece =>
      obtain ⟨symbol, rfl, -⟩ := hpiece.exists_symbol
      have hpos := List.length_pos_iff.mpr hunit.ne_nil
      simp only [List.length_append]
      omega

end Begins

theorem begins_iff {first : Char} {tail : List Char} :
    Begins (first :: tail) piece rest ↔
      first :: tail ≠ ['$'] ∧ Piece.read? first tail = some (piece, rest) := by
  rw [Piece.read?_eq_some_iff]
  constructor
  · intro h
    generalize hpattern : first :: tail = whole at h ⊢
    cases h with
    | intro hmore hunit hpiece => exact ⟨hmore, _, _, _, hunit, hpiece, rfl⟩
  · rintro ⟨hmore, unit, atom, suffix, hunit, hpiece, happend⟩
    rw [happend] at hmore ⊢
    exact .intro hmore hunit hpiece

/-- Induction along a reading: an end of the pattern, or a piece and what it leaves. -/
theorem pattern_induction {motive : List Char → Prop} (exhausted : motive [])
    (endOfText : motive ['$'])
    (unclosed : ∀ rest, ']' ∉ rest → motive ('[' :: rest))
    (piece : ∀ pattern piece rest, Begins pattern piece rest → motive rest → motive pattern)
    (pattern : List Char) : motive pattern := by
  have hreads := reads_parse pattern
  generalize parse pattern = branch at hreads
  induction hreads with
  | exhausted => exact exhausted
  | endOfText => exact endOfText
  | unclosed rest hclosed => exact unclosed rest hclosed
  | piece hmore hunit hpiece _ ih => exact piece _ _ _ (.intro hmore hunit hpiece) ih

/-! ## Several pieces -/

namespace Leaves

theorem append (h : Leaves pattern pieces rest) (k : Leaves rest more back) :
    Leaves pattern (pieces ++ more) back := by
  induction h with
  | nil => exact k
  | cons hbegins _ ih => exact .cons hbegins (ih k)

/-- Cutting a pattern at a boundary changes neither part of its reading. -/
theorem parse_eq (h : Leaves pattern pieces rest) :
    parse pattern = (parse rest).prepend pieces := by
  induction h with
  | nil => rfl
  | cons hbegins _ ih =>
      rw [hbegins.parse_eq, ih]
      rfl

theorem suffix (h : Leaves pattern pieces rest) : rest <:+ pattern := by
  induction h with
  | nil => exact List.suffix_rfl
  | cons hbegins _ ih => exact ih.trans hbegins.suffix

theorem length_add_le (h : Leaves pattern pieces rest) :
    rest.length + pieces.length ≤ pattern.length := by
  induction h with
  | nil => exact le_rfl
  | cons hbegins _ ih =>
      have hlt := hbegins.length_lt
      rw [List.length_cons]
      omega

end Leaves

structure ShorterEnd (pattern rest : List Char) : Prop where
  suffix : rest <:+ pattern
  shorter : rest.length < pattern.length
  boundary : ∃ pieces, Leaves pattern pieces rest

theorem Leaves.shorterEnd (h : Leaves pattern pieces rest) (hpieces : pieces ≠ []) :
    ShorterEnd pattern rest where
  suffix := h.suffix
  shorter := by
    have hlength := h.length_add_le
    have hpos := List.length_pos_iff.mpr hpieces
    omega
  boundary := ⟨pieces, h⟩

theorem ShorterEnd.trans (h : ShorterEnd pattern rest) (k : ShorterEnd rest back) :
    ShorterEnd pattern back where
  suffix := k.suffix.trans h.suffix
  shorter := k.shorter.trans h.shorter
  boundary := by
    obtain ⟨pieces, hpieces⟩ := h.boundary
    obtain ⟨more, hmore⟩ := k.boundary
    exact ⟨pieces ++ more, hpieces.append hmore⟩

end RegexSearch.Branch
