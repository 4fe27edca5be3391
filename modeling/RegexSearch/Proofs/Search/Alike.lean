import RegexSearch.Proofs.Branch.Semantics
import RegexSearch.Proofs.Search.Offsets

/-! A search looks at a text only through the atoms of the pattern and the number of its characters.
Texts that agree in these are searched step by step in the same way. -/

namespace RegexSearch

namespace Branch

/-! ## Characters and texts -/

/-- Every atom of the pieces accepts either both characters or neither. -/
def Confuse (pieces : List Piece) (c d : Char) : Prop :=
  ∀ piece ∈ pieces, piece.atom.accepts c = piece.atom.accepts d

/-- Texts of one length that agree at every place as far as the atoms can tell. -/
def Alike (pieces : List Piece) : List Char → List Char → Prop :=
  List.Forall₂ (Confuse pieces)

variable {piece : Piece} {pieces : List Piece} {text other : List Char}

theorem Alike.head_accepts {c d : Char} (h : Alike (piece :: pieces) (c :: text) (d :: other)) :
    piece.atom.accepts c = piece.atom.accepts d := by
  cases h with
  | cons hhead _ => exact hhead piece List.mem_cons_self

/-- Fewer atoms tell no more texts apart. -/
theorem Alike.of_cons (h : Alike (piece :: pieces) text other) : Alike pieces text other :=
  h.imp fun _ _ hconfuse later hlater => hconfuse later (List.mem_cons_of_mem piece hlater)

theorem alike_map {f : Char → Char}
    (h : ∀ piece ∈ pieces, ∀ c, piece.atom.accepts (f c) = piece.atom.accepts c)
    (text : List Char) : Alike pieces (text.map f) text := by
  rw [Alike, List.forall₂_map_left_iff, List.forall₂_same]
  intro c _ piece hpiece
  exact h piece hpiece c

end Branch

/-! ## One step at a time -/

variable {R : Char → Char → Prop} {text other : List Char}

theorem Atom.runLength_congr {atom : Atom} (hR : ∀ c d, R c d → atom.accepts c = atom.accepts d)
    (h : List.Forall₂ R text other) : atom.runLength text = atom.runLength other := by
  unfold runLength
  induction h with
  | nil => rfl
  | @cons c d _ _ hhead _ ih =>
      have haccepts := hR c d hhead
      by_cases hc : atom.accepts c
      · rw [hc] at haccepts
        simp [hc, ← haccepts, ih]
      · simp [hc, ← haccepts]

namespace Search

variable {next : List Char → Trace}

theorem ascend_congr (hnext : ∀ text other, List.Forall₂ R text other → next text = next other)
    (h : List.Forall₂ R text other) (extra : ℕ) :
    ascend next extra text = ascend next extra other := by
  induction extra generalizing text other with
  | zero => exact hnext text other h
  | succ extra ih =>
      have htail : List.Forall₂ R text.tail other.tail := by
        simpa only [List.drop_one] using List.forall₂_drop 1 h
      rw [ascend, ascend, hnext text other h, ih htail]

theorem repeated_congr {atom : Atom} (bounds : Bounds)
    (hR : ∀ c d, R c d → atom.accepts c = atom.accepts d)
    (hnext : ∀ text other, List.Forall₂ R text other → next text = next other)
    (h : List.Forall₂ R text other) :
    repeated atom bounds next text = repeated atom bounds next other := by
  have hascend := ascend_congr hnext (List.forall₂_drop bounds.lower h)
  simp only [repeated, Atom.runLength_congr hR h, hascend]

end Search

namespace Branch

theorem traceFrom_congr (ending : Ending) {pieces : List Piece} (h : Alike pieces text other) :
    traceFrom ending pieces text = traceFrom ending pieces other := by
  induction pieces, text using search_induction generalizing other with
  | finished text =>
      -- An ending asks for no more than whether any character is left.
      cases h <;> cases ending <;> rfl
  | starved atom pieces =>
      cases h
      rfl
  | refused atom pieces c rest hrefused =>
      cases other with
      | nil => nomatch h
      | cons d other =>
          have hother : ¬ atom.accepts d := h.head_accepts ▸ hrefused
          rw [traceFrom_of_not_accepts hrefused, traceFrom_of_not_accepts hother]
  | accepted atom pieces c rest haccepts ih =>
      cases other with
      | nil => nomatch h
      | cons d other =>
          have hother : atom.accepts d := h.head_accepts ▸ haccepts
          rw [traceFrom_of_accepts haccepts, traceFrom_of_accepts hother]
          exact ih (List.forall₂_cons.mp h.of_cons).2
  | repeated atom bounds pieces text ih =>
      rw [traceFrom, traceFrom]
      apply Search.repeated_congr bounds _ _ h
      · intro c d hconfuse
        exact hconfuse _ List.mem_cons_self
      · intro text other halike
        exact ih text (Alike.of_cons halike)

theorem trace_congr {branch : Branch} (h : Alike branch.pieces text other) :
    branch.trace text = branch.trace other :=
  traceFrom_congr branch.ending h

theorem scan_congr {branch : Branch} (h : Alike branch.pieces text other) :
    branch.scan text = branch.scan other := by
  rw [scan_eq_ascend, scan_eq_ascend, h.length_eq]
  exact Search.ascend_congr (fun _ _ halike => trace_congr halike) h _

end Branch

/-! ## Whole searches -/

namespace Search

open Branch (Alike Reads)

theorem anywhere_congr {pattern : List Char}
    (h : Alike (Branch.parse (unanchored pattern)).pieces text other) :
    anywhere pattern text = anywhere pattern other := by
  rw [anywhere_eq_cons, anywhere_eq_cons, Branch.trace_congr h, Branch.scan_congr h]

/-- A search goes alike in all texts that the atoms of the pattern cannot tell apart, among them a
text and what a map makes of it that no atom notices. -/
theorem searched_alike (pattern : List Char) :
    (∃ branch, Reads pattern branch ∧
      (∀ text other, Alike branch.pieces text other →
        atStart pattern text = atStart pattern other) ∧
      ∀ f : Char → Char,
        (∀ piece ∈ branch.pieces, ∀ c, piece.atom.accepts (f c) = piece.atom.accepts c) →
        ∀ text, atStart pattern (text.map f) = atStart pattern text) ∧
    ∃ branch, Reads (unanchored pattern) branch ∧
      (∀ text other, Alike branch.pieces text other →
        anywhere pattern text = anywhere pattern other) ∧
      ∀ f : Char → Char,
        (∀ piece ∈ branch.pieces, ∀ c, piece.atom.accepts (f c) = piece.atom.accepts c) →
        ∀ text, anywhere pattern (text.map f) = anywhere pattern text := by
  refine ⟨⟨_, Branch.reads_parse pattern, fun _ _ => Branch.trace_congr, ?_⟩,
    _, Branch.reads_parse (unanchored pattern), fun _ _ => anywhere_congr, ?_⟩
  · intro f h text
    exact Branch.trace_congr (Branch.alike_map h text)
  · intro f h text
    exact anywhere_congr (Branch.alike_map h text)

/-- Letters may be merged, and written with other bytes, if the pattern does not tell them apart. -/
theorem searched_alike_merged_letters :
    let pattern := "[^b]*b$".toList
    let merge := fun c => if c = 'a' then 'é' else c
    (∀ piece ∈ (Branch.parse (unanchored pattern)).pieces, ∀ c,
      piece.atom.accepts (merge c) = piece.atom.accepts c) ∧
    anywhere pattern ("éabab".toList.map merge) = anywhere pattern "éabab".toList := by
  intro pattern merge
  have hpieces : (Branch.parse (unanchored pattern)).pieces =
      [.repeated (.bracket ⟨[.single 'b'], true⟩) .anyNumber, .single (.char 'b')] := by
    decide +kernel
  have hmerge : ∀ piece ∈ (Branch.parse (unanchored pattern)).pieces, ∀ c,
      piece.atom.accepts (merge c) = piece.atom.accepts c := by
    rw [hpieces]
    intro piece hpiece c
    by_cases hc : c = 'a'
    · subst hc
      simp only [List.mem_cons, List.not_mem_nil, or_false] at hpiece
      rcases hpiece with rfl | rfl <;> decide
    · simp only [merge, hc, if_false]
  refine ⟨hmerge, ?_⟩
  obtain ⟨branch, hreads, -, hmap⟩ := (searched_alike pattern).2
  obtain rfl := hreads.deterministic (Branch.reads_parse _)
  exact hmap merge hmerge _

end Search

end RegexSearch
