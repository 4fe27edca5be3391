import RegexSearch.Proofs.Branch.Closing

/-! Reading a pattern that goes on behind a closed part. That part keeps its pieces if no
repetition symbol follows it. Only a closing dollar sign changes: it becomes a literal. -/

namespace RegexSearch

theorem Piece.Spelled.append {atom : Atom} {suffix rest : List Char} {piece : Piece}
    (h : Spelled atom suffix piece rest) {back : List Char}
    (hsymbol : ∀ c ∈ back.head?, c ≠ '*' ∧ c ≠ '+' ∧ c ≠ '?') :
    Spelled atom (suffix ++ back) piece (rest ++ back) := by
  cases h with
  | star => exact .star (rest ++ back)
  | plus => exact .plus (rest ++ back)
  | mark => exact .mark (rest ++ back)
  | once _ hnone =>
      apply Spelled.once
      cases suffix with
      | nil => exact hsymbol
      | cons c suffix => exact hnone

namespace Branch

def prepend (pieces : List Piece) (branch : Branch) : Branch :=
  ⟨pieces ++ branch.pieces, branch.ending⟩

/-- The pieces of a branch that goes on: a closing dollar sign is then a literal. -/
def opened (branch : Branch) : List Piece :=
  match branch.ending with
  | .endOfText => branch.pieces ++ [.single (.char '$')]
  | _ => branch.pieces

theorem opened_cons (piece : Piece) (branch : Branch) :
    (branch.cons piece).opened = piece :: branch.opened := by
  unfold opened cons
  cases branch.ending <;> rfl

theorem Reads.getLast?_of_endOfText {pattern : List Char} {branch : Branch}
    (h : Reads pattern branch) (hending : branch.ending = .endOfText) :
    pattern.getLast? = some '$' := by
  induction h with
  | exhausted => simp at hending
  | endOfText => rfl
  | unclosed => simp at hending
  | piece _ _ hpiece _ ih =>
      obtain ⟨symbol, rfl, -⟩ := hpiece.exists_symbol
      simp [List.getLast?_append, ih hending]

theorem Reads.append {front : List Char} {branch : Branch} (h : Reads front branch)
    (hclosed : Closed front) {back : List Char}
    (hsymbol : ∀ c ∈ back.head?, c ≠ '*' ∧ c ≠ '+' ∧ c ≠ '?')
    (hdollar : back = [] → branch.ending ≠ .endOfText) :
    Reads (front ++ back) ((parse back).prepend branch.opened) := by
  induction h with
  | exhausted => exact reads_parse back
  | endOfText =>
      have hmore : ['$'] ++ back ≠ ['$'] := by
        intro heq
        exact hdollar (by simpa using heq) rfl
      exact .piece hmore (.char '$' (by decide) (by decide)) (.once back hsymbol)
        (reads_parse back)
  | unclosed rest hrest =>
      have hopen := openPart_eq_nil_iff.mpr hclosed
      rw [openPart_of_not_mem hrest] at hopen
      simp at hopen
  | @piece unit atom suffix piece rest branch hmore hunit hpiece hreads ih =>
      have hrest : Closed rest := by
        obtain ⟨symbol, rfl, hsymbol⟩ := hpiece.exists_symbol
        rw [← openPart_eq_nil_iff, openPart_append hunit.closed,
          openPart_append hsymbol] at hclosed
        exact openPart_eq_nil_iff.mp hclosed
      -- A dollar sign alone is no piece, so none arises from a unit and what follows it.
      have hmore' : unit ++ (suffix ++ back) ≠ ['$'] := by
        intro heq
        rw [← List.append_assoc, List.append_eq_singleton_iff] at heq
        rcases heq with ⟨hnil, -⟩ | ⟨hdollar, -⟩
        · exact hunit.ne_nil (List.append_eq_nil_iff.mp hnil).1
        · exact hmore hdollar
      rw [List.append_assoc, opened_cons]
      exact .piece hmore' hunit (hpiece.append hsymbol) (ih hrest hdollar)

/-- A closed pattern and one that begins with no symbol are read one after the other. -/
theorem parse_append {front back : List Char} (hclosed : Closed front)
    (hsymbol : ∀ c ∈ back.head?, c ≠ '*' ∧ c ≠ '+' ∧ c ≠ '?')
    (hdollar : back = [] → front.getLast? ≠ some '$') :
    parse (front ++ back) = (parse back).prepend (parse front).opened := by
  have hreads := reads_parse front
  apply Reads.execution
  apply hreads.append hclosed hsymbol
  intro hback hending
  exact hdollar hback (hreads.getLast?_of_endOfText hending)

end Branch

end RegexSearch
