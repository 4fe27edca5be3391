import RegexSearch.Branch.Equations
import Mathlib.Data.List.TakeWhile

/-! Local rules for reading a pattern, stated on its characters alone. They
do not invoke the reader and yet leave it no choice. -/

namespace RegexSearch

/-! ## Units -/

/-- The characters of a unit and the atom they stand for. A bracket expression ends at the
first closing bracket, so there is none in its body. -/
inductive Atom.Spelled : List Char → Atom → Prop where
  | dot : Spelled ['.'] .any
  | char (c) (hopen : c ≠ '[') (hdot : c ≠ '.') : Spelled [c] (.char c)
  | bracket (body) (hbody : ']' ∉ body) :
      Spelled ('[' :: body ++ [']']) (.bracket (.ofToken ('[' :: body ++ [']'])))

/-- A repetition symbol right behind a unit belongs to it. The last list is
what the pattern has left. -/
inductive Piece.Spelled (atom : Atom) : List Char → Piece → List Char → Prop where
  | star (rest) : Spelled atom ('*' :: rest) (.repeated atom .anyNumber) rest
  | plus (rest) : Spelled atom ('+' :: rest) (.repeated atom .atLeastOnce) rest
  | mark (rest) : Spelled atom ('?' :: rest) (.repeated atom .atMostOnce) rest
  | once (rest) (h : ∀ c ∈ rest.head?, c ≠ '*' ∧ c ≠ '+' ∧ c ≠ '?') :
      Spelled atom rest (.single atom) rest

namespace Bracket

theorem readBody?_append {body rest : List Char} (h : ']' ∉ body) :
    readBody? (body ++ ']' :: rest) = some (body, rest) := by
  have hall : ∀ c ∈ body, (c != ']') = true := by
    intro c hc
    simpa using ne_of_mem_of_not_mem hc h
  simp [readBody?, List.dropWhile_append_of_pos hall, List.takeWhile_append_of_pos hall]

theorem readBody?_eq_none_iff {pattern : List Char} :
    readBody? pattern = none ↔ ']' ∉ pattern := by
  constructor
  · intro h hmem
    unfold readBody? at h
    split at h
    · rename_i hdrop
      simpa using List.dropWhile_eq_nil_iff.mp hdrop _ hmem
    · simp at h
  · intro h
    cases hread : readBody? pattern with
    | none => rfl
    | some parts => exact absurd (by simp [eq_of_readBody? hread]) h

theorem not_mem_of_readBody? {pattern body rest : List Char}
    (h : readBody? pattern = some (body, rest)) : ']' ∉ body := by
  intro hmem
  unfold readBody? at h
  split at h
  · simp at h
  · obtain ⟨rfl, -⟩ := Prod.mk.inj (Option.some.inj h)
    simpa using List.mem_takeWhile_imp hmem

@[simp] theorem ofToken_bracketed (body : List Char) :
    ofToken ('[' :: (body ++ [']'])) = ofBody body := by
  simp [ofToken, dropOpening, dropClosing]

end Bracket

theorem Atom.Spelled.ne_nil {unit : List Char} {atom : Atom} (h : Spelled unit atom) :
    unit ≠ [] := by
  cases h <;> simp

theorem Atom.Spelled.append_ne_dollar {unit suffix : List Char} {atom : Atom}
    (h : Spelled unit atom) (hsuffix : suffix ≠ []) : unit ++ suffix ≠ ['$'] := by
  intro heq
  rcases List.append_eq_singleton_iff.mp heq with ⟨hunit, -⟩ | ⟨-, hnil⟩
  · exact h.ne_nil hunit
  · exact hsuffix hnil

/-- The reader takes exactly the characters of a unit and no more. -/
theorem Atom.read?_eq_some_iff {first : Char} {rest tail : List Char} {atom : Atom} :
    Atom.read? first rest = some (atom, tail) ↔
      ∃ unit, Spelled unit atom ∧ first :: rest = unit ++ tail := by
  constructor
  · intro h
    unfold read? at h
    split at h
    · rename_i hopen
      subst hopen
      obtain ⟨⟨body, after⟩, hbody, heq⟩ := Option.map_eq_some_iff.mp h
      obtain ⟨rfl, rfl⟩ := Prod.mk.inj heq
      refine ⟨'[' :: body ++ [']'], ?_, by simp [Bracket.eq_of_readBody? hbody]⟩
      rw [← Bracket.ofToken_bracketed]
      exact .bracket body (Bracket.not_mem_of_readBody? hbody)
    · rename_i hopen
      obtain ⟨rfl, rfl⟩ := Prod.mk.inj (Option.some.inj h)
      refine ⟨[first], ?_, rfl⟩
      by_cases hdot : first = '.'
      · simpa [ofChar, hdot] using Spelled.dot
      · simpa [ofChar, hdot] using Spelled.char first hopen hdot
  · intro ⟨unit, hunit, heq⟩
    cases hunit with
    | dot =>
        obtain ⟨rfl, rfl⟩ := List.cons.inj heq
        rfl
    | char c hopen hdot =>
        obtain ⟨rfl, rfl⟩ := List.cons.inj heq
        simp [read?, ofChar, hopen, hdot]
    | bracket body hbody =>
        simp only [List.cons_append, List.append_assoc, List.nil_append] at heq
        obtain ⟨rfl, rfl⟩ := List.cons.inj heq
        simp [read?, Bracket.readBody?_append hbody]

theorem Atom.read?_eq_none_iff {first : Char} {rest : List Char} :
    Atom.read? first rest = none ↔ first = '[' ∧ ']' ∉ rest := by
  by_cases hopen : first = '[' <;> simp [read?, hopen, Bracket.readBody?_eq_none_iff]

theorem Bounds.read?_eq_none_iff {pattern : List Char} :
    Bounds.read? pattern = none ↔
      ∀ c ∈ pattern.head?, c ≠ '*' ∧ c ≠ '+' ∧ c ≠ '?' := by
  cases pattern with
  | nil => simp [read?]
  | cons c rest =>
      simp only [read?, Option.map_eq_none_iff, List.head?_cons, Option.mem_some_iff,
        forall_eq']
      unfold ofSymbol?
      split <;> simp_all

theorem Bounds.read?_eq_some_iff {pattern rest : List Char} {bounds : Bounds} :
    Bounds.read? pattern = some (bounds, rest) ↔
      ∃ c, ofSymbol? c = some bounds ∧ pattern = c :: rest := by
  cases pattern with
  | nil => simp [read?]
  | cons c tail =>
      rw [read?, Option.map_eq_some_iff]
      constructor
      · intro h
        obtain ⟨_, hsymbol, heq⟩ := h
        obtain ⟨rfl, rfl⟩ := Prod.mk.inj heq
        exact ⟨c, hsymbol, rfl⟩
      · intro h
        obtain ⟨_, hsymbol, heq⟩ := h
        obtain ⟨rfl, rfl⟩ := List.cons.inj heq
        exact ⟨bounds, hsymbol, rfl⟩

/-! ## Pieces -/

/-- The rules for symbols cover every symbol there is and nothing else. -/
theorem Piece.spelled_iff {atom : Atom} {tail rest : List Char} {piece : Piece} :
    Spelled atom tail piece rest ↔
      (∃ bounds, Bounds.read? tail = some (bounds, rest) ∧ piece = .repeated atom bounds) ∨
        Bounds.read? tail = none ∧ rest = tail ∧ piece = .single atom := by
  constructor
  · intro h
    cases h with
    | star => exact .inl ⟨.anyNumber, rfl, rfl⟩
    | plus => exact .inl ⟨.atLeastOnce, rfl, rfl⟩
    | mark => exact .inl ⟨.atMostOnce, rfl, rfl⟩
    | once _ hnone => exact .inr ⟨Bounds.read?_eq_none_iff.mpr hnone, rfl, rfl⟩
  · intro h
    rcases h with ⟨bounds, hread, rfl⟩ | ⟨hread, rfl, rfl⟩
    · obtain ⟨c, hsymbol, rfl⟩ := Bounds.read?_eq_some_iff.mp hread
      unfold Bounds.ofSymbol? at hsymbol
      split at hsymbol <;> cases hsymbol
      · exact .star rest
      · exact .plus rest
      · exact .mark rest
    · exact .once rest (Bounds.read?_eq_none_iff.mp hread)

theorem Piece.read?_eq_some_iff {first : Char} {rest tail : List Char} {piece : Piece} :
    Piece.read? first rest = some (piece, tail) ↔
      ∃ unit atom suffix, Atom.Spelled unit atom ∧ Spelled atom suffix piece tail ∧
        first :: rest = unit ++ suffix := by
  unfold read?
  rw [Option.map_eq_some_iff]
  constructor
  · intro ⟨⟨atom, suffix⟩, hatom, heq⟩
    obtain ⟨unit, hunit, happend⟩ := Atom.read?_eq_some_iff.mp hatom
    refine ⟨unit, atom, suffix, hunit, spelled_iff.mpr ?_, happend⟩
    cases hbounds : Bounds.read? suffix with
    | none =>
        simp only [hbounds, Prod.mk.injEq] at heq
        exact .inr ⟨rfl, heq.2.symm, heq.1.symm⟩
    | some parts =>
        simp only [hbounds, Prod.mk.injEq] at heq
        exact .inl ⟨parts.1, by rw [← heq.2], heq.1.symm⟩
  · intro ⟨unit, atom, suffix, hunit, hpiece, happend⟩
    refine ⟨(atom, suffix), Atom.read?_eq_some_iff.mpr ⟨unit, hunit, happend⟩, ?_⟩
    rcases spelled_iff.mp hpiece with ⟨bounds, hread, rfl⟩ | ⟨hread, rfl, rfl⟩ <;> simp [hread]

theorem Piece.read?_eq_none_iff {first : Char} {rest : List Char} :
    Piece.read? first rest = none ↔ first = '[' ∧ ']' ∉ rest := by
  rw [read?, Option.map_eq_none_iff, Atom.read?_eq_none_iff]

/-! ## Patterns -/

namespace Branch

/-- A pattern is read piece by piece until it is exhausted, only the dollar sign is left, or
a bracket opens that nothing closes. -/
inductive Reads : List Char → Branch → Prop where
  | exhausted : Reads [] ⟨[], .exhausted⟩
  | endOfText : Reads ['$'] ⟨[], .endOfText⟩
  | unclosed (rest) (h : ']' ∉ rest) : Reads ('[' :: rest) ⟨[], .unclosed ('[' :: rest)⟩
  | piece {unit atom suffix piece rest branch} (hmore : unit ++ suffix ≠ ['$']) :
      Atom.Spelled unit atom → Piece.Spelled atom suffix piece rest →
      Reads rest branch → Reads (unit ++ suffix) (branch.cons piece)

theorem Reads.execution {pattern : List Char} {branch : Branch} (h : Reads pattern branch) :
    parse pattern = branch := by
  induction h with
  | exhausted => exact parse_nil
  | endOfText => exact parse_dollar
  | unclosed rest h => exact parse_of_read?_none (Piece.read?_eq_none_iff.mpr ⟨rfl, h⟩)
  | @piece unit atom suffix piece rest branch hmore hunit hpiece _ ih =>
      obtain ⟨first, others, hcons⟩ := List.exists_cons_of_ne_nil
        (List.append_ne_nil_of_left_ne_nil hunit.ne_nil suffix)
      rw [hcons] at hmore ⊢
      rw [parse_of_read? hmore (Piece.read?_eq_some_iff.mpr
        ⟨unit, atom, suffix, hunit, hpiece, hcons.symm⟩), ih]

theorem reads_parse (pattern : List Char) : Reads pattern (parse pattern) := by
  fun_induction parse with
  | case1 => exact .exhausted
  | case2 => exact .endOfText
  | case3 first rest hmore hread =>
      obtain ⟨rfl, hrest⟩ := Piece.read?_eq_none_iff.mp hread
      exact .unclosed rest hrest
  | case4 first rest hmore piece tail hread _ ih =>
      obtain ⟨unit, atom, suffix, hunit, hpiece, happend⟩ := Piece.read?_eq_some_iff.mp hread
      rw [happend]
      refine .piece ?_ hunit hpiece ih
      rw [← happend]
      intro hdollar
      obtain ⟨rfl, rfl⟩ := List.cons.inj hdollar
      exact hmore rfl rfl

theorem parse_unit {unit suffix rest : List Char} {atom : Atom} {piece : Piece}
    (hmore : unit ++ suffix ≠ ['$']) (hunit : Atom.Spelled unit atom)
    (hpiece : Piece.Spelled atom suffix piece rest) :
    parse (unit ++ suffix) = (parse rest).cons piece :=
  Reads.execution (.piece hmore hunit hpiece (reads_parse rest))

theorem reads_iff (pattern : List Char) (branch : Branch) :
    Reads pattern branch ↔ parse pattern = branch := by
  refine ⟨Reads.execution, ?_⟩
  rintro rfl
  exact reads_parse pattern

theorem Reads.deterministic {pattern : List Char} {branch other : Branch}
    (h : Reads pattern branch) (k : Reads pattern other) : branch = other :=
  h.execution.symm.trans k.execution

end Branch

end RegexSearch
