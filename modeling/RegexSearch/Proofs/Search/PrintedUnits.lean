import RegexSearch.Proofs.Bracket.Printing
import RegexSearch.Proofs.Search.Faults

/-! The expressions named in the records of a search are those of bracket tokens of its pattern.
They are printed as these tokens stand there, but for characters joined to themselves. -/

namespace RegexSearch

/-! ## Records of a search -/

theorem Trace.mem_records_orElse {first : Trace} {second : Unit → Trace} {record : Log.Record}
    (h : record ∈ (first.orElse second).records) :
    record ∈ first.records ∨ record ∈ (second ()).records := by
  by_cases hunmatched : first.outcome = .unmatched
  · rw [orElse_of_unmatched hunmatched] at h
    exact List.mem_append.mp h
  · rw [orElse_of_ne_unmatched hunmatched] at h
    exact .inl h

theorem Search.exists_mem_records_of_ascend {next : List Char → Trace} {extra : ℕ}
    {text : List Char} {record : Log.Record} (h : record ∈ (ascend next extra text).records) :
    ∃ rest, record ∈ (next rest).records := by
  induction extra generalizing text with
  | zero => exact ⟨text, h⟩
  | succ extra ih =>
      rcases Trace.mem_records_orElse h with hfirst | hlater
      · exact ⟨text, hfirst⟩
      · exact ih hlater

theorem Search.mem_records_repeated {atom : Atom} {bounds : Bounds} {next : List Char → Trace}
    {text : List Char} {record : Log.Record}
    (h : record ∈ (repeated atom bounds next text).records) :
    record = .repetition atom bounds (atom.runLength text) ∨
      ∃ rest, record ∈ (next rest).records := by
  rcases List.mem_cons.mp h with hentry | hlater
  · exact .inl hentry
  split at hlater
  · exact .inr (exists_mem_records_of_ascend hlater)
  · simp at hlater

namespace Branch

variable {atom : Atom} {bounds : Bounds} {run : ℕ} {text : List Char}

theorem mem_pieces_of_mem_records {ending : Ending} {pieces : List Piece}
    (h : .repetition atom bounds run ∈ (traceFrom ending pieces text).records) :
    .repeated atom bounds ∈ pieces := by
  induction pieces, text using search_induction with
  | finished text => cases ending <;> simp [traceFrom, Ending.trace] at h
  | starved => simp [traceFrom] at h
  | refused other pieces c rest hrefused =>
      rw [traceFrom_of_not_accepts hrefused] at h
      simp at h
  | accepted other pieces c rest haccepts ih =>
      rw [traceFrom_of_accepts haccepts] at h
      exact List.mem_cons_of_mem _ (ih h)
  | repeated other limits pieces text ih =>
      rcases Search.mem_records_repeated h with hentry | ⟨rest, hlater⟩
      · obtain ⟨rfl, rfl, -⟩ := Log.Record.repetition.inj hentry
        exact List.mem_cons_self
      · exact List.mem_cons_of_mem _ (ih rest hlater)

theorem mem_pieces_of_mem_scan {branch : Branch}
    (h : .repetition atom bounds run ∈ (branch.scan text).records) :
    .repeated atom bounds ∈ branch.pieces := by
  rw [scan_eq_ascend] at h
  obtain ⟨rest, hrest⟩ := Search.exists_mem_records_of_ascend h
  exact mem_pieces_of_mem_records hrest

/-! ## Tokens of a pattern -/

/-- A repeated expression of a pattern, with the token and the symbol it was read from. What stands
in front is closed, so the token begins where the reader looks for one. -/
structure Repeats (pattern : List Char) (bracket : Bracket) (bounds : Bounds)
    (front body : List Char) (symbol : Char) (back : List Char) : Prop where
  pattern_eq : pattern = front ++ ('[' :: (body ++ [']']) ++ symbol :: back)
  closed : Closed front
  body_closed : ']' ∉ body
  symbol_eq : Bounds.ofSymbol? symbol = some bounds
  bracket_eq : bracket = .ofToken ('[' :: (body ++ [']']))

theorem Repeats.append {pattern front body back : List Char} {bracket : Bracket}
    {bounds : Bounds} {symbol : Char} (h : Repeats pattern bracket bounds front body symbol back)
    {before : List Char} (hbefore : Closed before) :
    Repeats (before ++ pattern) bracket bounds (before ++ front) body symbol back where
  pattern_eq := by rw [h.pattern_eq, List.append_assoc]
  closed := hbefore.append h.closed
  body_closed := h.body_closed
  symbol_eq := h.symbol_eq
  bracket_eq := h.bracket_eq

theorem Reads.exists_repeats {pattern : List Char} {branch : Branch} {bracket : Bracket}
    (h : Reads pattern branch) (hmem : .repeated (.bracket bracket) bounds ∈ branch.pieces) :
    ∃ front body symbol back, Repeats pattern bracket bounds front body symbol back := by
  induction h with
  | exhausted => simp at hmem
  | endOfText => simp at hmem
  | unclosed => simp at hmem
  | @piece unit atom suffix piece rest branch _ hunit hpiece _ ih =>
      rcases List.mem_cons.mp hmem with hfirst | hlater
      · subst hfirst
        rcases Piece.spelled_iff.mp hpiece with ⟨limits, hread, heq⟩ | ⟨-, -, heq⟩
        · obtain ⟨rfl, rfl⟩ := Piece.repeated.inj heq
          obtain ⟨symbol, hsymbol, rfl⟩ := Bounds.read?_eq_some_iff.mp hread
          cases hunit with
          | bracket body hbody =>
              exact ⟨[], body, symbol, rest, rfl, by decide, hbody, hsymbol, rfl⟩
        · cases heq
      · obtain ⟨front, body, symbol, back, hrepeats⟩ := ih hlater
        obtain ⟨sign, rfl, hsign⟩ := hpiece.exists_symbol
        rw [← List.append_assoc]
        exact ⟨_, body, symbol, back, hrepeats.append (hunit.closed.append hsign)⟩

end Branch

namespace Search

open RegexSearch.Bracket (Cut caret withoutFirst)
open Branch (Repeats)
open Log (Record)

/-- Every bracket expression that a search repeats is that of a token of the pattern. -/
theorem exists_repeats_of_mem_records {pattern text : List Char} {bracket : Bracket}
    {bounds : Bounds} {run : ℕ}
    (h : .repetition (.bracket bracket) bounds run ∈ (anywhere pattern text).records) :
    ∃ front body symbol back, Repeats pattern bracket bounds front body symbol back := by
  by_cases hanchor : pattern.head? = some '^'
  · obtain ⟨rest, rfl⟩ := List.head?_eq_some_iff.mp hanchor
    have hmem : .repetition (.bracket bracket) bounds run ∈ (atStart rest text).records := by
      simpa [anywhere_of_anchor] using h
    obtain ⟨front, body, symbol, back, hrepeats⟩ :=
      (Branch.reads_parse rest).exists_repeats (Branch.mem_pieces_of_mem_records hmem)
    refine ⟨'^' :: front, body, symbol, back, ?_⟩
    exact hrepeats.append (Branch.closed_of_not_mem (by decide : '[' ∉ ['^']))
  · have hmem : .repetition (.bracket bracket) bounds run ∈
        ((Branch.parse pattern).scan text).records := by
      simpa [anywhere_of_head_ne hanchor] using h
    exact (Branch.reads_parse pattern).exists_repeats (Branch.mem_pieces_of_mem_scan hmem)

/-- An expression is printed item by item, and a character joined to itself is printed alone. So are
the expressions in the records of a search, whose tokens stand in the pattern. -/
theorem display_ofToken_by_items :
    (∀ body, ∃! items, Cut body items) ∧
    (∀ body items, Cut (withoutFirst '^' body) items →
      let token := '[' :: (body ++ [']'])
      (Bracket.ofToken token).display =
        '[' :: (caret body ++ items.flatMap (·.printed) ++ [']']) ∧
      ((Bracket.ofToken token).display = token ↔ ∀ c, .pair c c ∉ items) ∧
      (Bracket.ofToken token).display.length + 2 * items.countP (·.isDoubled) = token.length) ∧
    ∀ pattern text bracket bounds run,
      .repetition (.bracket bracket) bounds run ∈ (anywhere pattern text).records →
      ∃ front body symbol back, Repeats pattern bracket bounds front body symbol back ∧
        ∀ items, Cut (withoutFirst '^' body) items →
          let line := (Record.repetition (.bracket bracket) bounds run).line
          line = "TRACE repeat ".toList ++
              ('[' :: (caret body ++ items.flatMap (·.printed) ++ [']'])) ++ [' '] ++
              Record.figures bounds run ∧
            (line = "TRACE repeat ".toList ++ '[' :: (body ++ [']']) ++ [' '] ++
                Record.figures bounds run ↔
              ∀ c, .pair c c ∉ items) := by
  refine ⟨?_, ?_, ?_⟩
  · intro body
    simp only [Bracket.cut_iff]
    exact existsUnique_eq
  · intro body items hcut
    exact ⟨hcut.display_ofToken, hcut.display_ofToken_eq_iff, hcut.length_display_ofToken⟩
  · intro pattern text bracket bounds run hmem
    obtain ⟨front, body, symbol, back, hrepeats⟩ := exists_repeats_of_mem_records hmem
    refine ⟨front, body, symbol, back, hrepeats, ?_⟩
    intro items hcut
    rw [Record.line_repetition, Atom.display, hrepeats.bracket_eq]
    constructor
    · rw [hcut.display_ofToken]
    · rw [List.append_left_inj, List.append_left_inj, List.append_right_inj]
      exact hcut.display_ofToken_eq_iff

/-- A negated letter, joined to itself, between a letter and a fault. -/
theorem display_ofToken_by_items_doubled_letter :
    let token := "[^a-a]".toList
    (Cut (withoutFirst '^' "^a-a".toList) [.pair 'a' 'a'] ∧
      .repetition (.bracket (.ofToken token)) .anyNumber 2 ∈
        (anywhere "b[^a-a]*[c".toList "abcd".toList).records) ∧
    (Bracket.ofToken token).display = "[^a]".toList ∧
    (Bracket.ofToken token).display.length + 2 = token.length ∧
    ∃ front body symbol back,
      Repeats "b[^a-a]*[c".toList (.ofToken token) .anyNumber front body symbol back ∧
        ∀ items, Cut (withoutFirst '^' body) items →
          let line := (Record.repetition (.bracket (.ofToken token)) .anyNumber 2).line
          line = "TRACE repeat ".toList ++
              ('[' :: (caret body ++ items.flatMap (·.printed) ++ [']'])) ++ [' '] ++
              Record.figures .anyNumber 2 ∧
            (line = "TRACE repeat ".toList ++ '[' :: (body ++ [']']) ++ [' '] ++
                Record.figures .anyNumber 2 ↔
              ∀ c, .pair c c ∉ items) := by
  intro token
  have hcut : Cut (withoutFirst '^' "^a-a".toList) [.pair 'a' 'a'] := by decide
  have hmem : .repetition (.bracket (.ofToken token)) .anyNumber 2 ∈
      (anywhere "b[^a-a]*[c".toList "abcd".toList).records := by decide +kernel
  obtain ⟨hdisplay, -, hlength⟩ := display_ofToken_by_items.2.1 _ _ hcut
  exact ⟨⟨hcut, hmem⟩, hdisplay, hlength, display_ofToken_by_items.2.2 _ _ _ _ _ hmem⟩

end Search

end RegexSearch
