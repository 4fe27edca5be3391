import RegexSearch.Proofs.Search.Budget
import RegexSearch.Proofs.Search.Cost

/-! How deep repetitions are nested while a search runs. Each of them hands on what the pattern has
behind it, so the repetitions in the pattern bound the depth, whatever the text. -/

namespace RegexSearch

open Branch (Begins Leaves Reads ShorterEnd pattern_induction repetitionCount)

namespace Search

/-! ## Activations -/

/-- A repetition at work, with the pattern it hands on and the text it started from. -/
structure Activation where
  atom : Atom
  bounds : Bounds
  rest : List Char
  text : List Char

/-- The repetition goes as far as the count: all lesser ones it admits have failed. -/
structure Activation.Tries (activation : Activation) (count : ℕ) : Prop where
  admits : activation.bounds.Admits count
  le_run : count ≤ activation.atom.runLength activation.text
  failed : ∀ less, activation.bounds.lower ≤ less → less < count →
    (atStart activation.rest (activation.text.drop less)).outcome = .unmatched

/-- A search for the pattern comes to the activation and has passed nothing but single pieces. -/
inductive Enters : List Char → List Char → Activation → Prop where
  | repeated {pattern atom bounds rest} (text) : Begins pattern (.repeated atom bounds) rest →
      Enters pattern text ⟨atom, bounds, rest, text⟩
  | single {pattern atom rest c text activation} : Begins pattern (.single atom) rest →
      atom.accepts c → Enters rest text activation → Enters pattern (c :: text) activation

/-- Activations open at once. The search enters the first one, and each of them the next. -/
inductive Nests : List Char → List Char → List Activation → Prop where
  | entered {pattern text activation} : Enters pattern text activation →
      Nests pattern text [activation]
  | inside {pattern text activation count chain} : Enters pattern text activation →
      activation.Tries count → Nests activation.rest (activation.text.drop count) chain →
      Nests pattern text (activation :: chain)

variable {pattern text : List Char} {activation : Activation} {chain : List Activation}

/-! ## Single pieces in front -/

namespace Enters

theorem atStart_eq (h : Enters pattern text activation) :
    atStart pattern text =
      repeatedThen activation.atom activation.bounds activation.rest activation.text := by
  induction h with
  | repeated text hbegins =>
      rw [atStart, hbegins.parse_eq]
      rfl
  | single hbegins haccepts _ ih =>
      rw [atStart, hbegins.parse_eq, Branch.trace_cons_single_cons, if_pos haccepts]
      exact ih

theorem atStartWithin_eq (h : Enters pattern text activation) (budget : ℕ) :
    atStartWithin pattern budget text =
      (Piece.repeated activation.atom activation.bounds).traceWithin
        (atStartWithin activation.rest) budget activation.text := by
  induction h with
  | repeated text hbegins => exact hbegins.atStartWithin_eq budget text
  | single hbegins haccepts _ ih =>
      rw [hbegins.atStartWithin_eq, Piece.traceWithin, if_pos haccepts]
      exact ih

theorem exists_leaves (h : Enters pattern text activation) :
    ∃ pieces, Leaves pattern pieces activation.rest ∧ pieces.countP (·.isRepeated) = 1 := by
  induction h with
  | repeated text hbegins => exact ⟨_, .cons hbegins (.nil _), rfl⟩
  | single hbegins _ _ ih =>
      obtain ⟨pieces, hpieces, hcount⟩ := ih
      refine ⟨_, .cons hbegins hpieces, ?_⟩
      simpa using hcount

theorem shorterEnd (h : Enters pattern text activation) : ShorterEnd pattern activation.rest := by
  obtain ⟨pieces, hpieces, hcount⟩ := h.exists_leaves
  apply hpieces.shorterEnd
  rintro rfl
  simp at hcount

end Enters

theorem exists_enters_or_atStartWithin_eq (pattern text : List Char) :
    (∃ activation, Enters pattern text activation) ∨
      ∀ budget, atStartWithin pattern budget text = some (atStart pattern text) := by
  induction pattern using pattern_induction generalizing text with
  | exhausted =>
      right
      intro budget
      rw [atStartWithin_nil, atStart, Branch.parse_nil]
      rfl
  | endOfText =>
      right
      intro budget
      rw [atStartWithin_dollar, atStart, Branch.parse_dollar]
      rfl
  | unclosed rest hrest =>
      right
      intro budget
      rw [atStartWithin_unclosed hrest, atStart, (Reads.unclosed rest hrest).execution]
      rfl
  | piece pattern piece rest hbegins ih =>
      cases piece with
      | repeated atom bounds => exact .inl ⟨_, .repeated text hbegins⟩
      | single atom =>
          simp only [hbegins.atStartWithin_eq, atStart, hbegins.parse_eq]
          cases text with
          | nil => exact .inr fun _ => rfl
          | cons c text =>
              by_cases haccepts : atom.accepts c
              · rcases ih text with ⟨activation, henters⟩ | hends
                · exact .inl ⟨activation, .single hbegins haccepts henters⟩
                · right
                  intro budget
                  rw [Piece.traceWithin, if_pos haccepts, hends budget,
                    Branch.trace_cons_single_cons, if_pos haccepts]
                  rfl
              · right
                intro budget
                rw [Piece.traceWithin, if_neg haccepts, Branch.trace_cons_single_cons,
                  if_neg haccepts]

/-! ## Giving up -/

/-- A search that does not give up goes as it would without a budget. -/
theorem follows_atStart (pattern : List Char) (budget : ℕ) :
    Follows (atStartWithin pattern budget) (atStart pattern) := by
  -- The loop over single pieces keeps the budget and is done with in the case distinction.
  induction budget generalizing pattern with
  | zero =>
      intro text found hfound
      rcases exists_enters_or_atStartWithin_eq pattern text with ⟨activation, henters⟩ | hends
      · rw [henters.atStartWithin_eq] at hfound
        nomatch hfound
      · exact (Option.some.inj ((hends 0).symm.trans hfound)).symm
  | succ budget ih =>
      intro text found hfound
      rcases exists_enters_or_atStartWithin_eq pattern text with ⟨activation, henters⟩ | hends
      · rw [henters.atStartWithin_eq] at hfound
        rw [henters.atStart_eq]
        exact (ih activation.rest).repeated _ _ _ _ hfound
      · exact (Option.some.inj ((hends _).symm.trans hfound)).symm

theorem atStartWithin_eq_none_iff {budget : ℕ} :
    atStartWithin pattern budget text = none ↔
      ∃ chain, Nests pattern text chain ∧ budget < chain.length := by
  constructor
  · intro h
    induction budget generalizing pattern text with
    | zero =>
        rcases exists_enters_or_atStartWithin_eq pattern text with ⟨activation, henters⟩ | hends
        · exact ⟨[activation], .entered henters, Nat.zero_lt_one⟩
        · simp [hends] at h
    | succ budget ih =>
        rcases exists_enters_or_atStartWithin_eq pattern text with ⟨activation, henters⟩ | hends
        · rw [henters.atStartWithin_eq] at h
          obtain ⟨count, hadmits, hrun, hnone, hfailed⟩ :=
            (repeatedWithin_eq_none_iff (follows_atStart _ _) _).mp h
          obtain ⟨chain, hchain, hdeep⟩ := ih hnone
          exact ⟨activation :: chain, .inside henters ⟨hadmits, hrun, hfailed⟩ hchain,
            Nat.succ_lt_succ hdeep⟩
        · simp [hends] at h
  · rintro ⟨chain, hchain, hdeep⟩
    induction hchain generalizing budget with
    | entered henters =>
        obtain rfl := Nat.lt_one_iff.mp hdeep
        rw [henters.atStartWithin_eq, Piece.traceWithin]
    | inside henters htries _ ih =>
        rw [henters.atStartWithin_eq]
        cases budget with
        | zero => rfl
        | succ budget =>
            exact (repeatedWithin_eq_none_iff (follows_atStart _ _) _).mpr
              ⟨_, htries.admits, htries.le_run, ih (Nat.lt_of_succ_lt_succ hdeep), htries.failed⟩

/-! ## Depth -/

namespace Nests

/-- The pattern in front of what is handed on has a repetition for each activation that is open. -/
theorem exists_leaves (h : Nests pattern text chain) {depth : ℕ}
    (hdepth : chain[depth]? = some activation) :
    ∃ pieces, Leaves pattern pieces activation.rest ∧
      pieces.countP (·.isRepeated) = depth + 1 := by
  induction h generalizing depth with
  | entered henters =>
      cases depth with
      | zero =>
          obtain rfl := Option.some.inj hdepth
          exact henters.exists_leaves
      | succ depth => nomatch hdepth
  | inside henters _ _ ih =>
      obtain ⟨pieces, hpieces, hcount⟩ := henters.exists_leaves
      cases depth with
      | zero =>
          obtain rfl := Option.some.inj hdepth
          exact ⟨pieces, hpieces, hcount⟩
      | succ depth =>
          obtain ⟨more, hmore, hdeeper⟩ := ih hdepth
          refine ⟨pieces ++ more, hpieces.append hmore, ?_⟩
          rw [List.countP_append, hcount, hdeeper, Nat.add_comm]

theorem pairwise_shorterEnd (h : Nests pattern text chain) :
    (pattern :: chain.map (·.rest)).Pairwise ShorterEnd := by
  induction h with
  | entered henters => simpa using henters.shorterEnd
  | inside henters _ _ ih =>
      refine List.pairwise_cons.mpr ⟨?_, ih⟩
      intro rest hrest
      rcases List.mem_cons.mp hrest with rfl | hlater
      · exact henters.shorterEnd
      · exact henters.shorterEnd.trans (List.rel_of_pairwise_cons ih hlater)

theorem length_le (h : Nests pattern text chain) :
    chain.length ≤ (Branch.parse pattern).repetitionCount := by
  rcases chain.eq_nil_or_concat' with rfl | ⟨outer, innermost, rfl⟩
  · exact Nat.zero_le _
  · have hlast : (outer ++ [innermost])[outer.length]? = some innermost := by simp
    obtain ⟨pieces, hpieces, hcount⟩ := h.exists_leaves hlast
    rw [hpieces.parse_eq, repetitionCount, Branch.prepend, List.countP_append, hcount,
      List.length_append]
    exact Nat.le_add_right _ _

end Nests

/-- A search that may have open as many repetitions as the pattern has never gives up, and with any
budget it gives up exactly if more are open at some time. What they hand on are ever shorter ends
of the pattern, each with one more repetition in front. -/
theorem nesting_le_repetitions (pattern : List Char) :
    ∃ branch, Reads pattern branch ∧ ∀ text,
      atStartWithin pattern branch.repetitionCount text = some (atStart pattern text) ∧
      (∀ budget, atStartWithin pattern budget text = none ↔
        ∃ chain, Nests pattern text chain ∧ budget < chain.length) ∧
      ∀ chain, Nests pattern text chain →
        chain.length ≤ branch.repetitionCount ∧
        (pattern :: chain.map (·.rest)).Pairwise ShorterEnd ∧
        ∀ depth activation, chain[depth]? = some activation →
          ∃ pieces, Leaves pattern pieces activation.rest ∧
            pieces.countP (·.isRepeated) = depth + 1 := by
  refine ⟨Branch.parse pattern, Branch.reads_parse pattern, ?_⟩
  intro text
  refine ⟨?_, fun _ => atStartWithin_eq_none_iff, ?_⟩
  · cases hfound : atStartWithin pattern (Branch.parse pattern).repetitionCount text with
    | none =>
        obtain ⟨chain, hchain, hdeep⟩ := atStartWithin_eq_none_iff.mp hfound
        exact absurd hchain.length_le (Nat.not_le_of_lt hdeep)
    | some found => rw [follows_atStart _ _ _ _ hfound]
  · intro chain hchain
    exact ⟨hchain.length_le, hchain.pairwise_shorterEnd, fun _ _ => hchain.exists_leaves⟩

/-- The star has failed with no letter when the optional letter is entered behind the bracket. -/
theorem nesting_le_repetitions_two_deep :
    let pattern := "a*[b]b?$".toList
    let text := "abb".toList
    let chain : List Activation :=
      [⟨.char 'a', .anyNumber, "[b]b?$".toList, text⟩,
        ⟨.char 'b', .atMostOnce, "$".toList, "b".toList⟩]
    Nests pattern text chain ∧
      atStartWithin pattern 2 text = some (atStart pattern text) ∧
      atStartWithin pattern 1 text = none ∧
      chain.length ≤ 2 ∧ (pattern :: chain.map (·.rest)).Pairwise ShorterEnd ∧
      ∃ pieces, Leaves pattern pieces "$".toList ∧ pieces.countP (·.isRepeated) = 2 := by
  intro pattern text chain
  have hstar : Begins pattern (.repeated (.char 'a') .anyNumber) "[b]b?$".toList :=
    Branch.begins_iff.mpr (by decide)
  have hbracket : Begins "[b]b?$".toList (.single (.bracket (.ofToken "[b]".toList)))
      "b?$".toList :=
    Branch.begins_iff.mpr (by decide)
  have hmark : Begins "b?$".toList (.repeated (.char 'b') .atMostOnce) "$".toList :=
    Branch.begins_iff.mpr (by decide)
  have htries : Activation.Tries ⟨.char 'a', .anyNumber, "[b]b?$".toList, text⟩ 1 := by
    refine ⟨⟨by decide, by decide⟩, by decide, ?_⟩
    intro less _ hless
    obtain rfl := Nat.lt_one_iff.mp hless
    decide +kernel
  have hchain : Nests pattern text chain :=
    .inside (.repeated text hstar) htries
      (.entered (.single hbracket (by decide) (.repeated _ hmark)))
  have hcount : (Branch.parse pattern).repetitionCount = 2 := by decide +kernel
  obtain ⟨branch, hreads, hsearch⟩ := nesting_le_repetitions pattern
  obtain rfl := hreads.deterministic (Branch.reads_parse pattern)
  obtain ⟨hwithin, hnone, hdepth⟩ := hsearch text
  obtain ⟨hlength, hshorter, hleaves⟩ := hdepth chain hchain
  rw [hcount] at hwithin hlength
  exact ⟨hchain, hwithin, (hnone 1).mpr ⟨chain, hchain, by decide⟩, hlength, hshorter,
    hleaves 1 _ rfl⟩

end Search

end RegexSearch
