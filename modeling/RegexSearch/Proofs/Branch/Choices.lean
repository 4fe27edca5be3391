import RegexSearch.Log.Record
import RegexSearch.Proofs.Branch.Enumeration

/-! Choices of counts, the repetitions they lead to, and their order. Nothing here
refers to a search. -/

namespace RegexSearch

/-! ## Maximal runs -/

def Atom.RunsFor (atom : Atom) (text : List Char) (count : ℕ) : Prop :=
  ∃ run rest, text = run ++ rest ∧ run.length = count ∧ (∀ c ∈ run, atom.accepts c) ∧
    ∀ c ∈ rest.head?, ¬ atom.accepts c

theorem Atom.runsFor_runLength (atom : Atom) (text : List Char) :
    atom.RunsFor text (atom.runLength text) := by
  refine ⟨text.takeWhile atom.accepts, text.dropWhile atom.accepts,
    List.takeWhile_append_dropWhile.symm, rfl, fun _ => List.mem_takeWhile_imp, ?_⟩
  intro c hc
  obtain ⟨rest, hrest⟩ := List.head?_eq_some_iff.mp hc
  have hhead := List.head_dropWhile_not atom.accepts (l := text) (by simp [hrest])
  simpa [hrest] using hhead

namespace Branch

/-! ## Reachable and final choices -/

/-- With these counts the pieces in front of a repetition consume the text up to the last list. -/
def Reaches (pieces : List Piece) (text : List Char) (choice : Choice) (atom : Atom)
    (bounds : Bounds) (rest : List Char) : Prop :=
  ∃ front back, pieces = front ++ .repeated atom bounds :: back ∧
    Consumes front choice text rest

def reachable (pieces : List Piece) (text : List Char) : Set Choice :=
  {choice | ∃ atom bounds rest, Reaches pieces text choice atom bounds rest}

/-- The choices with which all pieces are done and the ending admits what they leave. -/
def final (ending : Ending) (pieces : List Piece) (text : List Char) : Set Choice :=
  {choice | ∃ rest, Consumes pieces choice text rest ∧ ending.Admits rest}

/-- The record of the repetition that a choice leads to. -/
def Announces (pieces : List Piece) (text : List Char) (choice : Choice)
    (record : Log.Record) : Prop :=
  ∃ atom bounds rest run, Reaches pieces text choice atom bounds rest ∧ atom.RunsFor rest run ∧
    record = .repetition atom bounds run

/-- A final choice has more counts than the choices that lead to a repetition. -/
theorem length_lt_of_mem_final {ending : Ending} {pieces : List Piece} {text : List Char}
    {choice last : Choice} (hchoice : choice ∈ reachable pieces text)
    (hlast : last ∈ final ending pieces text) : choice.length < last.length := by
  obtain ⟨atom, bounds, _, front, back, rfl, hfront⟩ := hchoice
  obtain ⟨_, hconsumes, -⟩ := hlast
  rw [hfront.length_choice, hconsumes.length_choice]
  simp only [List.countP_append, List.countP_cons, Piece.isRepeated, if_true]
  omega

/-! ## One piece after the other -/

variable {pieces : List Piece} {choice : Choice} {text rest : List Char} {record : Log.Record}

theorem reaches_single_iff {first atom : Atom} {bounds : Bounds} :
    Reaches (.single first :: pieces) text choice atom bounds rest ↔
      ∃ c tail, text = c :: tail ∧ first.accepts c ∧
        Reaches pieces tail choice atom bounds rest := by
  constructor
  · intro ⟨front, back, hpieces, hconsumes⟩
    cases front with
    | nil => simp at hpieces
    | cons piece front =>
        obtain ⟨rfl, rfl⟩ := List.cons.inj hpieces
        obtain ⟨c, tail, rfl, haccepts, htail⟩ := Consumes.single_iff.mp hconsumes
        exact ⟨c, tail, rfl, haccepts, front, back, rfl, htail⟩
  · intro ⟨c, tail, htext, haccepts, front, back, hpieces, htail⟩
    exact ⟨.single first :: front, back, by simp [hpieces],
      Consumes.single_iff.mpr ⟨c, tail, htext, haccepts, htail⟩⟩

theorem reaches_repeated_iff {first atom : Atom} {limits bounds : Bounds} :
    Reaches (.repeated first limits :: pieces) text choice atom bounds rest ↔
      (choice = [] ∧ atom = first ∧ bounds = limits ∧ rest = text) ∨
        ∃ count counts, choice = count :: counts ∧ limits.Admits count ∧
          count ≤ first.runLength text ∧
          Reaches pieces (text.drop count) counts atom bounds rest := by
  constructor
  · intro ⟨front, back, hpieces, hconsumes⟩
    cases front with
    | nil =>
        obtain ⟨hpiece, -⟩ := List.cons.inj hpieces
        obtain ⟨rfl, rfl⟩ := Piece.repeated.inj hpiece
        obtain ⟨rfl, rfl⟩ := Consumes.nil_iff.mp hconsumes
        exact .inl ⟨rfl, rfl, rfl, rfl⟩
    | cons piece front =>
        obtain ⟨rfl, rfl⟩ := List.cons.inj hpieces
        obtain ⟨count, counts, rfl, hadmits, hrun, htail⟩ := Consumes.repeated_iff.mp hconsumes
        exact .inr ⟨count, counts, rfl, hadmits, hrun, front, back, rfl, htail⟩
  · intro h
    rcases h with ⟨rfl, rfl, rfl, rfl⟩ | ⟨count, counts, rfl, hadmits, hrun, hreaches⟩
    · exact ⟨[], pieces, rfl, .nil _⟩
    · obtain ⟨front, back, hpieces, htail⟩ := hreaches
      exact ⟨.repeated first limits :: front, back, by simp [hpieces],
        Consumes.repeated_iff.mpr ⟨count, counts, rfl, hadmits, hrun, htail⟩⟩

theorem reachable_nil : reachable [] text = ∅ := by
  ext choice
  simp [reachable, Reaches]

theorem reachable_single_nil {atom : Atom} : reachable (.single atom :: pieces) [] = ∅ := by
  ext choice
  simp [reachable, reaches_single_iff]

theorem reachable_single_cons {atom : Atom} {c : Char} :
    reachable (.single atom :: pieces) (c :: text) =
      if atom.accepts c then reachable pieces text else ∅ := by
  ext choice
  by_cases h : atom.accepts c <;> simp [reachable, reaches_single_iff, h]

theorem reachable_repeated {atom : Atom} {bounds : Bounds} :
    reachable (.repeated atom bounds :: pieces) text =
      insert [] (Choice.counted bounds.lower (min (atom.runLength text) bounds.upper)
        fun count => reachable pieces (text.drop count)) := by
  ext choice
  simp only [reachable, reaches_repeated_iff, Set.mem_ofPred_eq, Set.mem_insert_iff, Choice.counted]
  constructor
  · intro h
    rcases h with ⟨_, _, _, ⟨rfl, -⟩ | ⟨count, counts, rfl, ⟨hlower, hupper⟩, hrun, hreaches⟩⟩
    · exact .inl rfl
    · exact .inr ⟨count, counts, rfl, hlower, le_min hrun hupper, _, _, _, hreaches⟩
  · intro h
    rcases h with rfl | ⟨count, counts, rfl, hlower, hmost, _, _, _, hreaches⟩
    · exact ⟨atom, bounds, text, .inl ⟨rfl, rfl, rfl, rfl⟩⟩
    · obtain ⟨hrun, hupper⟩ := Nat.le_min.mp hmost
      exact ⟨_, _, _, .inr ⟨count, counts, rfl, ⟨hlower, hupper⟩, hrun, hreaches⟩⟩

theorem final_single_nil {ending : Ending} {atom : Atom} :
    final ending (.single atom :: pieces) [] = ∅ := by
  ext choice
  simp [final, Consumes.single_iff]

theorem final_single_cons {ending : Ending} {atom : Atom} {c : Char} :
    final ending (.single atom :: pieces) (c :: text) =
      if atom.accepts c then final ending pieces text else ∅ := by
  ext choice
  by_cases h : atom.accepts c <;> simp [final, Consumes.single_iff, h]

theorem final_repeated {ending : Ending} {atom : Atom} {bounds : Bounds} :
    final ending (.repeated atom bounds :: pieces) text =
      Choice.counted bounds.lower (min (atom.runLength text) bounds.upper)
        fun count => final ending pieces (text.drop count) := by
  ext choice
  simp only [final, Consumes.repeated_iff, Set.mem_ofPred_eq, Choice.counted]
  constructor
  · intro h
    obtain ⟨rest, ⟨count, counts, rfl, ⟨hlower, hupper⟩, hrun, htail⟩, hadmits⟩ := h
    exact ⟨count, counts, rfl, hlower, le_min hrun hupper, rest, htail, hadmits⟩
  · intro h
    obtain ⟨count, counts, rfl, hlower, hmost, rest, htail, hadmits⟩ := h
    obtain ⟨hrun, hupper⟩ := Nat.le_min.mp hmost
    exact ⟨rest, ⟨count, counts, rfl, ⟨hlower, hupper⟩, hrun, htail⟩, hadmits⟩

/-! ## Records -/

theorem announces_entry (atom : Atom) (bounds : Bounds) (pieces : List Piece)
    (text : List Char) :
    Announces (.repeated atom bounds :: pieces) text []
      (.repetition atom bounds (atom.runLength text)) :=
  ⟨atom, bounds, text, _, reaches_repeated_iff.mpr (.inl ⟨rfl, rfl, rfl, rfl⟩),
    atom.runsFor_runLength text, rfl⟩

theorem Announces.single {atom : Atom} {c : Char} (haccepts : atom.accepts c)
    (h : Announces pieces text choice record) :
    Announces (.single atom :: pieces) (c :: text) choice record := by
  obtain ⟨_, _, _, run, hreaches, hrun, rfl⟩ := h
  exact ⟨_, _, _, run, reaches_single_iff.mpr ⟨c, text, rfl, haccepts, hreaches⟩, hrun, rfl⟩

theorem Announces.repeated {atom : Atom} {bounds : Bounds} {count : ℕ}
    (hadmits : bounds.Admits count) (hrun : count ≤ atom.runLength text)
    (h : Announces pieces (text.drop count) choice record) :
    Announces (.repeated atom bounds :: pieces) text (count :: choice) record := by
  obtain ⟨_, _, _, run, hreaches, hlength, rfl⟩ := h
  exact ⟨_, _, _, run, reaches_repeated_iff.mpr
    (.inr ⟨count, choice, rfl, hadmits, hrun, hreaches⟩), hlength, rfl⟩

end Branch

end RegexSearch
