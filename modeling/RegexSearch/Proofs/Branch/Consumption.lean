import RegexSearch.Branch.Basic
import Mathlib.Data.List.Forall2
import Mathlib.Data.List.TakeWhile
import Mathlib.Data.Nat.Notation

/-! What pieces may consume. Every piece takes a segment of the text, and
a choice lists the lengths of the segments that repetitions take. -/

namespace RegexSearch

/-! ## Runs -/

theorem Atom.le_runLength_iff {atom : Atom} {k : ℕ} {text : List Char} :
    k ≤ atom.runLength text ↔ k ≤ text.length ∧ ∀ c ∈ text.take k, atom.accepts c := by
  unfold runLength
  induction text generalizing k with
  | nil => simp
  | cons c rest ih =>
      cases k with
      | zero => simp
      | succ k =>
          by_cases h : atom.accepts c
          · simp [h, ih]
          · simp [h]

theorem Atom.runLength_eq_length {atom : Atom} {text : List Char}
    (h : ∀ c ∈ text, atom.accepts c) : atom.runLength text = text.length := by
  rw [runLength, List.takeWhile_eq_self_iff.mpr h]

theorem Atom.length_le_runLength {atom : Atom} {segment rest : List Char}
    (h : ∀ c ∈ segment, atom.accepts c) : segment.length ≤ atom.runLength (segment ++ rest) :=
  le_runLength_iff.mpr ⟨by simp, by simpa using h⟩

/-! ## Segments -/

/-- The counts of one repetition after the other. -/
abbrev Choice := List ℕ

structure Bounds.Admits (bounds : Bounds) (count : ℕ) : Prop where
  lower_le : bounds.lower ≤ count
  le_upper : count ≤ bounds.upper

namespace Piece

@[simp] def atom : Piece → Atom
  | single atom => atom
  | repeated atom _ => atom

/-- How often its atom must occur. Without a symbol that is exactly once. -/
@[simp] def bounds : Piece → Bounds
  | single _ => ⟨1, 1, le_rfl⟩
  | repeated _ bounds => bounds

@[simp] def isRepeated : Piece → Bool
  | single _ => false
  | repeated _ _ => true

@[simp] def choice (count : ℕ) : Piece → Choice
  | single _ => []
  | repeated _ _ => [count]

/-- A segment is made of accepted characters, and their number is within the bounds. -/
structure Covers (piece : Piece) (segment : List Char) : Prop where
  count : piece.bounds.Admits segment.length
  accepted : ∀ c ∈ segment, piece.atom.accepts c

theorem covers_single_iff {atom : Atom} {segment : List Char} :
    (single atom).Covers segment ↔ ∃ c, segment = [c] ∧ atom.accepts c := by
  constructor
  · intro ⟨⟨hlower, hupper⟩, haccepted⟩
    obtain ⟨c, rfl⟩ := List.length_eq_one_iff.mp (Nat.le_antisymm hupper hlower)
    exact ⟨c, rfl, haccepted c (by simp)⟩
  · intro h
    obtain ⟨c, rfl, haccepts⟩ := h
    exact ⟨⟨le_rfl, le_rfl⟩, by simpa using haccepts⟩

end Piece

/-! ## Consumption -/

/-- Pieces take their segments from the front of a text in turn and leave the last list. -/
inductive Consumes : List Piece → Choice → List Char → List Char → Prop where
  | nil (text) : Consumes [] [] text text
  | cons {piece segment pieces choice text rest} : piece.Covers segment →
      Consumes pieces choice text rest →
      Consumes (piece :: pieces) (piece.choice segment.length ++ choice) (segment ++ text) rest

namespace Consumes

@[simp] theorem nil_iff {choice : Choice} {text rest : List Char} :
    Consumes [] choice text rest ↔ choice = [] ∧ rest = text := by
  constructor
  · intro h
    cases h
    exact ⟨rfl, rfl⟩
  · intro h
    obtain ⟨rfl, rfl⟩ := h
    exact .nil _

theorem length_choice {pieces : List Piece} {choice : Choice} {text rest : List Char}
    (h : Consumes pieces choice text rest) : choice.length = pieces.countP (·.isRepeated) := by
  induction h with
  | nil => rfl
  | @cons piece _ _ _ _ _ _ _ ih => cases piece <;> simp [ih, Nat.add_comm]

theorem single_iff {atom : Atom} {pieces : List Piece} {choice : Choice}
    {text rest : List Char} :
    Consumes (.single atom :: pieces) choice text rest ↔
      ∃ c tail, text = c :: tail ∧ atom.accepts c ∧ Consumes pieces choice tail rest := by
  constructor
  · intro h
    cases h with
    | cons hcovers htail =>
        obtain ⟨c, rfl, haccepts⟩ := Piece.covers_single_iff.mp hcovers
        exact ⟨c, _, rfl, haccepts, htail⟩
  · intro h
    obtain ⟨c, tail, rfl, haccepts, htail⟩ := h
    exact .cons (Piece.covers_single_iff.mpr ⟨c, rfl, haccepts⟩) htail

theorem repeated_iff {atom : Atom} {bounds : Bounds} {pieces : List Piece} {choice : Choice}
    {text rest : List Char} :
    Consumes (.repeated atom bounds :: pieces) choice text rest ↔
      ∃ count counts, choice = count :: counts ∧ bounds.Admits count ∧
        count ≤ atom.runLength text ∧ Consumes pieces counts (text.drop count) rest := by
  constructor
  · intro h
    cases h with
    | @cons _ segment _ counts tail _ hcovers htail =>
        refine ⟨segment.length, counts, rfl, hcovers.count, ?_, by simpa using htail⟩
        exact Atom.length_le_runLength hcovers.accepted
  · intro h
    obtain ⟨count, counts, rfl, hadmits, hrun, htail⟩ := h
    obtain ⟨hlength, haccepted⟩ := Atom.le_runLength_iff.mp hrun
    have htake : (text.take count).length = count := List.length_take_of_le hlength
    have hcovers : (Piece.repeated atom bounds).Covers (text.take count) :=
      ⟨by simpa [htake] using hadmits, haccepted⟩
    simpa [htake] using Consumes.cons hcovers htail

/-- Consumption divides a text into one segment for every piece and what they leave. -/
theorem exists_iff {pieces : List Piece} {text rest : List Char} :
    (∃ choice, Consumes pieces choice text rest) ↔
      ∃ segments, List.Forall₂ Piece.Covers pieces segments ∧
        text = segments.flatten ++ rest := by
  constructor
  · intro ⟨choice, h⟩
    induction h with
    | nil text => exact ⟨[], .nil, rfl⟩
    | cons hcovers _ ih =>
        obtain ⟨segments, hsegments, rfl⟩ := ih
        exact ⟨_ :: segments, .cons hcovers hsegments, by simp⟩
  · intro h
    obtain ⟨segments, hsegments, rfl⟩ := h
    induction hsegments with
    | nil => exact ⟨[], .nil _⟩
    | cons hcovers _ ih =>
        obtain ⟨choice, hchoice⟩ := ih
        rw [List.flatten_cons, List.append_assoc]
        exact ⟨_, .cons hcovers hchoice⟩

end Consumes

/-- What the pieces may leave of a text. -/
def Ending.Admits (ending : Ending) (rest : List Char) : Prop :=
  ending = .endOfText → rest = []

end RegexSearch
