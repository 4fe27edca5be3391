import RegexSearch.Atom
import RegexSearch.Bounds

/-! # Branches

A pattern, read once from the left, is a list of pieces and an ending. A piece is an atom with at
most one repetition symbol. The ending tells what remains when no further piece can be read. -/

namespace RegexSearch

inductive Piece where
  /-- The atom exactly once. -/
  | single (atom : Atom)
  /-- The atom as often as the bounds allow. -/
  | repeated (atom : Atom) (bounds : Bounds)
deriving DecidableEq

/-- What follows the last piece of a branch. -/
inductive Ending where
  /-- Nothing. -/
  | exhausted
  /-- A closing dollar sign: the text must end here. -/
  | endOfText
  /-- A bracket that no later bracket closes. Holds the pattern from that bracket on. -/
  | unclosed (rest : List Char)
deriving DecidableEq

/-- A pattern without its leading anchor, taken apart. -/
structure Branch where
  pieces : List Piece
  ending : Ending
deriving DecidableEq

/-! ## Reading -/

/-- Reads a bracket expression whose opening bracket has been read: its body and what follows its
closing bracket, the first one there is. -/
def Bracket.readBody? (pattern : List Char) : Option (List Char × List Char) :=
  match pattern.dropWhile (· != ']') with
  | [] => none
  | _ :: rest => some (pattern.takeWhile (· != ']'), rest)

/-- Reads the atom that starts with a given character: the atom and what follows it. Only an
opening bracket can fail to start one, for want of a closing bracket. -/
def Atom.read? (first : Char) (rest : List Char) : Option (Atom × List Char) :=
  if first = '[' then
    (Bracket.readBody? rest).map fun (body, tail) => (.bracket (.ofBody body), tail)
  else some (.ofChar first, rest)

/-- Reads the piece that starts with a given character: the piece and what follows it. A
repetition symbol right behind the atom belongs to it. -/
def Piece.read? (first : Char) (rest : List Char) : Option (Piece × List Char) :=
  (Atom.read? first rest).map fun (atom, tail) =>
    match Bounds.read? tail with
    | some (bounds, tail) => (.repeated atom bounds, tail)
    | none => (.single atom, tail)

theorem Bracket.eq_of_readBody? {pattern body rest : List Char}
    (h : readBody? pattern = some (body, rest)) : pattern = body ++ ']' :: rest := by
  unfold readBody? at h
  cases hdrop : pattern.dropWhile (· != ']') with
  | nil => simp [hdrop] at h
  | cons c tail =>
      have hc : c = ']' := by
        have := List.head_dropWhile_not (· != ']') (l := pattern) (by simp [hdrop])
        simpa [hdrop] using this
      subst hc
      simp only [hdrop, Option.some.injEq, Prod.mk.injEq] at h
      obtain ⟨rfl, rfl⟩ := h
      rw [← hdrop, List.takeWhile_append_dropWhile]

theorem Atom.length_of_read? {first : Char} {rest tail : List Char} {atom : Atom}
    (h : read? first rest = some (atom, tail)) : tail.length ≤ rest.length := by
  unfold read? at h
  split at h
  · obtain ⟨⟨body, after⟩, hbody, heq⟩ := Option.map_eq_some_iff.mp h
    obtain ⟨_, rfl⟩ := Prod.mk.inj heq
    simp only [Bracket.eq_of_readBody? hbody, List.length_append, List.length_cons]
    omega
  · obtain ⟨_, rfl⟩ := Prod.mk.inj (Option.some.inj h)
    exact Nat.le_refl _

theorem Piece.length_of_read? {first : Char} {rest tail : List Char} {piece : Piece}
    (h : read? first rest = some (piece, tail)) : tail.length ≤ rest.length := by
  obtain ⟨⟨atom, after⟩, hatom, heq⟩ := Option.map_eq_some_iff.mp h
  have hle := Atom.length_of_read? hatom
  dsimp only at heq
  split at heq
  · next hbounds =>
      have := Bounds.length_of_read? hbounds
      obtain ⟨_, rfl⟩ := Prod.mk.inj heq
      omega
  · obtain ⟨_, rfl⟩ := Prod.mk.inj heq
    exact hle

namespace Branch

def cons (piece : Piece) (branch : Branch) : Branch :=
  ⟨piece :: branch.pieces, branch.ending⟩

/-- Reads a pattern. A dollar sign ends the branch only if it is all that remains. -/
def parse : List Char → Branch
  | [] => ⟨[], .exhausted⟩
  | ['$'] => ⟨[], .endOfText⟩
  | first :: rest =>
    match h : Piece.read? first rest with
    | none => ⟨[], .unclosed (first :: rest)⟩
    | some (piece, tail) =>
      have : tail.length < rest.length + 1 := Nat.lt_succ_of_le (Piece.length_of_read? h)
      (parse tail).cons piece
termination_by pattern => pattern.length

end Branch

end RegexSearch
