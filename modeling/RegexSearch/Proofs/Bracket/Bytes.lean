import RegexSearch.Bracket.Bytes
import RegexSearch.Proofs.Text.Utf8
import RegexSearch.Proofs.Branch.Semantics

/-! The closing bracket is a character of one byte, and no other character has that byte. So the
cuts behind the first such byte fall between two characters. -/

namespace RegexSearch.Bracket

open Text

/-! ## Searching for a byte -/

/-- What is required of a search for a byte: it finds the first one there is. -/
structure FindsFirst (find : UInt8 → List UInt8 → Option ℕ) : Prop where
  found {byte bytes index} : find byte bytes = some index → bytes[index]? = some byte
  least {byte bytes index} : find byte bytes = some index → ∀ j < index, bytes[j]? ≠ some byte
  missing {byte bytes} : find byte bytes = none → byte ∉ bytes

/-- The search by the standard library finds the first byte. -/
theorem findsFirst_idxOf? : FindsFirst fun byte bytes => bytes.idxOf? byte where
  found h := by
    obtain ⟨hlt, heq, -⟩ := List.findIdx?_eq_some_iff_getElem.mp h
    rw [List.getElem?_eq_getElem hlt, beq_iff_eq.mp heq]
  least h j hj := by
    obtain ⟨hlt, -, hleast⟩ := List.findIdx?_eq_some_iff_getElem.mp h
    rw [List.getElem?_eq_getElem (hj.trans hlt)]
    simpa using hleast j hj
  missing h := List.idxOf?_eq_none_iff.mp h

variable {find : UInt8 → List UInt8 → Option ℕ}

theorem FindsFirst.eq_none_iff (hfind : FindsFirst find) {byte : UInt8} {bytes : List UInt8} :
    find byte bytes = none ↔ byte ∉ bytes := by
  refine ⟨hfind.missing, ?_⟩
  intro hmem
  cases h : find byte bytes with
  | none => rfl
  | some index => exact absurd (List.mem_of_getElem? (hfind.found h)) hmem

theorem FindsFirst.append (hfind : FindsFirst find) {byte : UInt8} {front back : List UInt8}
    (hmem : byte ∉ front) : find byte (front ++ byte :: back) = some front.length := by
  cases h : find byte (front ++ byte :: back) with
  | none => exact absurd (by simp) (hfind.missing h)
  | some index =>
      rcases Nat.lt_trichotomy index front.length with hlt | rfl | hgt
      · have hfound := hfind.found h
        rw [List.getElem?_append_left hlt] at hfound
        exact absurd (List.mem_of_getElem? hfound) hmem
      · rfl
      · exact absurd (by simp) (hfind.least h front.length hgt)

/-! ## Searching for the closing bracket -/

theorem closingByte_mem_utf8_iff {text : List Char} : closingByte ∈ utf8 text ↔ ']' ∈ text :=
  @mem_utf8_iff ']' (by decide) text

theorem FindsFirst.closing_eq_none_iff (hfind : FindsFirst find) {text : List Char} :
    find closingByte (utf8 text) = none ↔ ']' ∉ text := by
  rw [hfind.eq_none_iff, closingByte_mem_utf8_iff]

theorem FindsFirst.closing_append (hfind : FindsFirst find) {front back : List Char}
    (h : ']' ∉ front) :
    find closingByte (utf8 (front ++ ']' :: back)) = some (utf8 front).length := by
  rw [utf8_append]
  exact hfind.append (mt closingByte_mem_utf8_iff.mp h)

theorem FindsFirst.closing_eq_some_iff (hfind : FindsFirst find) {text : List Char} {last : ℕ} :
    find closingByte (utf8 text) = some last ↔
      ∃ front back, text = front ++ ']' :: back ∧ ']' ∉ front ∧ last = (utf8 front).length := by
  constructor
  · intro h
    have hmem : ']' ∈ text := by
      by_contra hmissing
      simp [hfind.closing_eq_none_iff.mpr hmissing] at h
    obtain ⟨front, back, rfl, hfront⟩ := List.eq_append_cons_of_mem hmem
    rw [hfind.closing_append hfront] at h
    exact ⟨front, back, rfl, hfront, (Option.some.inj h).symm⟩
  · rintro ⟨front, back, rfl, hfront, rfl⟩
    exact hfind.closing_append hfront

/-! ## Tokens -/

theorem length_utf8_closed (front : List Char) :
    (utf8 (front ++ [']'])).length = (utf8 front).length + 1 := by
  rw [utf8_append, List.length_append]
  rfl

theorem cutsInto_closed (front back : List Char) :
    CutsInto (utf8 (front ++ ']' :: back)) ((utf8 front).length + 1) (front ++ [']']) back := by
  rw [← length_utf8_closed, List.append_cons]
  exact cutsInto_utf8 _ _

theorem readTokenBytes_of_not_mem (hfind : FindsFirst find) {text : List Char}
    (h : ']' ∉ text) : readTokenBytes find (utf8 text) = .ok none := by
  rw [readTokenBytes, hfind.closing_eq_none_iff.mpr h]

theorem readTokenBytes_append (hfind : FindsFirst find) {front back : List Char}
    (h : ']' ∉ front) :
    readTokenBytes find (utf8 (front ++ ']' :: back)) =
      .ok (some (utf8 (front ++ [']']), utf8 back)) := by
  have hcut := cutsInto_closed front back
  rw [readTokenBytes, hfind.closing_append h]
  simp only [hcut.before, hcut.behind]
  rfl

/-- The bytes of a pattern are divided where its characters are: no cut can fail, and the token is
the one that is read by characters. -/
theorem readTokenBytes_utf8 (hfind : FindsFirst find) (rest : List Char) :
    let pattern := '[' :: rest
    (find closingByte (utf8 pattern) = none ↔ ']' ∉ pattern) ∧
    (∀ last, find closingByte (utf8 pattern) = some last →
      ∃ front back, pattern = front ++ ']' :: back ∧ ']' ∉ front ∧
        last = (front.map Char.utf8Size).sum ∧
        CutsInto (utf8 pattern) (last + 1) (front ++ [']']) back) ∧
    readTokenBytes find (utf8 pattern) =
      .ok ((readBody? rest).map fun (body, tail) => (utf8 ('[' :: (body ++ [']'])), utf8 tail)) ∧
    Atom.read? '[' rest =
      (readBody? rest).map fun (body, tail) =>
        (.bracket (.ofToken ('[' :: (body ++ [']']))), tail) := by
  intro pattern
  refine ⟨hfind.closing_eq_none_iff, ?_, ?_, ?_⟩
  · intro last hlast
    obtain ⟨front, back, hpattern, hfront, rfl⟩ := hfind.closing_eq_some_iff.mp hlast
    refine ⟨front, back, hpattern, hfront, length_utf8 front, ?_⟩
    rw [hpattern]
    exact cutsInto_closed front back
  · cases hread : readBody? rest with
    | none =>
        have hmissing : ']' ∉ pattern := by
          simpa [pattern] using readBody?_eq_none_iff.mp hread
        exact readTokenBytes_of_not_mem hfind hmissing
    | some parts =>
        obtain ⟨body, tail⟩ := parts
        have hbody : ']' ∉ '[' :: body := by
          simpa using not_mem_of_readBody? hread
        have hpattern : pattern = '[' :: body ++ ']' :: tail := by
          simp [pattern, eq_of_readBody? hread]
        rw [hpattern, readTokenBytes_append hfind hbody]
        rfl
  · simp only [Atom.read?, if_true, ofToken_bracketed]

theorem readTokenBytes_utf8_long_characters :
    FindsFirst (fun byte bytes => bytes.idxOf? byte) ∧
    readTokenBytes (fun byte bytes => bytes.idxOf? byte) (utf8 "[é日]🦀".toList) =
      .ok (some ([0x5B, 0xC3, 0xA9, 0xE6, 0x97, 0xA5, 0x5D], [0xF0, 0x9F, 0xA6, 0x80])) := by
  have hread := (readTokenBytes_utf8 findsFirst_idxOf? "é日]🦀".toList).2.2.1
  refine ⟨findsFirst_idxOf?, hread.trans ?_⟩
  decide

end RegexSearch.Bracket
