import RegexSearch.Text.Utf8
import Mathlib.Algebra.Ring.Nat

/-! A character of one byte stands among the bytes of a text exactly if it stands in the text, for
all bytes of longer characters are greater. A text may be cut between characters only. -/

namespace RegexSearch.Text

/-! ## Bytes of a character -/

theorem continuesChar_iff {byte : UInt8} :
    continuesChar byte ↔ 0x80 ≤ byte.toNat ∧ byte.toNat < 0xC0 := by
  rw [continuesChar, Bool.and_eq_true, decide_eq_true_iff, decide_eq_true_iff,
    UInt8.le_iff_toNat_le, UInt8.lt_iff_toNat_lt]
  rfl

/-- A byte has room for some bits of a code point and a mark above them. -/
theorem toNat_ofNat_mod_add {n size mark : ℕ} (hsize : 0 < size) (h : size + mark ≤ 256) :
    (UInt8.ofNat (n % size + mark)).toNat = n % size + mark := by
  have hlt : n % size < size := Nat.mod_lt n hsize
  rw [UInt8.toNat_ofNat', Nat.mod_eq_of_lt (by omega)]

theorem le_toNat_ofNat_mod_add {n size mark : ℕ} (hsize : 0 < size) (h : size + mark ≤ 256)
    (hmark : 0xC0 ≤ mark) : 0xC0 ≤ (UInt8.ofNat (n % size + mark)).toNat := by
  rw [toNat_ofNat_mod_add hsize h]
  omega

theorem continuesChar_ofNat_mod_add (n : ℕ) : continuesChar (UInt8.ofNat (n % 0x40 + 0x80)) := by
  rw [continuesChar_iff, toNat_ofNat_mod_add (by decide) (by decide)]
  omega

theorem utf8EncodeChar_of_lt {c : Char} (h : c.val.toNat < 0x80) :
    String.utf8EncodeChar c = [UInt8.ofNat c.val.toNat] :=
  if_pos (Nat.le_of_lt_succ h)

theorem exists_utf8EncodeChar_of_le {c : Char} (h : 0x80 ≤ c.val.toNat) :
    ∃ first others, String.utf8EncodeChar c = first :: others ∧ 0xC0 ≤ first.toNat ∧
      ∀ byte ∈ others, continuesChar byte := by
  have hlong : ¬ c.val.toNat ≤ 0x7f := by omega
  have hother := continuesChar_ofNat_mod_add
  unfold String.utf8EncodeChar
  simp only [hlong, if_false]
  -- two, three and four bytes
  split
  · refine ⟨_, _, rfl, le_toNat_ofNat_mod_add (by decide) (by decide) (by decide), ?_⟩
    exact List.forall_mem_singleton.mpr (hother _)
  split
  · refine ⟨_, _, rfl, le_toNat_ofNat_mod_add (by decide) (by decide) (by decide), ?_⟩
    exact List.forall_mem_cons.mpr ⟨hother _, List.forall_mem_singleton.mpr (hother _)⟩
  · refine ⟨_, _, rfl, le_toNat_ofNat_mod_add (by decide) (by decide) (by decide), ?_⟩
    exact List.forall_mem_cons.mpr ⟨hother _,
      List.forall_mem_cons.mpr ⟨hother _, List.forall_mem_singleton.mpr (hother _)⟩⟩

/-- The first byte of a character continues none, and all others do. -/
theorem exists_utf8EncodeChar (c : Char) :
    ∃ first others, String.utf8EncodeChar c = first :: others ∧ ¬ continuesChar first ∧
      ∀ byte ∈ others, continuesChar byte := by
  by_cases h : c.val.toNat < 0x80
  · refine ⟨_, [], utf8EncodeChar_of_lt h, ?_, by simp⟩
    rw [continuesChar_iff, UInt8.toNat_ofNat']
    omega
  · obtain ⟨first, others, hbytes, hfirst, hothers⟩ :=
      exists_utf8EncodeChar_of_le (Nat.le_of_not_lt h)
    refine ⟨first, others, hbytes, ?_, hothers⟩
    rw [continuesChar_iff]
    omega

/-- No byte of a longer character can be taken for a character of its own. -/
theorem le_toNat_of_mem_utf8EncodeChar {c : Char} (h : 0x80 ≤ c.val.toNat) {byte : UInt8}
    (hbyte : byte ∈ String.utf8EncodeChar c) : 0x80 ≤ byte.toNat := by
  obtain ⟨first, others, hbytes, hfirst, hothers⟩ := exists_utf8EncodeChar_of_le h
  rw [hbytes] at hbyte
  rcases List.mem_cons.mp hbyte with rfl | hmem
  · omega
  · exact (continuesChar_iff.mp (hothers byte hmem)).1

theorem mem_utf8EncodeChar_iff {c d : Char} (h : c.val.toNat < 0x80) :
    UInt8.ofNat c.val.toNat ∈ String.utf8EncodeChar d ↔ d = c := by
  have hbyte : (UInt8.ofNat c.val.toNat).toNat = c.val.toNat := by
    rw [UInt8.toNat_ofNat', Nat.mod_eq_of_lt (by omega)]
  constructor
  · intro hmem
    by_cases hshort : d.val.toNat < 0x80
    · rw [utf8EncodeChar_of_lt hshort, List.mem_singleton] at hmem
      have hcode := congrArg UInt8.toNat hmem
      rw [hbyte, UInt8.toNat_ofNat', Nat.mod_eq_of_lt (by omega)] at hcode
      exact Char.ext (UInt32.toNat_inj.mp hcode.symm)
    · have hle := le_toNat_of_mem_utf8EncodeChar (Nat.le_of_not_lt hshort) hmem
      omega
  · rintro rfl
    rw [utf8EncodeChar_of_lt h]
    exact List.mem_singleton_self _

/-! ## Bytes of a text -/

theorem utf8_cons (c : Char) (text : List Char) :
    utf8 (c :: text) = String.utf8EncodeChar c ++ utf8 text := rfl

theorem utf8_append (front back : List Char) : utf8 (front ++ back) = utf8 front ++ utf8 back :=
  List.flatMap_append

/-- A string is stored as these bytes. -/
theorem toByteArray_utf8 (text : String) : (utf8 text.toList).toByteArray = text.toByteArray :=
  String.utf8Encode_toList

theorem length_utf8 (text : List Char) : (utf8 text).length = (text.map Char.utf8Size).sum := by
  simp only [utf8, List.length_flatMap, String.length_utf8EncodeChar]

theorem mem_utf8_iff {c : Char} (h : c.val.toNat < 0x80) {text : List Char} :
    UInt8.ofNat c.val.toNat ∈ utf8 text ↔ c ∈ text := by
  simp only [utf8, List.mem_flatMap, mem_utf8EncodeChar_iff h, exists_eq_right]

/-! ## Cuts -/

theorem isBoundary_iff {bytes : List UInt8} {index : ℕ} :
    isBoundary bytes index ↔ index = 0 ∨ index = bytes.length ∨
      ∃ byte, bytes[index]? = some byte ∧ ¬ continuesChar byte := by
  rw [isBoundary, Bool.or_eq_true, beq_iff_eq]
  apply or_congr_right
  cases h : bytes[index]? with
  | none => simp
  | some byte =>
      have hlt := (List.getElem?_eq_some_iff.mp h).1
      simp [Nat.ne_of_lt hlt]

theorem isBoundary_of_append {front back : List UInt8} {index : ℕ}
    (h : isBoundary (front ++ back) (front.length + index)) : isBoundary back index := by
  rw [isBoundary_iff, List.length_append, List.getElem?_append_right (Nat.le_add_right _ _),
    Nat.add_sub_cancel_left] at h
  rw [isBoundary_iff]
  rcases h with hzero | hend | hbyte
  · exact .inl (Nat.eq_zero_of_add_eq_zero_left hzero)
  · exact .inr (.inl (Nat.add_left_cancel hend))
  · exact .inr (.inr hbyte)

theorem not_isBoundary_within {first : UInt8} {others back : List UInt8} {index : ℕ}
    (hothers : ∀ byte ∈ others, continuesChar byte) (h : index < others.length) :
    ¬ isBoundary (first :: others ++ back) (index + 1) := by
  rw [isBoundary_iff, List.cons_append, List.getElem?_cons_succ, List.getElem?_append_left h,
    List.getElem?_eq_getElem h]
  rintro (hzero | hend | ⟨byte, hbyte, hcontinues⟩)
  · exact Nat.succ_ne_zero _ hzero
  · rw [List.length_cons, List.length_append] at hend
    omega
  · obtain rfl := Option.some.inj hbyte
    exact hcontinues (hothers _ (List.getElem_mem h))

theorem isBoundary_utf8 (front back : List Char) :
    isBoundary (utf8 (front ++ back)) (utf8 front).length := by
  rw [isBoundary_iff, utf8_append]
  cases back with
  | nil => exact .inr (.inl (by simp [utf8]))
  | cons c back =>
      obtain ⟨first, others, hbytes, hfirst, -⟩ := exists_utf8EncodeChar c
      exact .inr (.inr ⟨first, by simp [utf8_cons, hbytes], hfirst⟩)

/-- The boundaries of a text are the ends of its beginnings. -/
theorem isBoundary_utf8_iff {text : List Char} {index : ℕ} :
    isBoundary (utf8 text) index ↔
      ∃ front back, text = front ++ back ∧ index = (utf8 front).length := by
  constructor
  · intro h
    induction text generalizing index with
    | nil =>
        rcases isBoundary_iff.mp h with hzero | hend | ⟨byte, hbyte, -⟩
        · exact ⟨[], [], rfl, hzero⟩
        · exact ⟨[], [], rfl, hend⟩
        · simp [utf8] at hbyte
    | cons c text ih =>
        obtain ⟨first, others, hbytes, -, hothers⟩ := exists_utf8EncodeChar c
        rw [utf8_cons, hbytes] at h
        cases index with
        | zero => exact ⟨[], c :: text, rfl, rfl⟩
        | succ index =>
            by_cases hwithin : index < others.length
            · exact absurd h (not_isBoundary_within hothers hwithin)
            · obtain ⟨more, rfl⟩ := Nat.exists_eq_add_of_le (Nat.le_of_not_lt hwithin)
              have hindex : others.length + more + 1 = (first :: others).length + more := by
                rw [List.length_cons]
                omega
              rw [hindex] at h ⊢
              obtain ⟨front, back, rfl, rfl⟩ := ih (isBoundary_of_append h)
              refine ⟨c :: front, back, rfl, ?_⟩
              rw [utf8_cons, hbytes, List.length_append]
  · rintro ⟨front, back, rfl, rfl⟩
    exact isBoundary_utf8 front back

example : (List.range 8).filter (isBoundary (utf8 "é]日".toList)) = [0, 2, 3, 6] := by decide

theorem bytesBefore_utf8 (front back : List Char) :
    bytesBefore (utf8 (front ++ back)) (utf8 front).length = .ok (utf8 front) := by
  rw [bytesBefore, if_pos (isBoundary_utf8 front back), utf8_append, List.take_left]

theorem bytesFrom_utf8 (front back : List Char) :
    bytesFrom (utf8 (front ++ back)) (utf8 front).length = .ok (utf8 back) := by
  rw [bytesFrom, if_pos (isBoundary_utf8 front back), utf8_append, List.drop_left]

/-- An index at which bytes come apart into two texts. -/
structure CutsInto (bytes : List UInt8) (index : ℕ) (front back : List Char) : Prop where
  le_length : index ≤ bytes.length
  boundary : isBoundary bytes index
  before : bytesBefore bytes index = .ok (utf8 front)
  behind : bytesFrom bytes index = .ok (utf8 back)

theorem cutsInto_utf8 (front back : List Char) :
    CutsInto (utf8 (front ++ back)) (utf8 front).length front back where
  le_length := by
    rw [utf8_append, List.length_append]
    exact Nat.le_add_right _ _
  boundary := isBoundary_utf8 front back
  before := bytesBefore_utf8 front back
  behind := bytesFrom_utf8 front back

end RegexSearch.Text
