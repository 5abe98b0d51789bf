import Mathlib.Data.Bool.AllAny
import Mathlib.Data.List.Basic

/-!
# Utf8 — bytes that encode characters

* `Valid bytes` — the bytes are the encodings of some characters, one after the other;
* `eq_singleton_of_ascii` — a byte below `0x80` is the whole encoding of its character;
* `valid_append_ascii` — such a byte cuts a text into two texts.
-/

namespace Utf8

/-- The bytes encode a sequence of characters. -/
def Valid (bytes : List UInt8) : Prop :=
  ∃ chars : List Char, bytes = chars.flatMap String.utf8EncodeChar

theorem Valid.nil : Valid [] :=
  ⟨[], rfl⟩

theorem Valid.char (c : Char) : Valid (String.utf8EncodeChar c) :=
  ⟨[c], by simp⟩

theorem Valid.append {bytes rest : List UInt8} (h : Valid bytes) (h' : Valid rest) :
    Valid (bytes ++ rest) := by
  obtain ⟨chars, rfl⟩ := h
  obtain ⟨chars', rfl⟩ := h'
  exact ⟨chars ++ chars', List.flatMap_append.symm⟩

/-- The bytes of a string. -/
theorem Valid.toUTF8 (s : String) : Valid s.toUTF8.data.toList := by
  obtain ⟨chars, heq⟩ := s.isValidUTF8
  exact ⟨chars, by simp [String.toUTF8, heq, List.utf8Encode]⟩

/-! ## Bytes below 0x80 -/

theorem ofNat_lt {n : Nat} (hlt : n < 256) (hb : UInt8.ofNat n < 0x80) : n < 0x80 := by
  have heq : (UInt8.ofNat n).toNat = n := by
    rw [UInt8.toNat_ofNat']
    exact Nat.mod_eq_of_lt hlt
  rw [UInt8.lt_iff_toNat_lt, heq] at hb
  exact hb

/-- A byte below `0x80` is the whole encoding of the character with that number. -/
theorem eq_singleton_of_ascii {c : Char} {b : UInt8} (hmem : b ∈ String.utf8EncodeChar c)
    (hb : b < 0x80) : String.utf8EncodeChar c = [b] ∧ c.toNat = b.toNat := by
  have hval : c.val.toNat = c.toNat := rfl
  unfold String.utf8EncodeChar at hmem ⊢
  dsimp only at hmem ⊢
  split at hmem
  · next hone =>
      obtain rfl := List.mem_singleton.1 hmem
      rw [if_pos hone]
      refine ⟨rfl, ?_⟩
      rw [UInt8.toNat_ofNat', ← hval]
      exact (Nat.mod_eq_of_lt (by omega)).symm
  -- bytes of longer encodings have their high bit set
  · split at hmem
    · simp only [List.mem_cons, List.not_mem_nil, or_false] at hmem
      rcases hmem with rfl | rfl <;> exact absurd (ofNat_lt (by omega) hb) (by omega)
    · split at hmem
      · simp only [List.mem_cons, List.not_mem_nil, or_false] at hmem
        rcases hmem with rfl | rfl | rfl <;> exact absurd (ofNat_lt (by omega) hb) (by omega)
      · simp only [List.mem_cons, List.not_mem_nil, or_false] at hmem
        rcases hmem with rfl | rfl | rfl | rfl <;>
          exact absurd (ofNat_lt (by omega) hb) (by omega)

/-- A character below `0x80` is encoded by its number. -/
theorem utf8EncodeChar_of_lt {c : Char} (hlt : c.toNat < 0x80) :
    String.utf8EncodeChar c = [UInt8.ofNat c.toNat] := by
  have hval : c.val.toNat = c.toNat := rfl
  rw [String.utf8EncodeChar, hval, if_pos (by omega)]

/-- A byte below `0x80` is the encoding of a character. -/
theorem Valid.ascii {b : UInt8} (hb : b < 0x80) : Valid [b] := by
  have hlt : b.toNat < 0x80 := hb
  have hvalid : b.toNat.isValidChar := Or.inl (by omega)
  have htoNat : (Char.ofNatAux b.toNat hvalid).toNat = b.toNat := rfl
  refine ⟨[Char.ofNatAux b.toNat hvalid], ?_⟩
  rw [List.flatMap_singleton, utf8EncodeChar_of_lt (by rw [htoNat]; exact hlt), htoNat,
    UInt8.ofNat_toNat]

theorem Valid.ascii_iff {b : UInt8} : Valid [b] ↔ b < 0x80 := by
  constructor
  · rintro ⟨chars, heq⟩
    cases chars with
    | nil => simp at heq
    | cons c chars =>
        have hsize := String.length_utf8EncodeChar c
        have hlength := congrArg List.length heq
        rw [List.flatMap_cons, List.length_append, List.length_singleton] at hlength
        -- one byte encodes a character below `0x80`
        have hone : c.utf8Size = 1 := by
          have hpos := c.utf8Size_pos
          omega
        have hlt : c.toNat < 0x80 := Nat.lt_succ_of_le (Char.utf8Size_eq_one_iff.1 hone)
        rw [List.flatMap_cons, utf8EncodeChar_of_lt hlt, List.singleton_append,
          List.cons.injEq] at heq
        rw [heq.1, UInt8.lt_iff_toNat_lt, UInt8.toNat_ofNat', Nat.mod_eq_of_lt (by omega)]
        exact hlt
  · exact Valid.ascii

/-- A byte below `0x80` cuts a text into two. -/
theorem valid_append_ascii {b : UInt8} (hb : b < 0x80) {before after : List UInt8} :
    Valid (before ++ b :: after) ↔ Valid before ∧ Valid after := by
  constructor
  · rintro ⟨chars, heq⟩
    induction chars generalizing before with
    | nil => simp at heq
    | cons c chars ih =>
        rw [List.flatMap_cons] at heq
        rcases List.append_eq_append_iff.1 heq with ⟨l, hc, hrest⟩ | ⟨l, hbefore, hrest⟩
        · cases l with
          | nil =>
              -- the byte begins the encoding of the next character
              obtain ⟨-, hafter⟩ := ih ((List.nil_append _).trans hrest)
              exact ⟨by rw [List.append_nil] at hc; exact hc ▸ Valid.char c, hafter⟩
          | cons b' l =>
              rw [List.cons_append, List.cons.injEq] at hrest
              obtain ⟨rfl, rfl⟩ := hrest
              -- the byte is in the encoding of this character, so it is all of it
              have hone := (eq_singleton_of_ascii (c := c) (by simp [hc]) hb).1
              rw [hc] at hone
              obtain ⟨rfl, rfl⟩ : before = [] ∧ l = [] := by
                cases before with
                | nil => simpa using hone
                | cons a before => simp at hone
              exact ⟨Valid.nil, chars, rfl⟩
        · obtain ⟨hvalid, hafter⟩ := ih hrest.symm
          exact ⟨hbefore ▸ (Valid.char c).append hvalid, hafter⟩
  · rintro ⟨hbefore, hafter⟩
    exact hbefore.append ((Valid.ascii hb).append hafter)

end Utf8
