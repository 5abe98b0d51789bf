import S3Sink.Lib.Json

/-!
# Encoding — JSON texts are UTF-8

Outside its strings a JSON text has ASCII bytes only, and the characters of a string are encoded one
by one, so a text is valid UTF-8 as a whole.

* `Derives.utf8` — every derived sequence of bytes;
* `Object`, `ObjectText` — the texts whose value is an object; `ObjectText.utf8`;
* `stringChars_of_utf8` — valid UTF-8 without quotes, backslashes and control characters can stand
  between the quotes of a string.
-/

namespace Json

variable {ws : UInt8 → Prop} {kind : Kind} {bytes rest : List UInt8}

/-! ## Ascii -/

theorem utf8_of_ascii (h : ∀ b ∈ bytes, b < 0x80) : Utf8.Valid bytes := by
  induction bytes with
  | nil => exact Utf8.Valid.nil
  | cons b bytes ih =>
      obtain ⟨hb, hbytes⟩ := List.forall_mem_cons.1 h
      exact (Utf8.Valid.ascii hb).append (ih hbytes)

theorem StringChar.utf8 (h : StringChar bytes) : Utf8.Valid bytes := by
  cases h with
  | unescaped c => exact Utf8.Valid.char c
  | escape b hb =>
      have hall : ∀ b ∈ [(0x22 : UInt8), 0x5C, 0x2F, 0x62, 0x66, 0x6E, 0x72, 0x74], b < 0x80 :=
        List.all_iff_forall_prop.1 rfl
      exact utf8_of_ascii (List.forall_mem_cons.2 ⟨by decide,
        List.forall_mem_singleton.2 (hall b hb)⟩)
  | unicode a b c d ha hb hc hd =>
      apply utf8_of_ascii
      simp only [List.forall_mem_cons]
      exact ⟨by decide, by decide, ha.printable.2, hb.printable.2, hc.printable.2,
        hd.printable.2, fun _ h => absurd h List.not_mem_nil⟩

theorem StringChars.utf8 (h : StringChars bytes) : Utf8.Valid bytes := by
  induction h with
  | nil => exact Utf8.Valid.nil
  | cons hchar _ ih => exact hchar.utf8.append ih

/-! ## Texts -/

theorem Gap.utf8 (hws : ∀ b, ws b → b < 0x80) (h : Gap ws bytes) : Utf8.Valid bytes :=
  utf8_of_ascii fun b hb => hws b (h b hb)

theorem Derives.utf8 (hws : ∀ b, ws b → b < 0x80) (h : Derives ws kind bytes) :
    Utf8.Valid bytes := by
  have hbyte : ∀ b : UInt8, b < 0x80 → Utf8.Valid [b] := fun b => Utf8.Valid.ascii
  induction h with
  | null => exact utf8_of_ascii (List.all_iff_forall_prop.1 rfl)
  | true => exact utf8_of_ascii (List.all_iff_forall_prop.1 rfl)
  | false => exact utf8_of_ascii (List.all_iff_forall_prop.1 rfl)
  | string hchars =>
      exact ((hbyte _ (by decide)).append hchars.utf8).append (hbyte _ (by decide))
  | number hminus hint hfrac hexp =>
      exact utf8_of_ascii fun b hb => (number_bytes hminus hint hfrac hexp b hb).printable.2
  | emptyObject hgap =>
      exact ((hbyte _ (by decide)).append (hgap.utf8 hws)).append (hbyte _ (by decide))
  | object _ ih => exact ((hbyte _ (by decide)).append ih).append (hbyte _ (by decide))
  | emptyArray hgap =>
      exact ((hbyte _ (by decide)).append (hgap.utf8 hws)).append (hbyte _ (by decide))
  | array _ ih => exact ((hbyte _ (by decide)).append ih).append (hbyte _ (by decide))
  -- the name, the colon, the value
  | member hgap₁ hchars hgap₂ hgap₃ _ hgap₄ ih =>
      have hname := (((hgap₁.utf8 hws).append (hbyte 0x22 (by decide))).append
        hchars.utf8).append (hbyte 0x22 (by decide))
      have hcolon := (hname.append (hgap₂.utf8 hws)).append (hbyte 0x3A (by decide))
      exact ((hcolon.append (hgap₃.utf8 hws)).append ih).append (hgap₄.utf8 hws)
  | element hgap _ hgap' ih => exact ((hgap.utf8 hws).append ih).append (hgap'.utf8 hws)
  | nextMember _ _ ih ih' => exact (ih.append (hbyte _ (by decide))).append ih'
  | nextElement _ _ ih ih' => exact (ih.append (hbyte _ (by decide))).append ih'

/-- An object: braces around its members, or around a gap if it has none. -/
inductive Object (ws : UInt8 → Prop) : List UInt8 → Prop
  | empty {gap : List UInt8} (hgap : Gap ws gap) : Object ws ([0x7B] ++ gap ++ [0x7D])
  | members {bytes : List UInt8} (hmembers : Derives ws .members bytes) :
      Object ws ([0x7B] ++ bytes ++ [0x7D])

/-- A JSON text whose value is an object. -/
def ObjectText (ws : UInt8 → Prop) (bytes : List UInt8) : Prop :=
  ∃ gap object gap', Gap ws gap ∧ Object ws object ∧ Gap ws gap' ∧ bytes = gap ++ object ++ gap'

theorem Object.derives (h : Object ws bytes) : Derives ws .value bytes := by
  cases h with
  | empty hgap => exact Derives.emptyObject hgap
  | members hmembers => exact Derives.object hmembers

theorem ObjectText.utf8 (hws : ∀ b, ws b → b < 0x80) (h : ObjectText ws bytes) :
    Utf8.Valid bytes := by
  obtain ⟨gap, object, gap', hgap, hobject, hgap', rfl⟩ := h
  exact ((hgap.utf8 hws).append (hobject.derives.utf8 hws)).append (hgap'.utf8 hws)

theorem Whitespace.ascii {b : UInt8} (hb : Whitespace b) : b < 0x80 := by
  rcases hb with rfl | rfl | rfl | rfl <;> decide

/-! ## Strings from texts -/

/-- Valid UTF-8 without quotes, backslashes and control characters is the inside of a string. -/
theorem stringChars_of_utf8 (hvalid : Utf8.Valid bytes)
    (hplain : ∀ b ∈ bytes, b ≠ 0x22 ∧ b ≠ 0x5C ∧ 0x20 ≤ b) : StringChars bytes := by
  obtain ⟨chars, rfl⟩ := hvalid
  induction chars with
  | nil => exact StringChars.nil
  | cons c chars ih =>
      rw [List.flatMap_cons] at hplain ⊢
      obtain ⟨hc, hchars⟩ := List.forall_mem_append.1 hplain
      refine StringChars.cons (StringChar.unescaped c ?_ ?_ ?_) (ih hchars)
      · by_contra hlt
        rw [Nat.not_le] at hlt
        -- the character would be encoded by a control byte
        have hone := Utf8.utf8EncodeChar_of_lt (c := c) (by omega)
        have hbyte := (hc (UInt8.ofNat c.toNat) (by simp [hone])).2.2
        rw [UInt8.le_iff_toNat_le, UInt8.toNat_ofNat', Nat.mod_eq_of_lt (by omega)] at hbyte
        exact absurd hbyte (Nat.not_le.2 hlt)
      · rintro rfl
        exact (hc 0x22 (by decide)).1 rfl
      · rintro rfl
        exact (hc 0x5C (by decide)).2.1 rfl

end Json
