import S3Sink.Lib.Utf8

/-!
# Json — JSON texts as sequences of bytes

The grammar of JSON texts, encoded in UTF-8.  The bytes allowed between tokens are a parameter:
`Whitespace` is the standard's own choice, a smaller set describes texts written without some of
them.

* `Derives ws kind bytes` — values, members of objects and elements of arrays; `Text ws bytes` — a
  value between gaps;
* `text_restrict_iff` — a control byte occurs in a text exactly if it occurs as whitespace.
-/

namespace Json

/-- Space, tab, line feed and carriage return. -/
def Whitespace (b : UInt8) : Prop :=
  b = 0x20 ∨ b = 0x09 ∨ b = 0x0A ∨ b = 0x0D

def Digit (b : UInt8) : Prop :=
  0x30 ≤ b ∧ b ≤ 0x39

def HexDigit (b : UInt8) : Prop :=
  Digit b ∨ (0x41 ≤ b ∧ b ≤ 0x46) ∨ (0x61 ≤ b ∧ b ≤ 0x66)

/-! ## Strings -/

/-- One character of a string. -/
inductive StringChar : List UInt8 → Prop
  | unescaped (c : Char) (hcontrol : 0x20 ≤ c.toNat) (hquote : c ≠ '"') (hbackslash : c ≠ '\\') :
      StringChar (String.utf8EncodeChar c)
  | escape (b : UInt8) (hb : b ∈ [0x22, 0x5C, 0x2F, 0x62, 0x66, 0x6E, 0x72, 0x74]) :
      StringChar [0x5C, b]
  | unicode (a b c d : UInt8) (ha : HexDigit a) (hb : HexDigit b) (hc : HexDigit c)
      (hd : HexDigit d) : StringChar [0x5C, 0x75, a, b, c, d]

/-- The characters between the quotes of a string. -/
inductive StringChars : List UInt8 → Prop
  | nil : StringChars []
  | cons {bytes rest : List UInt8} (hchar : StringChar bytes) (hrest : StringChars rest) :
      StringChars (bytes ++ rest)

/-! ## Numbers -/

inductive Digits : List UInt8 → Prop
  | one {b : UInt8} (hb : Digit b) : Digits [b]
  | cons {b : UInt8} {rest : List UInt8} (hb : Digit b) (hrest : Digits rest) : Digits (b :: rest)

/-- No leading zero. -/
inductive IntPart : List UInt8 → Prop
  | zero : IntPart [0x30]
  | digits {bytes : List UInt8} (hdigits : Digits bytes) (hfirst : bytes.head? ≠ some 0x30) :
      IntPart bytes

inductive FracPart : List UInt8 → Prop
  | none : FracPart []
  | some {bytes : List UInt8} (hdigits : Digits bytes) : FracPart (0x2E :: bytes)

inductive ExpPart : List UInt8 → Prop
  | none : ExpPart []
  | some {sign bytes : List UInt8} (e : UInt8) (he : e = 0x65 ∨ e = 0x45)
      (hsign : sign = [] ∨ sign = [0x2B] ∨ sign = [0x2D]) (hdigits : Digits bytes) :
      ExpPart (e :: (sign ++ bytes))

/-- A byte that occurs in numbers. -/
def NumberByte (b : UInt8) : Prop :=
  Digit b ∨ b ∈ [0x2B, 0x2D, 0x2E, 0x45, 0x65]

theorem Digits.bytes {bytes : List UInt8} (h : Digits bytes) : ∀ b ∈ bytes, NumberByte b := by
  induction h with
  | one hb => exact List.forall_mem_singleton.2 (Or.inl hb)
  | cons hb _ ih => exact List.forall_mem_cons.2 ⟨Or.inl hb, ih⟩

theorem IntPart.bytes {bytes : List UInt8} (h : IntPart bytes) : ∀ b ∈ bytes, NumberByte b := by
  cases h with
  | zero => exact List.forall_mem_singleton.2 (Or.inl ⟨by decide, by decide⟩)
  | digits hdigits => exact hdigits.bytes

theorem FracPart.bytes {bytes : List UInt8} (h : FracPart bytes) : ∀ b ∈ bytes, NumberByte b := by
  cases h with
  | none => exact fun b hb => absurd hb List.not_mem_nil
  | some hdigits => exact List.forall_mem_cons.2 ⟨Or.inr (by decide), hdigits.bytes⟩

theorem ExpPart.bytes {bytes : List UInt8} (h : ExpPart bytes) : ∀ b ∈ bytes, NumberByte b := by
  cases h with
  | none => exact fun b hb => absurd hb List.not_mem_nil
  | some e he hsign hdigits =>
      refine List.forall_mem_cons.2 ⟨Or.inr ?_, List.forall_mem_append.2 ⟨?_, hdigits.bytes⟩⟩
      · rcases he with rfl | rfl <;> decide
      · rcases hsign with rfl | rfl | rfl
        · exact fun b hb => absurd hb List.not_mem_nil
        · exact List.forall_mem_singleton.2 (Or.inr (by decide))
        · exact List.forall_mem_singleton.2 (Or.inr (by decide))

/-- The bytes of a number, its four parts one after the other. -/
theorem number_bytes {minus int frac exp : List UInt8} (hminus : minus = [] ∨ minus = [0x2D])
    (hint : IntPart int) (hfrac : FracPart frac) (hexp : ExpPart exp) :
    ∀ b ∈ minus ++ int ++ frac ++ exp, NumberByte b := by
  have hsign : ∀ b ∈ minus, NumberByte b := by
    rcases hminus with rfl | rfl
    · exact fun b hb => absurd hb List.not_mem_nil
    · exact List.forall_mem_singleton.2 (Or.inr (by decide))
  simp only [List.forall_mem_append]
  exact ⟨⟨⟨hsign, hint.bytes⟩, hfrac.bytes⟩, hexp.bytes⟩

/-! ## Texts -/

/-- What a sequence of bytes is derived as. -/
inductive Kind
  | value
  | members
  | elements

/-- Bytes between tokens. -/
def Gap (ws : UInt8 → Prop) (bytes : List UInt8) : Prop :=
  ∀ b ∈ bytes, ws b

/-- Values, the members of an object and the elements of an array. -/
inductive Derives (ws : UInt8 → Prop) : Kind → List UInt8 → Prop
  | null : Derives ws .value [0x6E, 0x75, 0x6C, 0x6C]
  | true : Derives ws .value [0x74, 0x72, 0x75, 0x65]
  | false : Derives ws .value [0x66, 0x61, 0x6C, 0x73, 0x65]
  | string {chars : List UInt8} (hchars : StringChars chars) :
      Derives ws .value ([0x22] ++ chars ++ [0x22])
  | number {minus int frac exp : List UInt8} (hminus : minus = [] ∨ minus = [0x2D])
      (hint : IntPart int) (hfrac : FracPart frac) (hexp : ExpPart exp) :
      Derives ws .value (minus ++ int ++ frac ++ exp)
  | emptyObject {gap : List UInt8} (hgap : Gap ws gap) : Derives ws .value ([0x7B] ++ gap ++ [0x7D])
  | object {bytes : List UInt8} (hmembers : Derives ws .members bytes) :
      Derives ws .value ([0x7B] ++ bytes ++ [0x7D])
  | emptyArray {gap : List UInt8} (hgap : Gap ws gap) : Derives ws .value ([0x5B] ++ gap ++ [0x5D])
  | array {bytes : List UInt8} (helements : Derives ws .elements bytes) :
      Derives ws .value ([0x5B] ++ bytes ++ [0x5D])
  | member {gap₁ gap₂ gap₃ gap₄ chars value : List UInt8} (hgap₁ : Gap ws gap₁)
      (hchars : StringChars chars) (hgap₂ : Gap ws gap₂) (hgap₃ : Gap ws gap₃)
      (hvalue : Derives ws .value value) (hgap₄ : Gap ws gap₄) :
      Derives ws .members
        (gap₁ ++ [0x22] ++ chars ++ [0x22] ++ gap₂ ++ [0x3A] ++ gap₃ ++ value ++ gap₄)
  | element {gap value gap' : List UInt8} (hgap : Gap ws gap) (hvalue : Derives ws .value value)
      (hgap' : Gap ws gap') : Derives ws .elements (gap ++ value ++ gap')
  | nextMember {first rest : List UInt8} (hfirst : Derives ws .members first)
      (hrest : Derives ws .members rest) : Derives ws .members (first ++ [0x2C] ++ rest)
  | nextElement {first rest : List UInt8} (hfirst : Derives ws .elements first)
      (hrest : Derives ws .elements rest) : Derives ws .elements (first ++ [0x2C] ++ rest)

/-- A JSON text: one value between gaps. -/
def Text (ws : UInt8 → Prop) (bytes : List UInt8) : Prop :=
  ∃ gap value gap', Gap ws gap ∧ Derives ws .value value ∧ Gap ws gap' ∧
    bytes = gap ++ value ++ gap'

theorem Derives.ne_nil {ws : UInt8 → Prop} {bytes : List UInt8} (h : Derives ws .value bytes) :
    bytes ≠ [] := by
  generalize hkind : Kind.value = kind at h
  cases h with
  | number hminus hint hfrac hexp =>
      have hne : ∀ {int : List UInt8}, IntPart int → int ≠ [] := by
        intro int hint
        cases hint with
        | zero => simp
        | digits hdigits => cases hdigits <;> simp
      simp [hne hint]
  | member => cases hkind
  | element => cases hkind
  | nextMember => cases hkind
  | nextElement => cases hkind
  | _ => simp

theorem Text.ne_nil {ws : UInt8 → Prop} {bytes : List UInt8} (h : Text ws bytes) : bytes ≠ [] := by
  obtain ⟨gap, value, gap', -, hvalue, -, rfl⟩ := h
  simp [hvalue.ne_nil]

/-! ## Control bytes -/

/-- No byte is a control byte. -/
def Visible (bytes : List UInt8) : Prop :=
  ∀ b ∈ bytes, 0x20 ≤ b

instance (bytes : List UInt8) : Decidable (Visible bytes) :=
  List.decidableBAll (fun b => 0x20 ≤ b) bytes

theorem Visible.append {bytes rest : List UInt8} (h : Visible bytes) (h' : Visible rest) :
    Visible (bytes ++ rest) :=
  List.forall_mem_append.2 ⟨h, h'⟩

theorem Visible.cons {b : UInt8} {rest : List UInt8} (hb : 0x20 ≤ b) (h : Visible rest) :
    Visible (b :: rest) :=
  List.forall_mem_cons.2 ⟨hb, h⟩

/-- The encoding of a character that is no control character has no control byte. -/
theorem visible_utf8EncodeChar {c : Char} (hc : 0x20 ≤ c.toNat) :
    Visible (String.utf8EncodeChar c) := by
  intro b hb
  by_contra hlt
  rw [UInt8.not_le] at hlt
  -- such a byte would be the whole character
  have hchar := (Utf8.eq_singleton_of_ascii hb (UInt8.lt_trans hlt (by decide))).2
  rw [UInt8.lt_iff_toNat_lt, ← hchar] at hlt
  exact absurd hc (Nat.not_le.2 hlt)

theorem NumberByte.printable {b : UInt8} (hb : NumberByte b) : 0x20 ≤ b ∧ b < 0x80 := by
  rcases hb with ⟨hle, hge⟩ | hb
  · exact ⟨UInt8.le_trans (by decide) hle, UInt8.lt_of_le_of_lt hge (by decide)⟩
  · have hall : ∀ b ∈ [(0x2B : UInt8), 0x2D, 0x2E, 0x45, 0x65], 0x20 ≤ b ∧ b < 0x80 :=
      List.all_iff_forall_prop.1 rfl
    exact hall b hb

theorem HexDigit.printable {b : UInt8} (hb : HexDigit b) : 0x20 ≤ b ∧ b < 0x80 := by
  rcases hb with hb | hb | hb
  · exact NumberByte.printable (Or.inl hb)
  · exact ⟨UInt8.le_trans (by decide) hb.1, UInt8.lt_of_le_of_lt hb.2 (by decide)⟩
  · exact ⟨UInt8.le_trans (by decide) hb.1, UInt8.lt_of_le_of_lt hb.2 (by decide)⟩

theorem StringChar.visible {bytes : List UInt8} (h : StringChar bytes) : Visible bytes := by
  cases h with
  | unescaped c hcontrol => exact visible_utf8EncodeChar hcontrol
  | escape b hb =>
      have hvisible : Visible [0x22, 0x5C, 0x2F, 0x62, 0x66, 0x6E, 0x72, 0x74] := by decide
      exact Visible.cons (by decide) (Visible.cons (hvisible b hb) (by decide))
  | unicode a b c d ha hb hc hd =>
      exact Visible.cons (by decide) (Visible.cons (by decide) (Visible.cons ha.printable.1
        (Visible.cons hb.printable.1 (Visible.cons hc.printable.1
          (Visible.cons hd.printable.1 (by decide))))))

theorem StringChars.visible {bytes : List UInt8} (h : StringChars bytes) : Visible bytes := by
  induction h with
  | nil => decide
  | cons hchar _ ih => exact hchar.visible.append ih

/-- Every byte is above the control bytes, or one of those allowed between tokens. -/
def Clean (ws : UInt8 → Prop) (bytes : List UInt8) : Prop :=
  ∀ b ∈ bytes, 0x20 ≤ b ∨ ws b

section

variable {ws : UInt8 → Prop} {kind : Kind} {bytes rest : List UInt8}

theorem Clean.append (h : Clean ws bytes) (h' : Clean ws rest) : Clean ws (bytes ++ rest) :=
  List.forall_mem_append.2 ⟨h, h'⟩

theorem Visible.clean (h : Visible bytes) : Clean ws bytes :=
  fun b hb => Or.inl (h b hb)

theorem Gap.clean (h : Gap ws bytes) : Clean ws bytes :=
  fun b hb => Or.inr (h b hb)

theorem Derives.clean (h : Derives ws kind bytes) : Clean ws bytes := by
  have hbyte : ∀ b : UInt8, 0x20 ≤ b → Clean ws [b] := fun b hb =>
    (Visible.cons hb (by decide)).clean
  induction h with
  | null => exact Visible.clean (by decide)
  | true => exact Visible.clean (by decide)
  | false => exact Visible.clean (by decide)
  | string hchars =>
      exact ((hbyte _ (by decide)).append hchars.visible.clean).append (hbyte _ (by decide))
  | number hminus hint hfrac hexp =>
      exact Visible.clean fun b hb => (number_bytes hminus hint hfrac hexp b hb).printable.1
  | emptyObject hgap => exact ((hbyte _ (by decide)).append hgap.clean).append (hbyte _ (by decide))
  | object _ ih => exact ((hbyte _ (by decide)).append ih).append (hbyte _ (by decide))
  | emptyArray hgap => exact ((hbyte _ (by decide)).append hgap.clean).append (hbyte _ (by decide))
  | array _ ih => exact ((hbyte _ (by decide)).append ih).append (hbyte _ (by decide))
  -- the name, the colon, the value
  | member hgap₁ hchars hgap₂ hgap₃ _ hgap₄ ih =>
      have hname := ((hgap₁.clean.append (hbyte 0x22 (by decide))).append
        hchars.visible.clean).append (hbyte 0x22 (by decide))
      have hcolon := (hname.append hgap₂.clean).append (hbyte 0x3A (by decide))
      exact ((hcolon.append hgap₃.clean).append ih).append hgap₄.clean
  | element hgap _ hgap' ih => exact (hgap.clean.append ih).append hgap'.clean
  | nextMember _ _ ih ih' => exact (ih.append (hbyte _ (by decide))).append ih'
  | nextElement _ _ ih ih' => exact (ih.append (hbyte _ (by decide))).append ih'

/-- Restricting the bytes between tokens to those that occur changes nothing. -/
theorem Derives.restrict {q : UInt8 → Prop} (h : Derives ws kind bytes) (hq : ∀ b ∈ bytes, q b) :
    Derives (fun b => ws b ∧ q b) kind bytes := by
  have hgap : ∀ {gap : List UInt8}, Gap ws gap → (∀ b ∈ gap, q b) →
      Gap (fun b => ws b ∧ q b) gap := fun hgap hq b hb => ⟨hgap b hb, hq b hb⟩
  induction h with
  | null => exact Derives.null
  | true => exact Derives.true
  | false => exact Derives.false
  | string hchars => exact Derives.string hchars
  | number hminus hint hfrac hexp => exact Derives.number hminus hint hfrac hexp
  | emptyObject h => exact Derives.emptyObject (hgap h fun b hb => hq b (by simp [hb]))
  | object _ ih => exact Derives.object (ih fun b hb => hq b (by simp [hb]))
  | emptyArray h => exact Derives.emptyArray (hgap h fun b hb => hq b (by simp [hb]))
  | array _ ih => exact Derives.array (ih fun b hb => hq b (by simp [hb]))
  | member h₁ hchars h₂ h₃ _ h₄ ih =>
      exact Derives.member (hgap h₁ fun b hb => hq b (by simp [hb])) hchars
        (hgap h₂ fun b hb => hq b (by simp [hb])) (hgap h₃ fun b hb => hq b (by simp [hb]))
        (ih fun b hb => hq b (by simp [hb])) (hgap h₄ fun b hb => hq b (by simp [hb]))
  | element h _ h' ih =>
      exact Derives.element (hgap h fun b hb => hq b (by simp [hb]))
        (ih fun b hb => hq b (by simp [hb])) (hgap h' fun b hb => hq b (by simp [hb]))
  | nextMember _ _ ih ih' =>
      exact Derives.nextMember (ih fun b hb => hq b (by simp [hb]))
        (ih' fun b hb => hq b (by simp [hb]))
  | nextElement _ _ ih ih' =>
      exact Derives.nextElement (ih fun b hb => hq b (by simp [hb]))
        (ih' fun b hb => hq b (by simp [hb]))

/-- A control byte is absent from a text exactly if the text is written without it as
whitespace. -/
theorem text_restrict_iff {b : UInt8} (hb : b < 0x20) (h : Text ws bytes) :
    Text (fun a => ws a ∧ a ≠ b) bytes ↔ b ∉ bytes := by
  constructor
  · rintro ⟨gap, value, gap', hgap, hvalue, hgap', rfl⟩ hmem
    have hclean := (hgap.clean.append hvalue.clean).append hgap'.clean
    -- a control byte is not visible, so it would be whitespace
    rcases hclean b hmem with hvisible | ⟨-, hne⟩
    · exact absurd hvisible (UInt8.not_le.2 hb)
    · exact hne rfl
  · intro hnot
    obtain ⟨gap, value, gap', hgap, hvalue, hgap', rfl⟩ := h
    have hne : ∀ a ∈ gap ++ value ++ gap', a ≠ b := fun a ha heq => hnot (heq ▸ ha)
    exact ⟨gap, value, gap', fun a ha => ⟨hgap a ha, hne a (by simp [ha])⟩,
      hvalue.restrict fun a ha => hne a (by simp [ha]),
      fun a ha => ⟨hgap' a ha, hne a (by simp [ha])⟩, rfl⟩

end

end Json
