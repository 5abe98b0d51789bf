import S3Sink.Lib.Json

/-!
# Scan — where a JSON text ends

A scanner that keeps the nesting depth and whether it stands inside a string.  At depth zero and
outside of strings a comma or a closing bracket is not part of the text.

* `next` — one byte; `run` — a sequence of bytes; `splitText` — the bytes up to the end of the text
  and the bytes after it;
* `Text.balanced` — no byte of a text ends it, what opens inside is closed inside;
* `splitText_text` — a text followed by a comma or a closing bracket is cut exactly there.
-/

namespace Json

inductive Mode
  | outside
  | string
  | escaped
  deriving DecidableEq, Repr

structure Scanner where
  depth : Nat
  mode : Mode
  deriving DecidableEq, Repr

/-- The scanner after one byte, or `none` if the text ended before it. -/
def next (self : Scanner) (b : UInt8) : Option Scanner :=
  match self.mode with
  | .escaped => some ⟨self.depth, .string⟩
  | .string =>
      if b = 0x22 then
        some ⟨self.depth, .outside⟩
      else if b = 0x5C then
        some ⟨self.depth, .escaped⟩
      else
        some self
  | .outside =>
      if b = 0x22 then
        some ⟨self.depth, .string⟩
      else if b = 0x7B ∨ b = 0x5B then
        some ⟨self.depth + 1, .outside⟩
      else if b = 0x7D ∨ b = 0x5D then
        if self.depth = 0 then none else some ⟨self.depth - 1, .outside⟩
      else if b = 0x2C ∧ self.depth = 0 then
        none
      else
        some self

def run (self : Scanner) (bytes : List UInt8) : Option Scanner :=
  bytes.foldlM next self

/-- The bytes up to the end of the text, and those after it. -/
def splitText (self : Scanner) : List UInt8 → List UInt8 × List UInt8
  | [] => ([], [])
  | b :: rest =>
      match next self b with
      | none => ([], b :: rest)
      | some self => (b :: (splitText self rest).1, (splitText self rest).2)

variable {ws : UInt8 → Prop} {kind : Kind} {bytes rest : List UInt8}

theorem run_append {self self' self'' : Scanner} (h : run self bytes = some self')
    (h' : run self' rest = some self'') : run self (bytes ++ rest) = some self'' := by
  unfold run at *
  rw [List.foldlM_append, h]
  exact h'

theorem run_cons {self self' self'' : Scanner} {b : UInt8} (h : next self b = some self')
    (h' : run self' rest = some self'') : run self (b :: rest) = some self'' := by
  unfold run at *
  rw [List.foldlM_cons, h]
  exact h'

/-- The text is cut at the first byte that the scanner refuses. -/
theorem splitText_append {self self' : Scanner} {b : UInt8} (hrun : run self bytes = some self')
    (hend : next self' b = none) : splitText self (bytes ++ b :: rest) = (bytes, b :: rest) := by
  induction bytes generalizing self with
  | nil =>
      obtain rfl : self = self' := Option.some.inj hrun
      simp [splitText, hend]
  | cons a bytes ih =>
      unfold run at hrun
      rw [List.foldlM_cons] at hrun
      obtain ⟨self₁, hnext, hrest⟩ := Option.bind_eq_some_iff.1 hrun
      simp [splitText, hnext, ih hrest]

/-! ## Strings -/

/-- Bytes that are neither quotes nor backslashes stay inside a string. -/
theorem run_inside {depth : Nat} (h : ∀ b ∈ bytes, b ≠ 0x22 ∧ b ≠ 0x5C) :
    run ⟨depth, .string⟩ bytes = some ⟨depth, .string⟩ := by
  induction bytes with
  | nil => rfl
  | cons b bytes ih =>
      obtain ⟨⟨hquote, hbackslash⟩, hbytes⟩ := List.forall_mem_cons.1 h
      exact run_cons (by simp [next, hquote, hbackslash]) (ih hbytes)

theorem StringChar.scanned {depth : Nat} (h : StringChar bytes) :
    run ⟨depth, .string⟩ bytes = some ⟨depth, .string⟩ := by
  cases h with
  | unescaped c hcontrol hquote hbackslash =>
      apply run_inside
      intro b hb
      -- a quote or a backslash among the bytes would be the whole character
      constructor
      · rintro rfl
        have hchar := (Utf8.eq_singleton_of_ascii hb (by decide)).2
        exact hquote (Char.toNat_inj.1 (hchar.trans (by decide)))
      · rintro rfl
        have hchar := (Utf8.eq_singleton_of_ascii hb (by decide)).2
        exact hbackslash (Char.toNat_inj.1 (hchar.trans (by decide)))
  | escape b => exact run_cons rfl (run_cons rfl rfl)
  | unicode a b c d ha hb hc hd =>
      have hhex : ∀ {b : UInt8}, HexDigit b → b ≠ 0x22 ∧ b ≠ 0x5C := by
        rintro b hb
        constructor <;> rintro rfl <;> revert hb <;> simp [HexDigit, Digit]
      have hdigits : ∀ x ∈ [a, b, c, d], x ≠ 0x22 ∧ x ≠ 0x5C := by
        simp only [List.forall_mem_cons]
        exact ⟨hhex ha, hhex hb, hhex hc, hhex hd, fun _ h => absurd h List.not_mem_nil⟩
      exact run_cons rfl (run_cons rfl (run_inside hdigits))

theorem StringChars.scanned {depth : Nat} (h : StringChars bytes) :
    run ⟨depth, .string⟩ bytes = some ⟨depth, .string⟩ := by
  induction h with
  | nil => rfl
  | cons hchar _ ih => exact run_append hchar.scanned ih

/-! ## Texts -/

/-- The scanner reads the bytes and is back where it was. -/
def Balanced (depth : Nat) (bytes : List UInt8) : Prop :=
  run ⟨depth, .outside⟩ bytes = some ⟨depth, .outside⟩

theorem Balanced.append {depth : Nat} (h : Balanced depth bytes) (h' : Balanced depth rest) :
    Balanced depth (bytes ++ rest) :=
  run_append h h'

/-- A string, with its quotes. -/
theorem Balanced.string {depth : Nat} (h : StringChars bytes) :
    Balanced depth ([0x22] ++ bytes ++ [0x22]) := by
  have hopen : run ⟨depth, .outside⟩ [0x22] = some ⟨depth, .string⟩ := rfl
  exact run_append (run_append hopen h.scanned) rfl

theorem Balanced.braces {depth : Nat} (h : Balanced (depth + 1) bytes) :
    Balanced depth ([0x7B] ++ bytes ++ [0x7D]) := by
  have hopen : run ⟨depth, .outside⟩ [0x7B] = some ⟨depth + 1, .outside⟩ := rfl
  exact run_append (run_append hopen h) rfl

theorem Balanced.brackets {depth : Nat} (h : Balanced (depth + 1) bytes) :
    Balanced depth ([0x5B] ++ bytes ++ [0x5D]) := by
  have hopen : run ⟨depth, .outside⟩ [0x5B] = some ⟨depth + 1, .outside⟩ := rfl
  exact run_append (run_append hopen h) rfl

/-- Below the top a comma ends nothing. -/
theorem Balanced.comma {depth : Nat} (hpos : 0 < depth) : Balanced depth [0x2C] :=
  run_cons (by simp [next, Nat.pos_iff_ne_zero.1 hpos]) rfl

/-- A byte that opens, closes and separates nothing. -/
def Plain (b : UInt8) : Prop :=
  b ∉ [(0x22 : UInt8), 0x2C, 0x5B, 0x5D, 0x7B, 0x7D]

instance (b : UInt8) : Decidable (Plain b) :=
  inferInstanceAs (Decidable (¬ _))

theorem Balanced.plain {depth : Nat} (h : ∀ b ∈ bytes, Plain b) : Balanced depth bytes := by
  induction bytes with
  | nil => rfl
  | cons b bytes ih =>
      obtain ⟨hb, hbytes⟩ := List.forall_mem_cons.1 h
      simp only [Plain, List.mem_cons, List.not_mem_nil, or_false, not_or] at hb
      exact run_cons (by simp [next, hb]) (ih hbytes)

theorem Whitespace.plain {b : UInt8} (hb : Whitespace b) : Plain b := by
  rcases hb with rfl | rfl | rfl | rfl <;> decide

theorem NumberByte.plain {b : UInt8} (hb : NumberByte b) : Plain b := by
  rcases hb with ⟨hle, hge⟩ | hb
  · intro hmem
    simp only [List.mem_cons, List.not_mem_nil, or_false] at hmem
    rcases hmem with rfl | rfl | rfl | rfl | rfl | rfl
    · exact absurd hle (by decide)
    · exact absurd hle (by decide)
    · exact absurd hge (by decide)
    · exact absurd hge (by decide)
    · exact absurd hge (by decide)
    · exact absurd hge (by decide)
  · have hall : ∀ b ∈ [(0x2B : UInt8), 0x2D, 0x2E, 0x45, 0x65], Plain b :=
      List.all_iff_forall_prop.1 rfl
    exact hall b hb

/-- The scanner comes back to the depth it started from; members and elements stand at a positive
depth. -/
theorem Derives.balanced (hws : ∀ b, ws b → Plain b) (h : Derives ws kind bytes) :
    ∀ depth : Nat, kind = .value ∨ 0 < depth → Balanced depth bytes := by
  have hgap : ∀ {gap : List UInt8} {depth : Nat}, Gap ws gap → Balanced depth gap := fun hgap =>
    Balanced.plain fun b hb => hws b (hgap b hb)
  induction h with
  | null => exact fun depth _ => Balanced.plain (List.all_iff_forall_prop.1 rfl)
  | true => exact fun depth _ => Balanced.plain (List.all_iff_forall_prop.1 rfl)
  | false => exact fun depth _ => Balanced.plain (List.all_iff_forall_prop.1 rfl)
  | string hchars => exact fun depth _ => Balanced.string hchars
  | number hminus hint hfrac hexp =>
      exact fun depth _ => Balanced.plain fun b hb =>
        (number_bytes hminus hint hfrac hexp b hb).plain
  | emptyObject h => exact fun depth _ => (hgap h).braces
  | object _ ih => exact fun depth _ => (ih (depth + 1) (Or.inr depth.succ_pos)).braces
  | emptyArray h => exact fun depth _ => (hgap h).brackets
  | array _ ih => exact fun depth _ => (ih (depth + 1) (Or.inr depth.succ_pos)).brackets
  -- the name, the colon, the value
  | member hgap₁ hchars hgap₂ hgap₃ _ hgap₄ ih =>
      intro depth _
      have hname : Balanced depth _ := (hgap hgap₁).append (Balanced.string hchars)
      have hcolon : Balanced depth [0x3A] := Balanced.plain (List.all_iff_forall_prop.1 rfl)
      have hvalue := ((hgap hgap₃).append (ih depth (Or.inl rfl))).append (hgap hgap₄)
      have hmember := ((hname.append (hgap hgap₂)).append hcolon).append hvalue
      simpa using hmember
  | element h _ h' ih =>
      exact fun depth _ => ((hgap h).append (ih depth (Or.inl rfl))).append (hgap h')
  | nextMember _ _ ih ih' =>
      intro depth hdepth
      have hcomma := Balanced.comma (hdepth.resolve_left (by simp))
      exact ((ih depth hdepth).append hcomma).append (ih' depth hdepth)
  | nextElement _ _ ih ih' =>
      intro depth hdepth
      have hcomma := Balanced.comma (hdepth.resolve_left (by simp))
      exact ((ih depth hdepth).append hcomma).append (ih' depth hdepth)

theorem Text.balanced (hws : ∀ b, ws b → Plain b) (h : Text ws bytes) (depth : Nat) :
    Balanced depth bytes := by
  obtain ⟨gap, value, gap', hgap, hvalue, hgap', rfl⟩ := h
  have hbefore : Balanced depth gap := Balanced.plain fun b hb => hws b (hgap b hb)
  have hafter : Balanced depth gap' := Balanced.plain fun b hb => hws b (hgap' b hb)
  exact (hbefore.append (hvalue.balanced hws depth (Or.inl rfl))).append hafter

/-- A text is recovered from what follows it, if that begins with a comma or a closing bracket. -/
theorem splitText_text (hws : ∀ b, ws b → Plain b) (h : Text ws bytes) {b : UInt8}
    (hb : b ∈ [(0x2C : UInt8), 0x5D, 0x7D]) :
    splitText ⟨0, .outside⟩ (bytes ++ b :: rest) = (bytes, b :: rest) := by
  apply splitText_append (h.balanced hws 0)
  have hend : ∀ b ∈ [(0x2C : UInt8), 0x5D, 0x7D], next ⟨0, .outside⟩ b = none :=
    List.all_iff_forall_prop.1 rfl
  exact hend b hb

end Json
