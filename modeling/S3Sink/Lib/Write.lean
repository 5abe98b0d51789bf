import Mathlib.Logic.Relation
import Mathlib.Data.List.Basic

/-!
# Write — writers of bytes, stacked on each other

The contract of `std::io::Write` and two writers that keep it.  A call may take fewer bytes than it
is offered, or fail; a call that fails took nothing, and one that was interrupted may be repeated.

* `Write`, `LawfulWrite`, `PatientWrite` — the operations, and what they promise about the bytes
  received and about interruptions;
* `writeLoop` — offer the bytes not taken again until none are left, as `write_all` does;
* `AppendFile` — a file opened for appending, on a disk that may refuse any call;
* `BufWriter` — a buffer in front of another writer.

A run of a program makes finitely many calls, so the interruptions still to come are bounded: by the
`patience` of the writer.
-/

universe u

inductive ErrorKind
  | interrupted
  | writeZero
  | other
  deriving DecidableEq, Repr

/-- `std::io::Error`. -/
structure IoError where
  kind : ErrorKind
  message : String
  deriving DecidableEq, Repr

namespace IoError

/-- The call may be repeated. -/
def isInterrupted (self : IoError) : Bool := self.kind = .interrupted

/-- The error of a system call that a signal cut short. -/
def interruption : IoError := ⟨.interrupted, "Interrupted system call"⟩

/-- The error of `write_all` on a writer that takes nothing. -/
def writeZero : IoError := ⟨.writeZero, "failed to write whole buffer"⟩

/-- The error of `flush_buf` on a writer that takes nothing. -/
def bufferedWriteZero : IoError := ⟨.writeZero, "failed to write the buffered data"⟩

end IoError

/-- `trait Write`, with a bound on the interruptions still to come. -/
class Write (W : Type u) where
  write : W → List UInt8 → Except IoError Nat × W
  flush : W → Except IoError Unit × W
  patience : W → Nat

/-- What a writer received so far, and what its operations promise about it. -/
class LawfulWrite (W : Type u) [Write W] where
  received : W → List UInt8
  write_ok : ∀ {w w' : W} {buf : List UInt8} {n : Nat}, Write.write w buf = (.ok n, w') →
    n ≤ buf.length ∧ received w' = received w ++ buf.take n
  write_error : ∀ {w w' : W} {buf : List UInt8} {error : IoError},
    Write.write w buf = (.error error, w') → received w' = received w
  flush_received : ∀ w : W, received (Write.flush w).2 = received w

/-- The interruptions are as many as the patience allows. -/
class PatientWrite (W : Type u) [Write W] : Prop where
  patience_write : ∀ (w : W) (buf : List UInt8),
    Write.patience (Write.write w buf).2 ≤ Write.patience w
  patience_flush : ∀ w : W, Write.patience (Write.flush w).2 ≤ Write.patience w
  patience_interrupted : ∀ {w w' : W} {buf : List UInt8} {error : IoError},
    Write.write w buf = (.error error, w') → error.isInterrupted = true →
    Write.patience w' < Write.patience w

export LawfulWrite (received)

/-! ## Calls -/

section Calls

variable {W : Type u} [Write W]

/-- One call of an operation of the writer. -/
inductive Call : W → W → Prop
  | write (w : W) (buf : List UInt8) : Call w (Write.write w buf).2
  | flush (w : W) : Call w (Write.flush w).2

/-- What the owner of a writer can do with it. -/
def Calls : W → W → Prop :=
  Relation.ReflTransGen Call

namespace Calls

theorem refl (w : W) : Calls w w :=
  Relation.ReflTransGen.refl

theorem trans {w w' w'' : W} (h : Calls w w') (h' : Calls w' w'') : Calls w w'' :=
  Relation.ReflTransGen.trans h h'

theorem write {w w' : W} {buf : List UInt8} {result : Except IoError Nat}
    (h : Write.write w buf = (result, w')) : Calls w w' := by
  have hcall := Call.write w buf
  rw [h] at hcall
  exact Relation.ReflTransGen.single hcall

theorem flush {w w' : W} {result : Except IoError Unit} (h : Write.flush w = (result, w')) :
    Calls w w' := by
  have hcall := Call.flush w
  rw [h] at hcall
  exact Relation.ReflTransGen.single hcall

/-- The invariant rule: what every call keeps, the owner cannot break. -/
theorem invariant {P : W → Prop} (hwrite : ∀ w buf, P w → P (Write.write w buf).2)
    (hflush : ∀ w, P w → P (Write.flush w).2) {w w' : W} (h : Calls w w') (hw : P w) : P w' := by
  induction h with
  | refl => exact hw
  | tail _ hcall ih =>
      cases hcall with
      | write buf => exact hwrite _ buf ih
      | flush => exact hflush _ ih

theorem patience_le [PatientWrite W] {w w' : W} (h : Calls w w') :
    Write.patience w' ≤ Write.patience w :=
  h.invariant (P := fun w' => Write.patience w' ≤ Write.patience w)
    (fun w buf ih => Nat.le_trans (PatientWrite.patience_write w buf) ih)
    (fun w ih => Nat.le_trans (PatientWrite.patience_flush w) ih) (Nat.le_refl _)

end Calls

end Calls

/-! ## The loop of `write_all` -/

section Loop

variable {W : Type u} [Write W]

/-- Write until nothing is left or a call fails.  The answer comes with what is left. -/
def writeLoop (takesNothing : IoError) : Nat → W → List UInt8 →
    Except IoError Unit × List UInt8 × W
  | _, w, [] => (.ok (), [], w)
  -- not reached if the fuel covers the interruptions and the bytes
  | 0, w, b :: buf => (.error IoError.interruption, b :: buf, w)
  | fuel + 1, w, b :: buf =>
      match Write.write w (b :: buf) with
      | (.ok 0, w) => (.error takesNothing, b :: buf, w)
      | (.ok (n + 1), w) => writeLoop takesNothing fuel w (buf.drop n)
      | (.error error, w) =>
          if error.isInterrupted then
            writeLoop takesNothing fuel w (b :: buf)
          else
            (.error error, b :: buf, w)

/-- Every call of the loop takes a byte, uses up patience or is the last. -/
def fuelFor (w : W) (buf : List UInt8) : Nat :=
  Write.patience w + buf.length

/-- `write_all`. -/
def Write.writeAll (w : W) (buf : List UInt8) : Except IoError Unit × List UInt8 × W :=
  writeLoop IoError.writeZero (fuelFor w buf) w buf

/-- What the loop keeps: `P` speaks of the bytes taken so far and of the writer, and `E` of what a
call that fails for good leaves. -/
structure LoopInvariant (P E : List UInt8 → W → Prop) : Prop where
  take : ∀ {taken w buf n w'}, P taken w → Write.write w buf = (.ok n, w') →
    P (taken ++ buf.take n) w'
  interrupted : ∀ {taken w buf error w'}, P taken w → Write.write w buf = (.error error, w') →
    error.isInterrupted = true → P taken w'
  error : ∀ {taken w buf error w'}, P taken w → Write.write w buf = (.error error, w') →
    error.isInterrupted = false → E taken w'
  leave : ∀ {taken w}, P taken w → E taken w

theorem LoopInvariant.loop_from {P E : List UInt8 → W → Prop} (hP : LoopInvariant P E)
    {takesNothing : IoError} {result : Except IoError Unit} {w' : W} {rest : List UInt8}
    {fuel : Nat} {w : W} {buf taken : List UInt8}
    (hloop : writeLoop takesNothing fuel w buf = (result, rest, w')) (hw : P taken w) :
    ∃ more, buf = more ++ rest ∧ E (taken ++ more) w' ∧
      (result = .ok () → rest = [] ∧ P (taken ++ more) w') := by
  induction fuel generalizing w buf taken with
  | zero =>
      cases buf with
      | nil =>
          cases hloop
          exact ⟨[], rfl, by simpa using hP.leave hw, by simpa using hw⟩
      | cons b buf =>
          cases hloop
          exact ⟨[], rfl, by simpa using hP.leave hw, nofun⟩
  | succ fuel ih =>
      cases buf with
      | nil =>
          cases hloop
          exact ⟨[], rfl, by simpa using hP.leave hw, by simpa using hw⟩
      | cons b buf =>
          rw [writeLoop] at hloop
          split at hloop
          · next w₁ hwrite =>
              -- the writer took nothing, so nothing is left out
              cases hloop
              exact ⟨[], rfl, hP.leave (by simpa using hP.take hw hwrite), nofun⟩
          · next n w₁ hwrite =>
              obtain ⟨more, hsplit, hE, hok⟩ := ih hloop (hP.take hw hwrite)
              refine ⟨b :: buf.take n ++ more, ?_, ?_, ?_⟩
              · rw [List.cons_append, List.cons_append, List.append_assoc, ← hsplit,
                  List.take_append_drop]
              · simpa [List.append_assoc] using hE
              · simpa [List.append_assoc] using hok
          · next error w₁ hwrite =>
              split at hloop
              · next hint => exact ih hloop (hP.interrupted hw hwrite hint)
              · next hint =>
                  cases hloop
                  have hE := hP.error hw hwrite (Bool.eq_false_iff.2 hint)
                  exact ⟨[], rfl, by simpa using hE, nofun⟩

/-- The loop rule.  The bytes taken and those left make up the bytes offered. -/
theorem LoopInvariant.loop {P E : List UInt8 → W → Prop} (hP : LoopInvariant P E)
    {takesNothing : IoError} {result : Except IoError Unit} {w' : W} {rest : List UInt8}
    {fuel : Nat} {w : W} {buf : List UInt8}
    (hloop : writeLoop takesNothing fuel w buf = (result, rest, w')) (hw : P [] w) :
    ∃ taken, buf = taken ++ rest ∧ E taken w' ∧ (result = .ok () → rest = [] ∧ P taken w') :=
  hP.loop_from hloop hw

/-- What is left is the end of what was offered. -/
theorem writeLoop_split (takesNothing : IoError) (fuel : Nat) (w : W) (buf : List UInt8) :
    ∃ taken, buf = taken ++ (writeLoop takesNothing fuel w buf).2.1 ∧
      ((writeLoop takesNothing fuel w buf).1 = .ok () →
        (writeLoop takesNothing fuel w buf).2.1 = []) := by
  have htrivial : LoopInvariant (fun _ (_ : W) => True) (fun _ _ => True) :=
    ⟨fun _ _ => trivial, fun _ _ _ => trivial, fun _ _ _ => trivial, fun _ => trivial⟩
  have hloop : writeLoop takesNothing fuel w buf = (_, _, _) := rfl
  obtain ⟨taken, hsplit, -, hok⟩ := htrivial.loop hloop trivial
  exact ⟨taken, hsplit, fun hresult => (hok hresult).1⟩

theorem writeLoop_calls {takesNothing : IoError} {fuel : Nat} {w w' : W} {buf rest : List UInt8}
    {result : Except IoError Unit}
    (hloop : writeLoop takesNothing fuel w buf = (result, rest, w')) : Calls w w' := by
  have hcalls : LoopInvariant (fun _ w₁ => Calls w w₁) (fun _ w₁ => Calls w w₁) :=
    { take := fun h hwrite => h.trans (Calls.write hwrite)
      interrupted := fun h hwrite _ => h.trans (Calls.write hwrite)
      error := fun h hwrite _ => h.trans (Calls.write hwrite)
      leave := fun h => h }
  obtain ⟨more, -, h, -⟩ := hcalls.loop hloop (Calls.refl w)
  exact h

section Received

variable [LawfulWrite W]

theorem loopInvariant_received (w : W) :
    LoopInvariant (fun taken (w₁ : W) => received w₁ = received w ++ taken)
      (fun taken (w₁ : W) => received w₁ = received w ++ taken) where
  take h hwrite := by rw [(LawfulWrite.write_ok hwrite).2, h, List.append_assoc]
  interrupted h hwrite _ := (LawfulWrite.write_error hwrite).trans h
  error h hwrite _ := (LawfulWrite.write_error hwrite).trans h
  leave h := h

/-- What the writer received and what is left make up what was offered, also if a call fails. -/
theorem writeLoop_received {takesNothing : IoError} {fuel : Nat} {w w' : W}
    {buf rest : List UInt8} {result : Except IoError Unit}
    (hloop : writeLoop takesNothing fuel w buf = (result, rest, w')) :
    ∃ taken, buf = taken ++ rest ∧ received w' = received w ++ taken ∧
      (result = .ok () → rest = []) := by
  obtain ⟨taken, hsplit, hreceived, hok⟩ :=
    (loopInvariant_received w).loop hloop (List.append_nil _).symm
  exact ⟨taken, hsplit, hreceived, fun hresult => (hok hresult).1⟩

end Received

/-- With its fuel the loop ends only when nothing is left or a call failed for good: it never
answers an interruption. -/
theorem writeLoop_not_interrupted [PatientWrite W] {takesNothing : IoError}
    (hzero : takesNothing.isInterrupted = false) {fuel : Nat} {w : W} {buf : List UInt8}
    (hfuel : fuelFor w buf ≤ fuel) {error : IoError}
    (hloop : (writeLoop takesNothing fuel w buf).1 = .error error) :
    error.isInterrupted = false := by
  unfold fuelFor at hfuel
  induction fuel generalizing w buf with
  | zero =>
      cases buf with
      | nil => cases hloop
      | cons b buf => simp at hfuel
  | succ fuel ih =>
      cases buf with
      | nil => cases hloop
      | cons b buf =>
          have hpatience := PatientWrite.patience_write w (b :: buf)
          rw [List.length_cons] at hfuel
          rw [writeLoop] at hloop
          split at hloop
          · cases hloop
            exact hzero
          · next n w₁ hwrite =>
              rw [hwrite] at hpatience
              dsimp only at hpatience
              exact ih (by rw [List.length_drop]; omega) hloop
          · next error' w₁ hwrite =>
              split at hloop
              · next hint =>
                  have hless := PatientWrite.patience_interrupted hwrite hint
                  exact ih (by rw [List.length_cons]; omega) hloop
              · next hint =>
                  cases hloop
                  exact Bool.eq_false_iff.2 hint

end Loop

/-! ## A file opened for appending -/

/-- What the operating system answers to a call of `write`. -/
inductive Answer
  | takes (n : Nat)
  | fails (error : IoError)
  deriving DecidableEq, Repr

/-- `std::fs::File`, opened with `append`.  Once the answers are used up it takes all it is
offered. -/
structure AppendFile where
  content : List UInt8
  answers : List Answer
  deriving DecidableEq, Repr

namespace AppendFile

def write (self : AppendFile) (buf : List UInt8) : Except IoError Nat × AppendFile :=
  match self.answers with
  | [] => (.ok buf.length, { self with content := self.content ++ buf })
  | .takes n :: answers => (.ok (min n buf.length), ⟨self.content ++ buf.take n, answers⟩)
  | .fails error :: answers => (.error error, { self with answers })

/-- The file has no buffer of its own. -/
instance : Write AppendFile where
  write := write
  flush self := (.ok (), self)
  patience self := self.answers.length

instance : LawfulWrite AppendFile where
  received := content
  write_ok {w w' buf n} h := by
    change w.write buf = _ at h
    unfold write at h
    split at h
    · cases h
      simp
    · cases h
      exact ⟨Nat.min_le_right _ _, by simp [List.take_eq_take_min]⟩
    · cases h
  write_error {w w' buf error} h := by
    change w.write buf = _ at h
    unfold write at h
    split at h <;> cases h
    rfl
  flush_received _ := rfl

instance : PatientWrite AppendFile where
  patience_write w buf := by
    change (w.write buf).2.answers.length ≤ w.answers.length
    unfold write
    split <;> simp [*]
  patience_flush _ := Nat.le_refl _
  patience_interrupted {w w' buf error} h _ := by
    change w.write buf = _ at h
    unfold write at h
    split at h <;> cases h
    next answers hanswers =>
      change answers.length < w.answers.length
      simp [hanswers]

@[simp] theorem received_eq (self : AppendFile) : received self = self.content := rfl

end AppendFile

/-! ## A buffer in front of a writer -/

/-- `std::io::BufWriter`: the buffer never outgrows its capacity. -/
structure BufWriter (W : Type u) where
  inner : W
  buffer : List UInt8
  capacity : Nat
  bounded : buffer.length ≤ capacity

namespace BufWriter

variable {W : Type u}

def withCapacity (capacity : Nat) (inner : W) : BufWriter W :=
  ⟨inner, [], capacity, Nat.zero_le _⟩

def spareCapacity (self : BufWriter W) : Nat :=
  self.capacity - self.buffer.length

/-- `write_to_buffer_unchecked`, whose precondition is an argument here. -/
def writeToBuffer (self : BufWriter W) (buf : List UInt8)
    (hfits : buf.length ≤ self.spareCapacity) : BufWriter W :=
  { self with
    buffer := self.buffer ++ buf
    bounded := by
      have hbounded := self.bounded
      unfold spareCapacity at hfits
      rw [List.length_append]
      omega }

variable [Write W]

theorem length_rest_le {takesNothing : IoError} {fuel : Nat} (w : W) (buf : List UInt8) :
    (writeLoop takesNothing fuel w buf).2.1.length ≤ buf.length := by
  obtain ⟨taken, hsplit, -⟩ := writeLoop_split takesNothing fuel w buf
  calc
    (writeLoop takesNothing fuel w buf).2.1.length
        ≤ taken.length + (writeLoop takesNothing fuel w buf).2.1.length := Nat.le_add_left _ _
    _ = buf.length := by rw [← List.length_append, ← hsplit]

/-- `flush_buf`: what was written leaves the buffer, also if a call fails. -/
def flushBuf (self : BufWriter W) : Except IoError Unit × BufWriter W :=
  let out := writeLoop IoError.bufferedWriteZero (fuelFor self.inner self.buffer) self.inner
    self.buffer
  (out.1, { self with
    inner := out.2.2
    buffer := out.2.1
    bounded := Nat.le_trans (length_rest_le self.inner self.buffer) self.bounded })

def makeRoom (self : BufWriter W) (buf : List UInt8) : Except IoError Unit × BufWriter W :=
  if self.spareCapacity < buf.length then self.flushBuf else (.ok (), self)

/-- The buffer is empty, or what is written fits. -/
theorem makeRoom_ok {self self' : BufWriter W} {buf : List UInt8}
    (h : self.makeRoom buf = (.ok (), self')) :
    self'.buffer = [] ∨ buf.length ≤ self'.spareCapacity := by
  unfold makeRoom at h
  split at h
  · obtain ⟨-, -, hrest⟩ := writeLoop_split IoError.bufferedWriteZero
      (fuelFor self.inner self.buffer) self.inner self.buffer
    have hself : self.flushBuf.2 = self' := congrArg Prod.snd h
    have hresult : self.flushBuf.1 = .ok () := congrArg Prod.fst h
    rw [← hself]
    exact Or.inl (hrest hresult)
  · next hfits =>
      cases h
      exact Or.inr (Nat.le_of_not_lt hfits)

theorem fits_of_makeRoom {self self' : BufWriter W} {buf : List UInt8}
    (h : self.makeRoom buf = (.ok (), self')) (hsmall : ¬ self'.capacity ≤ buf.length) :
    buf.length ≤ self'.spareCapacity := by
  rcases makeRoom_ok h with hempty | hfits
  · unfold spareCapacity
    rw [hempty, List.length_nil]
    omega
  · exact hfits

/-- `write_cold`: what is as long as the buffer bypasses it. -/
def writeCold (self : BufWriter W) (buf : List UInt8) : Except IoError Nat × BufWriter W :=
  match hroom : self.makeRoom buf with
  | (.error error, self') => (.error error, self')
  | (.ok (), self') =>
      if hlarge : self'.capacity ≤ buf.length then
        let out := Write.write self'.inner buf
        (out.1, { self' with inner := out.2 })
      else
        (.ok buf.length, self'.writeToBuffer buf (fits_of_makeRoom hroom hlarge))

def write (self : BufWriter W) (buf : List UInt8) : Except IoError Nat × BufWriter W :=
  if hfits : buf.length < self.spareCapacity then
    (.ok buf.length, self.writeToBuffer buf (Nat.le_of_lt hfits))
  else
    self.writeCold buf

def flush (self : BufWriter W) : Except IoError Unit × BufWriter W :=
  match self.flushBuf with
  | (.error error, self) => (.error error, self)
  | (.ok (), self) =>
      let out := Write.flush self.inner
      (out.1, { self with inner := out.2 })

instance : Write (BufWriter W) where
  write := write
  flush := flush
  patience self := Write.patience self.inner

/-- What bypasses the buffer finds it empty. -/
theorem buffer_of_large {self self' : BufWriter W} {buf : List UInt8}
    (h : self.makeRoom buf = (.ok (), self')) (hlarge : self'.capacity ≤ buf.length) :
    self'.buffer = [] := by
  rcases makeRoom_ok h with hempty | hfits
  · exact hempty
  · have hbounded := self'.bounded
    unfold spareCapacity at hfits
    exact List.length_eq_zero_iff.1 (by omega)

/-- A flush that succeeds leaves nothing in the buffer. -/
theorem flush_ok {self self' : BufWriter W} (h : Write.flush self = (.ok (), self')) :
    self'.buffer = [] := by
  change self.flush = (.ok (), self') at h
  obtain ⟨-, -, hrest⟩ := writeLoop_split IoError.bufferedWriteZero
    (fuelFor self.inner self.buffer) self.inner self.buffer
  unfold flush at h
  generalize hflush : self.flushBuf = out at h
  obtain ⟨result, self₁⟩ := out
  cases result with
  | error error => cases h
  | ok done =>
      have hself : self.flushBuf.2 = self₁ := congrArg Prod.snd hflush
      have hbuffer : self₁.buffer = [] := hself ▸ hrest (congrArg Prod.fst hflush)
      have hself' : { self₁ with inner := (Write.flush self₁.inner).2 } = self' :=
        congrArg Prod.snd h
      rw [← hself']
      exact hbuffer

theorem inner_flushBuf_of_empty {self : BufWriter W} (hempty : self.buffer = []) :
    self.flushBuf.2.inner = self.inner := by
  change (writeLoop IoError.bufferedWriteZero (fuelFor self.inner self.buffer) self.inner
    self.buffer).2.2 = self.inner
  rw [hempty]
  cases fuelFor self.inner [] <;> rfl

/-! ### What a buffered writer received -/

section Bytes

variable [LawfulWrite W]

/-- The bytes handed on, then the bytes still held back. -/
def bytes (self : BufWriter W) : List UInt8 :=
  received self.inner ++ self.buffer

theorem bytes_writeToBuffer (self : BufWriter W) {buf : List UInt8}
    (hfits : buf.length ≤ self.spareCapacity) :
    (self.writeToBuffer buf hfits).bytes = self.bytes ++ buf := by
  unfold bytes writeToBuffer
  rw [List.append_assoc]

/-- Flushing the buffer moves bytes, and loses none if it fails. -/
theorem bytes_flushBuf (self : BufWriter W) : self.flushBuf.2.bytes = self.bytes := by
  have hloop : writeLoop IoError.bufferedWriteZero (fuelFor self.inner self.buffer) self.inner
    self.buffer = (_, _, _) := rfl
  obtain ⟨taken, hsplit, hreceived, -⟩ := writeLoop_received hloop
  calc
    self.flushBuf.2.bytes
        = received self.inner ++ taken ++ self.flushBuf.2.buffer :=
          congrArg (· ++ self.flushBuf.2.buffer) hreceived
    _ = self.bytes := by
          rw [List.append_assoc]
          exact congrArg (received self.inner ++ ·) hsplit.symm

end Bytes

section Patience

variable [PatientWrite W]

theorem patience_flushBuf (self : BufWriter W) :
    Write.patience self.flushBuf.2.inner ≤ Write.patience self.inner :=
  (writeLoop_calls (rfl : _ = (_, _, _))).patience_le

theorem flushBuf_not_interrupted {self : BufWriter W} {error : IoError}
    (h : self.flushBuf.1 = .error error) : error.isInterrupted = false :=
  writeLoop_not_interrupted rfl (Nat.le_refl _) h

theorem makeRoom_not_interrupted {self self' : BufWriter W} {buf : List UInt8} {error : IoError}
    (h : self.makeRoom buf = (.error error, self')) : error.isInterrupted = false := by
  unfold makeRoom at h
  split at h
  · exact flushBuf_not_interrupted (congrArg Prod.fst h)
  · cases h

end Patience

variable [LawfulWrite W] [PatientWrite W]

/-- Making room changes nothing but where the bytes are. -/
structure Kept (w w' : BufWriter W) : Prop where
  bytes : w'.bytes = w.bytes
  patience : Write.patience w'.inner ≤ Write.patience w.inner

theorem kept_flushBuf (self : BufWriter W) : Kept self self.flushBuf.2 :=
  ⟨bytes_flushBuf self, patience_flushBuf self⟩

theorem kept_makeRoom {self self' : BufWriter W} {buf : List UInt8}
    {result : Except IoError Unit} (h : self.makeRoom buf = (result, self')) : Kept self self' := by
  unfold makeRoom at h
  split at h
  · have hself : self.flushBuf.2 = self' := congrArg Prod.snd h
    exact hself ▸ kept_flushBuf self
  · cases h
    exact ⟨rfl, Nat.le_refl _⟩

/-- The outcomes of `write`. -/
inductive Written (self : BufWriter W) (buf : List UInt8) :
    Except IoError Nat → BufWriter W → Prop
  | noRoom {error : IoError} {self' : BufWriter W}
      (hroom : self.makeRoom buf = (.error error, self')) :
      Written self buf (.error error) self'
  | buffered {self₁ : BufWriter W} (hkept : Kept self self₁)
      (hfits : buf.length ≤ self₁.spareCapacity) :
      Written self buf (.ok buf.length) (self₁.writeToBuffer buf hfits)
  | direct {self₁ : BufWriter W} {result : Except IoError Nat} {inner : W}
      (hkept : Kept self self₁) (hempty : self₁.buffer = [])
      (hwrite : Write.write self₁.inner buf = (result, inner)) :
      Written self buf result { self₁ with inner := inner }

theorem write_cases (self : BufWriter W) (buf : List UInt8) :
    Written self buf (self.write buf).1 (self.write buf).2 := by
  unfold write
  split
  · next hfits => exact Written.buffered ⟨rfl, Nat.le_refl _⟩ (Nat.le_of_lt hfits)
  · unfold writeCold
    split
    · next error self' hroom => exact Written.noRoom hroom
    · next self' hroom =>
        split
        · next hlarge =>
            exact Written.direct (kept_makeRoom hroom) (buffer_of_large hroom hlarge) rfl
        · next hsmall =>
            exact Written.buffered (kept_makeRoom hroom) (fits_of_makeRoom hroom hsmall)

theorem written_of_write {self self' : BufWriter W} {buf : List UInt8} {result : Except IoError Nat}
    (h : Write.write self buf = (result, self')) : Written self buf result self' := by
  have hwritten := write_cases self buf
  change self.write buf = (result, self') at h
  rwa [h] at hwritten

theorem kept_flush (self : BufWriter W) : Kept self self.flush.2 := by
  have hkept := kept_flushBuf self
  unfold flush
  generalize self.flushBuf = out at hkept
  obtain ⟨result, self'⟩ := out
  cases result with
  | error error => exact hkept
  | ok done =>
      refine ⟨?_, Nat.le_trans (PatientWrite.patience_flush self'.inner) hkept.patience⟩
      rw [← hkept.bytes]
      exact congrArg (· ++ self'.buffer) (LawfulWrite.flush_received self'.inner)

instance : LawfulWrite (BufWriter W) where
  received := bytes
  write_ok {self self' buf n} h := by
    cases written_of_write h with
    | buffered hkept hfits =>
        refine ⟨Nat.le_refl _, ?_⟩
        rw [bytes_writeToBuffer, hkept.bytes, List.take_length]
    | direct hkept hempty hwrite =>
        obtain ⟨hle, hreceived⟩ := LawfulWrite.write_ok hwrite
        refine ⟨hle, ?_⟩
        rw [← hkept.bytes]
        unfold bytes
        dsimp only
        rw [hempty, hreceived, List.append_nil, List.append_nil]
  write_error {self self' buf error} h := by
    cases written_of_write h with
    | noRoom hroom => exact (kept_makeRoom hroom).bytes
    | direct hkept hempty hwrite =>
        rw [← hkept.bytes]
        exact congrArg (· ++ _) (LawfulWrite.write_error hwrite)
  flush_received self := (kept_flush self).bytes

instance : PatientWrite (BufWriter W) where
  patience_write self buf := by
    have hwritten := write_cases self buf
    change Write.patience (self.write buf).2.inner ≤ Write.patience self.inner
    generalize self.write buf = out at hwritten
    obtain ⟨result, self'⟩ := out
    cases hwritten with
    | noRoom hroom => exact (kept_makeRoom hroom).patience
    | buffered hkept hfits => exact hkept.patience
    | direct hkept hempty hwrite =>
        exact Nat.le_trans (Calls.write hwrite).patience_le hkept.patience
  patience_flush self := (kept_flush self).patience
  patience_interrupted {self self' buf error} h hint := by
    cases written_of_write h with
    | noRoom hroom => exact absurd hint (by simp [makeRoom_not_interrupted hroom])
    | direct hkept hempty hwrite =>
        have hless := PatientWrite.patience_interrupted hwrite hint
        exact Nat.lt_of_lt_of_le hless hkept.patience

theorem received_eq (self : BufWriter W) : received self = received self.inner ++ self.buffer := rfl

/-- What was flushed has reached the writer behind the buffer. -/
theorem received_of_flush {self self' : BufWriter W} (h : Write.flush self = (.ok (), self')) :
    received self'.inner = received self := by
  have hsame := LawfulWrite.flush_received self
  rw [h, received_eq, flush_ok h, List.append_nil] at hsame
  exact hsame

end BufWriter
