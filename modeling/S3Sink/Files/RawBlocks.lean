import S3Sink.Files.FileIo

/-!
# RawBlocks — an encoder that stores

A `zstd` frame of raw blocks, which is what the encoder of the crate makes of bytes it cannot
compress, such as a few short lines.  It collects what it takes, emits a block when it is flushed or
has enough for one, and writes what it emitted before it takes more.

* `RawBlocks` — the context; `RawBlocks.decodeAll` — frames of raw blocks;
* `decodeBlocks_append` — the blocks of a frame are read back;
* `Frame` — what holds of the encoder in a session.
-/

namespace S3Sink
namespace FileIo

/-! ## Blocks -/

/-- `Magic_Number`, then a descriptor without content size and checksum, then the window of the
default level. -/
def frameHeader : Bytes :=
  [0x28, 0xB5, 0x2F, 0xFD, 0x00, 0x58]

/-- `Block_Maximum_Size`. -/
def maxBlockSize : Nat := 1024 * 128

/-- A number in three bytes, the lowest first. -/
def le24 (n : Nat) : Bytes :=
  [UInt8.ofNat n, UInt8.ofNat (n / 256), UInt8.ofNat (n / 65536)]

def readLe24 (b₀ b₁ b₂ : UInt8) : Nat :=
  b₀.toNat + 256 * b₁.toNat + 65536 * b₂.toNat

theorem readLe24_le24 {n : Nat} (hn : n < 256 * 65536) :
    readLe24 (UInt8.ofNat n) (UInt8.ofNat (n / 256)) (UInt8.ofNat (n / 65536)) = n := by
  simp only [readLe24, UInt8.toNat_ofNat']
  omega

/-- A raw block: `Last_Block`, `Block_Type` and `Block_Size`, then the bytes. -/
def block (last : Bool) (bytes : Bytes) : Bytes :=
  le24 (bytes.length * 8 + last.toNat) ++ bytes

/-- The bytes of the blocks up to the last one, behind which nothing may follow. -/
def decodeBlocks : Nat → Bytes → Option Bytes
  | fuel + 1, b₀ :: b₁ :: b₂ :: rest =>
      let header := readLe24 b₀ b₁ b₂
      let size := header / 8
      if header / 2 % 4 = 0 ∧ size ≤ maxBlockSize ∧ size ≤ rest.length then
        if header % 2 = 1 then
          if rest.length = size then some rest else none
        else
          (decodeBlocks fuel (rest.drop size)).map (rest.take size ++ ·)
      else
        none
  | _, _ => none

theorem decodeBlocks_block {bytes : Bytes} (hsize : bytes.length ≤ maxBlockSize) (last : Bool)
    (fuel : Nat) (rest : Bytes) :
    decodeBlocks (fuel + 1) (block last bytes ++ rest) =
      if last then if rest = [] then some bytes else none
      else (decodeBlocks fuel rest).map (bytes ++ ·) := by
  have hbits : last.toNat ≤ 1 := Bool.toNat_le last
  have hheader : readLe24 (UInt8.ofNat (bytes.length * 8 + last.toNat))
      (UInt8.ofNat ((bytes.length * 8 + last.toNat) / 256))
      (UInt8.ofNat ((bytes.length * 8 + last.toNat) / 65536)) =
        bytes.length * 8 + last.toNat := by
    refine readLe24_le24 ?_
    unfold maxBlockSize at hsize
    omega
  have hraw : (bytes.length * 8 + last.toNat) / 2 % 4 = 0 := by omega
  have hlength : (bytes.length * 8 + last.toNat) / 8 = bytes.length := by omega
  change decodeBlocks (fuel + 1) (_ :: _ :: _ :: (bytes ++ rest)) = _
  rw [decodeBlocks, hheader, hraw, hlength, if_pos ⟨rfl, hsize, by simp⟩, List.take_left,
    List.drop_left]
  cases last with
  | true =>
      have hodd : (bytes.length * 8 + true.toNat) % 2 = 1 := by
        rw [Bool.toNat_true]
        omega
      rw [if_pos hodd, if_pos rfl]
      cases rest with
      | nil => simp
      | cons b rest => simp
  | false =>
      have heven : ¬ (bytes.length * 8 + false.toNat) % 2 = 1 := by
        rw [Bool.toNat_false]
        omega
      rw [if_neg heven, if_neg Bool.false_ne_true]

/-- The blocks of a frame are read back, one after the other. -/
theorem decodeBlocks_append {chunks : List Bytes}
    (hchunks : ∀ chunk ∈ chunks, chunk.length ≤ maxBlockSize) {bytes : Bytes}
    (hsize : bytes.length ≤ maxBlockSize) {fuel : Nat} (hfuel : chunks.length < fuel) :
    decodeBlocks fuel ((chunks.map (block false)).flatten ++ block true bytes) =
      some (chunks.flatten ++ bytes) := by
  induction chunks generalizing fuel with
  | nil =>
      obtain ⟨fuel, rfl⟩ := Nat.exists_eq_succ_of_ne_zero (Nat.ne_of_gt hfuel)
      have hlast := decodeBlocks_block hsize true fuel []
      rwa [List.append_nil] at hlast
  | cons chunk chunks ih =>
      obtain ⟨fuel, rfl⟩ := Nat.exists_eq_succ_of_ne_zero (Nat.ne_of_gt (Nat.zero_lt_of_lt hfuel))
      rw [List.map_cons, List.flatten_cons, List.append_assoc,
        decodeBlocks_block (hchunks chunk List.mem_cons_self), if_neg Bool.false_ne_true,
        ih (fun c hc => hchunks c (List.mem_cons_of_mem _ hc)) (Nat.lt_of_succ_lt_succ hfuel),
        Option.map_some, List.flatten_cons, List.append_assoc]

theorem length_le_blocks (chunks : List Bytes) :
    chunks.length ≤ (chunks.map (block false)).flatten.length := by
  induction chunks with
  | nil => exact Nat.le_refl _
  | cons chunk chunks ih =>
      rw [List.map_cons, List.flatten_cons, List.length_append, List.length_cons]
      have hblock : 1 ≤ (block false chunk).length := by simp [block, le24]
      omega

/-! ## The context -/

/-- A compression context that emits raw blocks. -/
structure RawBlocks where
  /-- the frame header, until the first block is emitted -/
  header : Bytes
  /-- what was taken and is in no block yet -/
  pending : Bytes
  /-- what was emitted and is not written yet -/
  buffer : Bytes
  bounded : pending.length < maxBlockSize

namespace RawBlocks

def emit (self : RawBlocks) (last : Bool) (bytes : Bytes) : RawBlocks :=
  { header := []
    pending := []
    buffer := self.buffer ++ self.header ++ block last bytes
    bounded := by decide }

/-- Take as much as fits into a block. -/
def take (self : RawBlocks) (buf : Bytes) : Nat × RawBlocks :=
  let n := min buf.length (maxBlockSize - self.pending.length)
  let pending := self.pending ++ buf.take n
  if hbounded : pending.length < maxBlockSize then
    (n, { self with pending := pending, bounded := hbounded })
  else
    (n, self.emit false pending)

def takesNoMore : IoError :=
  ⟨.writeZero, "writer will not accept any more data"⟩

variable {W : Type} [Write W]

/-- Write what was emitted; what a call that fails leaves is written the next time. -/
def writeFromOffset (self : Encoder RawBlocks W) : Except IoError Unit × Encoder RawBlocks W :=
  let out := writeLoop takesNoMore (fuelFor self.inner self.context.buffer) self.inner
    self.context.buffer
  (out.1, ⟨{ self.context with buffer := out.2.1 }, out.2.2⟩)

def write (self : Encoder RawBlocks W) (buf : Bytes) : Except IoError Nat × Encoder RawBlocks W :=
  match writeFromOffset self with
  | (.error error, self) => (.error error, self)
  | (.ok (), self) =>
      let out := self.context.take buf
      (.ok out.1, { self with context := out.2 })

def flush (self : Encoder RawBlocks W) : Except IoError Unit × Encoder RawBlocks W :=
  match writeFromOffset self with
  | (.error error, self) => (.error error, self)
  | (.ok (), self) =>
      if self.context.pending = [] then
        (.ok (), self)
      else
        writeFromOffset { self with context := self.context.emit false self.context.pending }

def doFinish (self : Encoder RawBlocks W) : Except IoError Unit × Encoder RawBlocks W :=
  match writeFromOffset self with
  | (.error error, self) => (.error error, self)
  | (.ok (), self) =>
      writeFromOffset { self with context := self.context.emit true self.context.pending }

/-- `zstd::decode_all` on a frame of raw blocks. -/
def decodeAll (bytes : Bytes) : Option Bytes :=
  if frameHeader <+: bytes then
    decodeBlocks bytes.length (bytes.drop frameHeader.length)
  else
    none

instance : Zstd RawBlocks where
  new inner _ := .ok ⟨⟨frameHeader, [], [], by decide⟩, inner⟩
  write := write
  flush := flush
  doFinish := doFinish
  decodeAll := decodeAll

theorem writeFromOffset_calls (self : Encoder RawBlocks W) :
    Calls self.inner (writeFromOffset self).2.inner :=
  writeLoop_calls rfl

/-! ## Sessions -/

section Frame

variable [LawfulWrite W]

/-- What was emitted begins a frame of the bytes taken. -/
def Frame (input : Bytes) (self : Encoder RawBlocks W) : Prop :=
  ∃ chunks : List Bytes, (∀ chunk ∈ chunks, chunk.length ≤ maxBlockSize) ∧
    input = chunks.flatten ++ self.context.pending ∧
    received self.inner ++ self.context.buffer ++ self.context.header =
      frameHeader ++ (chunks.map (block false)).flatten

/-- What is written leaves the buffer. -/
theorem received_writeFromOffset (self : Encoder RawBlocks W) :
    received (writeFromOffset self).2.inner ++ (writeFromOffset self).2.context.buffer =
      received self.inner ++ self.context.buffer := by
  obtain ⟨taken, hsplit, hreceived, -⟩ := writeLoop_received
    (rfl : writeLoop takesNoMore (fuelFor self.inner self.context.buffer) self.inner
      self.context.buffer = (_, _, _))
  change received (writeLoop takesNoMore (fuelFor self.inner self.context.buffer) self.inner
    self.context.buffer).2.2 ++ _ = _
  rw [hreceived, List.append_assoc]
  exact congrArg (received self.inner ++ ·) hsplit.symm

theorem buffer_writeFromOffset {self self' : Encoder RawBlocks W}
    (h : writeFromOffset self = (.ok (), self')) : self'.context.buffer = [] := by
  obtain ⟨taken, -, -, hok⟩ := writeLoop_received
    (rfl : writeLoop takesNoMore (fuelFor self.inner self.context.buffer) self.inner
      self.context.buffer = (_, _, _))
  obtain ⟨hanswer, rfl⟩ := Prod.mk.inj h
  exact hok hanswer

theorem Frame.writeFromOffset {input : Bytes} {self : Encoder RawBlocks W} (h : Frame input self) :
    Frame input (writeFromOffset self).2 := by
  obtain ⟨chunks, hchunks, hinput, hemitted⟩ := h
  refine ⟨chunks, hchunks, hinput, ?_⟩
  rw [received_writeFromOffset]
  exact hemitted

/-- A block is emitted. -/
theorem Frame.emit {input : Bytes} {self : Encoder RawBlocks W} (h : Frame input self)
    {more : Bytes} (hsize : (self.context.pending ++ more).length ≤ maxBlockSize) :
    Frame (input ++ more)
      { self with context := self.context.emit false (self.context.pending ++ more) } := by
  obtain ⟨chunks, hchunks, rfl, hemitted⟩ := h
  refine ⟨chunks ++ [self.context.pending ++ more], ?_, ?_, ?_⟩
  · intro chunk hchunk
    rcases List.mem_append.1 hchunk with hchunk | hchunk
    · exact hchunks chunk hchunk
    · exact List.mem_singleton.1 hchunk ▸ hsize
  · simp [RawBlocks.emit]
  · simp only [RawBlocks.emit, List.append_nil, List.map_append, List.flatten_append,
      List.map_cons, List.map_nil, List.flatten_cons, List.flatten_nil]
    rw [← List.append_assoc, ← List.append_assoc, hemitted, List.append_assoc]

theorem Frame.take {input : Bytes} {self : Encoder RawBlocks W} (h : Frame input self)
    (buf : Bytes) : Frame (input ++ buf.take (self.context.take buf).1)
      { self with context := (self.context.take buf).2 } := by
  unfold RawBlocks.take
  dsimp only
  split
  · obtain ⟨chunks, hchunks, rfl, hemitted⟩ := h
    exact ⟨chunks, hchunks, List.append_assoc _ _ _, hemitted⟩
  · refine h.emit ?_
    have hbounded := self.context.bounded
    rw [List.length_append, List.length_take]
    omega

theorem Frame.write {input buf : Bytes} {self : Encoder RawBlocks W} (h : Frame input self)
    {result : Except IoError Nat} {self' : Encoder RawBlocks W}
    (hwrite : RawBlocks.write self buf = (result, self')) :
    (∃ n, result = .ok n ∧ Frame (input ++ buf.take n) self') ∨
      (∃ error, result = .error error ∧ Frame input self') := by
  have hframe := h.writeFromOffset
  unfold RawBlocks.write at hwrite
  split at hwrite
  · next error self₁ hoffset =>
      cases hwrite
      rw [hoffset] at hframe
      exact Or.inr ⟨error, rfl, hframe⟩
  · next self₁ hoffset =>
      cases hwrite
      rw [hoffset] at hframe
      exact Or.inl ⟨_, rfl, hframe.take buf⟩

theorem Frame.flush {input : Bytes} {self self' : Encoder RawBlocks W} (h : Frame input self)
    {result : Except IoError Unit} (hflush : RawBlocks.flush self = (result, self')) :
    Frame input self' := by
  have hframe := h.writeFromOffset
  unfold RawBlocks.flush at hflush
  split at hflush
  · next error self₁ hoffset =>
      cases hflush
      rwa [hoffset] at hframe
  · next self₁ hoffset =>
      rw [hoffset] at hframe
      split at hflush
      · cases hflush
        exact hframe
      · have hsize : (self₁.context.pending ++ []).length ≤ maxBlockSize := by
          simpa using self₁.context.bounded.le
        have hemitted := (hframe.emit hsize).writeFromOffset
        rw [List.append_nil, List.append_nil, hflush] at hemitted
        exact hemitted

/-- Whatever happened to the encoder in a session, what it emitted begins a frame. -/
theorem frame_of_session {input : Bytes} {self : Encoder RawBlocks W} (h : Session input self) :
    Frame input self := by
  induction h with
  | new hfresh hnew =>
      cases hnew
      exact ⟨[], fun _ hmem => absurd hmem List.not_mem_nil, rfl, by simp [hfresh]⟩
  | write _ hwrite ih =>
      rcases ih.write hwrite with ⟨n, heq, hframe⟩ | ⟨error, heq, -⟩
      · cases heq
        exact hframe
      · cases heq
  | interrupted _ hwrite _ ih =>
      rcases ih.write hwrite with ⟨n, heq, -⟩ | ⟨error, -, hframe⟩
      · cases heq
      · exact hframe
  | flush _ hflush ih => exact ih.flush hflush

/-- The last block ends the frame. -/
theorem Frame.doFinish {input : Bytes} {self self' : Encoder RawBlocks W} (h : Frame input self)
    (hfinish : RawBlocks.doFinish self = (.ok (), self')) :
    decodeAll (received self'.inner) = some input := by
  have hframe := h.writeFromOffset
  unfold RawBlocks.doFinish at hfinish
  split at hfinish
  · cases hfinish
  · next self₁ hoffset =>
      rw [hoffset] at hframe
      obtain ⟨chunks, hchunks, rfl, hemitted⟩ := hframe
      have hwritten := received_writeFromOffset
        { self₁ with context := self₁.context.emit true self₁.context.pending }
      rw [hfinish, buffer_writeFromOffset hfinish, List.append_nil] at hwritten
      have hframe : received self'.inner = frameHeader ++
          ((chunks.map (block false)).flatten ++ block true self₁.context.pending) := by
        calc
          received self'.inner
              = received self₁.inner ++ (self₁.context.buffer ++ self₁.context.header ++
                  block true self₁.context.pending) := hwritten
          _ = frameHeader ++
                ((chunks.map (block false)).flatten ++ block true self₁.context.pending) := by
                rw [← List.append_assoc, ← List.append_assoc, hemitted, List.append_assoc]
      rw [hframe, decodeAll, if_pos (List.prefix_append _ _), List.drop_left]
      refine decodeBlocks_append hchunks self₁.context.bounded.le ?_
      have hblocks := length_le_blocks chunks
      have hheader : frameHeader.length = 6 := rfl
      rw [List.length_append, List.length_append]
      omega

end Frame

instance : LawfulZstd RawBlocks where
  new_calls hnew := by
    cases hnew
    exact Calls.refl _
  write_calls self buf := by
    have hcalls := writeFromOffset_calls self
    change Calls self.inner (write self buf).2.inner
    unfold write
    split <;> next hoffset => rwa [hoffset] at hcalls
  flush_calls self := by
    have hcalls := writeFromOffset_calls self
    change Calls self.inner (flush self).2.inner
    unfold flush
    split
    · next hoffset => rwa [hoffset] at hcalls
    · next self₁ hoffset =>
        rw [hoffset] at hcalls
        split
        · exact hcalls
        · exact hcalls.trans (writeFromOffset_calls
            { self₁ with context := self₁.context.emit false self₁.context.pending })
  doFinish_calls self := by
    have hcalls := writeFromOffset_calls self
    change Calls self.inner (doFinish self).2.inner
    unfold doFinish
    split
    · next hoffset => rwa [hoffset] at hcalls
    · next self₁ hoffset =>
        rw [hoffset] at hcalls
        exact hcalls.trans (writeFromOffset_calls
          { self₁ with context := self₁.context.emit true self₁.context.pending })
  patience_interrupted := by
    -- interruptions do not get past the encoder
    intro W _ _ self self' buf error hwrite hint
    change write self buf = _ at hwrite
    unfold write at hwrite
    split at hwrite
    · next error' self₁ hoffset =>
        cases hwrite
        have hkind : takesNoMore.isInterrupted = false := rfl
        have hfinal := writeLoop_not_interrupted hkind (Nat.le_refl _) (congrArg Prod.fst hoffset)
        rw [hint] at hfinal
        cases hfinal
    · cases hwrite
  roundTrip hsession hfinish := (frame_of_session hsession).doFinish hfinish

end RawBlocks

end FileIo
end S3Sink
