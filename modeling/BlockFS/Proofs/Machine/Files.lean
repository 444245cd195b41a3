import BlockFS.Proofs.Machine.Records
import BlockFS.Proofs.Scene.Files

/-!
# Files on a machine

A file is read and written by a loop over its blocks.  A machine keeps the place in the file as a
cursor and counts the bytes that are done; the loop may turn once for each byte that is wanted,
which is enough because each turn moves at least one.  The pointers and the size of the file are
whatever lies in its record.
-/

namespace BlockFS.Machine

variable {ε τ : Type}

/-! ## Cursors -/

/-- A block of a file and a byte inside it. -/
structure Cursor where
  block : Nat
  byte : Nat

namespace Cursor

/-- The cursor at a position. -/
def ofPosition (p : Position) : Cursor := ⟨p.block, p.byte⟩

@[simp]
theorem block_ofPosition (p : Position) : (ofPosition p).block = p.block := rfl

@[simp]
theorem byte_ofPosition (p : Position) : (ofPosition p).byte = p.byte := rfl

/-- The number of bytes before the cursor. -/
def place (c : Cursor) : Action ε τ Nat := do
  let start ← word 64 (c.block * blockSize)
  word 64 (start + c.byte)

/-- The cursor some bytes further on. -/
def advance (c : Cursor) (bytes : Nat) : Action ε τ Cursor := do
  let room ← difference blockSize c.byte
  if bytes < room then
    let byte ← word 64 (c.byte + bytes)
    let _ ← place ⟨c.block, byte⟩
    return ⟨c.block, byte⟩
  else
    let left ← difference bytes room
    let skipped ← word 64 (left / blockSize + 1)
    let block ← word 64 (c.block + skipped)
    let _ ← place ⟨block, left % blockSize⟩
    return ⟨block, left % blockSize⟩

/-- The cursor some bytes behind the start of a file. -/
def behindStart (bytes : Nat) : Action ε τ Cursor := advance ⟨0, 0⟩ bytes

theorem place_ofPosition {p : Position} (h : p.toNat < 2 ^ 64) :
    (place (ofPosition p) : Action ε τ Nat) = pure p.toNat := by
  have hstart : p.block * blockSize < 2 ^ 64 := Nat.lt_of_le_of_lt (Nat.le_add_right _ _) h
  rw [place, ofPosition, word_eq hstart, pure_bind]
  exact word_eq h

theorem advance_ofPosition {p : Position} {bytes : Nat} (h : p.toNat + bytes < 2 ^ 64) :
    (advance (ofPosition p) bytes : Action ε τ Cursor) = pure (ofPosition (p.advance bytes)) := by
  have hplace : (place (ofPosition (p.advance bytes)) : Action ε τ Nat)
      = pure (p.advance bytes).toNat :=
    place_ofPosition (by rw [Position.toNat_advance]; exact h)
  obtain ⟨block, byte, hbyte⟩ := p
  simp only [Position.toNat] at h
  rw [advance, ofPosition]
  dsimp only
  rw [difference_eq (Nat.le_of_lt hbyte), pure_bind]
  by_cases hroom : bytes < blockSize - byte
  · rw [if_pos hroom, word_eq (by omega), pure_bind]
    rw [Position.advance, dif_pos hroom] at hplace ⊢
    exact congrArg (· >>= _) hplace
  · have hskipped : (bytes - (blockSize - byte)) / blockSize + 1 + block < 2 ^ 64 := by
      simp only [blockSize] at h hroom hbyte ⊢
      omega
    rw [if_neg hroom, difference_eq (Nat.le_of_not_lt hroom), pure_bind, word_eq (by omega),
      pure_bind, word_eq (by omega), pure_bind]
    rw [Position.advance, dif_neg hroom] at hplace ⊢
    exact congrArg (· >>= _) hplace

theorem behindStart_eq {bytes : Nat} (h : bytes < 2 ^ 64) :
    (behindStart bytes : Action ε τ Cursor) = pure (ofPosition (.ofNat bytes)) := by
  have hstart : Position.start.toNat + bytes < 2 ^ 64 := by
    rwa [show Position.start.toNat = 0 from rfl, Nat.zero_add]
  exact advance_ofPosition hstart

end Cursor

/-! ## Spans -/

end BlockFS.Machine

namespace BlockFS.Span

/-- The number of bytes in some spans. -/
def total (spans : List Span) : Nat := (spans.map length).sum

theorem cover_of_le {blocks : Nat} {p : Position} (h : blocks ≤ p.block) (length : Nat) :
    cover blocks p length = [] := by
  rw [cover, Nat.sub_eq_zero_of_le h, coverWithin]

theorem cover_zero (blocks : Nat) (p : Position) : cover blocks p 0 = [] := coverWithin_zero _ _

/-- The first span goes to the end of its block or to the end of what is covered, and the other
spans cover the rest. -/
theorem cover_cons {blocks : Nat} {p : Position} (h : p.block < blocks) {length : Nat}
    (hlength : length ≠ 0) :
    cover blocks p length =
      ⟨p.block, p.byte, min length (blockSize - p.byte)⟩
        :: cover blocks (p.advance (min length (blockSize - p.byte)))
            (length - min length (blockSize - p.byte)) := by
  obtain ⟨more, hmore⟩ : ∃ more, blocks - p.block = more + 1 := ⟨blocks - p.block - 1, by omega⟩
  rw [cover, hmore, coverWithin_succ _ _ hlength, cover]
  rcases Nat.le_total length (blockSize - p.byte) with hle | hle
  · rw [Nat.min_eq_left hle, Nat.sub_self, coverWithin_zero, coverWithin_zero]
  · rw [Nat.min_eq_right hle, Position.block_advance_of_eq rfl,
      show blocks - (p.block + 1) = more by omega]

theorem total_coverWithin_le (blocks : Nat) :
    ∀ (p : Position) (length : Nat),
      total (coverWithin blocks p length) ≤ min length (blocks * blockSize - p.byte) := by
  induction blocks with
  | zero =>
    intro p length
    exact Nat.zero_le _
  | succ blocks ih =>
    intro p length
    by_cases hlength : length = 0
    · rw [hlength, coverWithin_zero]
      exact Nat.zero_le _
    · have hbyte := p.byte_lt
      have hrest := ih (p.advance (min length (blockSize - p.byte)))
        (length - min length (blockSize - p.byte))
      rw [coverWithin_succ _ _ hlength, total, List.map_cons, List.sum_cons]
      rw [total] at hrest
      dsimp only
      simp only [blockSize] at hbyte hrest ⊢
      omega

/-- Spans cover no more than is asked for. -/
theorem total_cover_le (blocks : Nat) (p : Position) (length : Nat) :
    total (cover blocks p length) ≤ length :=
  Nat.le_trans (total_coverWithin_le _ _ _) (Nat.min_le_left _ _)

/-- Spans that cover anything end before the last block does. -/
theorem add_total_cover_le {blocks : Nat} {p : Position} {length : Nat}
    (h : 0 < total (cover blocks p length)) :
    p.toNat + total (cover blocks p length) ≤ blocks * blockSize := by
  rcases Nat.lt_or_ge p.block blocks with hblock | hblock
  · have hle := total_coverWithin_le (blocks - p.block) p length
    rw [← cover] at hle
    simp only [Position.toNat, blockSize] at hle h ⊢
    omega
  · rw [cover_of_le hblock] at h
    exact absurd h (Nat.lt_irrefl 0)

end BlockFS.Span

namespace BlockFS.Machine

open ViewM (current change)

/-! ## Reading -/

/-- Reads on from a cursor into a buffer of `length` bytes until `wanted` bytes are read, with
`total` of them read before.  It stops at a hole and behind the last slot.  The loop may turn no
more often than `turns` times. -/
def readOn (r : Inode) (length wanted : Nat) :
    Nat → Cursor → Nat → Action Error Volume (List UInt8)
  | 0, _, total => if total < wanted then crash .stuck else return []
  | turns + 1, c, total =>
    if total < wanted then
      match r.block? c.block with
      | none => do
        let _ ← c.place
        return []
      | some block => do
        let contents ← loadBlock block
        let room ← range total wanted length
        let here ← readBytes contents c.byte room
        if here.isEmpty then crash .stuck
        else
          let total ← word 64 (total + here.length)
          let c ← c.advance here.length
          return here ++ (← readOn r length wanted turns c total)
    else return []

/-- Reads up to `length` bytes from byte `offset` on. -/
def readFile (f : File) (offset length : Nat) : Action Error Volume (List UInt8) :=
  if f.size ≤ offset then return []
  else do
    let left ← difference f.size offset
    let wanted := min length left
    let c ← Cursor.behindStart offset
    readOn f.record length wanted wanted c 0

/-- Reading stops where the spans begin at a hole, as it does behind the last slot. -/
theorem readSpans_hole {r : Inode} {p : Position} (h : r.block? p.block = none) (length : Nat) :
    File.readSpans r (Span.cover pointerCount p length) = pure [] := by
  by_cases hlength : length = 0
  · rw [hlength, Span.cover_zero]
    rfl
  rcases Nat.lt_or_ge p.block pointerCount with hslot | hslot
  · rw [Span.cover_cons hslot hlength, File.readSpans]
    simp only [h]
  · rw [Span.cover_of_le hslot]
    rfl

/-- Where the spans begin in a block, the first of them is read from it, and then the others. -/
theorem readSpans_block {r : Inode} {p : Position} {block : Nat} (h : r.block? p.block = some block)
    {length : Nat} (hlength : length ≠ 0) :
    File.readSpans r (Span.cover pointerCount p length) = do
      let here := (← Volume.readBlock block).read p.byte length
      let count := min length (blockSize - p.byte)
      return here ++
        (← File.readSpans r (Span.cover pointerCount (p.advance count) (length - count))) := by
  have hslot : p.block < pointerCount := by
    by_contra hge
    rw [Inode.block?_eq_none_of_le (Nat.le_of_not_lt hge)] at h
    cases h
  rw [Span.cover_cons hslot hlength, File.readSpans]
  simp only [h, read_min]

/-- The loop reads the spans that are still to be read. -/
theorem readOn_eq (r : Inode) {length wanted : Nat} (hwanted : wanted ≤ length) (turns : Nat) :
    ∀ (p : Position) (total : Nat), wanted ≤ total + turns → wanted < 2 ^ 64 →
      p.toNat + (wanted - total) < 2 ^ 64 →
      readOn r length wanted turns (.ofPosition p) total
        = plain (File.readSpans r (Span.cover pointerCount p (wanted - total))) := by
  induction turns with
  | zero =>
    intro p total hturns _ _
    rw [readOn, if_neg (by omega), Nat.sub_eq_zero_of_le (by omega), Span.cover_zero]
    rfl
  | succ turns ih =>
    intro p total hturns hword hp
    rw [readOn]
    by_cases htotal : total < wanted
    · rw [if_pos htotal, Cursor.block_ofPosition, Cursor.byte_ofPosition]
      cases hblock : r.block? p.block with
      | none =>
        rw [readSpans_hole hblock]
        exact congrArg (· >>= _) (Cursor.place_ofPosition (by omega))
      | some block =>
        have hbyte := p.byte_lt
        rw [readSpans_block hblock (by omega)]
        simp only [loadBlock_eq, plain_bind, plain_pure]
        refine bind_congr fun contents => ?_
        have hhere : (contents.read p.byte (wanted - total)).length
            = min (wanted - total) (blockSize - p.byte) := Bytes.length_read ..
        -- a span that begins inside of its block is not empty
        have hsome : (contents.read p.byte (wanted - total)).isEmpty = false := by
          rw [List.isEmpty_eq_false_iff, ← List.length_pos_iff, hhere]
          omega
        rw [range_eq (Nat.le_of_lt htotal) hwanted, pure_bind, readBytes_eq (Nat.le_of_lt hbyte),
          pure_bind, hsome, if_neg Bool.false_ne_true, hhere, word_eq (by omega), pure_bind,
          Cursor.advance_ofPosition (by omega), pure_bind,
          ih _ _ (by omega) hword (by rw [Position.toNat_advance]; omega), Nat.sub_add_eq]
    · rw [if_neg htotal, Nat.sub_eq_zero_of_le (by omega), Span.cover_zero]
      rfl

@[simp]
theorem readFile_eq (f : File) (offset length : Nat) :
    readFile f offset length = plain (f.read offset length) := by
  have hsize : f.size < 2 ^ 32 := f.record.size.toNat_lt
  rw [readFile, File.read]
  by_cases hoffset : offset < f.size
  · rw [if_neg (Nat.not_le.mpr hoffset), if_pos hoffset, difference_eq (Nat.le_of_lt hoffset),
      pure_bind]
    dsimp only
    rw [Cursor.behindStart_eq (by omega), pure_bind,
      readOn_eq f.record (Nat.min_le_left _ _) _ _ _ (by omega) (by omega)
        (by rw [Position.toNat_ofNat]; omega), Nat.sub_zero]
  · rw [if_pos (Nat.le_of_not_lt hoffset), if_neg hoffset]
    rfl

/-! ## Writing -/

/-- Hands out a block, or none if the volume is full and something was written already. -/
def allocateMore (progress : Bool) : Action Error Volume (Option Nat) :=
  recover (some <$> allocateBlock) fun e =>
    match e, progress with
    | .noSpace, true => return none
    | e, _ => fail e

/-- The block to write a slot into, with its contents.  The number of a block that a hole gets is
stored with 16 bits. -/
def blockFor (slot : Nat) (progress : Bool) : Action Error (Held File) (Option (Nat × Block)) := do
  match (← plain current).record.block? slot with
  | some block => return some (block, ← ofVolume (loadBlock block))
  | none =>
    match ← ofVolume (allocateMore progress) with
    | none => return none
    | some block =>
      let pointer ← narrow 16 block
      let _ ← range slot (slot + 1) pointerCount
      plain (change fun f => { f with record := f.record.setPointer slot pointer })
      let f ← plain current
      ofVolume (saveInode f.index f.record)
      return some (block, .zero)

/-- Writes on from a cursor until all data is written, with `total` bytes of it written before, and
tells how many bytes are written then. -/
def writeOn (data : List UInt8) : Nat → Cursor → Nat → Action Error (Held File) Nat
  | 0, _, total => if total < data.length then crash .stuck else return total
  | turns + 1, c, total =>
    if total < data.length then
      if pointerCount ≤ c.block then return total
      else do
        match ← blockFor c.block (0 < total) with
        | none => return total
        | some (block, contents) =>
          let rest ← cut data total data.length
          let (contents, left) ← writeBytes contents c.byte rest
          let taken ← difference data.length total
          let written ← difference taken left.length
          ofVolume (saveBlock block contents)
          if written = 0 then crash .stuck
          else
            let total ← word 64 (total + written)
            let c ← c.advance written
            writeOn data turns c total
    else return total

/-- Writes data from byte `offset` on and tells how many bytes were written. -/
def writeFile (offset : Nat) (data : List UInt8) : Action Error (Held File) Nat := do
  let c ← Cursor.behindStart offset
  let done ← writeOn data data.length c 0
  if 0 < done then
    let count ← narrow 32 done
    let finish ← word 32 (offset + count)
    let clock := (← get).volume.clock
    plain (change fun f =>
      { f with record := { f.record with
          size := if f.size < finish then .ofNat finish else f.record.size
          mtime := timestamp clock } })
    let f ← plain current
    ofVolume (saveInode f.index f.record)
    return done
  else return done

@[simp]
theorem allocateMore_eq (progress : Bool) :
    allocateMore progress = plain (File.allocateMore progress) := by
  rw [allocateMore, File.allocateMore, allocateBlock_eq, ← plain_map]
  exact recover_eq fun e => by cases progress <;> cases e <;> rfl

/-- A block that is handed out has a number of 16 bits. -/
theorem yields_allocateMore (progress : Bool) :
    Yields (fun _ => True) (File.allocateMore progress) fun block =>
      ∀ b, block = some b → b < UInt16.size := by
  refine Yields.tryCatch ?_ fun e => ?_
  · refine Yields.map (yields_allocateBlock.mono fun i hi b hb => ?_)
    rwa [← Option.some_inj.mp hb]
  · split
    · exact .pure fun b hb => nomatch hb
    · exact .throw

section

variable {View α : Type} {Q : α → Prop}

theorem yields_ofVolume {x : VolumeM α} (hx : Yields (fun _ => True) x Q) :
    Yields (fun _ => True) (ViewM.onVolume x : ViewM View α) Q :=
  yields_of_forall (P := ViewM.Both (fun _ => True) fun _ => True) hx.onVolume
    (fun _ => ⟨trivial, trivial⟩) fun _ => trivial

theorem yields_through (view : View) {x : ViewM View α} (hx : Yields (fun _ => True) x Q) :
    Yields (fun _ => True) (ViewM.through view x) Q :=
  Yields.through (S := fun _ => True)
    (yields_of_forall hx (fun _ => trivial) fun _ => ⟨trivial, trivial⟩) trivial

end

theorem blockFor_eq {slot : Nat} (hslot : slot < pointerCount) (progress : Bool) :
    blockFor slot progress = plain (File.blockFor slot progress) := by
  rw [blockFor, File.blockFor, plain_bind]
  refine bind_congr fun f => ?_
  cases f.record.block? slot with
  | some block => simp only [loadBlock_eq, plain_bind, plain_ofVolume, plain_pure]
  | none =>
    simp only [allocateMore_eq, ← plain_ofVolume, plain_bind]
    refine bind_congr_of_yields (yields_ofVolume (yields_allocateMore progress))
      fun more hmore => ?_
    cases more with
    | none => rfl
    | some block =>
      have hblock : block < 2 ^ 16 := hmore block rfl
      simp only [narrow_eq hblock, range_eq (Nat.le_succ slot) hslot, pure_bind, saveInode_eq,
        plain_bind, plain_ofVolume, plain_pure]

/-- Where data is written from a slot on, the slot takes what fits into its block, and the other
spans take the rest. -/
theorem writeSpans_slot {p : Position} (h : p.block < pointerCount) {data : List UInt8}
    (hdata : data.length ≠ 0) (done : Nat) :
    File.writeSpans (Span.cover pointerCount p data.length) data done = (do
      match ← File.blockFor p.block (0 < done) with
      | none => return done
      | some (block, contents) =>
        let here := min data.length (blockSize - p.byte)
        ViewM.onVolume (Volume.writeBlock block (contents.write p.byte data))
        File.writeSpans (Span.cover pointerCount (p.advance here) (data.length - here))
          (data.drop here) (done + here)) := by
  rw [Span.cover_cons h hdata, File.writeSpans]
  refine bind_congr fun found => ?_
  cases found with
  | none => rfl
  | some found =>
    obtain ⟨block, contents⟩ := found
    simp only [write_take]

/-- The loop writes the spans that are still to be written.  What is written lies between the start
of the file and the cursor, so that the numbers stay small. -/
theorem writeOn_eq (data : List UInt8) (turns : Nat) :
    ∀ (p : Position) (total : Nat), data.length ≤ total + turns → total ≤ p.toNat →
      writeOn data turns (.ofPosition p) total
        = plain (File.writeSpans (Span.cover pointerCount p (data.drop total).length)
            (data.drop total) total) := by
  induction turns with
  | zero =>
    intro p total hturns _
    rw [writeOn, if_neg (by omega), List.drop_eq_nil_of_le (by omega), List.length_nil,
      Span.cover_zero]
    rfl
  | succ turns ih =>
    intro p total hturns hplace
    rw [writeOn]
    by_cases htotal : total < data.length
    · rw [if_pos htotal, Cursor.block_ofPosition, Cursor.byte_ofPosition]
      have hrest : (data.drop total).length = data.length - total := List.length_drop
      rcases Nat.lt_or_ge p.block pointerCount with hslot | hslot
      · rw [if_neg (Nat.not_le.mpr hslot), writeSpans_slot hslot (by omega), blockFor_eq hslot,
          plain_bind]
        refine bind_congr fun found => ?_
        cases found with
        | none => rfl
        | some found =>
          obtain ⟨block, contents⟩ := found
          have hbyte := p.byte_lt
          have hleft : ((data.drop total).drop (blockSize - p.byte)).length
              = data.length - total - (blockSize - p.byte) := by rw [List.length_drop, hrest]
          have hwritten : data.length - total - (data.length - total - (blockSize - p.byte))
              = min (data.length - total) (blockSize - p.byte) := by omega
          have hsmall : p.toNat + min (data.length - total) (blockSize - p.byte) < 2 ^ 64 := by
            simp only [Position.toNat, blockSize, pointerCount] at hslot hbyte ⊢
            omega
          dsimp only
          rw [cut_eq (Nat.le_of_lt htotal) (Nat.le_refl _), pure_bind,
            List.take_of_length_le (Nat.le_of_eq hrest), writeBytes_eq (Nat.le_of_lt hbyte),
            pure_bind]
          dsimp only
          rw [difference_eq (Nat.le_of_lt htotal), pure_bind, hleft, difference_eq (Nat.sub_le _ _),
            pure_bind, hwritten, saveBlock_eq, hrest, plain_bind, plain_ofVolume]
          refine bind_congr fun _ => ?_
          rw [if_neg (by omega), word_eq (by omega), pure_bind, Cursor.advance_ofPosition hsmall,
            pure_bind, ih _ _ (by omega) (by rw [Position.toNat_advance]; omega), List.drop_drop,
            List.length_drop, Nat.sub_add_eq]
      · rw [if_pos hslot, Span.cover_of_le hslot]
        rfl
    · rw [if_neg htotal, List.drop_eq_nil_of_le (by omega), List.length_nil, Span.cover_zero]
      rfl

/-- Some bytes from byte `offset` on end where a file must end, unless there are none. -/
def Reaches (offset count : Nat) : Prop := 0 < count → offset + count ≤ pointerCount * blockSize

/-- No more is read than the spans hold. -/
theorem yields_readSpans (r : Inode) (spans : List Span) :
    Yields (fun _ => True) (File.readSpans r spans) fun data => data.length ≤ Span.total spans := by
  induction spans with
  | nil => exact .pure (Nat.le_refl _)
  | cons span spans ih =>
    rw [File.readSpans]
    split
    · exact .pure (Nat.zero_le _)
    · refine Yields.bind (yields_true _) fun b _ => ih.bind fun data hdata => .pure ?_
      rw [List.length_append, Bytes.length_read, Span.total, List.map_cons, List.sum_cons]
      exact Nat.add_le_add (Nat.min_le_left _ _) hdata

/-- No more is written than the spans hold. -/
theorem yields_writeSpans (spans : List Span) :
    ∀ (data : List UInt8) (done : Nat),
      Yields (fun _ => True) (File.writeSpans spans data done) (· ≤ done + Span.total spans) := by
  induction spans with
  | nil =>
    intro data done
    exact .pure (Nat.le_add_right _ _)
  | cons span spans ih =>
    intro data done
    rw [File.writeSpans]
    refine Yields.bind (yields_true _) fun found _ => ?_
    cases found with
    | none => exact .pure (Nat.le_add_right _ _)
    | some found =>
      refine Yields.bind (yields_true _) fun _ _ => (ih _ _).mono fun n hn => ?_
      rw [Span.total, List.map_cons, List.sum_cons]
      rwa [Nat.add_assoc, Span.total] at hn

theorem reaches_of_le_cover {offset length count : Nat}
    (h : count ≤ Span.total (Span.cover pointerCount (.ofNat offset) length)) :
    Reaches offset count := by
  intro hcount
  have hle := Span.add_total_cover_le (Nat.lt_of_lt_of_le hcount h)
  rw [Position.toNat_ofNat] at hle
  exact Nat.le_trans (Nat.add_le_add_left h offset) hle

/-- What is read fits the buffer and lies in the blocks that a file can have. -/
theorem yields_read (f : File) (offset length : Nat) :
    Yields (fun _ => True) (f.read offset length) fun data =>
      data.length ≤ length ∧ Reaches offset data.length := by
  rw [File.read]
  split
  · refine (yields_readSpans _ _).mono fun data hdata => ⟨?_, reaches_of_le_cover hdata⟩
    exact Nat.le_trans hdata (Nat.le_trans (Span.total_cover_le _ _ _) (Nat.min_le_left _ _))
  · exact .pure ⟨Nat.zero_le _, fun hpos => absurd hpos (Nat.lt_irrefl 0)⟩

theorem yields_writeCover (offset : Nat) (data : List UInt8) :
    Yields (fun _ => True)
      (File.writeSpans (Span.cover pointerCount (.ofNat offset) data.length) data 0)
      (Reaches offset) :=
  (yields_writeSpans _ _ _).mono fun _ hn => reaches_of_le_cover (Nat.zero_add _ ▸ hn)

/-- What is written lies in the blocks that a file can have. -/
theorem yields_write (offset : Nat) (data : List UInt8) :
    Yields (fun _ => True) (File.write offset data) (Reaches offset) := by
  rw [File.write]
  refine (yields_writeCover offset data).bind fun done hdone => ?_
  split
  · exact Yields.bind (yields_true _) fun _ _ => Yields.bind (yields_true _) fun _ _ =>
      Yields.bind (yields_true _) fun _ _ => Yields.bind (yields_true _) fun _ _ => .pure hdone
  · exact .pure hdone

/-- A file grows to the end of what is written, and never shrinks. -/
theorem size_of_finish (f : File) (finish : Nat) :
    (if f.size < finish then .ofNat finish else f.record.size)
      = UInt32.ofNat (max f.size finish) := by
  split
  · next h => rw [Nat.max_eq_right (Nat.le_of_lt h)]
  · next h => rw [Nat.max_eq_left (Nat.le_of_not_lt h), File.size, UInt32.ofNat_toNat]

theorem writeFile_eq {offset : Nat} (hoffset : offset < 2 ^ 64) (data : List UInt8) :
    writeFile offset data = plain (File.write offset data) := by
  rw [writeFile, File.write, Cursor.behindStart_eq hoffset, pure_bind,
    writeOn_eq data _ _ _ (by omega) (Nat.zero_le _), List.drop_zero, plain_bind]
  refine bind_congr_of_yields (yields_writeCover offset data) fun done hdone => ?_
  by_cases hpos : 0 < done
  · have hfinish : offset + done ≤ pointerCount * blockSize := hdone hpos
    simp only [pointerCount, blockSize] at hfinish
    rw [if_pos hpos, if_pos hpos, narrow_eq (by omega), pure_bind, word_eq (by omega), pure_bind]
    simp only [size_of_finish, saveInode_eq, plain_bind, plain_get, plain_ofVolume, plain_pure]
  · rw [if_neg hpos, if_neg hpos]
    rfl

end BlockFS.Machine
