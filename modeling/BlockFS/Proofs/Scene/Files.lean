import BlockFS.Tree
import BlockFS.Proofs.Cells
import BlockFS.Proofs.Scene.Making

/-!
# Files where no transfer fails

Reading and writing go over the spans of a file one after another.  If the blocks of a file show its
cells, reading tells them, and writing leaves blocks that show the cells written over; everything that
belongs to other inodes stays as it is.
-/

namespace BlockFS

open Volume

/-! ## Positions -/

namespace Position

theorem block_ofNat (k : Nat) : (ofNat k).block = k / blockSize := by
  have h := toNat_ofNat k
  have hbyte := (ofNat k).byte_lt
  simp only [toNat, blockSize] at h hbyte ⊢
  omega

theorem toNat_div (p : Position) : p.toNat / blockSize = p.block := by
  have hbyte := p.byte_lt
  simp only [toNat, blockSize] at hbyte ⊢
  omega

/-- An advance that ends inside the block. -/
theorem block_advance_of_lt {p : Position} {bytes : Nat} (h : bytes < blockSize - p.byte) :
    (p.advance bytes).block = p.block := by
  rw [advance, dif_pos h]

/-- An advance to the end of the block. -/
theorem block_advance_of_eq {p : Position} {bytes : Nat} (h : bytes = blockSize - p.byte) :
    (p.advance bytes).block = p.block + 1 := by
  rw [advance, dif_neg (by omega), h]
  simp

/-- An advance within a block ends in the block or at the start of the next. -/
theorem block_advance_le {p : Position} {bytes : Nat} (h : bytes ≤ blockSize - p.byte) :
    (p.advance bytes).block ≤ p.block + 1 := by
  rcases Nat.lt_or_eq_of_le h with hlt | heq
  · rw [block_advance_of_lt hlt]
    exact Nat.le_succ _
  · exact Nat.le_of_eq (block_advance_of_eq heq)

end Position

namespace Span

theorem coverWithin_zero (blocks : Nat) (p : Position) : coverWithin blocks p 0 = [] := by
  cases blocks with
  | zero => rfl
  | succ blocks => rw [coverWithin, if_pos rfl]

theorem coverWithin_succ (blocks : Nat) (p : Position) {length : Nat} (h : length ≠ 0) :
    coverWithin (blocks + 1) p length =
      ⟨p.block, p.byte, min length (blockSize - p.byte)⟩
        :: coverWithin blocks (p.advance (min length (blockSize - p.byte)))
            (length - min length (blockSize - p.byte)) := by
  rw [coverWithin, if_neg h]

end Span

variable {l : Layout} {s s' s'' : Scene l} {i slot : Nat} {cells : Cells}

theorem Records.content_eq_none_iff {c : Records} :
    c.content i slot = none ↔ (c.inode i).block? slot = none := by
  rw [Records.content, Option.map_eq_none_iff]

/-! ## Reading -/

namespace File

/-- Reading goes up to the first hole. -/
theorem does_readSpans (hm : s.mounted = true) (h : s.records.Exact l)
    (hi : s.records.kind i ≠ .free) (hshow : Cells.Shows (s.records.content i) cells)
    {gap : Nat} (hgap : s.records.content i gap = none) (blocks : Nat) :
    ∀ (p : Position) (length : Nat), p.block ≤ gap → gap ≤ p.block + blocks →
      (∀ b, p.block ≤ b → b < gap → s.records.content i b ≠ none) →
      Does (readSpans (s.records.inode i) (Span.coverWithin blocks p length)) s
        (.ok (cells.bytes p.toNat (min (p.toNat + length) (gap * blockSize)))) s := by
  induction blocks with
  | zero =>
    intro p length hle hge _
    have hend : min (p.toNat + length) (gap * blockSize) ≤ p.toNat := by
      simp only [Position.toNat, blockSize]
      omega
    rw [Cells.bytes_eq_nil hend]
    exact Does.pure _ _
  | succ blocks ih =>
    intro p length hle hge hfull
    by_cases hlength : length = 0
    · have hend : min (p.toNat + length) (gap * blockSize) ≤ p.toNat := by omega
      rw [Cells.bytes_eq_nil hend, hlength, Span.coverWithin_zero]
      exact Does.pure _ _
    · rw [Span.coverWithin_succ _ _ hlength]
      cases hblock : (s.records.inode i).block? p.block with
      | none =>
        have hend : min (p.toNat + length) (gap * blockSize) ≤ p.toNat := by
          have hnot : ¬ p.block < gap := fun hlt =>
            hfull p.block (Nat.le_refl _) hlt (Records.content_eq_none_iff.mpr hblock)
          simp only [Position.toNat, blockSize]
          omega
        rw [Cells.bytes_eq_nil hend]
        simp only [readSpans, hblock]
        exact Does.pure _ _
      | some b =>
        have hlt : p.block < gap := by
          rcases Nat.lt_or_eq_of_le hle with hlt | heq
          · exact hlt
          · rw [heq, Records.content_eq_none_iff.mp hgap] at hblock
            cases hblock
        have hown : s.records.Owns i p.block b := ⟨hi, hblock⟩
        obtain ⟨hrange, hcount⟩ := h.blocks.range i p.block b hown
        have hbyte := p.byte_lt
        have hadvance := p.toNat_advance (min length (blockSize - p.byte))
        have hread := hshow.read p.byte (min length (blockSize - p.byte)) hown.content_eq
          (by omega)
        simp only [readSpans, hblock]
        apply (does_readBlock hm hrange hcount).bind
        rw [hread]
        by_cases hroom : length < blockSize - p.byte
        · have hhere : min length (blockSize - p.byte) = length := by omega
          have hend : min (p.toNat + length) (gap * blockSize)
              = p.block * blockSize + p.byte + length := by
            simp only [Position.toNat, blockSize] at hroom ⊢
            omega
          rw [hhere, Nat.sub_self, Span.coverWithin_zero, hend]
          apply (Does.pure [] s).bind
          rw [List.append_nil]
          exact Does.pure _ _
        · have hhere : min length (blockSize - p.byte) = blockSize - p.byte := by omega
          rw [hhere] at hadvance ⊢
          have hnext := Position.block_advance_of_eq (p := p) rfl
          have hrest := ih (p.advance (blockSize - p.byte)) (length - (blockSize - p.byte))
            (by omega) (by omega) (fun b hb => hfull b (by omega))
          apply hrest.bind
          have hstop : (p.advance (blockSize - p.byte)).toNat + (length - (blockSize - p.byte))
              = p.toNat + length := by omega
          have hmiddle : (p.advance (blockSize - p.byte)).toNat
              ≤ min (p.toNat + length) (gap * blockSize) := by
            simp only [Position.toNat, blockSize] at hadvance hroom hbyte ⊢
            omega
          have hstart : p.toNat ≤ (p.advance (blockSize - p.byte)).toNat := by omega
          rw [hstop, Cells.bytes_append hstart hmiddle, hadvance]
          exact Does.pure _ _

/-- A read stops at its length, at the end of the file, and at the first hole. -/
theorem does_read (hm : s.mounted = true) (h : s.records.Exact l)
    (hi : s.records.kind i ≠ .free) (hshow : Cells.Shows (s.records.content i) cells)
    (offset length : Nat) {gap : Nat} (hle : offset / blockSize ≤ gap)
    (hgap : s.records.content i gap = none)
    (hfull : ∀ b, offset / blockSize ≤ b → b < gap → s.records.content i b ≠ none) :
    Does (read (s.file i) offset length) s
      (.ok (cells.bytes offset
        (min (min (offset + length) (s.records.inode i).size.toNat) (gap * blockSize)))) s := by
  rw [read]
  split
  · next hlt =>
    have hlt' : offset < (s.records.inode i).size.toNat := hlt
    have hblock := Position.block_ofNat offset
    have hslots : gap ≤ (Position.ofNat offset).block
        + (pointerCount - (Position.ofNat offset).block) := by
      by_contra hbig
      -- Past the last slot there are only holes.
      apply hfull (gap - 1) (by omega) (by omega)
      exact Records.content_eq_none_iff.mpr (Inode.block?_eq_none_of_le (by omega))
    have hstop : min (offset + min length ((s.records.inode i).size.toNat - offset))
        (gap * blockSize)
          = min (min (offset + length) (s.records.inode i).size.toNat) (gap * blockSize) := by
      omega
    have hspans := does_readSpans hm h hi hshow hgap _ (Position.ofNat offset)
      (min length ((s.records.inode i).size.toNat - offset)) (by omega) hslots
      (by rw [hblock]; exact hfull)
    rw [Position.toNat_ofNat, hstop] at hspans
    exact hspans
  · next hge =>
    have hge' : (s.records.inode i).size.toNat ≤ offset := Nat.le_of_not_lt hge
    rw [Cells.bytes_eq_nil (by omega)]
    exact Does.pure _ _

end File

/-! ## Writing -/

/-- What a write into a file keeps, and what it leaves as it was. -/
structure Scene.Writes (i : Nat) (s s' : Scene l) : Prop where
  mounted : s'.mounted = s.mounted
  clock : s'.clock = s.clock
  cwd : s'.cwd = s.cwd
  tidy : s'.records.Tidy l
  tree : s'.records.tree = s.records.tree
  inode : ∀ j, j ≠ i → s'.records.inode j = s.records.inode j
  content : ∀ j k, j ≠ i → s.records.kind j ≠ .free →
    s'.records.content j k = s.records.content j k
  points : ∀ k b, (s.records.inode i).block? k = some b → (s'.records.inode i).block? k = some b

namespace Scene.Writes

theorem refl (h : s.records.Tidy l) : Writes i s s :=
  ⟨rfl, rfl, rfl, h, rfl, fun _ _ => rfl, fun _ _ _ _ => rfl, fun _ _ hk => hk⟩

theorem kind_eq (w : Writes i s s') (j : Nat) : s'.records.kind j = s.records.kind j :=
  congrFun (congrArg NameTree.kind w.tree) j

theorem trans (w : Writes i s s') (w' : Writes i s' s'') : Writes i s s'' where
  mounted := w'.mounted.trans w.mounted
  clock := w'.clock.trans w.clock
  cwd := w'.cwd.trans w.cwd
  tidy := w'.tidy
  tree := w'.tree.trans w.tree
  inode := by
    intro j hj
    rw [w'.inode j hj, w.inode j hj]
  content := by
    intro j k hj hlive
    rw [w'.content j k hj (by rw [w.kind_eq]; exact hlive), w.content j k hj hlive]
  points k b hk := w'.points k b (w.points k b hk)

end Scene.Writes

section

variable (h : s.records.Tidy l) (hi : s.records.kind i = .file)

include h hi

/-- A hole of a file gets a block of zeros. -/
theorem writes_grow {b : Nat} (hhole : (s.records.inode i).block? slot = none)
    (hslot : slot < pointerCount) (hb : s.records.used .block b = false) (hlt : b < l.blockCount) :
    let s' := ((s.mark .block b true).putBlock b .zero).putInode i
      ((s.records.inode i).setPointer slot b)
    Scene.Writes i s s' ∧ s'.records.inode i = (s.records.inode i).setPointer slot b ∧
      s'.records.Owns i slot b ∧
      s'.records.content i = Function.update (s.records.content i) slot (some .zero) := by
  intro s'
  have hlive := Records.ne_free_of_file hi
  have hilt : i < l.inodeCount := h.lt_of_live hlive
  have hge := h.reserves.le_of_free hb
  have hrecords : s'.records = (s.records.takeBlock b .zero).putInode i
      ((s.records.inode i).setPointer slot b) := by
    rw [Scene.records_putInode _ hilt, Scene.records_putBlock _ hge hlt,
      Scene.records_mark (r := .block) _ hlt]
    rfl
  have hpoint (k : Nat) := Inode.block?_setPointer (x := s.records.inode i) (k := k) hslot
    (h.toExact.ne_zero_of_free hb) (l.small_of_lt (r := .block) hlt)
  have htidy := h.grow (z := .zero) hi hhole hb hlt
    (Inode.kind_setPointer slot b) hpoint
  have htree := h.tree_grow (z := .zero) (b := b) (fun he => Kind.noConfusion (hi.symm.trans he)) hb
    (Inode.kind_setPointer slot b)
  refine ⟨⟨rfl, rfl, rfl, ?_, ?_, ?_, ?_, ?_⟩, ?_, ?_, ?_⟩
  · rw [hrecords]
    exact htidy
  · rw [hrecords]
    exact htree
  · intro j hj
    rw [hrecords, Records.inode_putInode, if_neg hj]
    rfl
  · intro j k hj hjlive
    rw [hrecords, Records.content_putInode_of_ne hj, Records.content_takeBlock h.toExact hb hjlive]
  · intro k b' hk
    have hne : k ≠ slot := by
      rintro rfl
      rw [hhole] at hk
      cases hk
    rw [hrecords, Records.inode_putInode, if_pos rfl, hpoint, if_neg hne]
    exact hk
  · rw [hrecords, Records.inode_putInode, if_pos rfl]
  · rw [hrecords]
    refine ⟨?_, ?_⟩
    · have hkind := congrFun (congrArg NameTree.kind htree) i
      exact fun he => hlive (hkind.symm.trans he)
    · rw [Records.inode_putInode, if_pos rfl, hpoint, if_pos rfl]
  · funext k
    rw [hrecords, Records.content_putInode_self, hpoint]
    by_cases hk : k = slot
    · rw [if_pos hk, hk, Function.update_self]
      exact congrArg some (Function.update_self _ _ _)
    · rw [if_neg hk, Function.update_of_ne hk]
      exact Records.content_takeBlock (z := .zero) h.toExact hb hlive

/-- A block of a file gets other contents. -/
theorem writes_putBlock {b : Nat} (ho : s.records.Owns i slot b) (z : Block) :
    Scene.Writes i s (s.putBlock b z) ∧
      (s.putBlock b z).records.inode i = s.records.inode i ∧
      (s.putBlock b z).records.content i
        = Function.update (s.records.content i) slot (some z) := by
  have hlive := Records.ne_free_of_file hi
  obtain ⟨hge, hlt⟩ := h.blocks.range i slot b ho
  have hrecords := s.records_putBlock hge hlt z
  refine ⟨⟨rfl, rfl, rfl, ?_, ?_, ?_, ?_, ?_⟩, ?_, ?_⟩
  · rw [hrecords]
    exact h.putBlock ho hi
  · rw [hrecords]
    exact h.tree_putBlock ho hi
  · intro j _
    rw [hrecords]
    rfl
  · intro j k hj hjlive
    rw [hrecords, Records.content_putBlock h.toExact ho hjlive, if_neg (fun he => hj he.1)]
  · intro k b' hk
    rw [hrecords]
    exact hk
  · rw [hrecords]
    rfl
  · funext k
    rw [hrecords, Records.content_putBlock h.toExact ho hlive, Function.update_apply]
    simp only [true_and]

/-- The record of a file gets another size and time. -/
theorem writes_putInode {x : Inode} (hx : x.kind = (s.records.inode i).kind)
    (hp : ∀ k, x.block? k = (s.records.inode i).block? k) :
    Scene.Writes i s (s.putInode i x) ∧ (s.putInode i x).records.inode i = x ∧
      (s.putInode i x).records.content i = s.records.content i := by
  have hilt : i < l.inodeCount := h.lt_of_live (Records.ne_free_of_file hi)
  have hrecords := s.records_putInode hilt x
  refine ⟨⟨rfl, rfl, rfl, ?_, ?_, ?_, ?_, ?_⟩, ?_, ?_⟩
  · rw [hrecords]
    exact h.putInode hi hx hp
  · rw [hrecords]
    exact Records.Tidy.tree_putInode hi hx
  · intro j hj
    rw [hrecords, Records.inode_putInode, if_neg hj]
  · intro j k hj _
    rw [hrecords, Records.content_putInode_of_ne hj]
  · intro k b hk
    rw [hrecords, Records.inode_putInode, if_pos rfl, hp]
    exact hk
  · rw [hrecords, Records.inode_putInode, if_pos rfl]
  · funext k
    rw [hrecords, Records.content_putInode_self, hp]
    rfl

end

/-- The record of an inode that was made to reach some byte, with the time of the change. -/
def Inode.reaching (x : Inode) (reach : Nat) (mtime : UInt32) : Inode :=
  { x with size := .ofNat (max x.size.toNat reach), mtime := mtime }

theorem Inode.toNat_size_reaching {x : Inode} {reach : Nat} {mtime : UInt32}
    (h : reach < UInt32.size) : (x.reaching reach mtime).size.toNat = max x.size.toNat reach := by
  have hold := x.size.toNat_lt
  change (UInt32.ofNat (max x.size.toNat reach)).toNat = _
  rw [UInt32.toNat_ofNat', Nat.mod_eq_of_lt]
  simp only [UInt32.size] at h
  omega

/-- A slot of a file holds a block, which is the one that it held or a block of zeros. -/
structure Scene.Supplies (i slot b : Nat) (s s' : Scene l) : Prop where
  writes : Scene.Writes i s s'
  owns : s'.records.Owns i slot b
  size : (s'.records.inode i).size = (s.records.inode i).size
  content : s'.records.content i = Function.update (s.records.content i) slot
    (some ((s.records.content i slot).getD .zero))

namespace Scene.Supplies

variable {b : Nat}

theorem refl (h : s.records.Tidy l) (ho : s.records.Owns i slot b) : Supplies i slot b s s where
  writes := .refl h
  owns := ho
  size := rfl
  content := by rw [ho.content_eq, Option.getD_some, ← ho.content_eq, Function.update_eq_self]

theorem grow (h : s.records.Tidy l) (hi : s.records.kind i = .file)
    (hhole : (s.records.inode i).block? slot = none) (hslot : slot < pointerCount)
    (hb : s.records.used .block b = false) (hlt : b < l.blockCount) :
    Supplies i slot b s (((s.mark .block b true).putBlock b .zero).putInode i
      ((s.records.inode i).setPointer slot b)) := by
  obtain ⟨hw, hrecord, hown, hcontent⟩ := writes_grow h hi hhole hslot hb hlt
  refine ⟨hw, hown, ?_, ?_⟩
  · rw [hrecord, Inode.size_setPointer]
  · rw [Records.content_eq_none_iff.mpr hhole]
    exact hcontent

theorem kind (w : Supplies i slot b s s') (hi : s.records.kind i = .file) :
    s'.records.kind i = .file :=
  (w.writes.kind_eq i).trans hi

end Scene.Supplies

/-- Between two scenes, the first `n` bytes of some data came into a file from an offset on. -/
structure Scene.Puts (i offset : Nat) (data : List UInt8) (cells : Cells) (s s' : Scene l)
    (n : Nat) : Prop where
  writes : Scene.Writes i s s'
  idle : n = 0 → s' = s
  le : n ≤ data.length
  fits : n ≠ 0 → offset + n ≤ pointerCount * blockSize
  shows : Cells.Shows (s'.records.content i) (cells.lay offset (data.take n))

theorem Scene.Puts.none (h : s.records.Tidy l) (hshow : Cells.Shows (s.records.content i) cells)
    (offset : Nat) (data : List UInt8) : Scene.Puts i offset data cells s s 0 where
  writes := .refl h
  idle := fun _ => rfl
  le := Nat.zero_le _
  fits := fun hne => absurd rfl hne
  shows := by
    rw [List.take_zero, Cells.lay_nil]
    exact hshow

/-- The data came into the file up to where it ends, up to the byte `limit` of the file, or up to a hole
for which no block is free. -/
structure Scene.Fills (i offset limit : Nat) (data : List UInt8) (cells : Cells) (s s' : Scene l)
    (n : Nat) : Prop extends Scene.Puts i offset data cells s s' n where
  stops : n < data.length → offset + n < limit →
    (s'.records.inode i).block? ((offset + n) / blockSize) = none ∧
      s'.records.lowestFree .block l.blockCount = none

/-! ### Some bytes of one block -/

section

variable {b byte k here n : Nat} {data : List UInt8} (w : Scene.Supplies i slot b s s')
  (hi : s.records.kind i = .file) (hk : slot * blockSize + byte = k) (hpos : 0 < here)
  (hlen : here ≤ data.length) (hroom : byte + here ≤ blockSize)

include w hi hk hpos hlen hroom

/-- The block of a slot after the data was written into it. -/
theorem Scene.Supplies.shows (hshow : Cells.Shows (s.records.content i) cells) :
    Cells.Shows ((s'.putBlock b (((s.records.content i slot).getD .zero).write byte
      (data.take here))).records.content i) (cells.lay k (data.take here)) := by
  have htake : (data.take here).length = here := by
    rw [List.length_take]
    omega
  rw [(writes_putBlock w.writes.tidy (w.kind hi) w.owns _).2.2, w.content, Function.update_idem,
    ← hk]
  exact hshow.write (List.length_pos_iff.mp (by omega)) (by omega)

/-- Some bytes came into one block of the file, and then the others. -/
theorem Scene.Supplies.puts_cons (hslot : slot < pointerCount)
    (hputs : Scene.Puts i (k + here) (data.drop here) (cells.lay k (data.take here))
      (s'.putBlock b (((s.records.content i slot).getD .zero).write byte (data.take here)))
      s'' n) :
    Scene.Puts i k data cells s s'' (here + n) := by
  have hle := hputs.le
  rw [List.length_drop] at hle
  refine ⟨(w.writes.trans (writes_putBlock w.writes.tidy (w.kind hi) w.owns _).1).trans
    hputs.writes, by omega, by omega, fun _ => ?_, ?_⟩
  · rw [← Nat.add_assoc]
    by_cases hn : n = 0
    · rw [hn, Nat.add_zero, ← hk, Nat.add_assoc]
      calc
        slot * blockSize + (byte + here) ≤ (slot + 1) * blockSize := by
          rw [Nat.succ_mul]
          exact Nat.add_le_add_left hroom _
        _ ≤ pointerCount * blockSize := Nat.mul_le_mul_right _ hslot
    · exact hputs.fits hn
  · have hshows := hputs.shows
    rw [Cells.lay_take_add _ _ hlen] at hshows
    exact hshows

end

/-! ## Reading by inode -/

namespace Volume

theorem does_readAt (hm : s.mounted = true) (h : s.records.Exact l)
    (hi : s.records.kind i = .file) (hshow : Cells.Shows (s.records.content i) cells)
    (offset length : Nat) {gap : Nat} (hle : offset / blockSize ≤ gap)
    (hgap : s.records.content i gap = none)
    (hfull : ∀ b, offset / blockSize ≤ b → b < gap → s.records.content i b ≠ none) :
    Does (readAt i offset length) s
      (.ok (cells.bytes offset
        (min (min (offset + length) (s.records.inode i).size.toNat) (gap * blockSize)))) s :=
  (File.does_ofInode hm hi).bind
    (File.does_read hm h (Records.ne_free_of_file hi) hshow offset length hle hgap hfull)

/-- What is no file cannot be opened as one. -/
theorem does_ofInode_other (hm : s.mounted = true) (hi : s.records.kind i ≠ .file) :
    ∃ e, Does (File.ofInode i) s (.error e) s := by
  match hk : s.records.kind i with
  | .file => exact absurd hk hi
  | .directory => exact ⟨.notAFile, File.does_ofInode_directory hm hk⟩
  | .free => exact ⟨.notFound, File.does_ofInode_unused hm hk⟩

end Volume

end BlockFS
