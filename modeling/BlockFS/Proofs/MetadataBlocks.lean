import BlockFS.Proofs.Answers
import BlockFS.Proofs.DeviceView
import BlockFS.Proofs.Keeping
import Mathlib.Logic.Relation

/-!
# The metadata of an image that nobody made

A device may hold any bytes behind a valid superblock.  A pointer is compared with the end of the
volume before it is followed, but not with the start of the data, and the bitmap is believed when it
calls a block free.  Hence only block 0 is out of reach on every image: a pointer to the superblock
is followed, and a write into the file replaces the superblock.  Main statement: on an image whose
bitmap marks the blocks before the data and whose pointers lead behind them, calls change the
metadata by nothing but setting and clearing the bits of items and storing whole inode records.
-/

namespace BlockFS

open Volume

variable {l : Layout}

/-! ## Blocks that are written as nothing -/

theorem Yields.onDevice {α : Type} {R : Device → Prop} {x : DeviceM α} {Q : α → Prop}
    (hx : Yields R x Q) : Yields (fun v : Volume => R v.device) (onDevice x) Q := by
  rintro ⟨d, clock, layout, cwd⟩ hd
  rcases hx d hd with ⟨a, d', hx, hd', hq⟩ | ⟨e, d', hx, hd'⟩
  · exact .inl ⟨a, ⟨d', clock, layout, cwd⟩, by simp only [BlockFS.onDevice, hx], hd', hq⟩
  · exact .inr ⟨e, ⟨d', clock, layout, cwd⟩, by simp only [BlockFS.onDevice, hx], hd'⟩

/-- Block `j` of a device is `z`. -/
def Device.Holds (j : Nat) (z : Block) (d : Device) : Prop := d.disk.block j = z

section

variable {j i : Nat} {z b : Block}

namespace Device

theorem keeps_readSector {P : Disk → Prop} (k : Nat) :
    Keeps (fun d : Device => P d.disk) (readSector k) := by
  rintro ⟨disk, faults, history⟩ hd
  rw [readSector]
  cases faults history (.read k) with
  | some cause => exact .inr ⟨_, _, rfl, hd⟩
  | none =>
    cases disk.sector? k with
    | some s => exact .inl ⟨_, _, rfl, hd, trivial⟩
    | none => exact .inr ⟨_, _, rfl, hd⟩

theorem keeps_readBlock {P : Disk → Prop} (i : Nat) :
    Keeps (fun d : Device => P d.disk) (readBlock i) :=
  (keeps_readSector _).bind fun _ => (keeps_readSector _).bind fun _ => .pure _

theorem keeps_writeSector {k : Nat} (h : k ≠ 2 * j) (h' : k ≠ 2 * j + 1) (s : Sector) :
    Keeps (Holds j z) (writeSector k s) := by
  rintro ⟨disk, faults, history⟩ hd
  rw [writeSector]
  cases faults history (.write k) with
  | some cause => exact .inr ⟨_, _, rfl, hd⟩
  | none =>
    refine .inl ⟨_, _, rfl, ?_, trivial⟩
    rw [Holds, Disk.block, Disk.sector_writeSector, Disk.sector_writeSector, if_neg (Ne.symm h),
      if_neg (Ne.symm h')]
    exact hd

theorem keeps_writeBlock (h : i ≠ j) (b : Block) : Keeps (Holds j z) (writeBlock i b) :=
  (keeps_writeSector (by omega) (by omega) _).bind fun _ =>
    keeps_writeSector (by omega) (by omega) _

end Device

namespace Layout

variable (l)

theorem keeps_readBlock (i : Nat) : Keeps (Device.Holds j z) (l.readBlock i) := by
  rw [readBlock]
  split
  · exact Device.keeps_readBlock (P := fun disk => disk.block j = z) i
  · exact .throw _

theorem keeps_writeBlock (h : i ≠ j) (b : Block) : Keeps (Device.Holds j z) (l.writeBlock i b) := by
  rw [writeBlock]
  split
  · exact Device.keeps_writeBlock h b
  · exact .throw _

theorem keeps_readBitmap (r : Resource) : Keeps (Device.Holds j z) (l.readBitmap r) :=
  (l.keeps_readBlock _).bind fun _ => .pure _

theorem keeps_readInode (i : Nat) : Keeps (Device.Holds j z) (l.readInode i) := by
  refine (Keeps.liftExcept _).bind fun place => (l.keeps_readBlock _).bind fun b => ?_
  dsimp only
  split
  · exact (l.keeps_readBlock _).bind fun _ => .pure _
  · exact .pure _

variable (hj : j ≤ superblockBlock)

include hj

theorem keeps_writeBitmap (r : Resource) (b : Bitmap) :
    Keeps (Device.Holds j z) (l.writeBitmap r b) := by
  have := l.superblock_lt_bitmapBlock r
  exact l.keeps_writeBlock (by omega) _

theorem keeps_writeInode (i : Nat) (x : Inode) : Keeps (Device.Holds j z) (l.writeInode i x) := by
  have hplace : Yields (Device.Holds j z)
      (liftExcept (l.superblock.inodePlace i) : DeviceM (Nat × Nat))
      fun place => superblockBlock < place.1 := by
    refine Yields.liftExcept fun place h => ?_
    rcases Nat.lt_or_ge i l.inodeCount with hi | hi
    · rw [l.inodePlace_eq hi] at h
      obtain rfl := Except.ok.inj h
      exact l.superblock_lt_inodeBlock i
    · rw [inodePlace_of_le hi] at h
      cases h
  refine .after hplace fun place hlt => ?_
  refine (l.keeps_readBlock _).bind fun first => ?_
  refine Keeps.bind (l.keeps_writeBlock (by omega) _) fun _ => ?_
  dsimp only
  split
  · exact .pure _
  · exact (l.keeps_readBlock _).bind fun _ => l.keeps_writeBlock (by omega) _

end Layout

/-- Block `j` of the device of a volume is `z`. -/
def Volume.Holds (j : Nat) (z : Block) (v : Volume) : Prop := v.device.Holds j z

theorem Inode.ne_zero_of_mem_blocks {x : Inode} {i : Nat} (h : i ∈ x.blocks) : i ≠ 0 := by
  obtain ⟨k, hk⟩ := Inode.mem_blocks_iff.mp h
  obtain ⟨p, -, hp, rfl⟩ := Inode.block?_eq_some_iff.mp hk
  exact fun hzero => hp (UInt16.toNat_inj.mp hzero)

namespace Volume

/-- A layout that is in force is needed before anything is transferred. -/
theorem keeps_onLayout {α : Type} {x : Layout → DeviceM α}
    (hx : ∀ l, Keeps (Device.Holds j z) (x l)) :
    Keeps (Holds j z) (getLayout >>= fun l => onDevice (x l)) :=
  keeps_getLayout.bind fun l => (hx l).onDevice

theorem yields_allocate (hj : j ≤ superblockBlock) (r : Resource) :
    Yields (Holds j z) (allocate r) fun i => i ≠ 0 ∧ i < UInt16.size := by
  refine Yields.bind keeps_getLayout fun l _ => ?_
  have hcount : Yields (Holds j z) (onDevice (l.readBitmap r)) fun b => b.count = r.count l :=
    Yields.onDevice (Yields.bind (l.keeps_readBlock _) fun _ _ => .pure rfl)
  refine hcount.bind fun b hb => ?_
  split
  · exact .throw
  · next i hi =>
    have hmem := List.mem_of_find?_eq_some hi
    rw [List.mem_range'_1, hb] at hmem
    have hsmall : i < UInt16.size := l.small_of_lt (r := r) (by omega)
    refine Yields.bind (Keeps.liftExcept _) fun taken _ => ?_
    refine Yields.bind (l.keeps_writeBitmap hj r taken).onDevice fun _ _ => ?_
    exact .pure ⟨by omega, hsmall⟩

theorem keeps_deallocate (hj : j ≤ superblockBlock) (r : Resource) (i : Nat) :
    Keeps (Holds j z) (deallocate r i) :=
  keeps_getLayout.bind fun l => Keeps.bind (l.keeps_readBitmap r).onDevice fun _ =>
    (Keeps.liftExcept _).bind fun _ => (l.keeps_writeBitmap hj r _).onDevice

theorem keeps_writeInode (hj : j ≤ superblockBlock) (i : Nat) (x : Inode) :
    Keeps (Holds j z) (writeInode i x) :=
  keeps_onLayout fun l => l.keeps_writeInode hj i x

theorem keeps_writeBlock (h : i ≠ j) (b : Block) : Keeps (Holds j z) (writeBlock i b) :=
  keeps_onLayout fun l => l.keeps_writeBlock h b

/-- No call writes block 0, whatever is on the device and whichever transfers fail. -/
theorem caretaker_firstBlock (z : Block) : Caretaker (Holds 0 z) (· ≠ 0) := by
  have hj : 0 ≤ superblockBlock := Nat.zero_le _
  have hread (i : Nat) : Keeps (Holds 0 z) (readInode i) := by
    refine Keeps.bind (keeps_onLayout fun l => l.keeps_readBitmap .inode) fun _ => ?_
    split
    · exact keeps_onLayout fun l => l.keeps_readInode i
    · exact .throw _
  apply Warden.caretaker
  constructor
  case unmounted => exact fun _ h => h
  case wait => exact fun _ _ h => h
  case mount =>
    refine Keeps.bind (Keeps.modify fun _ h => h) fun _ => ?_
    have hlayout : Keeps (Device.Holds 0 z) Device.readLayout := by
      refine (Device.keeps_readBlock (P := fun disk => disk.block 0 = z) _).bind fun _ => ?_
      split
      · exact .pure _
      · exact .throw _
    refine Keeps.bind hlayout.onDevice fun _ => Keeps.bind (Keeps.modify fun _ h => h) fun _ => ?_
    exact Keeps.modify fun _ h => h
  case unmount => exact Keeps.modify fun _ h => h
  case setCwd => exact fun _ => Keeps.modify fun _ h => h
  case readBitmap => exact fun r => keeps_onLayout fun l => l.keeps_readBitmap r
  case readBlock => exact fun i => keeps_onLayout fun l => l.keeps_readBlock i
  case readInode => exact fun i => (hread i).mono fun _ _ _ => Inode.ne_zero_of_mem_blocks
  case writeBlock => exact fun i b h => keeps_writeBlock h b
  case writeInode => exact fun i x _ => keeps_writeInode hj i x
  case deallocate => exact fun r i _ => keeps_deallocate hj r i
  case allocate => exact fun r => (yields_allocate hj r).mono fun _ hi => ⟨fun _ => hi.1, hi⟩

end Volume

end

/-! ## Images that lead nobody into the metadata -/

/-- One of the ways in which the blocks of a volume change if metadata is written as metadata only:
a bit of an item, a whole inode record, or a block of data. -/
inductive Layout.Stores (l : Layout) : Blocks → Blocks → Prop
  | mark (bs : Blocks) {r : Resource} {i : Nat} (h : i < r.count l) (used : Bool) :
      l.Stores bs (l.mark bs r i used)
  | inode (bs : Blocks) {i : Nat} (h : i < l.inodeCount) (x : Inode) :
      l.Stores bs (l.putInode bs i x)
  | data (bs : Blocks) {i : Nat} (h : l.firstDataBlock ≤ i) (h' : i < l.blockCount) (b : Block) :
      l.Stores bs (Function.update bs i b)

/-- What is stored never lands in block 0 or in the superblock. -/
theorem Layout.Stores.eq_of_le {bs bs' : Blocks} {j : Nat} (h : l.Stores bs bs')
    (hj : j ≤ superblockBlock) : bs' j = bs j := by
  have hstart := l.superblock_lt_tableStart
  have hdata := l.tableStart_lt_firstDataBlock
  cases h with
  | @mark r i hi used =>
    have := l.superblock_lt_bitmapBlock r
    exact Function.update_of_ne (by omega) _ _
  | inode hi x => exact l.putInode_of_outside bs x hi (.inl (by omega))
  | data hge hlt b => exact Function.update_of_ne (by omega) _ _

theorem Layout.eq_of_stores {bs bs' : Blocks} {j : Nat}
    (h : Relation.ReflTransGen l.Stores bs bs') (hj : j ≤ superblockBlock) : bs' j = bs j := by
  induction h with
  | refl => rfl
  | tail _ hstep ih => rw [hstep.eq_of_le hj, ih]

/-- The bitmap marks the blocks before the data as in use, and no file or directory points to one of
them. -/
structure Records.Guarded (l : Layout) (c : Records) : Prop where
  reserves : c.Reserves l
  owned : ∀ i slot b, c.Owns i slot b → l.firstDataBlock ≤ b

namespace Records

variable {c c' : Records} {i b : Nat} {x : Inode} {z : Block}

theorem Exact.guarded (h : c.Exact l) : c.Guarded l :=
  ⟨h.reserves, fun i slot b ho => (h.blocks.range i slot b ho).1⟩

theorem used_mark (r r' : Resource) (i j : Nat) (used : Bool) :
    (c.mark r i used).used r' j = if r' = r ∧ j = i then used else c.used r' j := rfl

theorem kind_mark_inode (j : Nat) :
    (c.mark .inode i false).kind j = if j = i then .free else c.kind j := by
  rw [kind, used_mark, kind]
  by_cases hji : j = i
  · simp [hji]
  · simp [hji, mark]

namespace Guarded

variable (h : c.Guarded l)

include h

/-- The blocks before the data stay in use, and what is owned anew lies behind them. -/
theorem mono (hused : ∀ b, b < l.firstDataBlock → c.used .block b = true → c'.used .block b = true)
    (howns : ∀ i slot b, c'.Owns i slot b → c.Owns i slot b ∨ l.firstDataBlock ≤ b) :
    c'.Guarded l := by
  refine ⟨fun b hb => hused b hb (h.reserves b hb), fun i slot b ho => ?_⟩
  rcases howns i slot b ho with ho | hb
  · exact h.owned i slot b ho
  · exact hb

/-- A block that is free is one of the data. -/
theorem of_lowestFree (hb : c.lowestFree .block l.blockCount = some b) :
    l.firstDataBlock ≤ b ∧ b < l.blockCount ∧ b ≠ 0 ∧ b < UInt16.size := by
  obtain ⟨hpos, hlt, hfree, -⟩ := lowestFree_eq_some_iff.mp hb
  exact ⟨h.reserves.le_of_free hfree, hlt, by omega, l.small_of_lt (r := .block) hlt⟩

theorem leadsTo (hi : c.kind i ≠ .free) : (c.inode i).LeadsTo (l.firstDataBlock ≤ ·) := by
  intro b hb
  obtain ⟨slot, hslot⟩ := Inode.mem_blocks_iff.mp hb
  exact h.owned i slot b ⟨hi, hslot⟩

/-- An inode may hold anything while it is made, if it is freed afterwards. -/
theorem freeInode {c' : Records} (i : Nat)
    (hblock : ∀ b, b < l.firstDataBlock → c'.used .block b = c.used .block b)
    (hinode : ∀ j, j ≠ i → c'.used .inode j = c.used .inode j ∧ c'.inode j = c.inode j) :
    (c'.mark .inode i false).Guarded l := by
  refine h.mono (fun b hb hused => (hblock b hb).trans hused) fun j slot b ho => .inl ?_
  obtain ⟨hlive, hpoints⟩ := ho
  rw [kind_mark_inode] at hlive
  split at hlive
  · exact absurd rfl hlive
  · next hji =>
    obtain ⟨hused, hsame⟩ := hinode j hji
    rw [kind, hused, hsame] at hlive
    exact ⟨hlive, hsame ▸ hpoints⟩

theorem markBlock (b : Nat) {used : Bool} (hb : used = false → l.firstDataBlock ≤ b) :
    (c.mark .block b used).Guarded l := by
  refine h.mono (fun b' hb' hused => ?_) fun _ _ _ ho => .inl ⟨ho.live, ho.points⟩
  rw [used_mark]
  split
  · next hbb =>
    cases used with
    | true => rfl
    | false =>
      have := hb rfl
      omega
  · exact hused

theorem putInode (i : Nat) (hx : x.LeadsTo (l.firstDataBlock ≤ ·)) :
    (c.putInode i x).Guarded l := by
  refine h.mono (fun _ _ hused => hused) fun j slot b ho => ?_
  by_cases hji : j = i
  · have hpoints := ho.points
    rw [inode_putInode, if_pos hji] at hpoints
    exact .inr (hx b (Inode.mem_blocks_iff.mpr ⟨slot, hpoints⟩))
  · obtain ⟨hlive, hpoints⟩ := ho
    rw [inode_putInode, if_neg hji] at hpoints
    rw [kind, inode_putInode, if_neg hji] at hlive
    exact .inl ⟨hlive, hpoints⟩

theorem putBlock (b : Nat) (z : Block) : (c.putBlock b z).Guarded l :=
  h.mono (fun _ _ hused => hused) fun _ _ _ ho => .inl (owns_putBlock_iff.mp ho)

theorem addInode (i : Nat) (hx : x.LeadsTo (l.firstDataBlock ≤ ·)) :
    (c.addInode i x).Guarded l := by
  refine h.mono (fun _ _ hused => hused) fun j slot b ho => ?_
  by_cases hji : j = i
  · have hpoints := ho.points
    rw [inode_addInode, if_pos hji] at hpoints
    exact .inr (hx b (Inode.mem_blocks_iff.mpr ⟨slot, hpoints⟩))
  · obtain ⟨hlive, hpoints⟩ := ho
    rw [kind_addInode, if_neg hji] at hlive
    rw [inode_addInode, if_neg hji] at hpoints
    exact .inl ⟨hlive, hpoints⟩

end Guarded

end Records

namespace Scene

variable {s s' s'' : Scene l} {i b : Nat} {x : Inode}

/-- A scene that is guarded, and to which another one leads by storing records and data. -/
structure Follows (s s' : Scene l) : Prop where
  guarded : s'.records.Guarded l
  stored : Relation.ReflTransGen l.Stores s.store.block s'.store.block

theorem follows_of_store (h : s.records.Guarded l) (hstore : s'.store = s.store) :
    s.Follows s' := by
  refine ⟨?_, by rw [hstore]⟩
  rw [records, hstore]
  exact h

theorem stores_mark (s : Scene l) {r : Resource} (hi : i < r.count l) (used : Bool) :
    l.Stores s.store.block (s.mark r i used).store.block := by
  rw [mark, Store.mark, Store.block_putBlock _ _ (l.superblock_lt_bitmapBlock r)]
  exact .mark _ hi used

theorem stores_putInode (s : Scene l) (hi : i < l.inodeCount) (x : Inode) :
    l.Stores s.store.block (s.putInode i x).store.block := by
  rw [putInode, Store.putInode, Store.block_writeOver _ _ _ (l.superblock_lt_inodeBlock i)]
  exact .inode _ hi x

theorem stores_putBlock (s : Scene l) (hb : l.firstDataBlock ≤ b) (hlt : b < l.blockCount)
    (z : Block) : l.Stores s.store.block (s.putBlock b z).store.block := by
  have hsuper := l.superblock_lt_tableStart
  have hdata := l.tableStart_lt_firstDataBlock
  rw [putBlock, Store.block_putBlock _ _ (by omega)]
  exact .data _ hb hlt z

theorem follows_putInode (h : s.records.Guarded l) (hi : i < l.inodeCount)
    (hx : x.LeadsTo (l.firstDataBlock ≤ ·)) : s.Follows (s.putInode i x) := by
  refine ⟨?_, .single (s.stores_putInode hi x)⟩
  rw [s.records_putInode hi]
  exact h.putInode i hx

theorem follows_putBlock (h : s.records.Guarded l) (hb : l.firstDataBlock ≤ b)
    (hlt : b < l.blockCount) (z : Block) : s.Follows (s.putBlock b z) := by
  refine ⟨?_, .single (s.stores_putBlock hb hlt z)⟩
  rw [s.records_putBlock hb hlt]
  exact h.putBlock b z

theorem follows_mark_free (h : s.records.Guarded l) {r : Resource} (hi : i < r.count l)
    (hsafe : r = .block → l.firstDataBlock ≤ i) : s.Follows (s.mark r i false) := by
  refine ⟨?_, .single (s.stores_mark hi false)⟩
  rw [s.records_mark hi]
  cases r with
  | inode => exact h.freeInode i (fun _ _ => rfl) fun _ _ => ⟨rfl, rfl⟩
  | block => exact h.markBlock i fun _ => hsafe rfl

theorem follows_takeBlock (h : s.records.Guarded l) (hb : l.firstDataBlock ≤ b)
    (hlt : b < l.blockCount) : s.Follows ((s.mark .block b true).putBlock b .zero) := by
  refine ⟨?_, .head (s.stores_mark (r := .block) hlt true) (.single (stores_putBlock _ hb hlt _))⟩
  rw [records_putBlock _ hb hlt, s.records_mark (r := .block) hlt]
  exact (h.markBlock b fun he => by cases he).putBlock b _

theorem follows_addInode (h : s.records.Guarded l) (hi : i < l.inodeCount)
    (hx : x.LeadsTo (l.firstDataBlock ≤ ·)) : s.Follows (s.addInode i x) := by
  refine ⟨?_, .head (s.stores_mark (r := .inode) hi true) (.single (stores_putInode _ hi x))⟩
  rw [s.records_addInode hi]
  exact h.addInode i hx

theorem follows_addDirectory (h : s.records.Guarded l) (hi : i < l.inodeCount)
    (hb : l.firstDataBlock ≤ b) (hlt : b < l.blockCount) (t : EntryTable)
    (hx : x.LeadsTo (l.firstDataBlock ≤ ·)) : s.Follows (s.addDirectory i b x t) := by
  refine ⟨?_, ?_⟩
  · rw [s.records_addDirectory hi hb hlt]
    exact ((h.markBlock b fun he => by cases he).putBlock b _).addInode i hx
  · exact .head (s.stores_mark (r := .inode) hi true)
      (.head (stores_mark _ (r := .block) hlt true)
        (.head (stores_putBlock _ hb hlt _)
          (.head (stores_putBlock _ hb hlt _) (.single (stores_putInode _ hi x)))))

/-- An inode that was taken is freed before anything was written. -/
theorem follows_undone (h : s.records.Guarded l) (hi : i < l.inodeCount) :
    s.Follows ((s.mark .inode i true).mark .inode i false) := by
  refine ⟨?_, .head (s.stores_mark (r := .inode) hi true)
    (.single (stores_mark _ (r := .inode) hi false))⟩
  rw [records_mark (r := .inode) _ hi, s.records_mark (r := .inode) hi]
  refine h.freeInode i (fun _ _ => rfl) fun j hj => ⟨?_, rfl⟩
  rw [Records.used_mark, if_neg fun hji => hj hji.2]

/-- An inode and a block that were taken are freed before the record was written. -/
theorem follows_undone_block (h : s.records.Guarded l) (hi : i < l.inodeCount)
    (hb : l.firstDataBlock ≤ b) (hlt : b < l.blockCount) :
    s.Follows (((((s.mark .inode i true).mark .block b true).putBlock b .zero).mark .block b
      false).mark .inode i false) := by
  refine ⟨?_, ?_⟩
  · rw [records_mark (r := .inode) _ hi, records_mark (r := .block) _ hlt,
      records_putBlock _ hb hlt, records_mark (r := .block) _ hlt,
      s.records_mark (r := .inode) hi]
    refine h.freeInode i (fun b' hb' => ?_) fun j hj => ⟨?_, rfl⟩
    · have hne : b' ≠ b := by omega
      simp [Records.mark, Records.putBlock, hne]
    · simp [Records.mark, Records.putBlock, hj]
  · exact .head (s.stores_mark (r := .inode) hi true)
      (.head (stores_mark _ (r := .block) hlt true)
        (.head (stores_putBlock _ hb hlt _)
          (.head (stores_mark _ (r := .block) hlt false)
            (.single (stores_mark _ (r := .inode) hi false)))))

end Scene

/-! ### What one action does to a guarded image -/

/-- A volume of a layout whose blocks came from `bs` by storing records and data, and that is
guarded. -/
def Layout.Within (l : Layout) (bs : Blocks) (v : Volume) : Prop :=
  ∃ (s : Scene l) (history : History), v = Settled.state s history ∧ s.records.Guarded l ∧
    Relation.ReflTransGen l.Stores bs s.store.block

section

variable {α : Type} {bs : Blocks} {x : VolumeM α} {Q : α → Prop}

theorem yields_within
    (hx : ∀ s : Scene l, s.records.Guarded l → ∃ r s', Does x s r s' ∧ s.Follows s' ∧
      ∀ a, r = .ok a → Q a) : Yields (l.Within bs) x Q := by
  rintro v ⟨s, history, rfl, hs, hbs⟩
  obtain ⟨r, s', hdo, hfollows, hq⟩ := hx s hs
  obtain ⟨history', hdo⟩ := hdo history
  have hwithin : l.Within bs (Settled.state s' history') :=
    ⟨s', history', rfl, hfollows.guarded, hbs.trans hfollows.stored⟩
  cases r with
  | ok a => exact .inl ⟨a, _, hdo, hwithin, hq a rfl⟩
  | error e => exact .inr ⟨e, _, hdo, hwithin⟩

/-- An action that fails on a volume that is not mounted need only be looked at on a mounted one. -/
theorem yields_within_mounted
    (hun : ∀ s : Scene l, s.mounted = false → Does x s (.error .notMounted) s)
    (hx : ∀ s : Scene l, s.mounted = true → s.records.Guarded l → ∃ r s', Does x s r s' ∧
      s.Follows s' ∧ ∀ a, r = .ok a → Q a) : Yields (l.Within bs) x Q := by
  refine yields_within fun s hs => ?_
  by_cases hm : s.mounted = true
  · exact hx s hm hs
  · exact ⟨_, s, hun s (Bool.eq_false_iff.mpr hm), Scene.follows_of_store hs rfl,
      fun _ herror => by cases herror⟩

theorem keeps_within_of_store
    (hx : ∀ s : Scene l, ∃ r s', Does x s r s' ∧ s'.store = s.store) : Keeps (l.Within bs) x := by
  refine yields_within fun s hs => ?_
  obtain ⟨r, s', hdo, hstore⟩ := hx s
  exact ⟨r, s', hdo, Scene.follows_of_store hs hstore, fun _ _ => trivial⟩

theorem keeps_within_of_quiet (hx : ∀ s : Scene l, Quiet x s) : Keeps (l.Within bs) x :=
  keeps_within_of_store fun s => (hx s).elim fun r hdo => ⟨r, s, hdo, rfl⟩

end

namespace Volume

variable {s : Scene l} {r : Resource} {i b p : Nat}

theorem does_deallocate_outside (hm : s.mounted = true) (hi : r.count l ≤ i) :
    Does (deallocate r i) s (.error .notFound) s := by
  apply (does_getLayout hm).bind
  apply (does_onDevice (s.store.does_readBitmap r)).bind
  have hset : (l.bitmap s.store.block r).set i false = .error .notFound :=
    if_neg (Nat.not_lt_of_le hi)
  rw [hset]
  exact (Does.liftExcept _ _).bind_error

theorem does_writeInode_outside (hm : s.mounted = true) (hi : l.inodeCount ≤ i) (x : Inode) :
    Does (writeInode i x) s (.error .notFound) s := by
  have hwrite : Does (l.writeInode i x) s.store (.error .notFound) s.store := by
    unfold Layout.writeInode
    rw [Layout.inodePlace_of_le hi]
    exact (Does.liftExcept _ _).bind_error
  exact (does_getLayout hm).bind (does_onDevice hwrite)

theorem does_writeBlock_outside (hm : s.mounted = true) (hb : l.blockCount ≤ b) (z : Block) :
    Does (writeBlock b z) s (.error .corruptVolume) s := by
  refine (does_getLayout hm).bind (does_onDevice ?_)
  rw [Layout.writeBlock, if_neg (Nat.not_lt_of_le hb)]
  exact Does.throw _ _

/-- No directory is made below one whose number does not fit an entry. -/
theorem does_make_unfit (hm : s.mounted = true) (hres : s.records.Reserves l)
    (hp : UInt16.size ≤ p) (hfree : s.records.lowestFree .inode l.inodeCount = some i)
    (hblock : s.records.lowestFree .block l.blockCount = some b) :
    Does (Directory.make p) s (.error .notFound)
      (((((s.mark .inode i true).mark .block b true).putBlock b .zero).mark .block b false).mark
        .inode i false) := by
  have hi : i < l.inodeCount := (Records.lowestFree_eq_some_iff.mp hfree).2.1
  obtain ⟨-, hlt, -, -⟩ := Records.lowestFree_eq_some_iff.mp hblock
  have hmark := s.records_mark (r := .inode) hi true
  have hres' : (s.mark .inode i true).records.Reserves l := by
    rw [hmark]
    exact hres
  have hblock' : (s.mark .inode i true).records.lowestFree .block l.blockCount = some b := by
    rw [hmark]
    exact hblock
  have htable : Directory.firstTable i p = .error .notFound := by
    have hself : Entry.new i "." = .ok ⟨.ofNat i, .here⟩ :=
      Entry.new_eq (l.small_of_lt (r := .inode) hi) StoredName.encode_here
    have hup : Entry.new p ".." = .error .notFound := if_neg (Nat.not_lt_of_le hp)
    rw [Directory.firstTable, hself, hup]
    rfl
  apply (does_allocate (r := .inode) hm hfree).bind
  apply (does_orUndo_ok (does_allocateBlock (s := s.mark .inode i true) hm hres' hblock')).bind
  apply Does.get_bind
  intro _
  rw [htable]
  refine (does_orUndo_error ((Does.liftExcept _ _).bind_error) ?_).bind_error
  let s₁ := ((s.mark .inode i true).mark .block b true).putBlock b .zero
  apply (does_deallocate (s := s₁) (r := .block) hm hlt).bind
  exact does_deallocate (s := s₁.mark .block b false) (r := .inode) hm hi

end Volume

/-! ### What keeps an image guarded -/

namespace Volume

variable {bs : Blocks}

theorem yields_within_readInode (i : Nat) : Yields (l.Within bs) (readInode i) fun x =>
    x.kind ≠ .free → x.LeadsTo (l.firstDataBlock ≤ ·) := by
  refine yields_within_mounted (fun s hm => does_readInode_unmounted hm i) fun s hm hs => ?_
  by_cases hi : s.records.used .inode i = true
  · refine ⟨_, s, does_readInode hm hi, Scene.follows_of_store hs rfl, ?_⟩
    rintro _ ⟨⟩ hkind
    rw [← Records.kind_of_used hi] at hkind
    exact hs.leadsTo hkind
  · exact ⟨_, s, does_readInode_free hm (Bool.eq_false_iff.mpr hi),
      Scene.follows_of_store hs rfl, fun _ herror => by cases herror⟩

theorem keeps_within_writeBlock (b : Nat) (z : Block) (hb : l.firstDataBlock ≤ b) :
    Keeps (l.Within bs) (writeBlock b z) := by
  refine yields_within_mounted (fun s hm => (does_getLayout_unmounted hm).bind_error)
    fun s hm hs => ?_
  rcases Nat.lt_or_ge b l.blockCount with hlt | hge
  · exact ⟨_, _, does_writeBlock hm hb hlt z, Scene.follows_putBlock hs hb hlt z,
      fun _ _ => trivial⟩
  · exact ⟨_, s, does_writeBlock_outside hm hge z, Scene.follows_of_store hs rfl,
      fun _ _ => trivial⟩

theorem keeps_within_writeInode (i : Nat) (x : Inode) (hx : x.LeadsTo (l.firstDataBlock ≤ ·)) :
    Keeps (l.Within bs) (writeInode i x) := by
  refine yields_within_mounted (fun s hm => (does_getLayout_unmounted hm).bind_error)
    fun s hm hs => ?_
  rcases Nat.lt_or_ge i l.inodeCount with hi | hi
  · exact ⟨_, _, does_writeInode hm hi x, Scene.follows_putInode hs hi hx, fun _ _ => trivial⟩
  · exact ⟨_, s, does_writeInode_outside hm hi x, Scene.follows_of_store hs rfl,
      fun _ _ => trivial⟩

theorem keeps_within_deallocate (r : Resource) (i : Nat) (hsafe : r = .block → l.firstDataBlock ≤ i) :
    Keeps (l.Within bs) (deallocate r i) := by
  refine yields_within_mounted (fun s hm => (does_getLayout_unmounted hm).bind_error)
    fun s hm hs => ?_
  rcases Nat.lt_or_ge i (r.count l) with hi | hi
  · exact ⟨_, _, does_deallocate hm hi, Scene.follows_mark_free hs hi hsafe, fun _ _ => trivial⟩
  · exact ⟨_, s, does_deallocate_outside hm hi, Scene.follows_of_store hs rfl, fun _ _ => trivial⟩

theorem yields_within_allocateBlock :
    Yields (l.Within bs) allocateBlock fun b => l.firstDataBlock ≤ b ∧ b ≠ 0 ∧ b < UInt16.size := by
  refine yields_within_mounted (fun s hm => (does_getLayout_unmounted hm).bind_error.bind_error)
    fun s hm hs => ?_
  cases h : s.records.lowestFree .block l.blockCount with
  | none =>
    exact ⟨_, s, does_allocateBlock_full hm h, Scene.follows_of_store hs rfl,
      fun _ herror => by cases herror⟩
  | some b =>
    obtain ⟨hge, hlt, hsmall⟩ := hs.of_lowestFree h
    refine ⟨_, _, does_allocateBlock hm hs.reserves h, Scene.follows_takeBlock hs hge hlt, ?_⟩
    rintro _ ⟨⟩
    exact ⟨hge, hsmall⟩

theorem yields_within_makeFile : Yields (l.Within bs) File.make fun f =>
    f.record.LeadsTo (l.firstDataBlock ≤ ·) := by
  refine yields_within_mounted (fun s hm => (does_getLayout_unmounted hm).bind_error.bind_error)
    fun s hm hs => ?_
  cases h : s.records.lowestFree .inode l.inodeCount with
  | none =>
    exact ⟨_, s, File.does_make_full hm h, Scene.follows_of_store hs rfl,
      fun _ herror => by cases herror⟩
  | some i =>
    have hi : i < l.inodeCount := (Records.lowestFree_eq_some_iff.mp h).2.1
    refine ⟨_, _, File.does_make hm h, Scene.follows_addInode hs hi (Inode.leadsTo_new _ _), ?_⟩
    rintro _ ⟨⟩
    exact Inode.leadsTo_new _ _

theorem yields_within_makeDirectory (p : Nat) : Yields (l.Within bs) (Directory.make p) fun d =>
    d.record.LeadsTo (l.firstDataBlock ≤ ·) := by
  refine yields_within_mounted (fun s hm => (does_getLayout_unmounted hm).bind_error.bind_error)
    fun s hm hs => ?_
  cases h : s.records.lowestFree .inode l.inodeCount with
  | none =>
    exact ⟨_, s, Directory.does_make_noInode hm h, Scene.follows_of_store hs rfl,
      fun _ herror => by cases herror⟩
  | some i =>
    have hi : i < l.inodeCount := (Records.lowestFree_eq_some_iff.mp h).2.1
    cases hb : s.records.lowestFree .block l.blockCount with
    | none =>
      exact ⟨_, _, Directory.does_make_noBlock hm h hb, Scene.follows_undone hs hi,
        fun _ herror => by cases herror⟩
    | some b =>
      obtain ⟨hge, hlt, hzero, hsmall⟩ := hs.of_lowestFree hb
      rcases Nat.lt_or_ge p UInt16.size with hp | hp
      · have hleads : (Directory.firstRecord s.clock b).LeadsTo (l.firstDataBlock ≤ ·) :=
          Directory.leadsTo_firstRecord s.clock hge hzero hsmall
        refine ⟨_, _, Directory.does_make hm hs.reserves hp h hb,
          Scene.follows_addDirectory hs hi hge hlt _ hleads, ?_⟩
        rintro _ ⟨⟩
        exact hleads
      · exact ⟨_, _, does_make_unfit hm hs.reserves hp h hb,
          Scene.follows_undone_block hs hi hge hlt, fun _ herror => by cases herror⟩

end Volume

/-- Every call keeps an image guarded, and stores nothing in it but records and data. -/
theorem Layout.caretaker_within (l : Layout) (bs : Blocks) :
    Caretaker (l.Within bs) (l.firstDataBlock ≤ ·) where
  unmounted := by
    rintro v ⟨s, history, rfl, hs, hbs⟩
    exact ⟨{ s with mounted := false, cwd := rootInode }, history, rfl, hs, hbs⟩
  wait := by
    rintro v clock ⟨s, history, rfl, hs, hbs⟩
    exact ⟨{ s with clock := clock }, history, rfl, hs, hbs⟩
  mount := keeps_within_of_store fun _ => ⟨_, _, does_mount, rfl⟩
  unmount := keeps_within_of_store fun _ => ⟨_, _, does_unmount, rfl⟩
  setCwd i := keeps_within_of_store fun _ => ⟨_, _, does_setCwd i, rfl⟩
  readBitmap r := keeps_within_of_quiet fun _ => quiet_readBitmap r
  readBlock b := keeps_within_of_quiet fun _ => quiet_readBlock b
  readInode := yields_within_readInode
  writeBlock := keeps_within_writeBlock
  writeInode := keeps_within_writeInode
  deallocate := keeps_within_deallocate
  allocateBlock := yields_within_allocateBlock
  makeFile := yields_within_makeFile
  makeDirectory := yields_within_makeDirectory

end BlockFS
