import BlockFS.Proofs.MetadataBlocks

/-!
# Images that nobody checked

Mounting checks the superblock and nothing else.  What calls can do to the metadata of any image
that can be mounted is said here, and that a pointer to the superblock is followed like any other.
-/

namespace BlockFS

open Volume

variable {l : Layout}

/-! ## Mounting -/

namespace Device

/-- A device with a disk and a plan of failures, whatever was transferred before. -/
def Is (disk : Disk) (faults : FaultPlan) (d : Device) : Prop := d.disk = disk ∧ d.faults = faults

variable {disk : Disk} {faults : FaultPlan}

theorem yields_readSector (k : Nat) :
    Yields (Is disk faults) (readSector k) (· = disk.sector k) := by
  rintro ⟨_, _, history⟩ ⟨rfl, rfl⟩
  rename_i disk faults
  rw [readSector]
  cases faults history (.read k) with
  | some cause => exact .inr ⟨_, _, rfl, rfl, rfl⟩
  | none =>
    rcases Nat.lt_or_ge k disk.sectors.size with hk | hk
    · rw [Disk.sector?_of_lt hk]
      exact .inl ⟨_, _, rfl, ⟨rfl, rfl⟩, rfl⟩
    · rw [show disk.sector? k = none from Array.getElem?_eq_none hk]
      exact .inr ⟨_, _, rfl, rfl, rfl⟩

theorem yields_readBlock (i : Nat) : Yields (Is disk faults) (readBlock i) (· = disk.block i) := by
  refine (yields_readSector _).bind fun lower hlower => ?_
  refine (yields_readSector _).bind fun upper hupper => .pure ?_
  rw [hlower, hupper]
  rfl

theorem yields_readLayout : Yields (Is disk faults) readLayout fun l =>
    Superblock.ofBlock (disk.block superblockBlock) = l.superblock := by
  refine (yields_readBlock _).bind fun b hb => ?_
  rw [hb, Layout.check]
  split
  · next hcheck =>
    split at hcheck
    · cases hcheck
      exact .pure rfl
    · cases hcheck
  · exact .throw

end Device

/-- Mounting reads the layout from the device and starts in the root directory. -/
theorem Volume.mount_eq (v : Volume) :
    mount v = match Device.readLayout v.device with
      | .ok l d => .ok () ⟨d, v.clock, some l, rootInode⟩
      | .error e d => .error e ⟨d, v.clock, none, v.cwd⟩ := by
  obtain ⟨d, clock, layout, cwd⟩ := v
  change EStateM.bind (onDevice Device.readLayout) _ _ = _
  simp only [EStateM.bind, onDevice]
  cases Device.readLayout d with
  | ok l d => rfl
  | error e d => rfl

/-- Mounting changes nothing but the history of transfers, and the layout is the superblock's. -/
theorem Volume.openOn_eq_ok {disk : Disk} {clock : Int} {v : Volume}
    (h : openOn (.reliable disk) clock = .ok () v) :
    ∃ l history, v = ⟨⟨disk, .never, history⟩, clock, some l, rootInode⟩ ∧
      Superblock.ofBlock (disk.block superblockBlock) = l.superblock := by
  have hlayout : Yields (Device.Is disk .never) Device.readLayout _ := Device.yields_readLayout
  rw [openOn, mount_eq, unmounted] at h
  rcases hlayout (.reliable disk) ⟨rfl, rfl⟩ with ⟨l, d, hread, hd, hsigned⟩ | ⟨e, d, hread, -⟩
  · rw [hread] at h
    obtain ⟨disk', faults, history⟩ := d
    obtain ⟨rfl, rfl⟩ := hd
    cases h
    exact ⟨l, history, rfl, hsigned⟩
  · rw [hread] at h
    cases h

/-- The metadata of an image on a device that fails no transfer, after any calls.  Block 0 stays as
it is on every image.  If the device holds all blocks of the volume and the image is guarded, then
it stays so, the superblock stays as it is, and nothing is stored but bits of items, whole inode
records, and blocks of data. -/
theorem Call.run_keeps_metadata {disk : Disk} {clock : Int} {v : Volume}
    (h : openOn (.reliable disk) clock = .ok () v) (cs : List Call) :
    let after := (Call.run cs (.new v)).volume.device.disk.block
    after 0 = disk.block 0 ∧
      ∃ l, v.layout = some l ∧
        (2 * l.blockCount ≤ disk.sectors.size → (l.records disk.block).Guarded l →
          after superblockBlock = disk.block superblockBlock ∧ (l.records after).Guarded l ∧
            Relation.ReflTransGen l.Stores disk.block after) := by
  intro after
  obtain ⟨l, history, rfl, hsigned⟩ := openOn_eq_ok h
  refine ⟨(caretaker_firstBlock (disk.block 0)).run cs (s := .new _) rfl, l, rfl, ?_⟩
  intro hcovers hguarded
  let s : Scene l := ⟨⟨disk, hcovers, hsigned⟩, clock, true, rootInode⟩
  have hstart : l.Within disk.block (Settled.state s history) :=
    ⟨s, history, rfl, hguarded, .refl⟩
  obtain ⟨s', history', hv, hs', hstored⟩ :=
    (l.caretaker_within disk.block).run cs (s := .new _) hstart
  have hafter : after = s'.store.block := by
    change Disk.block (Call.run cs (Service.new (Settled.state s history))).volume.device.disk = _
    rw [hv]
    rfl
  rw [hafter]
  exact ⟨Layout.eq_of_stores hstored (Nat.le_refl _), hs', hstored⟩

/-- A new floppy disk is guarded.  A file is made on it and written, and only records and data are
stored. -/
theorem Call.run_keeps_metadata_floppy :
    let disk := Service.floppy.volume.device.disk
    let cs := [.edit (.makeFile rootInode "a"), .edit (.write 2 0 [1])]
    2 * Layout.floppy.blockCount ≤ disk.sectors.size ∧
      (Layout.floppy.records disk.block).Guarded .floppy ∧
      ∃ v, openOn (.reliable disk) 0 = .ok () v ∧ v.layout = some .floppy ∧
        let after := (Call.run cs (.new v)).volume.device.disk.block
        after 0 = disk.block 0 ∧ after superblockBlock = disk.block superblockBlock ∧
          (Layout.floppy.records after).Guarded .floppy ∧
          Relation.ReflTransGen Layout.floppy.Stores disk.block after := by
  intro disk cs
  obtain ⟨s, history, hfloppy, hnew⟩ := Service.floppy_eq
  have hdisk : disk = s.store.disk := congrArg (fun v : Service => v.volume.device.disk) hfloppy
  have hcovers : 2 * Layout.floppy.blockCount ≤ disk.sectors.size := by
    rw [hdisk]
    exact s.store.covers
  have hguarded : (Layout.floppy.records disk.block).Guarded .floppy := by
    rw [hdisk]
    exact hnew.good.tidy.toExact.guarded
  let s₀ : Scene .floppy := ⟨s.store, 0, false, rootInode⟩
  obtain ⟨history', hmount⟩ := (does_mount (s := s₀)) ⟨0, 0⟩
  let v : Volume := Settled.state { s₀ with mounted := true, cwd := rootInode } history'
  have hopen : openOn (.reliable disk) 0 = .ok () v := by
    rw [hdisk]
    exact hmount
  obtain ⟨hfirst, l, hlayout, hkept⟩ := run_keeps_metadata hopen cs
  obtain rfl : Layout.floppy = l := Option.some.inj hlayout
  obtain ⟨hsuper, hafter, hstored⟩ := hkept hcovers hguarded
  exact ⟨hcovers, hguarded, v, hopen, rfl, hfirst, hsuper, hafter, hstored⟩

/-! ## A file that points to the superblock -/

/-- What follows an action goes on where that one left off. -/
theorem leftBy_bind {τ ε α β : Type} {x : EStateM ε τ α} {f : α → EStateM ε τ β} {a : α}
    {t t' : τ} (h : x t = .ok a t') : leftBy (x >>= f) t = leftBy (f a) t' := by
  rw [leftBy, bind_of_ok h]
  rfl

theorem ViewM.leftBy_through {View α : Type} (view : View) (x : ViewM View α) (v : Volume) :
    leftBy (ViewM.through view x) v = (leftBy x ⟨view, v⟩).volume := by
  rw [leftBy, leftBy, ViewM.through]
  cases x ⟨view, v⟩ with
  | ok a held => rfl
  | error e held => rfl

namespace Scene

/-- An inode of a mounted volume is a file whose first slot points to the superblock. -/
structure PointsToSuperblock (s : Scene l) (i : Nat) : Prop where
  mounted : s.mounted = true
  kind : s.records.kind i = .file
  points : (s.records.inode i).block? 0 = some superblockBlock

variable {s : Scene l} {i : Nat} (h : s.PointsToSuperblock i)

include h

theorem PointsToSuperblock.does_readBlock :
    Does (readBlock superblockBlock) s (.ok (s.store.block superblockBlock)) s := by
  have hlt := Nat.lt_trans (l.superblock_lt_bitmapBlock .inode) (l.bitmapBlock_lt_blockCount _)
  exact (does_getLayout h.mounted).bind (does_onDevice (s.store.does_readBlock hlt))

/-- Reading the file answers a byte of the superblock. -/
theorem PointsToSuperblock.does_readAt (hsize : 0 < (s.records.inode i).size.toNat) :
    Does (readAt i 0 1) s (.ok ((s.store.block superblockBlock).read 0 1)) s := by
  apply (File.does_ofInode h.mounted h.kind).bind
  have hpos : 0 < (s.file i).size := hsize
  have hmin : min 1 ((s.file i).size - 0) = 1 := by omega
  have hcover : Span.cover pointerCount (.ofNat 0) 1 = [⟨0, 0, 1⟩] := by decide
  have hblock : (s.file i).record.block? 0 = some superblockBlock := h.points
  rw [File.read, if_pos hpos, hmin, hcover, File.readSpans]
  simp only [hblock]
  apply h.does_readBlock.bind
  apply (Does.pure [] s).bind
  rw [List.append_nil]
  exact Does.pure _ _

/-- Writing into the file writes into the superblock. -/
theorem PointsToSuperblock.block_writeAt (history : History) (x : UInt8) :
    (leftBy (writeAt i 0 [x]) (Settled.state s history)).device.disk.block superblockBlock =
      (s.store.block superblockBlock).write 0 [x] := by
  let z := (s.store.block superblockBlock).write 0 [x]
  let f := s.file i
  obtain ⟨h₁, hload⟩ := File.does_ofInode h.mounted h.kind history
  obtain ⟨h₂, hread⟩ := h.does_readBlock h₁
  obtain ⟨h₃, hput⟩ := does_device_writeBlock s.store.disk superblockBlock z h₂
  let v : Volume := ⟨⟨s.store.disk.putBlock superblockBlock z, .never, h₃⟩, s.clock, some l, s.cwd⟩
  have hwrite : writeBlock superblockBlock z (Settled.state s h₂) = .ok () v := by
    have hlt := Nat.lt_trans (l.superblock_lt_bitmapBlock .inode) (l.bitmapBlock_lt_blockCount _)
    have hstate : Settled.state s h₂
        = ⟨⟨s.store.disk, .never, h₂⟩, s.clock, some l, s.cwd⟩ := by
      simp only [Settled.state, if_pos h.mounted]
    have hlayout : getLayout (Settled.state s h₂) = .ok l (Settled.state s h₂) := by
      rw [hstate]
      rfl
    rw [writeBlock, bind_of_ok hlayout, Layout.writeBlock, if_pos hlt, hstate]
    simp only [onDevice]
    rw [show Device.writeBlock superblockBlock z ⟨s.store.disk, .never, h₂⟩ = _ from hput]
    rfl
  have hspans : File.writeSpans [⟨0, 0, 1⟩] [x] 0 ⟨f, Settled.state s h₁⟩ = .ok 1 ⟨f, v⟩ := by
    have hfound : File.blockFor 0 (0 < 0) ⟨f, Settled.state s h₁⟩
        = .ok (some (superblockBlock, s.store.block superblockBlock)) ⟨f, Settled.state s h₂⟩ := by
      have hcurrent : ViewM.current ⟨f, Settled.state s h₁⟩ = .ok f ⟨f, Settled.state s h₁⟩ := rfl
      have hpoints : f.record.block? 0 = some superblockBlock := h.points
      rw [File.blockFor, bind_of_ok hcurrent, hpoints]
      have hview : (ViewM.onVolume (readBlock superblockBlock) : ViewM File Block)
          ⟨f, Settled.state s h₁⟩
          = .ok (s.store.block superblockBlock) ⟨f, Settled.state s h₂⟩ := by
        simp only [ViewM.onVolume, hread, withState]
      exact bind_of_ok hview
    have hview : (ViewM.onVolume (writeBlock superblockBlock z) : ViewM File Unit)
        ⟨f, Settled.state s h₂⟩ = .ok () ⟨f, v⟩ := by
      simp only [ViewM.onVolume, hwrite]
    rw [File.writeSpans, bind_of_ok hfound]
    exact bind_of_ok hview
  have hcover : Span.cover pointerCount (.ofNat 0) 1 = [⟨0, 0, 1⟩] := by decide
  have hstart : ViewM.Both (Volume.Holds superblockBlock z) (fun _ : File => True) ⟨f, v⟩ := by
    refine ⟨?_, trivial⟩
    change (s.store.disk.putBlock superblockBlock z).block superblockBlock = z
    rw [Disk.block_putBlock, if_pos rfl]
  rw [writeAt, leftBy_bind hload, ViewM.leftBy_through, File.write, List.length_singleton, hcover,
    leftBy_bind hspans]
  refine (Yields.leftBy (Q := fun _ => True) ?_ hstart).1
  refine Keeps.get.bind fun held => Keeps.bind (ViewM.keeps_change fun _ hf => hf) fun _ => ?_
  refine .after ViewM.yields_current fun f hf => ?_
  exact Keeps.bind (keeps_writeInode (Nat.le_refl _) _ _).onVolume fun _ => .pure _

end Scene

/-! ### An image with such a file -/

/-- A disk of zeros with nothing but a superblock. -/
def Store.blank (l : Layout) : Store l where
  disk := (Disk.zeros (l.blockCount * blockSize)).putBlock superblockBlock l.superblock.toBlock
  covers := by
    have hzeros : (Disk.zeros (l.blockCount * blockSize)).sectors.size = 2 * l.blockCount := by
      simp only [Disk.zeros, Disk.ofSectors, Array.size_ofFn, blockSize, sectorSize]
      omega
    rw [Disk.size_sectors_putBlock, hzeros]
    exact Nat.le_max_left _ _
  signed := by rw [Disk.block_putBlock, if_pos rfl, Superblock.ofBlock_toBlock]

/-- The record of a file of one byte whose first slot points to the superblock. -/
def Inode.rigged : Inode := { Inode.new .file 0 with size := 1 }.setPointer 0 superblockBlock

/-- A volume whose only inode is such a file. -/
def Scene.rigged (l : Layout) : Scene l :=
  Scene.addInode ⟨.blank l, 0, true, rootInode⟩ 2 .rigged

theorem Scene.inode_rigged (h : 2 < l.inodeCount) : (rigged l).records.inode 2 = .rigged := by
  rw [rigged, Scene.records_addInode _ h, Records.inode_addInode, if_pos rfl]

theorem Scene.pointsToSuperblock_rigged (h : 2 < l.inodeCount) :
    (rigged l).PointsToSuperblock 2 where
  mounted := rfl
  kind := by
    rw [rigged, Scene.records_addInode _ h, Records.kind_addInode, if_pos rfl]
    rfl
  points := by
    rw [inode_rigged h]
    decide

/-- The first byte of a block is the first byte of the mark in the superblock that it holds. -/
theorem Superblock.magic_ofBlock (b : Block) :
    (Superblock.ofBlock b).magic.toNat % 0x100 = b[0].toNat := by
  have h0 := b[0].toNat_lt
  simp [ofBlock, decode, ofWords, Bytes.chunks, Bytes.toUInt32, Bytes.slice]
  omega

theorem Store.write_ne_block (st : Store l) :
    (st.block superblockBlock).write 0 [0] ≠ st.block superblockBlock := by
  intro h
  have hzero : ((st.block superblockBlock).write 0 [0])[0] = 0 := by
    rw [Bytes.getElem_write]
    rfl
  have hmagic := Superblock.magic_ofBlock (st.block superblockBlock)
  rw [h] at hzero
  rw [hzero, block, st.signed, l.valid.magic] at hmagic
  revert hmagic
  decide

/-- A volume with such a file can be mounted; reading the file shows the superblock, and writing
into the file replaces it. -/
theorem Scene.exists_follows_pointer (h : 2 < l.inodeCount) :
    ∃ v, openOn (.reliable (rigged l).store.disk) 0 = .ok () v ∧
      (Call.look (.readAt 2 0 1)).answer (.new v) =
        .ok (.bytes (((rigged l).store.disk.block superblockBlock).read 0 1)) ∧
      ((Call.edit (.write 2 0 [0])).after (.new v)).volume.device.disk.block superblockBlock ≠
        (rigged l).store.disk.block superblockBlock := by
  have hpoints := pointsToSuperblock_rigged h
  let s₀ : Scene l := { rigged l with mounted := false }
  obtain ⟨history, hmount⟩ := (does_mount (s := s₀)) ⟨0, 0⟩
  have hsize : 0 < ((rigged l).records.inode 2).size.toNat := by
    rw [inode_rigged h]
    decide
  refine ⟨Settled.state (rigged l) history, hmount, ?_, ?_⟩
  · have hread : Does (Look.answer (.readAt 2 0 1)) (rigged l) (.ok (.bytes _)) (rigged l) :=
      (hpoints.does_readAt hsize).map
    exact congrArg (Answer.told .failed id) (hread.resultOf_eq history)
  · have hwrite := hpoints.block_writeAt history 0
    change (leftBy (writeAt 2 0 [0]) (Settled.state (rigged l) history)).device.disk.block _ ≠ _
    rw [hwrite]
    exact Store.write_ne_block _

/-- A floppy disk whose only file points to the superblock is mounted; a byte of the superblock is
read as a byte of the file, and a byte written into the file replaces it. -/
theorem Call.write_replaces_superblock_floppy :
    ∃ v, openOn (.reliable (Scene.rigged .floppy).store.disk) 0 = .ok () v ∧
      (Call.look (.readAt 2 0 1)).answer (.new v) =
        .ok (.bytes (((Scene.rigged .floppy).store.disk.block superblockBlock).read 0 1)) ∧
      ((Call.edit (.write 2 0 [0])).after (.new v)).volume.device.disk.block superblockBlock ≠
        (Scene.rigged .floppy).store.disk.block superblockBlock :=
  Scene.exists_follows_pointer (by decide)

end BlockFS
