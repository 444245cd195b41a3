import BlockFS.Proofs.Scene

/-!
# Mounted volumes on any disk

A scene has its superblock on the disk, and a disk that holds all of its blocks.  Allocation needs
neither: it goes by the layout that is kept in memory and reads one bitmap.  So its rules are proved
here of a mounted volume on any disk that reaches behind that bitmap, and those of scenes follow.
-/

namespace BlockFS

variable {l : Layout}

/-- A mounted volume of a layout on any disk. -/
structure Mounted (l : Layout) where
  disk : Disk
  clock : Int
  cwd : Nat

namespace Mounted

variable {m m' m'' : Mounted l} {r : Resource} {i : Nat} {α : Type}

instance : Settled (Mounted l) Volume where
  state m history := ⟨⟨m.disk, .never, history⟩, m.clock, some l, m.cwd⟩

/-- The records that the volume holds. -/
def records (m : Mounted l) : Records := l.records m.disk.block

/-- The disk reaches behind the bitmap. -/
def Covers (m : Mounted l) (r : Resource) : Prop :=
  2 * r.bitmapBlock l + 1 < m.disk.sectors.size

/-- The volume with another block. -/
def putBlock (m : Mounted l) (i : Nat) (b : Block) : Mounted l :=
  { m with disk := m.disk.putBlock i b }

/-- The volume with an item in use or not. -/
def mark (m : Mounted l) (r : Resource) (i : Nat) (used : Bool) : Mounted l :=
  m.putBlock (r.bitmapBlock l) ((l.bitmap m.disk.block r).mark i used).bits

theorem records_mark (m : Mounted l) (hi : i < r.count l) (used : Bool) :
    (m.mark r i used).records = m.records.mark r i used := by
  rw [records, mark, putBlock, Disk.block_putBlock_eq_update]
  exact l.records_mark m.disk.block hi used

/-- What an action does to a mounted volume is determined. -/
theorem does_unique {x : VolumeM α} {res res' : Except Error α} (h : Does x m res m')
    (h' : Does x m res' m'') : res = res' ∧ m' = m'' := by
  obtain ⟨hres, history, history', hstate⟩ := h.result_unique h' ⟨0, 0⟩
  obtain ⟨disk, clock, cwd⟩ := m'
  obtain ⟨disk', clock', cwd'⟩ := m''
  injection hstate with hdevice hclock _ hcwd
  injection hdevice with hdisk
  subst hdisk hclock hcwd
  exact ⟨hres, rfl⟩

/-! ## Transfers -/

theorem does_onDevice {x : DeviceM α} {res : Except Error α} {d : Disk} (h : Does x m.disk res d) :
    Does (onDevice x) m res { m with disk := d } := by
  intro history
  obtain ⟨history', h⟩ := h history
  refine ⟨history', ?_⟩
  simp only [Settled.state, onDevice] at h ⊢
  rw [h]
  cases res with
  | ok a => rfl
  | error e => rfl

theorem does_getLayout (m : Mounted l) : Does Volume.getLayout m (.ok l) m :=
  Does.get_bind fun _ => Does.pure _ _

theorem does_readBlock (hi : i < l.blockCount) (hd : 2 * i + 1 < m.disk.sectors.size) :
    Does (Volume.readBlock i) m (.ok (m.disk.block i)) m :=
  m.does_getLayout.bind (does_onDevice (Layout.does_readBlock hi hd))

theorem does_writeBlock (m : Mounted l) (b : Block) (hi : i < l.blockCount) :
    Does (Volume.writeBlock i b) m (.ok ()) (m.putBlock i b) :=
  m.does_getLayout.bind (does_onDevice (Layout.does_writeBlock m.disk b hi))

theorem does_onDevice_readBitmap (h : m.Covers r) :
    Does (onDevice (l.readBitmap r)) m (.ok (l.bitmap m.disk.block r)) m :=
  does_onDevice ((Layout.does_readBlock (l.bitmapBlock_lt_blockCount r) h).bind (Does.pure _ _))

theorem does_onDevice_writeBitmap (m : Mounted l) (r : Resource) (b : Bitmap) :
    Does (onDevice (l.writeBitmap r b)) m (.ok ()) (m.putBlock (r.bitmapBlock l) b.bits) :=
  does_onDevice (Layout.does_writeBlock m.disk b.bits (l.bitmapBlock_lt_blockCount r))

theorem does_readBitmap (h : m.Covers r) :
    Does (Volume.readBitmap r) m (.ok (l.bitmap m.disk.block r)) m :=
  m.does_getLayout.bind (does_onDevice_readBitmap h)

/-! ## Allocation -/

theorem does_allocate (hc : m.Covers r) (h : m.records.lowestFree r (r.count l) = some i) :
    Does (Volume.allocate r) m (.ok i) (m.mark r i true) := by
  have hlt : i < r.count l := (Records.lowestFree_eq_some_iff.mp h).2.1
  have hfirst : (l.bitmap m.disk.block r).firstFree 1 = some i := h
  apply m.does_getLayout.bind
  apply (does_onDevice_readBitmap hc).bind
  simp only [hfirst]
  rw [Bitmap.set_eq_mark (b := l.bitmap m.disk.block r) hlt]
  apply (Does.liftExcept _ _).bind
  apply (m.does_onDevice_writeBitmap r _).bind
  exact Does.pure _ _

theorem does_allocate_full (hc : m.Covers r) (h : m.records.lowestFree r (r.count l) = none) :
    Does (Volume.allocate r) m (.error .noSpace) m := by
  have hfirst : (l.bitmap m.disk.block r).firstFree 1 = none := h
  apply m.does_getLayout.bind
  apply (does_onDevice_readBitmap hc).bind
  simp only [hfirst]
  exact Does.throw _ _

theorem does_deallocate (hc : m.Covers r) (hi : i < r.count l) :
    Does (Volume.deallocate r i) m (.ok ()) (m.mark r i false) := by
  apply m.does_getLayout.bind
  apply (does_onDevice_readBitmap hc).bind
  rw [Bitmap.set_eq_mark (b := l.bitmap m.disk.block r) hi]
  apply (Does.liftExcept _ _).bind
  exact m.does_onDevice_writeBitmap r _

theorem does_deallocate_missing (hc : m.Covers r) (hi : r.count l ≤ i) :
    Does (Volume.deallocate r i) m (.error .notFound) m := by
  apply m.does_getLayout.bind
  apply (does_onDevice_readBitmap hc).bind
  have hset : (l.bitmap m.disk.block r).set i false = .error .notFound :=
    if_neg (Nat.not_lt_of_le hi)
  rw [hset]
  exact (Does.liftExcept _ _).bind_error

theorem does_allocateBlock (hc : m.Covers .block)
    (h : m.records.lowestFree .block l.blockCount = some i) :
    Does Volume.allocateBlock m (.ok i) ((m.mark .block i true).putBlock i .zero) := by
  have hlt : i < l.blockCount := (Records.lowestFree_eq_some_iff.mp h).2.1
  apply (does_allocate (r := .block) hc h).bind
  have hzero := (m.mark .block i true).does_writeBlock .zero hlt
  exact hzero.tryCatch_ok.bind (Does.pure _ _)

theorem does_allocateBlock_full (hc : m.Covers .block)
    (h : m.records.lowestFree .block l.blockCount = none) :
    Does Volume.allocateBlock m (.error .noSpace) m :=
  (does_allocate_full (r := .block) hc h).bind_error

end Mounted

/-! ## Scenes of mounted volumes -/

namespace Scene

variable {s s' : Scene l} {α : Type}

/-- The volume of a scene, taken as mounted on its disk. -/
def onDisk (s : Scene l) : Mounted l := ⟨s.store.disk, s.clock, s.cwd⟩

theorem state_onDisk (hm : s.mounted = true) (history : History) :
    Settled.state s.onDisk history = Settled.state s history := by
  obtain ⟨store, clock, mounted, cwd⟩ := s
  subst hm
  rfl

theorem does_of_onDisk {x : VolumeM α} {res : Except Error α} (h : Does x s.onDisk res s'.onDisk)
    (hm : s.mounted = true) (hm' : s'.mounted = true) : Does x s res s' := by
  intro history
  obtain ⟨history', h⟩ := h history
  rw [state_onDisk hm, state_onDisk hm'] at h
  exact ⟨history', h⟩

theorem covers_onDisk (s : Scene l) (r : Resource) : s.onDisk.Covers r := by
  have hcovers := s.store.covers
  have hblock := l.bitmapBlock_lt_blockCount r
  change 2 * r.bitmapBlock l + 1 < s.store.disk.sectors.size
  omega

theorem onDisk_putBlock (s : Scene l) {i : Nat} (hi : superblockBlock < i) (b : Block) :
    (s.putBlock i b).onDisk = s.onDisk.putBlock i b := by
  rw [onDisk, putBlock, s.store.disk_putBlock b hi]
  rfl

theorem onDisk_mark (s : Scene l) (r : Resource) (i : Nat) (used : Bool) :
    (s.mark r i used).onDisk = s.onDisk.mark r i used := by
  rw [onDisk, mark, Store.mark, s.store.disk_putBlock _ (l.superblock_lt_bitmapBlock r)]
  rfl

end Scene

end BlockFS
