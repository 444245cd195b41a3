import BlockFS.Proofs.Store

/-!
# Volumes where no transfer fails

A scene is the settled state of a volume on a store: besides the store it tells the time, whether the
volume is mounted, and the current directory.  The records of a scene determine what is read of it,
and each action that changes one record is a pure function on scenes.
-/

namespace BlockFS

/-- A volume on a store of its layout. -/
structure Scene (l : Layout) where
  store : Store l
  clock : Int
  mounted : Bool
  cwd : Nat

namespace Scene

variable {l : Layout}

instance : Settled (Scene l) Volume where
  state s history :=
    ⟨⟨s.store.disk, .never, history⟩, s.clock, if s.mounted then some l else none, s.cwd⟩

/-- The records that the volume holds. -/
def records (s : Scene l) : Records := s.store.records

/-- The scene with an item in use or not. -/
def mark (s : Scene l) (r : Resource) (i : Nat) (used : Bool) : Scene l :=
  { s with store := s.store.mark r i used }

/-- The scene with another record of an inode. -/
def putInode (s : Scene l) (i : Nat) (x : Inode) : Scene l :=
  { s with store := s.store.putInode i x }

/-- The scene with another data block. -/
def putBlock (s : Scene l) (i : Nat) (b : Block) : Scene l :=
  { s with store := s.store.putBlock i b }

/-- The scene with some blocks free. -/
def freeBlocks (s : Scene l) : List Nat → Scene l
  | [] => s
  | i :: rest => freeBlocks (s.mark .block i false) rest

@[simp] theorem mounted_freeBlocks (s : Scene l) (is : List Nat) :
    (s.freeBlocks is).mounted = s.mounted := by
  induction is generalizing s with
  | nil => rfl
  | cons i rest ih => exact ih _

theorem clock_freeBlocks (s : Scene l) (is : List Nat) : (s.freeBlocks is).clock = s.clock := by
  induction is generalizing s with
  | nil => rfl
  | cons i rest ih => exact ih _

theorem cwd_freeBlocks (s : Scene l) (is : List Nat) : (s.freeBlocks is).cwd = s.cwd := by
  induction is generalizing s with
  | nil => rfl
  | cons i rest ih => exact ih _

end Scene

/-- The records with some blocks free. -/
def Records.freeBlocks (c : Records) (is : List Nat) : Records :=
  { c with used := fun r j => if r = .block ∧ j ∈ is then false else c.used r j }

/-- The lowest item from 1 on, below a number, that is not in use. -/
def Records.lowestFree (c : Records) (r : Resource) (count : Nat) : Option Nat :=
  (List.range' 1 (count - 1)).find? fun i => !c.used r i

namespace Records

theorem lowestFree_eq_some_iff {c : Records} {r : Resource} {count i : Nat} :
    c.lowestFree r count = some i ↔
      1 ≤ i ∧ i < count ∧ c.used r i = false ∧
        ∀ j, 1 ≤ j → j < i → c.used r j = true := by
  rw [lowestFree, List.find?_range'_eq_some]
  simp only [Bool.not_eq_true', List.mem_range'_1, Bool.not_eq_false']
  constructor
  · rintro ⟨hfree, ⟨hpos, hlt⟩, hbelow⟩
    exact ⟨hpos, by omega, hfree, hbelow⟩
  · rintro ⟨hpos, hlt, hfree, hbelow⟩
    exact ⟨hfree, ⟨hpos, by omega⟩, hbelow⟩

theorem lowestFree_eq_none_iff {c : Records} {r : Resource} {count : Nat} :
    c.lowestFree r count = none ↔ ∀ i, 1 ≤ i → i < count → c.used r i = true := by
  rw [lowestFree, List.find?_range'_eq_none]
  simp only [Bool.not_eq_true', Bool.not_eq_false']
  constructor
  · intro h i hpos hlt
    exact h i hpos (by omega)
  · intro h i hpos hlt
    exact h i hpos (by omega)

end Records

namespace Scene

variable {l : Layout}

theorem records_mark (s : Scene l) {r : Resource} {i : Nat} (hi : i < r.count l) (used : Bool) :
    (s.mark r i used).records = s.records.mark r i used :=
  s.store.records_mark hi used

theorem records_putInode (s : Scene l) {i : Nat} (hi : i < l.inodeCount) (x : Inode) :
    (s.putInode i x).records = s.records.putInode i x :=
  s.store.records_putInode hi x

theorem records_putBlock (s : Scene l) {i : Nat} (hi : l.firstDataBlock ≤ i)
    (hc : i < l.blockCount) (b : Block) :
    (s.putBlock i b).records = s.records.putBlock i b :=
  s.store.records_putBlock hi hc b

theorem records_freeBlocks (s : Scene l) {is : List Nat} (h : ∀ i ∈ is, i < l.blockCount) :
    (s.freeBlocks is).records = s.records.freeBlocks is := by
  induction is generalizing s with
  | nil =>
    simp only [freeBlocks, Records.freeBlocks, List.not_mem_nil, and_false, if_false]
  | cons i rest ih =>
    have hi : i < l.blockCount := h i (List.mem_cons_self ..)
    rw [freeBlocks, ih _ fun j hj => h j (List.mem_cons_of_mem _ hj),
      s.records_mark (r := .block) hi]
    simp only [Records.freeBlocks, Records.mark, List.mem_cons]
    congr 1
    funext r j
    grind

theorem records_block {s : Scene l} {i : Nat} (hi : l.firstDataBlock ≤ i)
    (hc : i < l.blockCount) : s.records.block i = s.store.block i :=
  if_pos ⟨hi, hc⟩

theorem records_inode {s : Scene l} {i : Nat} (hi : i < l.inodeCount) :
    s.records.inode i = l.inode s.store.block i :=
  if_pos hi

theorem lt_count_of_used {s : Scene l} {r : Resource} {i : Nat}
    (h : s.records.used r i = true) : i < r.count l :=
  Bitmap.lt_count_of_get (b := l.bitmap s.store.block r) h

end Scene

/-! ## Scenes are told apart -/

/-- Volumes of different scenes differ, whatever their histories. -/
theorem Scene.eq_of_state_eq {l : Layout} {s s' : Scene l} {h h' : History}
    (he : Settled.state s h = Settled.state s' h') : s = s' := by
  obtain ⟨⟨disk, _, _⟩, clock, mounted, cwd⟩ := s
  obtain ⟨⟨disk', _, _⟩, clock', mounted', cwd'⟩ := s'
  injection he with hdevice hclock hlayout hcwd
  injection hdevice with hdisk
  have hmounted : mounted = mounted' := by
    cases mounted with
    | true =>
      cases mounted' with
      | true => rfl
      | false => cases hlayout
    | false =>
      cases mounted' with
      | true => cases hlayout
      | false => rfl
  subst hdisk hclock hmounted hcwd
  rfl

/-- What an action does to a scene is determined. -/
theorem Scene.does_unique {l : Layout} {s t t' : Scene l} {α : Type} {x : VolumeM α}
    {r r' : Except Error α} (hx : Does x s r t) (hx' : Does x s r' t') : r = r' ∧ t = t' := by
  obtain ⟨hr, h, h', hstate⟩ := hx.result_unique hx' ⟨0, 0⟩
  exact ⟨hr, Scene.eq_of_state_eq hstate⟩

/-! ## Reading and writing records -/

section

variable {l : Layout} {s : Scene l}

theorem does_onDevice {α : Type} {x : DeviceM α} {r : Except Error α} {st : Store l}
    (h : Does x s.store r st) : Does (onDevice x) s r { s with store := st } := by
  intro history
  obtain ⟨history', h⟩ := h history
  refine ⟨history', ?_⟩
  simp only [Settled.state, onDevice] at h ⊢
  rw [h]
  cases r with
  | ok a => rfl
  | error e => rfl

namespace Volume

theorem does_getLayout (hm : s.mounted = true) : Does getLayout s (.ok l) s := by
  apply Does.get_bind
  intro history
  simp only [Settled.state, hm, if_true]
  exact Does.pure _ _

theorem does_getLayout_unmounted (hm : s.mounted = false) :
    Does getLayout s (.error .notMounted) s := by
  apply Does.get_bind
  intro history
  simp only [Settled.state, hm]
  exact Does.throw _ _

theorem does_readBitmap (hm : s.mounted = true) (r : Resource) :
    Does (readBitmap r) s (.ok (l.bitmap s.store.block r)) s :=
  (does_getLayout hm).bind (does_onDevice (s.store.does_readBitmap r))

theorem does_readBlock (hm : s.mounted = true) {i : Nat} (hi : l.firstDataBlock ≤ i)
    (hc : i < l.blockCount) : Does (readBlock i) s (.ok (s.records.block i)) s := by
  rw [Scene.records_block hi hc]
  exact (does_getLayout hm).bind (does_onDevice (s.store.does_readBlock hc))

theorem does_writeBlock (hm : s.mounted = true) {i : Nat} (hi : l.firstDataBlock ≤ i)
    (hc : i < l.blockCount) (b : Block) :
    Does (writeBlock i b) s (.ok ()) (s.putBlock i b) := by
  have hsuper : superblockBlock < i :=
    Nat.lt_of_lt_of_le
      (Nat.lt_trans l.superblock_lt_tableStart l.tableStart_lt_firstDataBlock) hi
  exact (does_getLayout hm).bind (does_onDevice (s.store.does_writeBlock b hc hsuper))

theorem does_readInode (hm : s.mounted = true) {i : Nat} (hi : s.records.used .inode i = true) :
    Does (readInode i) s (.ok (s.records.inode i)) s := by
  have hlt : i < l.inodeCount := Scene.lt_count_of_used hi
  apply (does_readBitmap hm .inode).bind
  have hget : (l.bitmap s.store.block .inode).get i = true := hi
  rw [if_pos hget, Scene.records_inode hlt]
  exact (does_getLayout hm).bind (does_onDevice (s.store.does_readInode hlt))

theorem does_fileSize (hm : s.mounted = true) {i : Nat} (hi : s.records.used .inode i = true) :
    Does (fileSize i) s (.ok (s.records.inode i).size.toNat) s :=
  (does_readInode hm hi).bind (Does.pure _ _)

theorem does_readInode_free (hm : s.mounted = true) {i : Nat}
    (hi : s.records.used .inode i = false) : Does (readInode i) s (.error .notFound) s := by
  apply (does_readBitmap hm .inode).bind
  have hget : ¬ (l.bitmap s.store.block .inode).get i = true := by
    rw [Bool.not_eq_true]
    exact hi
  rw [if_neg hget]
  exact Does.throw _ _

theorem does_writeInode (hm : s.mounted = true) {i : Nat} (hi : i < l.inodeCount) (x : Inode) :
    Does (writeInode i x) s (.ok ()) (s.putInode i x) :=
  (does_getLayout hm).bind (does_onDevice (s.store.does_writeInode hi x))

end Volume

end

end BlockFS
