import BlockFS.Proofs.DeviceView

/-!
# Exact allocation

The bitmaps on the device tell exactly what is linked: the block bitmap of the blocks that are never
handed out and of those that linked inodes point to, each of them from one slot, and the inode bitmap
of the inode zero and of the linked inodes.
-/

namespace BlockFS

variable {l : Layout} {g : Geometry} {v : Service} {logs : Logs}

namespace Records

variable {c : Records} {i slot b : Nat}

/-- A linked inode points to a block from a slot. -/
structure PointsTo (c : Records) (i slot b : Nat) : Prop where
  linked : c.written.Linked i
  points : (c.inode i).block? slot = some b

/-- The bits that are set are those of what is linked, and no block has two owners. -/
structure AllocationExact (l : Layout) (c : Records) : Prop where
  block : ∀ b, c.used .block b = true ↔ b < l.firstDataBlock ∨ ∃ i slot, c.PointsTo i slot b
  range : ∀ i slot b, c.PointsTo i slot b → l.firstDataBlock ≤ b ∧ b < l.blockCount
  once : ∀ i slot i' slot' b, c.PointsTo i slot b → c.PointsTo i' slot' b → i = i' ∧ slot = slot'
  inode : ∀ i, c.used .inode i = true ↔ i = 0 ∨ c.written.Linked i

theorem Tidy.pointsTo_iff (h : c.Tidy l) : c.PointsTo i slot b ↔ c.Owns i slot b := by
  constructor
  · rintro ⟨hlinked, hpoints⟩
    exact ⟨h.linked_written_iff.mp hlinked, hpoints⟩
  · rintro ⟨hlive, hpoints⟩
    exact ⟨h.linked_written_iff.mpr hlive, hpoints⟩

theorem Tidy.allocationExact (h : c.Tidy l) : c.AllocationExact l := by
  constructor
  · intro b
    simp only [h.pointsTo_iff]
    by_cases hb : b < l.firstDataBlock
    · exact iff_of_true (h.blocks.reserved b hb) (.inl hb)
    · rw [h.blocks.used_iff b (Nat.le_of_not_lt hb)]
      exact (or_iff_right hb).symm
  · intro i slot b hp
    exact h.blocks.range i slot b (h.pointsTo_iff.mp hp)
  · intro i slot i' slot' b hp hp'
    exact h.blocks.once i slot i' slot' b (h.pointsTo_iff.mp hp) (h.pointsTo_iff.mp hp')
  · intro i
    rw [h.linked_written_iff]
    exact h.inodes.used_iff i

end Records

/-- Whatever calls lead to a volume, its bitmaps tell exactly what is linked. -/
theorem Reached.allocation_exact (h : Reached g v logs) (hl : Layout.ofGeometry g = .ok l) :
    l.Reads v.volume.device (v.volume.records l) ∧ (v.volume.records l).AllocationExact l :=
  ⟨h.reads hl, (h.tidy hl).allocationExact⟩

/-- A file is made on a new floppy disk, written to behind its first block, and removed again. -/
theorem Reached.allocation_exact_floppy :
    let v := (Call.edit (.unlink rootInode "a")).after ((Call.edit (.write 2 1500 [1, 2, 3])).after
      ((Call.edit (.makeFile rootInode "a")).after Service.floppy))
    ∃ logs, Reached .floppy v logs ∧ Layout.ofGeometry .floppy = .ok .floppy ∧
      Layout.floppy.Reads v.volume.device (v.volume.records .floppy) ∧
      (v.volume.records .floppy).AllocationExact .floppy := by
  have hreached := ((reached_floppy.call (.edit (.makeFile rootInode "a"))).call
    (.edit (.write 2 1500 [1, 2, 3]))).call (.edit (.unlink rootInode "a"))
  exact ⟨_, hreached, Layout.ofGeometry_floppy, hreached.allocation_exact Layout.ofGeometry_floppy⟩

end BlockFS
