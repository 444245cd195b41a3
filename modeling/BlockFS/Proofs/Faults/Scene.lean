import BlockFS.Proofs.Faults.Store
import BlockFS.Proofs.Scene.Views

/-!
# Volumes where transfers may fail

What reading, writing, allocating and taking back may leave of a scene, and which transfers must have
failed if it does not answer.
-/

namespace BlockFS

open Volume

/-- The volume on a device that follows another plan of failures. -/
def Volume.withFaults (v : Volume) (plan : FaultPlan) : Volume :=
  { v with device := v.device.withFaults plan }

namespace Transfer

/-- The transfer only reads. -/
def IsRead (t : Transfer) : Prop := ∃ sector, t = .read sector

/-- The transfer reads or writes the bitmap of a resource. -/
def OfBitmap (l : Layout) (r : Resource) (t : Transfer) : Prop := t.Touches (r.bitmapBlock l)

theorem ReadsOf.isRead {block : Nat} {t : Transfer} (h : t.ReadsOf block) : t.IsRead := by
  rcases h with rfl | rfl
  · exact ⟨_, rfl⟩
  · exact ⟨_, rfl⟩

theorem not_isRead_write (sector : Nat) : ¬ (write sector).IsRead := by
  rintro ⟨k, hread⟩
  cases hread

theorem Touches.div_eq {block sector : Nat} (h : (write sector).Touches block) :
    sector / 2 = block := by
  rcases h with hreads | hwrites | hwrites
  · exact absurd hreads.isRead (not_isRead_write sector)
  · cases hwrites
    omega
  · cases hwrites
    omega

theorem ReadsTable.isRead {l : Layout} {t : Transfer} (h : t.ReadsTable l) : t.IsRead := by
  obtain ⟨block, -, -, hreads⟩ := h
  exact hreads.isRead

end Transfer

variable {l : Layout} {plan : FaultPlan} {s : Scene l} {i : Nat} {r : Resource}

instance : Exposed (Scene l) Volume where
  under plan s history :=
    ⟨⟨s.store.disk, plan, history⟩, s.clock, if s.mounted then some l else none, s.cwd⟩

namespace Records

variable {c : Records}

theorem mark_mark (used used' : Bool) : (c.mark r i used).mark r i used' = c.mark r i used' := by
  simp only [mark]
  congr 1
  funext r' j
  split
  · rfl
  · rfl

theorem putBlock_mark_self (used : Bool) :
    (c.mark r i used).putBlock i (c.block i) = c.mark r i used := by
  simp only [putBlock, mark, Function.update_eq_self]

end Records

/-! ## Transfers of a mounted volume -/

section onDevice

variable {α : Type} {x : DeviceM α}

theorem ends_onDevice {Q : α → Store l → Prop} {E : Error → Store l → Prop}
    (h : Ends plan x s.store Q E) :
    Ends plan (onDevice x) s (fun a s' => ∃ st, s' = { s with store := st } ∧ Q a st)
      (fun e s' => ∃ st, s' = { s with store := st } ∧ E e st) := by
  intro history
  simp only [Exposed.under, onDevice]
  rcases h history with ⟨a, st, h', hx, hq⟩ | ⟨e, st, h', hx, he⟩
  · simp only [Exposed.under] at hx
    simp only [hx]
    exact .inl ⟨a, { s with store := st }, h', rfl, st, rfl, hq⟩
  · simp only [Exposed.under] at hx
    simp only [hx]
    exact .inr ⟨e, { s with store := st }, h', rfl, st, rfl, he⟩

theorem views_onDevice {Q : α → Prop} {E : Error → Prop} (h : Views plan x s.store Q E) :
    Views plan (onDevice x) s Q E := by
  refine (ends_onDevice h).mono (fun a s' ha => ?_) fun e s' he => ?_
  · obtain ⟨st, rfl, rfl, ha⟩ := ha
    exact ⟨rfl, ha⟩
  · obtain ⟨st, rfl, rfl, he⟩ := he
    exact ⟨rfl, he⟩

end onDevice

/-- What may be left of a volume by a write of a block that failed. -/
def Scene.Torn (plan : FaultPlan) (s : Scene l) (i : Nat) (b : Block) (e : Error)
    (s' : Scene l) : Prop :=
  (s' = s ∧ plan.Strikes (· = .write (2 * i)) e) ∨
    (s' = s.putBlock i (.splice sectorSize b (s.store.block i)) ∧
      plan.Admits (.write (2 * i)) ∧ plan.Strikes (· = .write (2 * i + 1)) e)

namespace Scene.Torn

variable {b : Block} {e : Error} {s' : Scene l} (h : s.Torn plan i b e s')

include h

theorem strikes : plan.Strikes (Transfer.WritesTo i) e := by
  rcases h with ⟨-, hstrikes⟩ | ⟨-, -, hstrikes⟩
  · exact hstrikes.mono fun _ ht => .inl ht
  · exact hstrikes.mono fun _ ht => .inr ht

/-- Some contents the block has afterwards. -/
theorem exists_putBlock (hi : l.firstDataBlock ≤ i) (hc : i < l.blockCount) :
    ∃ z, s' = s.putBlock i z := by
  rcases h with ⟨rfl, -⟩ | ⟨rfl, -⟩
  · exact ⟨s'.store.block i, (s'.putBlock_block hi hc).symm⟩
  · exact ⟨_, rfl⟩

end Scene.Torn

/-- Only the stores differ. -/
structure Scene.Framed (s s' : Scene l) : Prop where
  mounted : s'.mounted = s.mounted
  clock : s'.clock = s.clock
  cwd : s'.cwd = s.cwd

theorem Scene.Framed.refl (s : Scene l) : Framed s s := ⟨rfl, rfl, rfl⟩

/-- What may be left of a volume by a write of an inode record that failed. -/
structure Scene.TornInode (plan : FaultPlan) (s : Scene l) (i : Nat) (x : Inode) (e : Error)
    (s' : Scene l) : Prop extends Framed s s' where
  strikes : plan.Strikes (Transfer.OfTable l) e
  records : ∃ cut, cut % 2 = 0 ∧ (cut = 0 ∨ plan.Admits (.write (2 * l.inodeBlock i))) ∧
    s'.records = s.records.putInode i (.mixed cut x (s.records.inode i))

/-- What may be left of a volume by an attempt to hand out a block that failed on the device. -/
structure Scene.HalfTaken (plan : FaultPlan) (s : Scene l) (e : Error) (s' : Scene l) : Prop
    extends Framed s s' where
  strikes : plan.Strikes (Transfer.OfBitmap l .block) e ∨
    ∃ i, s.records.lowestFree .block l.blockCount = some i ∧ plan.Strikes (Transfer.WritesTo i) e
  records : s' = s ∨ ∃ i used z, s.records.lowestFree .block l.blockCount = some i ∧
    s'.records = (s.records.mark .block i used).putBlock i z ∧
    (used = true → plan.Strikes (Transfer.OfBitmap l .block) e)

namespace Volume

/-- A bit that could not be set or cleared is as it was, or it was set or cleared all the same. -/
theorem ends_writeBitmap (used : Bool) :
    Ends plan (onDevice (l.writeBitmap r ((l.bitmap s.store.block r).mark i used))) s
      (fun _ s' => s' = s.mark r i used)
      (fun e s' => (s' = s ∨ s' = s.mark r i used) ∧ plan.Strikes (Transfer.OfBitmap l r) e) := by
  refine (ends_onDevice (Store.ends_writeBitmap_mark used)).mono (fun _ s' h => ?_) fun e s' h => ?_
  · obtain ⟨st, rfl, rfl⟩ := h
    rfl
  · obtain ⟨st, rfl, rfl | rfl, hstrikes⟩ := h
    · exact ⟨.inl rfl, hstrikes.mono fun _ ht => .inr ht⟩
    · exact ⟨.inr rfl, hstrikes.mono fun _ ht => .inr ht⟩

/-- A volume that is not mounted refuses before anything is transferred. -/
theorem getLayout_bind_unmounted {β : Type} {f : Layout → VolumeM β} {Q : β → Prop}
    (hm : s.mounted = false) : Views plan (getLayout >>= f) s Q (· = .notMounted) := by
  refine Views.bind (Q := fun _ => False) (Ends.get_bind fun history => ?_) fun _ => False.elim
  simp only [Exposed.under, hm]
  exact Views.throw rfl

theorem views_readInode_unmounted (hm : s.mounted = false) (i : Nat) :
    Views plan (readInode i) s (fun _ => False) (· = .notMounted) :=
  Views.bind (Q := fun _ => False) (getLayout_bind_unmounted hm) fun _ => False.elim

theorem ends_orUndo {α : Type} {x : VolumeM α} {undo : VolumeM Unit} {Q : α → Scene l → Prop}
    {E E' : Error → Scene l → Prop} (hx : Ends plan x s Q E)
    (hundo : ∀ e s', E e s' → Ends plan undo s' (fun _ s'' => E' e s'') E') :
    Ends plan (orUndo x undo) s Q E' :=
  hx.tryCatch fun e s' he => (hundo e s' he).bind fun _ _ h => .throw h

section

variable (hm : s.mounted = true)

include hm

theorem getLayout_bind {β : Type} {f : Layout → VolumeM β} {Q : β → Scene l → Prop}
    {E : Error → Scene l → Prop} (hf : Ends plan (f l) s Q E) :
    Ends plan (getLayout >>= f) s Q E := by
  refine Ends.bind (Q := fun layout s' => layout = l ∧ s' = s) ?_ fun layout s' h => ?_
  · refine Ends.get_bind fun history => ?_
    simp only [Exposed.under, hm, if_true]
    exact .pure ⟨rfl, rfl⟩
  · obtain ⟨rfl, rfl⟩ := h
    exact hf

theorem views_readBitmap (r : Resource) :
    Views plan (readBitmap r) s (· = l.bitmap s.store.block r)
      (plan.Strikes (Transfer.ReadsOf (r.bitmapBlock l))) :=
  getLayout_bind hm (views_onDevice Store.views_readBitmap)

theorem views_readBlock (hi : l.firstDataBlock ≤ i) (hc : i < l.blockCount) :
    Views plan (readBlock i) s (· = s.records.block i) (plan.Strikes Transfer.IsRead) := by
  rw [Scene.records_block hi hc]
  refine getLayout_bind hm (views_onDevice ?_)
  exact (Store.views_readBlock hc).weaken fun _ he => he.mono fun _ ht => ht.isRead

theorem views_readInode (i : Nat) :
    Views plan (readInode i) s
      (fun x => s.records.used .inode i = true ∧ x = s.records.inode i)
      (fun e => (s.records.used .inode i = false ∧ e = .notFound) ∨
        plan.Strikes Transfer.IsRead e) := by
  refine ((views_readBitmap hm .inode).weaken fun _ he =>
    .inr (he.mono fun _ ht => ht.isRead)).bind fun b hb => ?_
  subst hb
  by_cases hused : s.records.used .inode i = true
  · have hget : (l.bitmap s.store.block .inode).get i = true := hused
    have hlt : i < l.inodeCount := Scene.lt_count_of_used hused
    rw [if_pos hget]
    refine getLayout_bind hm (views_onDevice ?_)
    refine Ends.mono (Store.views_readInode hlt) (fun x s' hx => ⟨hx.1, hused, ?_⟩)
      fun e s' he => ⟨he.1, .inr (he.2.mono fun _ ht => ht.isRead)⟩
    rw [hx.2, Scene.records_inode hlt]
  · have hget : ¬ (l.bitmap s.store.block .inode).get i = true := hused
    rw [if_neg hget]
    exact .throw (.inl ⟨Bool.eq_false_iff.mpr hused, rfl⟩)

theorem ends_writeBlock (hi : l.firstDataBlock ≤ i) (hc : i < l.blockCount) (b : Block) :
    Ends plan (writeBlock i b) s
      (fun _ s' => s' = s.putBlock i b ∧ plan.Admits (.write (2 * i)) ∧
        plan.Admits (.write (2 * i + 1)))
      (s.Torn plan i b) := by
  refine getLayout_bind hm ?_
  have hsuper := l.superblock_lt_of_le hi
  refine (ends_onDevice (Store.ends_writeBlock hc hsuper b)).mono (fun _ s' h => ?_)
    fun e s' h => ?_
  · obtain ⟨st, rfl, rfl, hadmits⟩ := h
    exact ⟨rfl, hadmits⟩
  · obtain ⟨st, rfl, ⟨rfl, hstrikes⟩ | ⟨rfl, hstrikes⟩⟩ := h
    · exact .inl ⟨rfl, hstrikes⟩
    · exact .inr ⟨rfl, hstrikes⟩

theorem ends_writeInode (hi : i < l.inodeCount) (x : Inode) :
    Ends plan (writeInode i x) s
      (fun _ s' => s' = s.putInode i x ∧ plan.Admits (.write (2 * l.inodeBlock i)))
      (s.TornInode plan i x) := by
  refine getLayout_bind hm ?_
  refine (ends_onDevice (Store.ends_writeInode hi x)).mono (fun _ s' h => ?_) fun e s' h => ?_
  · obtain ⟨st, rfl, rfl, hadmits⟩ := h
    exact ⟨rfl, hadmits⟩
  · obtain ⟨st, rfl, hstrikes, hrecords⟩ := h
    exact ⟨⟨rfl, rfl, rfl⟩, hstrikes, hrecords⟩

/-! ## Allocation -/

theorem ends_allocate (r : Resource) :
    Ends plan (allocate r) s
      (fun i s' => s.records.lowestFree r (r.count l) = some i ∧ s' = s.mark r i true)
      (fun e s' => (s' = s ∧ s.records.lowestFree r (r.count l) = none ∧ e = .noSpace) ∨
        (plan.Strikes (Transfer.OfBitmap l r) e ∧ (s' = s ∨
          ∃ i, s.records.lowestFree r (r.count l) = some i ∧ s' = s.mark r i true))) := by
  refine getLayout_bind hm ((views_onDevice Store.views_readBitmap).bind_ends (fun e he => ?_)
    fun b hb => ?_)
  · exact .inr ⟨he.mono fun _ ht => .inl ht, .inl rfl⟩
  subst hb
  match hfree : s.records.lowestFree r (r.count l) with
  | none =>
    have hfirst : (l.bitmap s.store.block r).firstFree 1 = none := hfree
    simp only [hfirst]
    exact .throw (.inl ⟨rfl, trivial, rfl⟩)
  | some i =>
    have hfirst : (l.bitmap s.store.block r).firstFree 1 = some i := hfree
    have hlt : i < r.count l := (Records.lowestFree_eq_some_iff.mp hfree).2.1
    simp only [hfirst]
    rw [Bitmap.set_eq_mark (b := l.bitmap s.store.block r) hlt]
    refine Ends.ok_bind (Ends.bind ((ends_writeBitmap true).weaken fun e s' h => ?_)
      fun _ s' h => ?_)
    · exact .inr ⟨h.2, h.1.imp id fun hs => ⟨i, rfl, hs⟩⟩
    · exact .pure ⟨rfl, h⟩

theorem ends_deallocate (hi : i < r.count l) :
    Ends plan (deallocate r i) s (fun _ s' => s' = s.mark r i false)
      (fun e s' => (s' = s ∨ s' = s.mark r i false) ∧
        plan.Strikes (Transfer.OfBitmap l r) e) := by
  refine getLayout_bind hm ((views_onDevice Store.views_readBitmap).bind_ends (fun e he => ?_)
    fun b hb => ?_)
  · exact ⟨.inl rfl, he.mono fun _ ht => .inl ht⟩
  subst hb
  rw [Bitmap.set_eq_mark (b := l.bitmap s.store.block r) hi]
  exact Ends.ok_bind (ends_writeBitmap false)

/-- A block that was to be handed out and was not may keep its bit, but only if a transfer of the
bitmap failed. -/
theorem ends_allocateBlock (hres : s.records.Reserves l) :
    Ends plan allocateBlock s
      (fun i s' => s.records.lowestFree .block l.blockCount = some i ∧
        s' = (s.mark .block i true).putBlock i .zero)
      (fun e s' => (s' = s ∧ s.records.lowestFree .block l.blockCount = none ∧ e = .noSpace) ∨
        s.HalfTaken plan e s') := by
  refine Ends.bind ((ends_allocate hm .block).weaken fun e s' h => ?_) fun i s' h => ?_
  · rcases h with hfull | ⟨hstrikes, rfl | ⟨i, hfree, rfl⟩⟩
    · exact .inl hfull
    · exact .inr ⟨.refl _, .inl hstrikes, .inl rfl⟩
    · have hlt : i < l.blockCount := (Records.lowestFree_eq_some_iff.mp hfree).2.1
      refine .inr ⟨⟨rfl, rfl, rfl⟩, .inl hstrikes, .inr ⟨i, true, s.records.block i, hfree, ?_,
        fun _ => hstrikes⟩⟩
      rw [s.records_mark (r := .block) hlt, Records.putBlock_mark_self]
  obtain ⟨hfree, rfl⟩ := h
  obtain ⟨-, hlt, hunused, -⟩ := Records.lowestFree_eq_some_iff.mp hfree
  have hge := hres.le_of_free hunused
  -- whatever came into the block, its bit goes, or a transfer of the bitmap fails
  have hrecords (used : Bool) (z : Block) :
      (((s.mark .block i true).putBlock i z).mark .block i used).records
        = (s.records.mark .block i used).putBlock i z := by
    rw [Scene.records_mark (r := .block) _ hlt, Scene.records_putBlock _ hge hlt,
      s.records_mark (r := .block) hlt]
    exact congrArg (Records.putBlock · i z) (Records.mark_mark true used)
  have hundo {e : Error} {s' : Scene l} (h : (s.mark .block i true).Torn plan i .zero e s') :
      Ends plan (deallocate .block i) s' (fun _ s'' => s.HalfTaken plan e s'')
        (fun e s'' => s.HalfTaken plan e s'') := by
    have hwrites := h.strikes
    obtain ⟨z, rfl⟩ := h.exists_putBlock hge hlt
    have hm' : ((s.mark .block i true).putBlock i z).mounted = true := hm
    refine (ends_deallocate (r := .block) hm' hlt).mono (fun _ s'' h => ?_) fun e' s'' h => ?_
    · subst h
      exact ⟨⟨rfl, rfl, rfl⟩, .inr ⟨i, hfree, hwrites⟩,
        .inr ⟨i, false, z, hfree, hrecords false z, fun h => nomatch h⟩⟩
    · obtain ⟨rfl | rfl, hstrikes⟩ := h
      · refine ⟨⟨rfl, rfl, rfl⟩, .inl hstrikes, .inr ⟨i, true, z, hfree, ?_, fun _ => hstrikes⟩⟩
        rw [Scene.records_putBlock _ hge hlt, s.records_mark (r := .block) hlt]
      · exact ⟨⟨rfl, rfl, rfl⟩, .inl hstrikes,
          .inr ⟨i, false, z, hfree, hrecords false z, fun _ => hstrikes⟩⟩
  have hm' : (s.mark .block i true).mounted = true := hm
  refine Ends.bind (Q := fun _ s' => s' = (s.mark .block i true).putBlock i .zero) ?_
    fun _ s' h => .pure ⟨hfree, h⟩
  refine ends_orUndo ((ends_writeBlock hm' hge hlt .zero).mono (fun _ s' h => h.1)
    fun _ _ h => h) fun e s' h => ?_
  exact (hundo h).mono (fun _ _ h => .inr h) fun _ _ h => .inr h

/-! ## Taking back -/

/-- Some of the blocks were taken back, from the first one on. -/
theorem ends_deallocate_all {is : List Nat} (h : ∀ i ∈ is, i < l.blockCount) :
    Ends plan (is.forM (deallocate .block)) s (fun _ s' => s' = s.freeBlocks is)
      (fun e s' => (∃ k, s' = s.freeBlocks (is.take k)) ∧
        plan.Strikes (Transfer.OfBitmap l .block) e) := by
  induction is generalizing s with
  | nil => exact .pure rfl
  | cons i rest ih =>
    have hi : i < l.blockCount := h i (List.mem_cons_self ..)
    refine Ends.bind ((ends_deallocate (r := .block) hm hi).weaken fun e s' h => ?_)
      fun _ s' h => ?_
    · obtain ⟨rfl | rfl, hstrikes⟩ := h
      · exact ⟨⟨0, rfl⟩, hstrikes⟩
      · exact ⟨⟨1, rfl⟩, hstrikes⟩
    subst h
    have hm' : (s.mark .block i false).mounted = true := hm
    refine (ih hm' fun j hj => h j (List.mem_cons_of_mem _ hj)).weaken fun e s' h => ?_
    obtain ⟨⟨k, rfl⟩, hstrikes⟩ := h
    exact ⟨⟨k + 1, rfl⟩, hstrikes⟩

/-- The blocks of an inode go first, one after another, and then the inode. -/
theorem ends_discardInode {x : Inode} (hi : i < l.inodeCount)
    (h : ∀ b ∈ x.blocks, b < l.blockCount) :
    Ends plan (discardInode i x) s
      (fun _ s' => s' = (s.freeBlocks x.blocks).mark .inode i false)
      (fun e s' => ((∃ k, s' = s.freeBlocks (x.blocks.take k)) ∨
          s' = (s.freeBlocks x.blocks).mark .inode i false) ∧
        ∃ r, plan.Strikes (Transfer.OfBitmap l r) e) := by
  refine Ends.bind ((ends_deallocate_all hm h).weaken fun e s' h => ?_) fun _ s' h => ?_
  · exact ⟨.inl h.1, _, h.2⟩
  subst h
  have hm' : (s.freeBlocks x.blocks).mounted = true := by rw [Scene.mounted_freeBlocks, hm]
  refine (ends_deallocate (r := .inode) hm' hi).weaken fun e s' h => ?_
  obtain ⟨rfl | rfl, hstrikes⟩ := h
  · exact ⟨.inl ⟨x.blocks.length, by rw [List.take_length]⟩, _, hstrikes⟩
  · exact ⟨.inr rfl, _, hstrikes⟩

end

end Volume

end BlockFS
