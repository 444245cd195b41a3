import BlockFS.Proofs.Faults.Calls
import BlockFS.Proofs.MetadataBlocks

/-!
# Volumes on which calls failed

Failures leave traces.  Two files may share a block afterwards, a directory may link an inode that
is free, and an inode may stay in use that nothing links.  But a bit of a bitmap and a pointer of an
inode are written whole or not at all.  Hence the blocks before the data stay in use and no pointer
leads out of the data, whatever fails and however often: the volume is fenced.  The records of free
inodes count as well, since an inode comes into use before its record is written anew.
-/

namespace BlockFS

open Volume

variable {l : Layout} {plan : FaultPlan}

/-- The blocks before the data are in use, and the records, in use or not, point to blocks of the data
only. -/
structure Records.Fenced (l : Layout) (c : Records) : Prop where
  reserves : c.Reserves l
  leads : ∀ i, (c.inode i).LeadsTo l.IsData

/-- Each pointer of a record that was written in part is a pointer of one of the two records. -/
theorem Inode.LeadsTo.mixed {Safe : Nat → Prop} {x y : Inode} {cut : Nat} (hcut : cut % 2 = 0)
    (hx : x.LeadsTo Safe) (hy : y.LeadsTo Safe) : (Inode.mixed cut x y).LeadsTo Safe := by
  intro b hb
  obtain ⟨k, hk⟩ := Inode.mem_blocks_iff.mp hb
  rcases Inode.block?_mixed (x := x) (y := y) hcut k with hsame | hsame
  · exact hx b (Inode.mem_blocks_iff.mpr ⟨k, hsame.symm.trans hk⟩)
  · exact hy b (Inode.mem_blocks_iff.mpr ⟨k, hsame.symm.trans hk⟩)

namespace Records.Fenced

variable {c : Records} {r : Resource} {i : Nat} {x : Inode} (h : c.Fenced l)

include h

theorem mark {used : Bool} (hi : r = .block → used = false → l.firstDataBlock ≤ i) :
    (c.mark r i used).Fenced l where
  reserves b hb := by
    rw [used_mark]
    split
    · next hitem =>
      cases used with
      | true => rfl
      | false =>
        have hge := hi hitem.1.symm rfl
        omega
    · exact h.reserves b hb
  leads := h.leads

theorem putInode (i : Nat) (hx : x.LeadsTo l.IsData) : (c.putInode i x).Fenced l where
  reserves := h.reserves
  leads j := by
    rw [inode_putInode]
    split
    · exact hx
    · exact h.leads j

theorem putBlock (b : Nat) (z : Block) : (c.putBlock b z).Fenced l := ⟨h.reserves, h.leads⟩

theorem pointsToData : c.PointsToData l := fun i k b ho =>
  h.leads i b (Inode.mem_blocks_iff.mpr ⟨k, ho.points⟩)

end Records.Fenced

/-! ## Steps on a fenced volume -/

/-- Stores that differ behind the bitmaps only, of which the second is fenced if the first one
is. -/
structure Store.Behind (st st' : Store l) : Prop where
  lower : l.lower st'.block = l.lower st.block
  fenced : st.records.Fenced l → st'.records.Fenced l

namespace Store

variable {st : Store l} {i : Nat} {x : Inode}

theorem lower_putBlock (hi : l.tableStart ≤ i) (z : Block) :
    l.lower (st.putBlock i z).block = l.lower st.block := by
  rw [st.block_putBlock z (Nat.lt_of_lt_of_le l.superblock_lt_tableStart hi)]
  exact l.lower_update hi

theorem Torn.lower_eq {z : Block} {e : Error} {st' : Store l} (h : Torn plan st i z e st')
    (hi : l.tableStart ≤ i) : l.lower st'.block = l.lower st.block := by
  rcases h with ⟨rfl, -⟩ | ⟨rfl, -⟩
  · rfl
  · exact lower_putBlock hi _

/-- Writing a record writes nothing before the table, however far it comes. -/
theorem ends_writeInode_lower (hi : i < l.inodeCount) (x : Inode) :
    Ends plan (l.writeInode i x) st (fun _ st' => l.lower st'.block = l.lower st.block)
      (fun _ st' => l.lower st'.block = l.lower st.block) := by
  have hfirst : l.inodeBlock i < l.firstDataBlock := l.inodeBlock_lt hi
  have hdata := l.firstDataBlock_lt_blockCount
  have hge := l.tableStart_le_inodeBlock i
  have hsuper := l.superblock_lt_tableStart
  have hwrite (st : Store l) {b : Nat} (hge : l.tableStart ≤ b) (hlt : b < l.blockCount)
      (z : Block) : Ends plan (l.writeBlock b z) st
        (fun _ st' => l.lower st'.block = l.lower st.block)
        (fun _ st' => l.lower st'.block = l.lower st.block) := by
    refine (ends_writeBlock hlt (by omega) z).mono (fun _ st' h => ?_) fun _ _ h => h.lower_eq hge
    rw [h.1]
    exact lower_putBlock hge z
  unfold Layout.writeInode
  rw [l.inodePlace_eq hi, ← Layout.inodeBlock]
  refine Ends.ok_bind ((views_readBlock (by omega)).bind_ends (fun _ _ => rfl) fun first _ => ?_)
  refine (hwrite st hge (by omega) _).bind fun _ st' h => ?_
  dsimp only
  split
  · exact .pure h
  · refine (views_readBlock (by omega)).bind_ends (fun _ _ => h) fun next _ => ?_
    exact (hwrite st' (by omega) (by omega) _).mono (fun _ _ h' => h'.trans h)
      fun _ _ h' => h'.trans h

/-- Writing a record behind the fence keeps the fence, however far it comes. -/
theorem ends_writeInode_behind (hi : i < l.inodeCount) (hx : x.LeadsTo l.IsData) :
    Ends plan (l.writeInode i x) st (fun _ st' => st.Behind st') (fun _ st' => st.Behind st') := by
  have hsame {st₁ st₂ : Store l} {h₁ h₂ : History}
      (h : Exposed.under plan st₁ h₁ = Exposed.under plan st₂ h₂) : st₁ = st₂ := by
    injection h with hdisk
    exact eq_of_disk_eq hdisk
  refine (Ends.and hsame (ends_writeInode hi x) (ends_writeInode_lower hi x)).mono
    (fun _ st' h => ⟨h.2, fun hfenced => ?_⟩) fun _ st' h => ⟨h.2, fun hfenced => ?_⟩
  · rw [h.1.1, st.records_putInode hi]
    exact hfenced.putInode i hx
  · obtain ⟨-, cut, hcut, -, hrecords⟩ := h.1
    rw [hrecords]
    exact hfenced.putInode i (.mixed hcut hx (hfenced.leads i))

end Store

/-- Scenes that differ behind the bitmaps only, of which the second is fenced if the first one
is. -/
structure Scene.Behind (s s' : Scene l) : Prop extends Framed s s' where
  store : s.store.Behind s'.store

namespace Volume

variable {s : Scene l} {r : Resource} {i b : Nat} {x : Inode}

/-- A volume on its store is mounted, or it is not mounted any more. -/
theorem ends_mount :
    Ends plan mount s (fun _ s' => s' = { s with mounted := true, cwd := rootInode })
      (fun _ s' => s' = { s with mounted := false }) := by
  have hsuper : superblockBlock < l.blockCount :=
    Nat.lt_trans (l.superblock_lt_bitmapBlock .inode) (l.bitmapBlock_lt_blockCount .inode)
  have hcheck : Layout.check (.ofBlock (s.store.disk.block superblockBlock)) = .ok l := by
    rw [s.store.signed, Layout.check, dif_pos l.valid]
  have hread : Views plan Device.readLayout s.store (· = l) fun _ => True := by
    have hblock : Views plan (Device.readBlock superblockBlock) s.store
        (· = s.store.disk.block superblockBlock) fun _ => True := by
      intro history
      have hdevice : Views plan _ _ _ _ := views_device_readBlock (s.store.lt_size hsuper)
      rcases hdevice history with ⟨z, d, h', hx, rfl, hz⟩ | ⟨e, d, h', hx, rfl, -⟩
      · exact .inl ⟨z, s.store, h', hx, rfl, hz⟩
      · exact .inr ⟨e, s.store, h', hx, rfl, trivial⟩
    refine hblock.bind fun z hz => ?_
    rw [hz, hcheck]
    exact .pure rfl
  refine Ends.bind (Q := fun _ s' => s' = { s with mounted := false })
    (.modify (fun h => ⟨h, rfl⟩) rfl) fun _ s' h => ?_
  subst h
  have hread : Views plan (onDevice Device.readLayout) { s with mounted := false } (· = l)
      fun _ => True := views_onDevice hread
  refine hread.bind_ends (fun _ _ => rfl) fun layout hlayout => ?_
  subst hlayout
  refine Ends.bind (Q := fun _ s' => s' = { s with mounted := true })
    (.modify (fun h => ⟨h, rfl⟩) rfl) fun _ s' h => ?_
  subst h
  exact .modify (fun h => ⟨h, rfl⟩) rfl

section

variable (hm : s.mounted = true)

include hm

/-- Reading changes nothing, also where there is no such block. -/
theorem views_readAnyBlock (b : Nat) :
    Views plan (readBlock b) s (fun _ => True) fun _ => True := by
  have hread : Views plan (l.readBlock b) s.store (fun _ => True) fun _ => True := by
    rcases Nat.lt_or_ge b l.blockCount with hlt | hge
    · exact Ends.mono (Store.views_readBlock hlt) (fun _ _ h => ⟨h.1, trivial⟩)
        fun _ _ h => ⟨h.1, trivial⟩
    · rw [Layout.readBlock, if_neg (Nat.not_lt_of_le hge)]
      exact .throw trivial
  exact getLayout_bind hm (views_onDevice hread)

theorem ends_writeBlock_behind (hb : l.firstDataBlock ≤ b) (z : Block) :
    Ends plan (writeBlock b z) s (fun _ s' => s.Behind s') (fun _ s' => s.Behind s') := by
  have hstart : l.tableStart ≤ b := Nat.le_trans (Nat.le_of_lt l.tableStart_lt_firstDataBlock) hb
  rcases Nat.lt_or_ge b l.blockCount with hlt | hge
  · have hbehind (z : Block) : s.Behind (s.putBlock b z) := by
      refine ⟨⟨rfl, rfl, rfl⟩, Store.lower_putBlock hstart z, fun h => ?_⟩
      change (s.putBlock b z).records.Fenced l
      rw [s.records_putBlock hb hlt]
      exact h.putBlock b z
    refine (ends_writeBlock hm hb hlt z).mono (fun _ s' h => ?_) fun _ s' h => ?_
    · rw [h.1]
      exact hbehind z
    · obtain ⟨z', rfl⟩ := h.exists_putBlock hb hlt
      exact hbehind z'
  · have hrefuse : Views plan (l.writeBlock b z) s.store (fun _ => False) fun _ => True := by
      rw [Layout.writeBlock, if_neg (Nat.not_lt_of_le hge)]
      exact .throw trivial
    refine getLayout_bind hm ((views_onDevice hrefuse).mono (fun _ _ h => h.2.elim)
      fun _ s' h => ?_)
    obtain ⟨rfl, -⟩ := h
    exact ⟨.refl s', rfl, id⟩

theorem ends_writeInode_behind (hi : i < l.inodeCount) (hx : x.LeadsTo l.IsData) :
    Ends plan (writeInode i x) s (fun _ s' => s.Behind s') (fun _ s' => s.Behind s') := by
  refine getLayout_bind hm ((ends_onDevice (Store.ends_writeInode_behind hi hx)).mono ?_ ?_)
  · rintro _ _ ⟨st, rfl, h⟩
    exact ⟨⟨rfl, rfl, rfl⟩, h⟩
  · rintro _ _ ⟨st, rfl, h⟩
    exact ⟨⟨rfl, rfl, rfl⟩, h⟩

end

end Volume

/-! ## What every call keeps -/

/-- A volume of a layout that is fenced, on a device whose transfers may fail. -/
def Layout.Fences (l : Layout) (v : Volume) : Prop :=
  ∃ (s : Scene l) (plan : FaultPlan) (history : History),
    v = Exposed.under plan s history ∧ s.records.Fenced l

section

variable {α : Type} {x : VolumeM α} {Q : α → Prop}

theorem yields_fences
    (hx : ∀ (plan : FaultPlan) (s : Scene l), s.records.Fenced l → Ends plan x s
      (fun a s' => s'.records.Fenced l ∧ Q a) fun _ s' => s'.records.Fenced l) :
    Yields l.Fences x Q := by
  rintro v ⟨s, plan, history, rfl, hs⟩
  rcases hx plan s hs history with ⟨a, s', history', hx, hs', hq⟩ | ⟨e, s', history', hx, hs'⟩
  · exact .inl ⟨a, _, hx, ⟨s', plan, history', rfl, hs'⟩, hq⟩
  · exact .inr ⟨e, _, hx, s', plan, history', rfl, hs'⟩

/-- An action that fails on a volume that is not mounted need only be looked at on a mounted one. -/
theorem yields_fences_mounted
    (hun : ∀ (plan : FaultPlan) (s : Scene l), s.mounted = false →
      Views plan x s (fun _ => False) (· = .notMounted))
    (hx : ∀ (plan : FaultPlan) (s : Scene l), s.mounted = true → s.records.Fenced l →
      Ends plan x s (fun a s' => s'.records.Fenced l ∧ Q a) fun _ s' => s'.records.Fenced l) :
    Yields l.Fences x Q := by
  refine yields_fences fun plan s hs => ?_
  by_cases hm : s.mounted = true
  · exact hx plan s hm hs
  · refine Ends.mono (hun plan s (Bool.eq_false_iff.mpr hm)) (fun _ _ h => h.2.elim)
      fun _ _ h => ?_
    rw [h.1]
    exact hs

end

namespace Volume

theorem keeps_fences_modify {f : Volume → Volume} (hf : ∀ (plan : FaultPlan) (s : Scene l)
    (h : History), ∃ s' : Scene l, f (Exposed.under plan s h) = Exposed.under plan s' h ∧
      s'.store = s.store) : Keeps l.Fences (modify f : VolumeM Unit) := by
  refine Keeps.modify fun v hv => ?_
  obtain ⟨s, plan, history, rfl, hs⟩ := hv
  obtain ⟨s', hf, hstore⟩ := hf plan s history
  rw [hf]
  refine ⟨s', plan, history, rfl, ?_⟩
  rw [Scene.records, hstore]
  exact hs

theorem keeps_fences_readBitmap (r : Resource) : Keeps l.Fences (readBitmap r) :=
  yields_fences_mounted (fun _ _ hm => getLayout_bind_unmounted hm) fun _ _ hm hs =>
    Ends.mono (views_readBitmap hm r) (fun _ _ h => ⟨h.1 ▸ hs, trivial⟩) fun _ _ h => h.1 ▸ hs

theorem keeps_fences_readBlock (b : Nat) : Keeps l.Fences (readBlock b) :=
  yields_fences_mounted (fun _ _ hm => getLayout_bind_unmounted hm) fun _ _ hm hs =>
    Ends.mono (views_readAnyBlock hm b) (fun _ _ h => ⟨h.1 ▸ hs, trivial⟩) fun _ _ h => h.1 ▸ hs

theorem yields_fences_readInode (i : Nat) :
    Yields l.Fences (readInode i) fun x => x.LeadsTo l.IsData := by
  refine yields_fences_mounted (fun _ _ hm => views_readInode_unmounted hm i) fun _ s hm hs => ?_
  refine Ends.mono (views_readInode hm i) (fun x _ h => ?_) fun _ _ h => h.1 ▸ hs
  obtain ⟨rfl, -, rfl⟩ := h
  exact ⟨hs, hs.leads i⟩

theorem keeps_fences_writeBlock (b : Nat) (z : Block) (hb : l.firstDataBlock ≤ b) :
    Keeps l.Fences (writeBlock b z) :=
  yields_fences_mounted (fun _ _ hm => getLayout_bind_unmounted hm) fun _ _ hm hs =>
    (ends_writeBlock_behind hm hb z).mono (fun _ _ h => ⟨h.store.fenced hs, trivial⟩)
      fun _ _ h => h.store.fenced hs

theorem keeps_fences_writeInode (i : Nat) (x : Inode) (hx : x.LeadsTo l.IsData) :
    Keeps l.Fences (writeInode i x) := by
  refine yields_fences_mounted (fun _ _ hm => getLayout_bind_unmounted hm) fun plan s hm hs => ?_
  rcases Nat.lt_or_ge i l.inodeCount with hi | hi
  · exact (ends_writeInode_behind hm hi hx).mono (fun _ _ h => ⟨h.store.fenced hs, trivial⟩)
      fun _ _ h => h.store.fenced hs
  · have hrefuse : Views plan (l.writeInode i x) s.store (fun _ => False) fun _ => True := by
      unfold Layout.writeInode
      rw [Layout.inodePlace_of_le hi]
      exact Ends.error_bind ⟨rfl, trivial⟩
    exact getLayout_bind hm ((views_onDevice hrefuse).mono (fun _ _ h => h.2.elim)
      fun _ _ h => h.1 ▸ hs)

theorem keeps_fences_deallocate (r : Resource) (i : Nat)
    (hsafe : r = .block → l.firstDataBlock ≤ i) : Keeps l.Fences (deallocate r i) := by
  refine yields_fences_mounted (fun _ _ hm => getLayout_bind_unmounted hm) fun plan s hm hs => ?_
  rcases Nat.lt_or_ge i (r.count l) with hi | hi
  · have hmark : (s.mark r i false).records.Fenced l := by
      rw [s.records_mark hi]
      exact hs.mark fun hr _ => hsafe hr
    refine (ends_deallocate hm hi).mono (fun _ _ h => h ▸ ⟨hmark, trivial⟩) fun _ _ h => ?_
    rcases h.1 with rfl | rfl
    · exact hs
    · exact hmark
  · refine getLayout_bind hm ((views_onDevice Store.views_readBitmap).bind_ends
      (fun _ _ => hs) fun z hz => ?_)
    subst hz
    have hset : (l.bitmap s.store.block r).set i false = .error .notFound :=
      if_neg (Nat.not_lt_of_le hi)
    rw [hset]
    exact Ends.error_bind hs

theorem yields_fences_allocate (r : Resource) : Yields l.Fences (allocate r) fun i =>
    (r = .block → l.IsData i) ∧ i ≠ 0 ∧ i < UInt16.size := by
  refine yields_fences_mounted (fun _ _ hm => getLayout_bind_unmounted hm) fun plan s hm hs => ?_
  have hmark {i : Nat} (hfree : s.records.lowestFree r (r.count l) = some i) :
      (s.mark r i true).records.Fenced l := by
    rw [s.records_mark (Records.lowestFree_eq_some_iff.mp hfree).2.1]
    exact hs.mark fun _ h => Bool.noConfusion h
  refine (ends_allocate hm r).mono (fun i _ h => ?_) fun _ _ h => ?_
  · obtain ⟨hfree, rfl⟩ := h
    obtain ⟨hpos, hlt, hunused, -⟩ := Records.lowestFree_eq_some_iff.mp hfree
    refine ⟨hmark hfree, fun hr => ?_, by omega, l.small_of_lt hlt⟩
    subst hr
    exact ⟨hs.reserves.le_of_free hunused, hlt⟩
  · rcases h with ⟨rfl, -⟩ | ⟨-, rfl | ⟨i, hfree, rfl⟩⟩
    · exact hs
    · exact hs
    · exact hmark hfree

end Volume

/-- Every call keeps the fence, whichever transfers fail. -/
theorem Layout.warden_fences (l : Layout) : Warden l.Fences l.IsData where
  unmounted := by
    rintro v ⟨s, plan, history, rfl, hs⟩
    exact ⟨{ s with mounted := false, cwd := rootInode }, plan, history, rfl, hs⟩
  wait := by
    rintro v clock ⟨s, plan, history, rfl, hs⟩
    exact ⟨{ s with clock := clock }, plan, history, rfl, hs⟩
  mount := yields_fences fun _ _ hs => ends_mount.mono (fun _ _ h => h ▸ ⟨hs, trivial⟩)
    fun _ _ h => h ▸ hs
  unmount := keeps_fences_modify fun _ s _ => ⟨{ s with mounted := false }, rfl, rfl⟩
  setCwd i := keeps_fences_modify fun _ s _ => ⟨{ s with cwd := i }, rfl, rfl⟩
  readBitmap := keeps_fences_readBitmap
  readBlock := keeps_fences_readBlock
  readInode := yields_fences_readInode
  writeBlock b z hb := keeps_fences_writeBlock b z hb.1
  writeInode := keeps_fences_writeInode
  deallocate r i hi := keeps_fences_deallocate r i fun hr => (hi hr).1
  allocate := yields_fences_allocate

/-! ## What is reached -/

/-- The services that calls lead to from a new volume of a shape.  The volume is made on a device
that fails no transfer, and at any time afterwards the device may begin to follow another plan. -/
inductive ReachedFailing (g : Geometry) : Service → Prop where
  | new {d : Disk} {clock : Int} {v : Volume}
      (h : format g (unmounted (.reliable d) clock) = .ok () v) : ReachedFailing g (.new v)
  | faults {s : Service} (plan : FaultPlan) (h : ReachedFailing g s) :
      ReachedFailing g { s with volume := s.volume.withFaults plan }
  | call {s : Service} (c : Call) (h : ReachedFailing g s) : ReachedFailing g (c.after s)

theorem Reached.reachedFailing {g : Geometry} {v : Service} {logs : Logs} (h : Reached g v logs) :
    ReachedFailing g v := by
  induction h with
  | new h => exact .new h
  | call c _ ih => exact .call c ih

theorem Layout.Blank.fenced {st : Store l} (h : l.Blank st.block) : st.records.Fenced l where
  reserves b hb := by
    rw [Store.used_records, h.blocks]
    exact decide_eq_true hb
  leads i := by
    change (if i < l.inodeCount then l.inode st.block i else .new .free 0 : Inode).LeadsTo _
    split
    · next hi =>
      have hnone : (Inode.decode (Vector.ofFn fun _ => 0)).blocks = [] := by decide +kernel
      rw [l.inode_of_zero hi h.table, Inode.LeadsTo, hnone]
      exact fun b hb => absurd hb List.not_mem_nil
    · exact Inode.leadsTo_new _ _

theorem Scene.fenced_addRoot {s : Scene l} (h : s.records.Fenced l) :
    s.addRoot.records.Fenced l := by
  have hlt := l.firstDataBlock_lt_blockCount
  have hpos := l.tableStart_lt_firstDataBlock
  rw [addRoot, s.records_addDirectory l.rootInode_lt_inodeCount (Nat.le_refl _) hlt]
  refine (((h.mark fun _ h => Bool.noConfusion h).putBlock _ _).mark
    fun _ h => Bool.noConfusion h).putInode _ ?_
  exact Directory.leadsTo_firstRecord s.clock ⟨Nat.le_refl _, hlt⟩ (by omega)
    (l.small_of_lt (r := .block) hlt)

/-- Whatever calls and failures lead to a volume, it is fenced. -/
theorem ReachedFailing.fences {g : Geometry} {v : Service} (h : ReachedFailing g v)
    (hl : Layout.ofGeometry g = .ok l) : l.Fences v.volume := by
  induction h with
  | @new d clock _ h =>
    obtain ⟨bs, hformat⟩ := format_addRoot hl
    obtain ⟨st, history, hmade, -, hblank⟩ := hformat d ⟨0, 0⟩ clock
    have hvolume := h.symm.trans hmade
    injection hvolume with _ hvolume
    subst hvolume
    exact ⟨_, .never, history, rfl, Scene.fenced_addRoot hblank.fenced⟩
  | faults plan _ ih =>
    obtain ⟨s, plan', history, hvolume, hs⟩ := ih
    exact ⟨s, plan, ⟨0, 0⟩, by rw [hvolume]; rfl, hs⟩
  | call c _ ih => exact l.warden_fences.caretaker.call c ih

/-- A volume that calls and failures led to is a fenced scene, whatever its device does from then
on. -/
theorem ReachedFailing.exists_scene {g : Geometry} {v : Service} (h : ReachedFailing g v)
    (hl : Layout.ofGeometry g = .ok l) :
    ∃ (s : Scene l) (plan : FaultPlan) (history : History),
      v.volume = Exposed.under plan s history ∧ s.records.Fenced l ∧
        ∀ plan, v.volume.withFaults plan = Exposed.under plan s ⟨0, 0⟩ := by
  obtain ⟨s, plan, history, hvolume, hs⟩ := h.fences hl
  refine ⟨s, plan, history, hvolume, hs, fun plan => ?_⟩
  rw [hvolume]
  rfl

end BlockFS
