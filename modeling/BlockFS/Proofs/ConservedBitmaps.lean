import BlockFS.Proofs.FailedMaking
import BlockFS.Proofs.FencedVolumes

/-!
# Failed makings and the bitmaps

To make a file an inode is taken, its record is written, and a directory links it; for a directory
a block is taken and written as well.  Whichever step fails, everything that was taken so far is
given back, and it is given back once.  Hence a making that fails leaves both bitmaps as they were,
byte for byte, if only their own transfers succeed.  Along the steps nothing needs to be known of a
scene but what stands before its table of inodes.
-/

namespace BlockFS

open Volume

variable {l : Layout} {plan : FaultPlan} {s : Scene l} {bs bs' : Blocks} {r : Resource}
  {i b p : Nat} {is : List Nat} {x : Inode} {name : String}

/-- The plan lets all transfers of the bitmaps pass. -/
def FaultPlan.SparesBitmaps (plan : FaultPlan) (l : Layout) : Prop :=
  ∀ (r : Resource) (history : History) (t : Transfer), t.OfBitmap l r → plan history t = none

theorem FaultPlan.SparesBitmaps.not_strikes (h : plan.SparesBitmaps l) {e : Error} :
    ¬ plan.Strikes (Transfer.OfBitmap l r) e := by
  rintro ⟨t, history, cause, hkind, hplan, -⟩
  rw [h r history t hkind] at hplan
  cases hplan

theorem FaultPlan.refusing_sparesBitmaps {sectors : List Nat}
    (h : ∀ k ∈ sectors, ∀ r : Resource, k / 2 ≠ r.bitmapBlock l) :
    (refusing sectors).SparesBitmaps l := by
  intro r history t ht
  rw [Option.eq_none_iff_forall_ne_some]
  intro cause hplan
  obtain ⟨⟨k, hk, rfl⟩, -⟩ := refusing_eq_some_iff.mp hplan
  exact h k hk r ht.div_eq

/-! ## What is taken and given back -/

/-- An item that is there and free. -/
structure Layout.Vacant (l : Layout) (bs : Blocks) (r : Resource) (i : Nat) : Prop where
  lt : i < r.count l
  free : (l.bitmap bs r).get i = false

theorem Layout.Vacant.mark_mark (h : l.Vacant bs r i) :
    l.mark (l.mark bs r i true) r i false = bs :=
  l.mark_mark_of_free h.lt h.free

/-- An inode was taken, and then blocks, the last one first in the list. -/
inductive Layout.Taken (l : Layout) (bs : Blocks) (i : Nat) : List Nat → Blocks → Prop
  | inode (h : l.Vacant bs .inode i) : l.Taken bs i [] (l.mark bs .inode i true)
  | block {is : List Nat} {bs' : Blocks} {b : Nat} (h : l.Taken bs i is bs')
      (hb : l.Vacant bs' .block b) : l.Taken bs i (b :: is) (l.mark bs' .block b true)

theorem Layout.Taken.vacant (h : l.Taken bs i is bs') : l.Vacant bs .inode i := by
  induction h with
  | inode h => exact h
  | block _ _ ih => exact ih

/-- A mounted scene and what stands before its table of inodes. -/
structure Scene.Bears (s : Scene l) (bs : Blocks) : Prop where
  mounted : s.mounted = true
  lower : s.lower = bs

theorem Scene.Behind.bears {s' : Scene l} (h : s.Behind s') (hs : s.Bears bs) : s'.Bears bs :=
  ⟨h.mounted.trans hs.mounted, h.store.lower.trans hs.lower⟩

namespace Volume

theorem ends_writeBlock_bears (h : s.Bears bs) (hb : l.firstDataBlock ≤ b) (z : Block) :
    Ends plan (writeBlock b z) s (fun _ s' => s'.Bears bs) (fun _ s' => s'.Bears bs) :=
  (ends_writeBlock_behind h.mounted hb z).mono (fun _ _ hs => hs.bears h) fun _ _ hs => hs.bears h

theorem ends_writeInode_bears (h : s.Bears bs) (hi : i < l.inodeCount)
    (hx : x.LeadsTo l.IsData) :
    Ends plan (writeInode i x) s (fun _ s' => s'.Bears bs) (fun _ s' => s'.Bears bs) :=
  (ends_writeInode_behind h.mounted hi hx).mono (fun _ _ hs => hs.bears h) fun _ _ hs => hs.bears h

section

variable (hplan : plan.SparesBitmaps l)

include hplan

theorem ends_take (r : Resource) (h : s.Bears bs) :
    Ends plan (allocate r) s (fun i s' => l.Vacant bs r i ∧ s'.Bears (l.mark bs r i true))
      (fun _ s' => s'.Bears bs) := by
  refine (ends_allocate h.mounted r).mono (fun i s' hi => ?_) fun e s' he => ?_
  · obtain ⟨hfree, rfl⟩ := hi
    obtain ⟨-, hlt, hunused, -⟩ := Records.lowestFree_eq_some_iff.mp hfree
    refine ⟨⟨hlt, ?_⟩, h.mounted, ?_⟩
    · rw [← h.lower, s.get_lower, hunused]
    · rw [s.lower_mark, h.lower]
  · rcases he with ⟨rfl, -⟩ | ⟨hstrikes, -⟩
    · exact h
    · exact absurd hstrikes hplan.not_strikes

/-- What was taken is given back, and no trace of it is left. -/
theorem ends_giveBack (hi : l.Vacant bs r i) (h : s.Bears (l.mark bs r i true)) :
    Ends plan (deallocate r i) s (fun _ s' => s'.Bears bs) (fun _ _ => False) := by
  refine (ends_deallocate h.mounted hi.lt).mono (fun _ s' hs => ?_)
    fun _ _ he => hplan.not_strikes he.2
  subst hs
  exact ⟨h.mounted, by rw [s.lower_mark, h.lower, hi.mark_mark]⟩

/-- What follows the taking of an item, and gives it back if it fails. -/
theorem ends_orGiveBack {α : Type} {y : VolumeM α} {Q : α → Scene l → Prop}
    (hi : l.Vacant bs r i)
    (hy : Ends plan y s Q fun _ s' => s'.Bears (l.mark bs r i true)) :
    Ends plan (orUndo y (deallocate r i)) s Q fun _ s' => s'.Bears bs :=
  ends_orUndo hy fun _ _ hs => (ends_giveBack hplan hi hs).weaken fun _ _ h => h.elim

theorem ends_giveBack_all (ht : l.Taken bs i is bs') (h : s.Bears bs') :
    Ends plan (is.forM (deallocate .block)) s (fun _ s' => s'.Bears (l.mark bs .inode i true))
      (fun _ _ => False) := by
  induction ht generalizing s with
  | inode _ => exact .pure h
  | block _ hb ih => exact (ends_giveBack hplan hb h).bind fun _ _ hs => ih hs

/-- Discarding an inode gives back what was taken for it. -/
theorem ends_discardInode_taken (ht : l.Taken bs i x.blocks bs') (h : s.Bears bs') :
    Ends plan (discardInode i x) s (fun _ s' => s'.Bears bs) (fun _ _ => False) :=
  (ends_giveBack_all hplan ht h).bind fun _ _ hs => ends_giveBack hplan ht.vacant hs

theorem ends_allocateBlock_taken (h : s.Bears bs)
    (hres : ∀ b, b < l.firstDataBlock → (l.bitmap bs .block).get b = true) :
    Ends plan allocateBlock s
      (fun b s' => l.firstDataBlock ≤ b ∧ l.Vacant bs .block b ∧ s'.Bears (l.mark bs .block b true))
      (fun _ s' => s'.Bears bs) := by
  refine (ends_take hplan .block h).bind fun b s' hb => ?_
  obtain ⟨hvacant, hs'⟩ := hb
  have hge : l.firstDataBlock ≤ b := by
    by_contra hlt
    cases (hres b (Nat.lt_of_not_le hlt)).symm.trans hvacant.free
  refine (ends_orGiveBack hplan hvacant (ends_writeBlock_bears hs' hge .zero)).bind
    fun _ s'' hs'' => ?_
  exact .pure ⟨hge, hvacant, hs''⟩

end

end Volume

/-! ## Making and linking -/

/-- Whatever is written of a new directory, it is written behind the bitmaps. -/
theorem Directory.ends_fill_bears (h : s.Bears bs) (hb : l.firstDataBlock ≤ b)
    (hi : i < l.inodeCount) (hx : x.LeadsTo l.IsData) (p : Nat) :
    Ends plan (do
        let table ← liftExcept (firstTable i p)
        writeBlock b table.toBlock
        writeInode i x
        return table) s (fun _ s' => s'.Bears bs) (fun _ s' => s'.Bears bs) := by
  cases firstTable i p with
  | error e => exact Ends.error_bind h
  | ok t =>
    refine Ends.ok_bind ((ends_writeBlock_bears h hb _).bind fun _ s' hs' => ?_)
    exact (ends_writeInode_bears hs' hi hx).bind fun _ _ hs'' => .pure hs''

section

variable (hplan : plan.SparesBitmaps l)

include hplan

theorem File.ends_make_taken (h : s.Bears bs) :
    Ends plan File.make s
      (fun f s' => ∃ bs', l.Taken bs f.index f.record.blocks bs' ∧ s'.Bears bs')
      (fun _ s' => s'.Bears bs) := by
  refine (ends_take hplan .inode h).bind fun i s' hi => Ends.get_bind fun history => ?_
  obtain ⟨hvacant, hs'⟩ := hi
  have htaken : l.Taken bs i (Inode.new .file s'.clock).blocks (l.mark bs .inode i true) := by
    rw [Inode.blocks_new]
    exact .inode hvacant
  refine (ends_orGiveBack hplan hvacant (ends_writeInode_bears hs' hvacant.lt
    (Inode.leadsTo_new _ _))).bind fun _ s'' hs'' => ?_
  exact .pure ⟨_, htaken, hs''⟩

theorem Directory.ends_make_taken (h : s.Bears bs)
    (hres : ∀ b, b < l.firstDataBlock → (l.bitmap bs .block).get b = true) (p : Nat) :
    Ends plan (Directory.make p) s
      (fun d s' => ∃ bs', l.Taken bs d.index d.record.blocks bs' ∧ s'.Bears bs')
      (fun _ s' => s'.Bears bs) := by
  refine (ends_take hplan .inode h).bind fun i s' hi => ?_
  obtain ⟨hvacant, hs'⟩ := hi
  have hres' (b : Nat) (hb : b < l.firstDataBlock) :
      (l.bitmap (l.mark bs .inode i true) .block).get b = true := by
    rw [l.get_bitmap_mark bs (r := .inode) hvacant.lt, if_neg fun he => Resource.noConfusion he.1]
    exact hres b hb
  refine (ends_orGiveBack hplan hvacant (ends_allocateBlock_taken hplan hs' hres')).bind
    fun b s'' hb => Ends.get_bind fun history => ?_
  obtain ⟨hge, hvacant', hs''⟩ := hb
  have hpos := l.tableStart_lt_firstDataBlock
  have hzero : b ≠ 0 := by omega
  have hsmall : b < UInt16.size := l.small_of_lt (r := .block) hvacant'.lt
  have hrecord : (firstRecord s''.clock b).LeadsTo l.IsData :=
    leadsTo_firstRecord _ ⟨hge, hvacant'.lt⟩ hzero hsmall
  have htaken : l.Taken bs i (firstRecord s''.clock b).blocks
      (l.mark (l.mark bs .inode i true) .block b true) := by
    rw [blocks_firstRecord _ hzero hsmall]
    exact (Layout.Taken.inode hvacant).block hvacant'
  refine (ends_orUndo (ends_fill_bears hs'' hge hvacant.lt hrecord p) fun e t ht => ?_).bind
    fun _ t ht => .pure ⟨_, htaken, ht⟩
  exact ((ends_giveBack hplan hvacant' ht).bind fun _ _ h =>
    ends_giveBack hplan hvacant h).weaken fun _ _ h => h.elim

/-- What could not be linked is discarded, and with it goes all that was taken for it. -/
theorem Directory.ends_link_orDiscard {d : Directory} (hd : l.firstDataBlock ≤ d.block)
    (ht : l.Taken bs i x.blocks bs') (h : s.Bears bs') (name : String) :
    Ends plan (orUndo (ViewM.through d (link name i)) (discardInode i x)) s (fun _ _ => True)
      (fun _ s' => s'.Bears bs) := by
  have hlink : Ends plan (ViewM.through d (link name i)) s (fun _ _ => True)
      (fun _ s' => s'.Bears bs') := by
    refine ViewM.ends_through (ViewM.current_bind ?_)
    cases d.table.link name i with
    | error e => exact Ends.error_bind h
    | ok t =>
      refine Ends.ok_bind (ViewM.change_bind (ViewM.current_bind ?_))
      exact (ViewM.ends_onVolume (ends_writeBlock_bears h hd _)).mono (fun _ _ _ => trivial)
        fun _ _ hs => hs.2
  exact ends_orUndo hlink fun e s' hs =>
    (ends_discardInode_taken hplan ht hs).weaken fun _ _ h => h.elim

end

namespace Volume

variable (hs : s.records.Fenced l)

include hs

/-- Until the directory is open in which something is made, nothing is written. -/
theorem ends_openFirst_keeping {f : Directory → VolumeM Nat}
    (hf : ∀ d, s.mounted = true → l.firstDataBlock ≤ d.block →
      Ends plan (f d) s (fun _ _ => True) fun _ s' => s'.lower = s.lower) :
    Ends plan (do
        let _ ← liftExcept (StoredName.encode name)
        let d ← Directory.ofInode p
        f d) s (fun _ _ => True) fun _ s' => s'.lower = s.lower := by
  cases StoredName.encode name with
  | error e => exact Ends.error_bind rfl
  | ok n =>
    refine Ends.ok_bind ?_
    by_cases hm : s.mounted = true
    · refine (Directory.views_ofInode_opens hm hs.pointsToData p).bind_ends (fun _ _ => rfl)
        fun d hd => ?_
      obtain ⟨hopens, rfl⟩ := hd
      exact hf _ hm hopens.ge
    · exact (Directory.views_ofInode_unmounted (Bool.eq_false_iff.mpr hm) p).bind_ends
        (fun _ _ => rfl) fun _ h => h.elim

variable (hplan : plan.SparesBitmaps l)

include hplan

theorem ends_makeFile_keeping (p : Nat) (name : String) :
    Ends plan (makeFile p name) s (fun _ _ => True) fun _ s' => s'.lower = s.lower := by
  refine ends_openFirst_keeping hs fun d hm hd => ?_
  split
  · exact .pure trivial
  · have hmake := File.ends_make_taken hplan (s := s) ⟨hm, rfl⟩
    refine (hmake.weaken fun _ _ h => h.lower).bind fun f s' hf => ?_
    obtain ⟨bs', htaken, hs'⟩ := hf
    exact ((Directory.ends_link_orDiscard hplan hd htaken hs' name).weaken
      fun _ _ h => h.lower).bind fun _ _ _ => .pure trivial

theorem ends_makeDirectory_keeping (p : Nat) (name : String) :
    Ends plan (makeDirectory p name) s (fun _ _ => True) fun _ s' => s'.lower = s.lower := by
  have hres (b : Nat) (hb : b < l.firstDataBlock) : (l.bitmap s.lower .block).get b = true := by
    rw [s.get_lower]
    exact hs.reserves b hb
  refine ends_openFirst_keeping hs fun d hm hd => ?_
  split
  · exact Ends.throw_bind rfl
  · have hmake := Directory.ends_make_taken hplan (s := s) ⟨hm, rfl⟩ hres p
    refine (hmake.weaken fun _ _ h => h.lower).bind fun child s' hchild => ?_
    obtain ⟨bs', htaken, hs'⟩ := hchild
    exact ((Directory.ends_link_orDiscard hplan hd htaken hs' name).weaken
      fun _ _ h => h.lower).bind fun _ _ _ => .pure trivial

end Volume

/-- Making a file or a directory fails on a volume that any calls and failures led to, while the
transfers of the bitmaps succeed.  Then both bitmaps are what they were, byte for byte. -/
theorem ReachedFailing.failed_making_keeps_bitmaps {g : Geometry} {v : Service}
    (h : ReachedFailing g v) (hl : Layout.ofGeometry g = .ok l) (hplan : plan.SparesBitmaps l)
    (p : Nat) (name : String) {y : VolumeM Nat}
    (hy : y = makeFile p name ∨ y = makeDirectory p name) {e : Error} {v' : Volume}
    (herror : y (v.volume.withFaults plan) = .error e v') (r : Resource) :
    v'.device.disk.block (r.bitmapBlock l) = v.volume.device.disk.block (r.bitmapBlock l) := by
  obtain ⟨s, plan', history, hvolume, hs, hfaults⟩ := h.exists_scene hl
  have hends : Ends plan y s (fun _ _ => True) fun _ s' => s'.lower = s.lower := by
    rcases hy with rfl | rfl
    · exact ends_makeFile_keeping hs hplan p name
    · exact ends_makeDirectory_keeping hs hplan p name
  rw [hfaults] at herror
  obtain ⟨s', history', rfl, hlower⟩ := hends.of_error herror
  have hblock := congrFun hlower (r.bitmapBlock l)
  have hlt := l.bitmapBlock_lt_tableStart r
  simp only [Scene.lower, Layout.lower, if_pos hlt] at hblock
  rw [hvolume]
  exact hblock

/-- The name of a first file lands in the root of a new floppy disk, and the second half of the
table is refused. -/
theorem ReachedFailing.failed_making_keeps_bitmaps_floppy :
    ∃ e v', ReachedFailing .floppy Service.floppy ∧ Layout.ofGeometry .floppy = .ok .floppy ∧
      (FaultPlan.refusing [25]).SparesBitmaps .floppy ∧
      makeFile rootInode "a" (Service.floppy.volume.withFaults (.refusing [25])) = .error e v' ∧
      ∀ r : Resource, v'.device.disk.block (r.bitmapBlock .floppy)
        = Service.floppy.volume.device.disk.block (r.bitmapBlock .floppy) := by
  obtain ⟨s, history, hfloppy, hnew⟩ := Service.floppy_eq
  obtain ⟨e, s', history', slot, herror, -, -⟩ := hnew.makeFile_refused
  have hvolume : Service.floppy.volume = Settled.state s history := by rw [hfloppy]; rfl
  rw [← s.withFaults_eq history, ← hvolume] at herror
  have hplan : (FaultPlan.refusing [25]).SparesBitmaps .floppy := by
    refine FaultPlan.refusing_sparesBitmaps fun k hk r => ?_
    rw [List.mem_singleton] at hk
    subst hk
    cases r with
    | inode => decide
    | block => decide
  exact ⟨e, _, reached_floppy.reachedFailing, Layout.ofGeometry_floppy, hplan, herror,
    reached_floppy.reachedFailing.failed_making_keeps_bitmaps Layout.ofGeometry_floppy hplan
      rootInode "a" (.inl rfl) herror⟩

end BlockFS
