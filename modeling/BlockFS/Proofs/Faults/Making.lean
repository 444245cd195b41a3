import BlockFS.Proofs.Faults.Views
import BlockFS.Proofs.Scene.Steps

/-!
# Making files and directories where transfers may fail

Whatever fails while a file or a directory is made, and while that is undone, what was in use before
stays in use and holds what it held.  The one exception is the directory that was to link it: if only
the first half of its table was written, and the slot lies in it, the new name has landed.
-/

namespace BlockFS

open Volume

namespace Records

/-- What is in use stays in use and holds what it held. -/
structure Extends (c c' : Records) : Prop where
  used : ∀ r i, c.used r i = true → c'.used r i = true
  inode : ∀ i, c.used .inode i = true → c'.inode i = c.inode i
  block : ∀ b, c.used .block b = true → c'.block b = c.block b

variable {l : Layout} {c c' : Records} {r : Resource} {i b : Nat} {x : Inode} {z : Block}

namespace Extends

theorem refl (c : Records) : Extends c c := ⟨fun _ _ h => h, fun _ _ => rfl, fun _ _ => rfl⟩

variable (h : Extends c c')

include h

theorem mark (hi : c.used r i = false) (used : Bool) : Extends c (c'.mark r i used) where
  used := by
    intro r' j hj
    have hne : ¬ (r' = r ∧ j = i) := by
      rintro ⟨rfl, rfl⟩
      rw [hi] at hj
      cases hj
    exact (if_neg hne).trans (h.used r' j hj)
  inode := h.inode
  block := h.block

theorem putInode (hi : c.used .inode i = false) : Extends c (c'.putInode i x) where
  used := h.used
  inode := by
    intro j hj
    have hne : j ≠ i := by
      rintro rfl
      rw [hi] at hj
      cases hj
    exact (Function.update_of_ne hne _ _).trans (h.inode j hj)
  block := h.block

theorem putBlock (hb : c.used .block b = false) : Extends c (c'.putBlock b z) where
  used := h.used
  inode := h.inode
  block := by
    intro j hj
    have hne : j ≠ b := by
      rintro rfl
      rw [hb] at hj
      cases hj
    exact (Function.update_of_ne hne _ _).trans (h.block j hj)

theorem freeBlocks {is : List Nat} (hfree : ∀ b ∈ is, c.used .block b = false) :
    Extends c (c'.freeBlocks is) where
  used := by
    intro r j hj
    have hne : ¬ (r = .block ∧ j ∈ is) := by
      rintro ⟨rfl, hmem⟩
      rw [hfree j hmem] at hj
      cases hj
    exact (if_neg hne).trans (h.used r j hj)
  inode := h.inode
  block := h.block

/-- Both change a block in use in the same way. -/
theorem update (b : Nat) (z : Block) : Extends (c.putBlock b z) (c'.putBlock b z) where
  used := h.used
  inode := h.inode
  block := by
    intro j hj
    change Function.update c'.block b z j = Function.update c.block b z j
    by_cases hjb : j = b
    · rw [hjb, Function.update_self, Function.update_self]
    · rw [Function.update_of_ne hjb, Function.update_of_ne hjb, h.block j hj]

end Extends

end Records

namespace Transfer

variable {l : Layout} {c : Records} {t : Transfer} {r : Resource} {b : Nat}

/-- The transfer writes to no data block that is in use. -/
def Spares (l : Layout) (c : Records) (t : Transfer) : Prop :=
  ∀ b, l.firstDataBlock ≤ b → c.used .block b = true → ¬ t.WritesTo b

theorem WritesTo.eq {b' : Nat} (h : t.WritesTo b) (h' : t.WritesTo b') : b = b' := by
  rcases h with rfl | rfl
  all_goals
    rcases h' with h' | h'
    all_goals
      injection h' with h'
      omega

theorem IsRead.spares (h : t.IsRead) : t.Spares l c := by
  obtain ⟨k, rfl⟩ := h
  rintro b - - (hw | hw)
  · cases hw
  · cases hw

theorem WritesTo.spares (h : t.WritesTo b) (hb : b < l.firstDataBlock ∨ c.used .block b = false) :
    t.Spares l c := by
  intro b' hge hused hw
  obtain rfl := h.eq hw
  rcases hb with hlt | hfree
  · exact absurd hge (Nat.not_le_of_lt hlt)
  · rw [hfree] at hused
    cases hused

theorem OfBitmap.spares (h : t.OfBitmap l r) : t.Spares l c := by
  rcases h with hread | hwrite
  · exact hread.isRead.spares
  · exact hwrite.spares (.inl (Nat.lt_trans (l.bitmapBlock_lt_tableStart r)
      l.tableStart_lt_firstDataBlock))

theorem OfTable.spares (h : t.OfTable l) : t.Spares l c := by
  obtain ⟨b, -, hlt, hread | hwrite⟩ := h
  · exact hread.isRead.spares
  · exact hwrite.spares (.inl hlt)

end Transfer

variable {l : Layout} {plan : FaultPlan} {s s' : Scene l} {p i b : Nat} {slot : Fin slotCount}
  {n : StoredName} {name : String} {c : Records}

/-! ## Making what no directory links yet -/

namespace Volume

variable (hm : s.mounted = true) (hext : c.Extends s.records)

include hm hext

/-- Taking back what was free before harms nothing, also where it fails. -/
theorem ends_deallocate_extends {r : Resource} (hi : i < r.count l) (hfree : c.used r i = false) :
    Ends plan (deallocate r i) s (fun _ s' => s'.mounted = true ∧ c.Extends s'.records)
      (fun e s' => c.Extends s'.records ∧ plan.Strikes (Transfer.Spares l c) e) := by
  refine (ends_deallocate hm hi).mono (fun _ s' h => ?_) fun e s' h => ?_
  · subst h
    refine ⟨hm, ?_⟩
    rw [s.records_mark hi]
    exact hext.mark hfree false
  · obtain ⟨hs, hstrikes⟩ := h
    refine ⟨?_, hstrikes.mono fun _ ht => ht.spares⟩
    rcases hs with rfl | rfl
    · exact hext
    · rw [s.records_mark hi]
      exact hext.mark hfree false

theorem ends_discardInode_extends {x : Inode} (hi : i < l.inodeCount)
    (hfree : c.used .inode i = false)
    (hblocks : ∀ b ∈ x.blocks, b < l.blockCount ∧ c.used .block b = false) :
    Ends plan (discardInode i x) s
      (fun _ s' => s'.records.used .inode i = false ∧ c.Extends s'.records)
      (fun e s' => c.Extends s'.records ∧ plan.Strikes (Transfer.Spares l c) e) := by
  have hpart {is : List Nat} (his : ∀ b ∈ is, b ∈ x.blocks) :
      c.Extends (s.freeBlocks is).records := by
    rw [s.records_freeBlocks fun b hb => (hblocks b (his b hb)).1]
    exact hext.freeBlocks fun b hb => (hblocks b (his b hb)).2
  have hall : c.Extends ((s.freeBlocks x.blocks).mark .inode i false).records := by
    rw [Scene.records_mark (r := .inode) _ hi]
    exact (hpart fun _ hb => hb).mark hfree false
  refine (ends_discardInode hm hi fun b hb => (hblocks b hb).1).mono (fun _ s' h => ?_)
    fun e s' h => ?_
  · subst h
    refine ⟨?_, hall⟩
    rw [Scene.records_mark (r := .inode) _ hi]
    exact if_pos ⟨rfl, rfl⟩
  · obtain ⟨hs, r, hstrikes⟩ := h
    refine ⟨?_, hstrikes.mono fun _ ht => ht.spares⟩
    rcases hs with ⟨k, rfl⟩ | rfl
    · exact hpart fun _ hb => List.mem_of_mem_take hb
    · exact hall

end Volume

/-- There is neither an inode nor a block for something new, and that is the error. -/
def Scene.NoRoom (s : Scene l) (e : Error) : Prop :=
  e = .noSpace ∧ (s.records.lowestFree .inode l.inodeCount = none ∨
    s.records.lowestFree .block l.blockCount = none)

/-- What was in use stays, and the making failed for want of room or on the device. -/
def Scene.Unmade (plan : FaultPlan) (s : Scene l) (e : Error) (s' : Scene l) : Prop :=
  s.records.Extends s'.records ∧
    (s.NoRoom e ∨ plan.Strikes (Transfer.Spares l s.records) e)

theorem Scene.TornInode.extends_records {x : Inode} {e : Error} (h : s.TornInode plan i x e s')
    (hext : c.Extends s.records) (hi : c.used .inode i = false) : c.Extends s'.records := by
  obtain ⟨cut, -, -, hrecords⟩ := h.records
  rw [hrecords]
  exact hext.putInode hi

theorem Scene.ends_allocate_inode (s : Scene l) (hm : s.mounted = true) :
    Ends plan (allocate .inode) s
      (fun i s' => s.records.lowestFree .inode l.inodeCount = some i ∧ s' = s.mark .inode i true)
      (s.Unmade plan) := by
  refine (ends_allocate hm .inode).weaken fun e s' h => ?_
  rcases h with ⟨rfl, hfull, rfl⟩ | ⟨hstrikes, hs⟩
  · exact ⟨.refl _, .inl ⟨rfl, .inl hfull⟩⟩
  · refine ⟨?_, .inr (hstrikes.mono fun _ ht => ht.spares)⟩
    rcases hs with rfl | ⟨i, hfree, rfl⟩
    · exact .refl _
    · obtain ⟨-, hi, hunused, -⟩ := Records.lowestFree_eq_some_iff.mp hfree
      rw [s.records_mark hi]
      exact (Records.Extends.refl _).mark hunused true

namespace File

theorem ends_make (hm : s.mounted = true) :
    Ends plan make s
      (fun f s' => ∃ i, s.records.lowestFree .inode l.inodeCount = some i ∧
        f = ⟨i, .new .file s.clock⟩ ∧ s' = s.addInode i (.new .file s.clock))
      (s.Unmade plan) := by
  refine Ends.bind (s.ends_allocate_inode hm) fun i s' h => ?_
  obtain ⟨hfree, rfl⟩ := h
  obtain ⟨-, hi, hunused, -⟩ := Records.lowestFree_eq_some_iff.mp hfree
  have hm' : (s.mark .inode i true).mounted = true := hm
  have hext : s.records.Extends (s.mark .inode i true).records := by
    rw [s.records_mark hi]
    exact (Records.Extends.refl _).mark hunused true
  refine Ends.get_bind fun history => ?_
  refine Ends.bind (Q := fun _ s' => s' = s.addInode i (.new .file s.clock)) ?_
    fun _ s' h => .pure ⟨i, hfree, rfl, h⟩
  refine ends_orUndo ((ends_writeInode hm' hi _).mono (fun _ _ h => h.1) fun _ _ h => h)
    fun e s' h => ?_
  have hm'' : s'.mounted = true := h.mounted.trans hm'
  have hstrikes : plan.Strikes (Transfer.Spares l s.records) e :=
    h.strikes.mono fun _ ht => ht.spares
  exact (ends_deallocate_extends (r := .inode) hm'' (h.extends_records hext hunused) hi
    hunused).mono (fun _ _ hs => ⟨hs.2, .inr hstrikes⟩) fun _ _ he => ⟨he.1, .inr he.2⟩

end File

namespace Scene.HalfTaken

variable {e : Error} (h : s.HalfTaken plan e s')
  (hfree : ∀ b, s.records.lowestFree .block l.blockCount = some b → c.used .block b = false)

include h hfree

theorem extends_records (hext : c.Extends s.records) : c.Extends s'.records := by
  rcases h.records with rfl | ⟨b, used, z, hlow, hrecords, -⟩
  · exact hext
  · rw [hrecords]
    exact (hext.mark (hfree b hlow) used).putBlock (hfree b hlow)

theorem strikes_spares : plan.Strikes (Transfer.Spares l c) e := by
  rcases h.strikes with hstrikes | ⟨b, hlow, hstrikes⟩
  · exact hstrikes.mono fun _ ht => ht.spares
  · exact hstrikes.mono fun _ ht => ht.spares (.inr (hfree b hlow))

end Scene.HalfTaken

namespace Directory

variable (hm : s.mounted = true) (hext : c.Extends s.records) (hi : i < l.inodeCount)
  (hunused : c.used .inode i = false)

include hm hext hi hunused

/-- Taking the block of a directory, whose inode is taken already. -/
theorem ends_takeBlock (hres : s.records.Reserves l)
    (hfree : ∀ b, s.records.lowestFree .block l.blockCount = some b → c.used .block b = false) :
    Ends plan (orUndo allocateBlock (deallocate .inode i)) s
      (fun b s' => s.records.lowestFree .block l.blockCount = some b ∧
        s' = (s.mark .block b true).putBlock b .zero)
      (fun e s' => c.Extends s'.records ∧
        ((e = .noSpace ∧ s.records.lowestFree .block l.blockCount = none) ∨
          plan.Strikes (Transfer.Spares l c) e)) := by
  refine ends_orUndo (ends_allocateBlock hm hres) fun e s' h => ?_
  rcases h with ⟨rfl, hfull, rfl⟩ | htaken
  · exact (ends_deallocate_extends (r := .inode) hm hext hi hunused).mono
      (fun _ _ h => ⟨h.2, .inl ⟨rfl, hfull⟩⟩) fun _ _ h => ⟨h.1, .inr h.2⟩
  · exact (ends_deallocate_extends (r := .inode) (htaken.mounted.trans hm)
      (htaken.extends_records hfree hext) hi hunused).mono
      (fun _ _ h => ⟨h.2, .inr (htaken.strikes_spares hfree)⟩) fun _ _ h => ⟨h.1, .inr h.2⟩

variable (hb : b < l.blockCount) (hblock : c.used .block b = false)

include hb hblock

/-- What was taken for a directory is taken back. -/
theorem ends_untake :
    Ends plan (do deallocate .block b; deallocate .inode i) s
      (fun _ s' => c.Extends s'.records)
      (fun e s' => c.Extends s'.records ∧ plan.Strikes (Transfer.Spares l c) e) := by
  refine Ends.bind (ends_deallocate_extends (r := .block) hm hext hb hblock) fun _ s' h => ?_
  exact (ends_deallocate_extends (r := .inode) h.1 h.2 hi hunused).mono (fun _ _ h => h.2)
    fun _ _ h => h

/-- Writing the table and the record of a directory for which all is taken. -/
theorem ends_fill (hge : l.firstDataBlock ≤ b) (hp : p < UInt16.size) (x : Inode) :
    Ends plan (do
        let table ← liftExcept (firstTable i p)
        writeBlock b table.toBlock
        writeInode i x
        return table) s
      (fun t s' => t = firstEntries i p ∧
        s' = (s.putBlock b (firstEntries i p).toBlock).putInode i x)
      (fun e s' => s'.mounted = true ∧ c.Extends s'.records ∧
        plan.Strikes (Transfer.Spares l c) e) := by
  have hput (z : Block) : c.Extends (s.putBlock b z).records := by
    rw [s.records_putBlock hge hb]
    exact hext.putBlock hblock
  rw [firstTable_eq (l.small_of_lt (r := .inode) hi) hp]
  refine Ends.ok_bind (Ends.bind (Q := fun _ s' => s' = s.putBlock b (firstEntries i p).toBlock)
    ((ends_writeBlock hm hge hb _).mono (fun _ _ h => h.1) fun e s' h => ?_) fun _ s' h => ?_)
  · have hstrikes : plan.Strikes (Transfer.Spares l c) e :=
      h.strikes.mono fun _ ht => ht.spares (.inr hblock)
    obtain ⟨z, rfl⟩ := h.exists_putBlock hge hb
    exact ⟨hm, hput z, hstrikes⟩
  · subst h
    have hm' : (s.putBlock b (firstEntries i p).toBlock).mounted = true := hm
    refine Ends.bind ((ends_writeInode hm' hi x).mono (fun _ _ h => h.1) fun e s' h => ?_)
      fun _ s' h => .pure ⟨rfl, h⟩
    exact ⟨h.mounted.trans hm, h.extends_records (hput _) hunused,
      h.strikes.mono fun _ ht => ht.spares⟩

end Directory

theorem Directory.ends_make (hm : s.mounted = true) (hres : s.records.Reserves l)
    (hp : p < UInt16.size) :
    Ends plan (make p) s
      (fun d s' => ∃ i b, s.records.lowestFree .inode l.inodeCount = some i ∧
        s.records.lowestFree .block l.blockCount = some b ∧
        d = ⟨i, firstRecord s.clock b, b, firstEntries i p⟩ ∧
        s' = s.addDirectory i b (firstRecord s.clock b) (firstEntries i p))
      (s.Unmade plan) := by
  refine Ends.bind (s.ends_allocate_inode hm) fun i s' h => ?_
  obtain ⟨hfree, rfl⟩ := h
  obtain ⟨-, hi, hunused, -⟩ := Records.lowestFree_eq_some_iff.mp hfree
  have hm' : (s.mark .inode i true).mounted = true := hm
  have hrecords : (s.mark .inode i true).records = s.records.mark .inode i true :=
    s.records_mark (r := .inode) hi true
  have hext : s.records.Extends (s.mark .inode i true).records := by
    rw [hrecords]
    exact (Records.Extends.refl _).mark hunused true
  have hlow : (s.mark .inode i true).records.lowestFree .block l.blockCount
      = s.records.lowestFree .block l.blockCount := by
    rw [hrecords]
    rfl
  have hres' : (s.mark .inode i true).records.Reserves l := by
    intro b hb
    rw [hrecords]
    exact hres b hb
  refine Ends.bind ((ends_takeBlock hm' hext hi hunused hres' ?_).weaken fun e s' h => ?_)
    fun b s' h => ?_
  · intro b hb
    exact (Records.lowestFree_eq_some_iff.mp (hlow ▸ hb)).2.2.1
  · exact ⟨h.1, h.2.imp_left fun hfull => ⟨hfull.1, .inr (hlow ▸ hfull.2)⟩⟩
  obtain ⟨hblock, rfl⟩ := h
  rw [hlow] at hblock
  obtain ⟨-, hlt, hb, -⟩ := Records.lowestFree_eq_some_iff.mp hblock
  have hge := hres.le_of_free hb
  have hm'' : (((s.mark .inode i true).mark .block b true).putBlock b .zero).mounted = true := hm
  have hext' :
      s.records.Extends (((s.mark .inode i true).mark .block b true).putBlock b .zero).records := by
    rw [Scene.records_putBlock _ hge hlt, Scene.records_mark (r := .block) _ hlt]
    exact (hext.mark hb true).putBlock hb
  refine Ends.get_bind fun history => ?_
  refine Ends.bind (ends_orUndo (ends_fill hm'' hext' hi hunused hlt hb hge hp
    (firstRecord s.clock b)) fun e s' h => ?_) fun t s' h => ?_
  · obtain ⟨hm', hext, hstrikes⟩ := h
    exact (ends_untake hm' hext hi hunused hlt hb).mono (fun _ _ h => ⟨h, .inr hstrikes⟩)
      fun _ _ h => ⟨h.1, .inr h.2⟩
  · obtain ⟨rfl, rfl⟩ := h
    exact .pure ⟨i, b, hfree, hblock, rfl, rfl⟩

end BlockFS
