import BlockFS.Proofs.Faults.Removing
import BlockFS.Proofs.FencedVolumes

/-!
# Interrupted removals

A removal that fails on the device has come to some point of its order: the blocks of the target in
slot order, then the target, then the slot that linked it.  This holds whatever failed before.  Until
the removal ends the name may link an inode that is free already.  No other link suffers from it where
the target has no other link and shares no block, which is so unless transfers failed before.
-/

namespace BlockFS

open Volume

variable {l : Layout} {g : Geometry} {v : Service} {logs : Logs} {plan : FaultPlan}

namespace Records

/-- A removal of what a slot of a directory links has come to some point.  Nothing changed but the bits
of the target and of its blocks, and the slot; the blocks became free in slot order, the target only
after all of them, and the slot only after the target. -/
structure RemovalStopped (c c' : Records) (d : Nat) (slot : Fin slotCount) (i : Nat) : Prop where
  inode : ∀ j, c'.inode j = c.inode j
  block : ∀ b, b ≠ c.tableBlock d → c'.block b = c.block b
  table : c'.written.table d = c.written.table d ∨
    c'.written.table d = (c.written.table d).put slot .empty
  usedInode : ∀ j, j ≠ i → c'.used .inode j = c.used .inode j
  usedBlock : ∃ k, ∀ b, c'.used .block b
    = if b ∈ (c.inode i).blocks.take k then false else c.used .block b
  freed : c'.used .inode i = false → ∀ b ∈ (c.inode i).blocks, c'.used .block b = false
  cleared : ¬ c'.written.Links d slot i → c'.used .inode i = false

variable {c c' : Records} {d d' i j k b : Nat} {slot slot' : Fin slotCount}

theorem used_inode_freeBlocks {is : List Nat} :
    (c.freeBlocks is).used .inode j = c.used .inode j := by
  simp only [freeBlocks, reduceCtorEq, false_and, if_false]

namespace RemovalStopped

section

variable (w : RemovalStopped c c' d slot i)

include w

theorem tableBlock_eq : c'.tableBlock d' = c.tableBlock d' := by
  rw [tableBlock, w.inode]
  rfl

/-- Nothing is linked that was not linked before. -/
theorem links_of_links (hlinks : c'.written.Links d' slot' j) : c.written.Links d' slot' j := by
  obtain ⟨hdir, htarget, hne, hname⟩ := hlinks
  have hkind : (c.inode d').kind = .directory := by
    rw [← w.inode]
    exact hdir
  have hshown (c : Records) : c.written.table d' = .ofBlock (c.block (c.tableBlock d')) := rfl
  -- a directory that shares the block of its table with `d` shows what `d` shows
  by_cases hd : c.tableBlock d' = c.tableBlock d
  · have hsame : c.written.table d' = c.written.table d := by
      rw [hshown, hd]
      rfl
    have hsame' : c'.written.table d' = c'.written.table d := by
      rw [hshown, w.tableBlock_eq, hd, ← w.tableBlock_eq]
      rfl
    rw [NameTree.entry, hsame'] at htarget hname
    rcases w.table with htable | htable
    · rw [htable, ← hsame] at htarget hname
      exact ⟨hkind, htarget, hne, hname⟩
    · rw [htable, EntryTable.entry_put] at htarget hname
      by_cases hslot : slot' = slot
      · rw [if_pos hslot] at htarget
        exact absurd htarget.symm hne
      · rw [if_neg hslot, ← hsame] at htarget hname
        exact ⟨hkind, htarget, hne, hname⟩
  · have htable : c'.written.table d' = c.written.table d' := by
      rw [hshown, w.tableBlock_eq, w.block _ hd]
      rfl
    rw [NameTree.entry, htable] at htarget hname
    exact ⟨hkind, htarget, hne, hname⟩

theorem linked_of_linked (hj : c'.written.Linked j) : c.written.Linked j := by
  induction hj with
  | root => exact .root
  | child _ hlinks ih => exact .child ih (w.links_of_links hlinks)

/-- Of tidy records every other link keeps its target, and the target its blocks. -/
theorem kept (h : c.Tidy l) (hl : c.tree.Links d slot i) (hd' : c'.written.Linked d')
    (hlinks : c'.written.Links d' slot' j) (hother : ¬ (d' = d ∧ slot' = slot)) :
    c'.used .inode j = true ∧ ∀ k b, (c'.inode j).block? k = some b → c'.used .block b = true := by
  have hlive := h.linked_written_iff.mp (w.linked_of_linked hd')
  have hlinks' := (links_written_iff hlive).mp (w.links_of_links hlinks)
  have hj : c.kind j ≠ .free := (h.tree.live d' slot' j hlinks').1
  have hji : j ≠ i := by
    rintro rfl
    exact hother (h.tree.once d' slot' d slot j hlinks' hl)
  refine ⟨(w.usedInode j hji).trans (used_of_kind_ne hj), fun k b hb => ?_⟩
  rw [w.inode] at hb
  have hown : c.Owns j k b := ⟨hj, hb⟩
  obtain ⟨n, hused⟩ := w.usedBlock
  rw [hused, if_neg, h.blocks.used_of_owns hown]
  intro hmem
  obtain ⟨k', hb'⟩ := Inode.mem_blocks_iff.mp (List.mem_of_mem_take hmem)
  have hown' : c.Owns i k' b := ⟨(h.tree.live d slot i hl).1, hb'⟩
  exact hji (h.blocks.once _ _ _ _ _ hown hown').1

end

/-! ### The points at which a removal may stop -/

/-- Some of the blocks are free. -/
theorem of_freeBlocks (hl : c.written.Links d slot i) (hi : c.used .inode i = true) (k : Nat) :
    RemovalStopped c (c.freeBlocks ((c.inode i).blocks.take k)) d slot i where
  inode _ := rfl
  block _ _ := rfl
  table := .inl rfl
  usedInode _ _ := used_inode_freeBlocks
  usedBlock := ⟨k, fun _ => by simp only [freeBlocks, true_and]⟩
  freed := by
    intro hfree
    rw [used_inode_freeBlocks, hi] at hfree
    cases hfree
  cleared hnot := absurd hl hnot

/-- All blocks and the target are free. -/
theorem of_discard : RemovalStopped c (c.discard i) d slot i where
  inode _ := rfl
  block _ _ := rfl
  table := .inl rfl
  usedInode j hj := by rw [used_inode_discard, if_neg hj]
  usedBlock := ⟨(c.inode i).blocks.length, fun b => by rw [List.take_length, used_block_discard]⟩
  freed _ b hb := by rw [used_block_discard, if_pos hb]
  cleared _ := by rw [used_inode_discard, if_pos rfl]

/-- The slot is free as well. -/
theorem of_unlink (hd : c.kind d = .directory) :
    RemovalStopped c (c.unlink d slot i) d slot i := by
  have hdiscard : RemovalStopped c (c.discard i) d slot i := of_discard
  have htable : (c.unlink d slot i).written.table d = (c.written.table d).put slot .empty := by
    change EntryTable.ofBlock (Function.update c.block (c.tableBlock d)
      ((c.table d).put slot .empty).toBlock (c.tableBlock d)) = _
    rw [Function.update_self, EntryTable.ofBlock_toBlock, table_of_directory hd]
    rfl
  have hfree : (c.discard i).used .inode i = false := by rw [used_inode_discard, if_pos rfl]
  exact ⟨fun _ => rfl, fun _ hb => Function.update_of_ne hb _ _, .inr htable, hdiscard.usedInode,
    hdiscard.usedBlock, hdiscard.freed, fun _ => hfree⟩

end RemovalStopped

end Records

/-! ## What a failed removal leaves behind -/

namespace Scene

variable {s s' : Scene l} {p i : Nat} {slot : Fin slotCount} {e : Error}

theorem Interrupted.removalStopped (hx : s.Interrupted plan p slot i e s')
    (h : s.records.PointsToData l) (hopens : s.records.Opens l p)
    (hl : s.records.tree.Links p slot i) :
    s'.records = s.records ∨ Records.RemovalStopped s.records s'.records p slot i := by
  have hwritten := (Records.links_written_iff (Records.ne_free_of_directory hl.directory)).mpr hl
  cases hx with
  | before same _ => exact .inl (congrArg records same)
  | freeing goes freed =>
    right
    obtain ⟨⟨k, rfl⟩ | rfl, -⟩ := freed
    · rw [s.records_freeBlocks fun b hb => h.lt_of_mem_blocks goes.live (List.mem_of_mem_take hb)]
      exact .of_freeBlocks hwritten (Records.used_of_kind_ne goes.live) k
    · rw [records_discard_of_live h goes.live]
      exact .of_discard
  | clearing t goes freed torn =>
    right
    have hrecords := freed.records h goes.live
    rcases torn with ⟨rfl, -⟩ | ⟨rfl, -⟩
    · rw [hrecords]
      exact .of_discard
    · rw [records_setTable_of_opens (freed.opens h goes hopens hl), hrecords,
        Records.table_discard, if_neg (goes.ne_of_links hl)]
      exact .of_unlink hl.directory

end Scene

/-- Removing a name, whatever of it fails. -/
theorem Volume.ends_unlink_stopped {s : Scene l} (h : s.records.PointsToData l) (p : Nat)
    (name : String) :
    Ends plan (unlink p name) s (fun _ _ => True) (fun _ s' => s'.records = s.records ∨
      ∃ slot i, s.records.tree.Links p slot i ∧ (s.records.table p).slotOf? name = some slot ∧
        Records.RemovalStopped s.records s'.records p slot i) := by
  by_cases hdot : isSelfOrParent name = true
  · rw [unlink, if_pos hdot]
    exact Ends.throw_bind (.inl rfl)
  by_cases hm : s.mounted = true
  · by_cases hopens : s.records.Opens l p
    · cases hfind : (s.records.table p).find? name with
      | none =>
        rw [unlink, if_neg hdot]
        refine (Directory.views_ofInode_opens hm h p).bind_ends (fun _ _ => .inl rfl) fun d hd => ?_
        obtain ⟨-, rfl⟩ := hd
        have hview : (s.directory p).find? name = none := hfind
        rw [hview]
        exact .throw (.inl rfl)
      | some i =>
        rw [Bool.not_eq_true] at hdot
        obtain ⟨n, slot, hn, hslot, hnamed, htarget⟩ := Scene.slot_of_find? hfind
        have hl := Records.links_of_slot hopens.directory hdot hn hnamed
        rw [htarget] at hl
        refine (ends_unlink hm h hdot hslot hopens hl).mono (fun _ _ _ => trivial) fun e s' hx => ?_
        exact (hx.removalStopped h hopens hl).imp_right fun hstopped =>
          ⟨slot, i, hl, hslot, hstopped⟩
    · rw [unlink, if_neg hdot]
      exact (Directory.views_ofInode_opens hm h p).bind_ends (fun _ _ => .inl rfl)
        fun _ hd => absurd hd.1 hopens
  · rw [unlink, if_neg hdot]
    exact Views.bind_ends (Directory.views_ofInode_unmounted (Bool.eq_false_iff.mpr hm) p)
      (fun _ _ => .inl rfl) fun _ => False.elim

/-- The write that would free the slot of the file is refused after the file became free. -/
theorem Scene.OneFile.unlink_refused {s : Scene .floppy} {slot : Fin slotCount}
    (h : s.OneFile slot) :
    ∃ e, ∃ s' : Scene .floppy, ∃ history',
      unlink rootInode "a" (Exposed.under (.refusing [24, 25]) s ⟨0, 0⟩)
        = .error e (Exposed.under (.refusing [24, 25]) s' history') ∧
      s'.records = s.records.discard 2 := by
  have hexact := h.good.tidy.toExact
  have hlive := Records.ne_free_of_file h.file
  have hdot : isSelfOrParent "a" = false := by decide
  have hends : Ends (.refusing [24, 25]) (unlink rootInode "a") s _ _ :=
    ends_unlink h.mounted hexact.pointsToData hdot h.named (hexact.opens h.links.directory) h.links
  rw [h.tableBlock] at hends
  obtain ⟨e, s', history', herror, hx⟩ := (hends.mono (fun _ _ hadmits =>
    hadmits.not_refused (by decide)) fun _ _ hx => hx).exists_error ⟨0, 0⟩
  refine ⟨e, s', history', herror, ?_⟩
  cases hx with
  | before same cause =>
    rcases cause with hstays | hstrikes
    · exact absurd (.inl h.file) hstays
    · obtain ⟨k, -, hread⟩ := hstrikes.exists_refused
      exact absurd hread (Transfer.not_isRead_write k)
  | freeing _ freed =>
    obtain ⟨-, r, hstrikes⟩ := freed
    obtain ⟨k, hk, hbitmap⟩ := hstrikes.exists_refused
    have hlt : k / 2 < Layout.floppy.tableStart := by
      rw [hbitmap.div_eq]
      exact Layout.floppy.bitmapBlock_lt_tableStart r
    have hge : Layout.floppy.tableStart ≤ k / 2 := by
      simp only [List.mem_cons, List.not_mem_nil, or_false] at hk
      rcases hk with rfl | rfl
      · decide
      · decide
    exact absurd hlt (Nat.not_lt_of_le hge)
  | clearing t _ freed torn =>
    rcases torn with ⟨rfl, -⟩ | ⟨-, -, hadmits, -⟩
    · exact freed.records hexact.pointsToData hlive
    · have hblock : t.records.tableBlock rootInode = s.records.tableBlock rootInode := by
        rw [freed.records hexact.pointsToData hlive]
        rfl
      rw [hblock, h.tableBlock] at hadmits
      exact absurd (by decide) hadmits.not_refused

end BlockFS
