import BlockFS.Proofs.Faults.Views
import BlockFS.Proofs.Scene.Steps

/-!
# Removing a name where transfers may fail

Removing frees the blocks of what is removed, then its inode, then the slot of its name.  A removal
that fails has come to some point of this order and no farther.
-/

namespace BlockFS

open Volume

variable {l : Layout} {plan : FaultPlan} {s : Scene l} {p i : Nat} {slot : Fin slotCount}
  {name : String}

namespace Scene

/-- What may be left of a volume by freeing an inode and its blocks where that failed. -/
def PartlyFreed (plan : FaultPlan) (s : Scene l) (i : Nat) (e : Error) (s' : Scene l) : Prop :=
  ((∃ k, s' = s.freeBlocks ((s.records.inode i).blocks.take k)) ∨ s' = s.discard i) ∧
    ∃ r, plan.Strikes (Transfer.OfBitmap l r) e

/-- An inode and its blocks are free, and the current directory is another one if it was this. -/
def Freed (s : Scene l) (i : Nat) (s' : Scene l) : Prop :=
  s' = s.discard i ∨ s' = (s.discard i).leave i

theorem Freed.mounted {t : Scene l} (ht : s.Freed i t) : t.mounted = s.mounted := by
  rcases ht with rfl | rfl
  · exact mounted_freeBlocks s _
  · exact mounted_freeBlocks s _

theorem Freed.records {t : Scene l} (ht : s.Freed i t) (h : s.records.PointsToData l)
    (hi : s.records.kind i ≠ .free) : t.records = s.records.discard i := by
  rcases ht with rfl | rfl
  · exact records_discard_of_live h hi
  · exact records_discard_of_live h hi

/-- A file may go, and so may a directory that opens and holds nothing. -/
def MayGo (s : Scene l) (i : Nat) : Prop :=
  s.records.kind i = .file ∨ (s.records.Opens l i ∧ (s.records.table i).holdsNothing = true)

namespace MayGo

variable (h : s.MayGo i)

include h

theorem live : s.records.kind i ≠ .free := by
  rcases h with hfile | ⟨hopens, -⟩
  · exact Records.ne_free_of_file hfile
  · exact Records.ne_free_of_directory hopens.directory

/-- A directory that links itself holds something. -/
theorem ne_of_links (hl : s.records.tree.Links p slot i) : p ≠ i := by
  rintro rfl
  rcases h with hfile | ⟨-, hempty⟩
  · exact Kind.noConfusion (hfile.symm.trans hl.directory)
  · have hdot := EntryTable.holdsNothing_iff.mp hempty slot fun hfree =>
      hl.used (hl.target.symm.trans hfree)
    exact Bool.false_ne_true (hl.named.symm.trans hdot)

end MayGo

/-- A directory opens as before after something that it links was freed. -/
theorem Freed.opens {t : Scene l} (ht : s.Freed i t) (h : s.records.PointsToData l)
    (hgo : s.MayGo i) (hopens : s.records.Opens l p) (hl : s.records.tree.Links p slot i) :
    t.records.Opens l p := by
  have hrecords := ht.records h hgo.live
  have hblock : t.records.tableBlock p = s.records.tableBlock p := by
    rw [hrecords]
    rfl
  constructor
  · rw [hrecords, Records.kind_discard, if_neg (hgo.ne_of_links hl), hopens.directory]
  · rw [hblock, hrecords]
    exact hopens.points
  · rw [hblock]
    exact hopens.ge
  · rw [hblock]
    exact hopens.lt

end Scene

namespace Volume

variable (hm : s.mounted = true) (h : s.records.PointsToData l)

include hm h

theorem ends_discardInode_of_live (hi : s.records.kind i ≠ .free) :
    Ends plan (discardInode i (s.records.inode i)) s (fun _ s' => s' = s.discard i)
      (s.PartlyFreed plan i) :=
  ends_discardInode hm (Scene.lt_count_of_used (Records.used_of_kind_ne hi)) fun _ =>
    h.lt_of_mem_blocks hi

/-- Nothing is freed unless what is freed may go. -/
theorem ends_discard (i : Nat) :
    Ends plan (discard i) s (fun _ s' => s.MayGo i ∧ s.Freed i s')
      (fun e s' => (s' = s ∧ (¬ s.MayGo i ∨ plan.Strikes Transfer.IsRead e)) ∨
        (s.MayGo i ∧ s.PartlyFreed plan i e s')) := by
  refine Views.bind_ends (views_readInode hm i) (fun e he => .inl ⟨rfl, ?_⟩) fun x hx => ?_
  · refine he.imp_left fun hfree hgo => ?_
    exact Bool.false_ne_true (hfree.1.symm.trans (Records.used_of_kind_ne hgo.live))
  obtain ⟨hused, rfl⟩ := hx
  have hkind := Records.kind_of_used hused
  match hk : (s.records.inode i).kind with
  | .free =>
    exact .throw (.inl ⟨rfl, .inl fun hgo => hgo.live (hkind.trans hk)⟩)
  | .file =>
    have hfile : s.records.kind i = .file := hkind.trans hk
    refine Views.bind_ends (File.views_ofInode hm i) (fun e he => ?_) fun f hf => ?_
    · rcases he with hother | hstrikes
      · exact absurd hfile hother
      · exact .inl ⟨rfl, .inr hstrikes⟩
    obtain ⟨-, rfl⟩ := hf
    exact (ends_discardInode_of_live hm h (Records.ne_free_of_file hfile)).mono
      (fun _ _ hs => ⟨.inl hfile, .inl hs⟩) fun _ _ he => .inr ⟨.inl hfile, he⟩
  | .directory =>
    have hdir : s.records.kind i = .directory := hkind.trans hk
    have hfile : s.records.kind i ≠ .file := by
      rw [hdir]
      exact Kind.noConfusion
    refine Views.bind_ends (Directory.views_ofInode_opens hm h i) (fun e he => .inl ⟨rfl, ?_⟩)
      fun d hd => ?_
    · exact he.imp_left fun hclosed hgo => hgo.elim hfile fun ⟨hopens, _⟩ => hclosed hopens
    obtain ⟨hopens, rfl⟩ := hd
    have hview : (s.directory i).holdsNothing = (s.records.table i).holdsNothing := rfl
    rw [hview]
    by_cases hempty : (s.records.table i).holdsNothing = true
    · have hgo : s.MayGo i := .inr ⟨hopens, hempty⟩
      simp only [hempty, if_true]
      refine Ends.bind ((ends_discardInode_of_live hm h hgo.live).weaken fun _ _ he =>
        .inr ⟨hgo, he⟩) fun _ s' hs => ?_
      subst hs
      refine Ends.get_bind fun history => ?_
      by_cases hcwd : s.cwd = i
      · have hstate : (Exposed.under plan (s.discard i) history).cwd = i :=
          (Scene.cwd_discard s i).trans hcwd
        rw [if_pos hstate]
        refine Ends.modify (fun history => ⟨history, ?_⟩) ⟨hgo, .inr rfl⟩
        rw [Scene.leave, Scene.cwd_discard, if_pos hcwd]
        rfl
      · have hstate : ¬ (Exposed.under plan (s.discard i) history).cwd = i := fun he =>
          hcwd ((Scene.cwd_discard s i).symm.trans he)
        rw [if_neg hstate]
        exact .pure ⟨hgo, .inl rfl⟩
    · simp only [hempty]
      refine Ends.bind (Q := fun _ _ => False) (.throw (.inl ⟨rfl, .inl fun hgo => ?_⟩))
        fun _ _ hf => hf.elim
      exact hgo.elim hfile fun ⟨_, hnothing⟩ => hempty hnothing

end Volume

namespace Scene

/-- The ways in which removing a name of a slot may fail, and what is left of the volume then. -/
inductive Interrupted (plan : FaultPlan) (s : Scene l) (p : Nat) (slot : Fin slotCount) (i : Nat)
    (e : Error) (s' : Scene l) : Prop where
  | before (same : s' = s) (cause : ¬ s.MayGo i ∨ plan.Strikes Transfer.IsRead e)
  | freeing (goes : s.MayGo i) (freed : s.PartlyFreed plan i e s')
  | clearing (t : Scene l) (goes : s.MayGo i) (freed : s.Freed i t)
      (torn : t.TornSlot plan p slot .empty e s')

end Scene

/-- A removal of a name that is found, in a directory that opens. -/
theorem Volume.ends_unlink (hm : s.mounted = true) (h : s.records.PointsToData l)
    (hdot : isSelfOrParent name = false) (hslot : (s.records.table p).slotOf? name = some slot)
    (hopens : s.records.Opens l p) (hl : s.records.tree.Links p slot i) :
    Ends plan (unlink p name) s
      (fun _ _ => plan.Admits (.write (2 * s.records.tableBlock p + 1)))
      (s.Interrupted plan p slot i) := by
  have hfind : (s.directory p).find? name = some i := by
    rw [← hl.target]
    exact congrArg _ hslot
  rw [unlink, if_neg (Bool.eq_false_iff.mp hdot)]
  refine Views.bind_ends (Directory.views_ofInode_opens hm h p) (fun e he => ?_) fun d hd => ?_
  · exact .before rfl (.inr (he.resolve_left fun hclosed => hclosed hopens))
  obtain ⟨-, rfl⟩ := hd
  rw [hfind]
  refine Ends.bind ((ends_discard hm h i).weaken fun e s' he => ?_) fun _ t ht => ?_
  · rcases he with ⟨rfl, hcause⟩ | ⟨hgo, hfreed⟩
    · exact .before rfl hcause
    · exact .freeing hgo hfreed
  obtain ⟨hgo, ht⟩ := ht
  have hrecords := ht.records h hgo.live
  have hm' : t.mounted = true := ht.mounted.trans hm
  have hblock : s.records.tableBlock p = t.records.tableBlock p := by
    rw [hrecords]
    rfl
  have htable : t.records.table p = s.records.table p := by
    rw [hrecords, Records.table_discard, if_neg (hgo.ne_of_links hl)]
  have hunlink : (s.directory p).table.unlink name
      = .ok (i, (t.records.table p).put slot .empty) := by
    rw [htable, ← hl.target]
    exact EntryTable.unlink_eq hslot
  refine Ends.bind (Q := fun _ _ => plan.Admits (.write (2 * s.records.tableBlock p + 1)))
    (ViewM.ends_through (ViewM.current_bind ?_)) fun _ _ hadmits => .pure hadmits
  rw [hunlink, hblock]
  have hopens' := ht.opens h hgo hopens hl
  refine Ends.ok_bind (Ends.bind ((Directory.ends_replaceTable hm' hopens' hblock).weaken
    fun e t' he => ?_) fun _ _ hdone => .pure hdone.2)
  exact .clearing t hgo ht he

end BlockFS
