import BlockFS.Proofs.Faults.Scene
import BlockFS.Proofs.Scene.Names

/-!
# Views where transfers may fail

A directory or a file is opened as it is where no transfer fails, unless a read fails.  A change of
one slot of a directory that failed has happened or has not, depending on the half in which the slot
lies.
-/

namespace BlockFS

open Volume

instance {S V : Type} [Exposed S Volume] : Exposed (V × S) (Held V) where
  under plan s history := ⟨s.1, Exposed.under plan s.2 history⟩

/-! ## Acting through a view -/

namespace ViewM

variable {S V α β : Type} [Exposed S Volume] {plan : FaultPlan} {s : S} {v : V}
  {Q : α → S → Prop} {E : Error → S → Prop}

theorem ends_onVolume {x : VolumeM α} (hx : Ends plan x s Q E) :
    Ends plan (onVolume x : ViewM V α) (v, s) (fun a t => t.1 = v ∧ Q a t.2)
      (fun e t => t.1 = v ∧ E e t.2) := by
  intro history
  simp only [Exposed.under, onVolume]
  rcases hx history with ⟨a, s', h', hx, hq⟩ | ⟨e, s', h', hx, he⟩
  · simp only [hx]
    exact .inl ⟨a, (v, s'), h', rfl, rfl, hq⟩
  · simp only [hx]
    exact .inr ⟨e, (v, s'), h', rfl, rfl, he⟩

section

variable {f : V → V} {R : β → V × S → Prop} {E : Error → V × S → Prop}

theorem current_bind {g : V → ViewM V β} (hg : Ends plan (g v) (v, s) R E) :
    Ends plan (current >>= g) (v, s) R E := hg

theorem change_bind {g : Unit → ViewM V β} (hg : Ends plan (g ()) (f v, s) R E) :
    Ends plan (change f >>= g) (v, s) R E := hg

/-- What follows an action on the volume. -/
theorem onVolume_bind {x : VolumeM α} {g : α → ViewM V β} {E' : Error → S → Prop}
    (hx : Ends plan x s Q E') (hE : ∀ e s', E' e s' → E e (v, s'))
    (hg : ∀ a s', Q a s' → Ends plan (g a) (v, s') R E) :
    Ends plan (onVolume x >>= g) (v, s) R E := by
  refine Ends.bind ((ends_onVolume hx).weaken fun e t h => ?_) fun a t h => ?_
  · obtain ⟨rfl, h⟩ := h
    exact hE e t.2 h
  · obtain ⟨rfl, h⟩ := h
    exact hg a t.2 h

end

theorem ends_through {x : ViewM V α}
    (hx : Ends plan x (v, s) (fun a t => Q a t.2) (fun e t => E e t.2)) :
    Ends plan (through v x) s Q E := by
  intro history
  simp only [through]
  rcases hx history with ⟨a, t, h', hx, hq⟩ | ⟨e, t, h', hx, he⟩
  · simp only [Exposed.under] at hx
    simp only [hx]
    exact .inl ⟨a, t.2, h', rfl, hq⟩
  · simp only [Exposed.under] at hx
    simp only [hx]
    exact .inr ⟨e, t.2, h', rfl, he⟩

end ViewM

variable {l : Layout} {plan : FaultPlan} {c : Records} {s : Scene l} {d i : Nat}
  {slot : Fin slotCount} {n : StoredName} {e : Entry} {v : Directory}

/-- A directory whose table lies in a data block of the volume. -/
structure Records.Opens (l : Layout) (c : Records) (d : Nat) : Prop where
  directory : c.kind d = .directory
  points : (c.inode d).block? 0 = some (c.tableBlock d)
  ge : l.firstDataBlock ≤ c.tableBlock d
  lt : c.tableBlock d < l.blockCount

theorem Records.Exact.opens (h : c.Exact l) (hd : c.kind d = .directory) : c.Opens l d := by
  have hown := h.owns_tableBlock hd
  obtain ⟨hge, hlt⟩ := h.blocks.range d 0 _ hown
  exact ⟨hd, hown.points, hge, hlt⟩

theorem Scene.records_setTable_of_opens (h : s.records.Opens l d) (t : EntryTable) :
    (s.setTable d t).records = s.records.setTable d t :=
  s.records_putBlock h.ge h.lt t.toBlock

/-- What may be left of a volume by a change of one slot of a directory that failed. -/
def Scene.TornSlot (plan : FaultPlan) (s : Scene l) (d : Nat) (slot : Fin slotCount) (e : Entry)
    (err : Error) (s' : Scene l) : Prop :=
  (s' = s ∧ (plan.Strikes (· = .write (2 * s.records.tableBlock d)) err ∨
      EntryTable.firstHalf ≤ slot.val ∧
        plan.Strikes (· = .write (2 * s.records.tableBlock d + 1)) err)) ∨
    (s' = s.setTable d ((s.records.table d).put slot e) ∧ slot.val < EntryTable.firstHalf ∧
      plan.Admits (.write (2 * s.records.tableBlock d)) ∧
      plan.Strikes (· = .write (2 * s.records.tableBlock d + 1)) err)

theorem File.views_ofInode (hm : s.mounted = true) (i : Nat) :
    Views plan (File.ofInode i) s (fun f => s.records.kind i = .file ∧ f = s.file i)
      (fun e => s.records.kind i ≠ .file ∨ plan.Strikes Transfer.IsRead e) := by
  refine ((views_readInode hm i).weaken fun e he => ?_).bind fun x hx => ?_
  · rcases he with ⟨hfree, -⟩ | hstrikes
    · left
      rw [Records.kind_of_not_used hfree]
      exact Kind.noConfusion
    · exact .inr hstrikes
  obtain ⟨hused, rfl⟩ := hx
  rw [Records.kind_of_used hused]
  match hk : (s.records.inode i).kind with
  | .file => exact .pure ⟨rfl, rfl⟩
  | .directory => exact .throw (.inl Kind.noConfusion)
  | .free => exact .throw (.inl Kind.noConfusion)

namespace Directory

/-- A directory is opened where its table lies in a data block, unless a read fails.  What is no
directory is refused as it is where no transfer fails. -/
theorem views_ofInode_of_pointsToData (hm : s.mounted = true) (h : s.records.PointsToData l)
    (p : Nat) :
    Views plan (ofInode p) s (fun d => s.records.Opens l p ∧ d = s.directory p)
      (fun e => (¬ s.records.Opens l p ∧
        (s.records.kind p ≠ .directory → s.opened p = .error e)) ∨
          plan.Strikes Transfer.IsRead e) := by
  refine ((views_readInode hm p).weaken fun e he => ?_).bind fun x hx => ?_
  · refine he.imp_left fun ⟨hfree, he⟩ => ?_
    have hkind : s.records.kind p ≠ .directory := by
      rw [Records.kind_of_not_used hfree]
      exact Kind.noConfusion
    refine ⟨fun hopens => hkind hopens.directory, fun _ => ?_⟩
    rw [Scene.opened, if_neg hkind, hfree, he]
    rfl
  obtain ⟨hused, rfl⟩ := hx
  have hkind := Records.kind_of_used hused
  by_cases hdir : (s.records.inode p).kind = .directory
  · have hp : s.records.kind p = .directory := hkind.trans hdir
    simp only [if_pos hdir]
    cases hb : (s.records.inode p).block? 0 with
    | none =>
      refine .throw (.inl ⟨fun hopens => ?_, fun hnot => absurd hp hnot⟩)
      rw [hopens.points] at hb
      cases hb
    | some b =>
      have hown : s.records.Owns p 0 b := ⟨Records.ne_free_of_directory hp, hb⟩
      have htable := hown.tableBlock_eq
      obtain ⟨hge, hlt⟩ := h p 0 b hown
      refine ((views_readBlock hm hge hlt).weaken fun _ he => .inr he).bind fun z hz => .pure ?_
      refine ⟨⟨hp, by rw [hb, htable], by rwa [htable], by rwa [htable]⟩, ?_⟩
      rw [hz, Scene.directory, Records.table_of_directory hp, htable]
  · have hp : s.records.kind p ≠ .directory := fun hp => hdir (hkind.symm.trans hp)
    simp only [if_neg hdir]
    have hrefused : s.opened p = .error .notADirectory := by
      rw [Scene.opened, if_neg hp, hused]
      rfl
    exact (Views.throw (Q := fun _ => False)
      (.inl ⟨fun hopens => hp hopens.directory, fun _ => hrefused⟩)).bind fun _ h => h.elim

theorem views_ofInode_opens (hm : s.mounted = true) (h : s.records.PointsToData l) (p : Nat) :
    Views plan (ofInode p) s (fun d => s.records.Opens l p ∧ d = s.directory p)
      (fun e => ¬ s.records.Opens l p ∨ plan.Strikes Transfer.IsRead e) :=
  (views_ofInode_of_pointsToData hm h p).weaken fun _ he => he.imp_left And.left

theorem views_ofInode (hm : s.mounted = true) (h : s.records.Exact l) (p : Nat) :
    Views plan (ofInode p) s (fun d => s.opened p = .ok d)
      (fun e => s.opened p = .error e ∨ plan.Strikes Transfer.IsRead e) := by
  refine (views_ofInode_of_pointsToData hm h.pointsToData p).mono (fun d _ hd => ?_)
    fun e _ he => ?_
  · obtain ⟨hs, hopens, rfl⟩ := hd
    exact ⟨hs, Scene.opened_of_directory hopens.directory⟩
  · exact ⟨he.1, he.2.imp_left fun ⟨hclosed, hrefused⟩ => hrefused fun hp => hclosed (h.opens hp)⟩

theorem views_ofInode_unmounted (hm : s.mounted = false) (p : Nat) :
    Views plan (ofInode p) s (fun _ => False) (· = .notMounted) :=
  Views.bind (views_readInode_unmounted hm p) fun _ => False.elim

theorem ends_replaceTable (hm : s.mounted = true) (h : s.records.Opens l d)
    (hv : v.block = s.records.tableBlock d) :
    Ends plan (replaceTable ((s.records.table d).put slot e)) (v, s)
      (fun _ t => t.2 = s.setTable d ((s.records.table d).put slot e) ∧
        plan.Admits (.write (2 * s.records.tableBlock d + 1)))
      (fun err t => s.TornSlot plan d slot e err t.2) := by
  obtain ⟨hd, -, hge, hlt⟩ := h
  have hblock : s.store.block (s.records.tableBlock d) = (s.records.table d).toBlock := by
    rw [Records.table_of_directory hd, EntryTable.toBlock_ofBlock, Scene.records_block hge hlt]
  refine ViewM.change_bind (ViewM.current_bind ?_)
  rw [hv]
  refine (ViewM.ends_onVolume (ends_writeBlock hm hge hlt _)).mono (fun _ t h => ?_)
    fun err t h => ?_
  · exact ⟨h.2.1, h.2.2.2⟩
  · rcases h.2 with ⟨hs, hstrikes⟩ | ⟨hs, hadmits, hstrikes⟩
    · exact .inl ⟨hs, .inl hstrikes⟩
    · rw [hblock, EntryTable.splice_put] at hs
      by_cases hslot : slot.val < EntryTable.firstHalf
      · rw [if_pos hslot] at hs
        exact .inr ⟨hs, hslot, hadmits, hstrikes⟩
      · rw [if_neg hslot, ← hblock] at hs
        exact .inl ⟨hs.trans (s.putBlock_block hge hlt),
          .inr ⟨Nat.le_of_not_lt hslot, hstrikes⟩⟩

end Directory

end BlockFS
