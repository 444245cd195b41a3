import BlockFS.Proofs.EntryTables
import BlockFS.Proofs.Evaluation

/-!
# Causes of failures

Which causes an action may fail for, whatever state it is done in.  The rules follow the ways in
which actions are put together.  A volume on its own knows of no handles, so no action on it fails
because all of them are in use, and only what removes a directory looks whether it is empty.
-/

namespace BlockFS

open Volume ViewM

variable {ε τ α β : Type}

/-- An action fails only for causes that `E` tells of. -/
def Blames (x : EStateM ε τ α) (E : ε → Prop) : Prop := ∀ s e s', x s = .error e s' → E e

namespace Blames

variable {x : EStateM ε τ α} {E E' : ε → Prop}

theorem mono (hx : Blames x E) (h : ∀ e, E e → E' e) : Blames x E' :=
  fun s e s' herror => h e (hx s e s' herror)

theorem pure (a : α) : Blames (Pure.pure a : EStateM ε τ α) E := by
  intro s e s' h
  cases h

theorem throw {e : ε} (he : E e) : Blames (MonadExcept.throw e : EStateM ε τ α) E := by
  intro s e' s' h
  cases h
  exact he

theorem get : Blames (MonadState.get : EStateM ε τ τ) E := by
  intro s e s' h
  cases h

theorem modify (f : τ → τ) : Blames (modify f : EStateM ε τ Unit) E := by
  intro s e s' h
  cases h

theorem liftExcept {r : Except ε α} (h : ∀ e, r = .error e → E e) :
    Blames (liftExcept r : EStateM ε τ α) E := by
  intro s e s' herror
  cases r with
  | ok a => cases herror
  | error cause =>
    cases herror
    exact h _ rfl

theorem bind {f : α → EStateM ε τ β} (hx : Blames x E) (hf : ∀ a, Blames (f a) E) :
    Blames (x >>= f) E := by
  intro s e s' h
  change EStateM.bind x f s = _ at h
  rw [EStateM.bind] at h
  cases hresult : x s with
  | ok a t =>
    rw [hresult] at h
    exact hf a t e s' h
  | error cause t =>
    rw [hresult] at h
    cases h
    exact hx _ _ _ hresult

theorem throw_bind {e : ε} {f : α → EStateM ε τ β} (he : E e) :
    Blames (MonadExcept.throw e >>= f) E := by
  intro s e' s' h
  cases h
  exact he

theorem tryCatch {handler : ε → EStateM ε τ α} (hx : Blames x E)
    (hh : ∀ e, E e → Blames (handler e) E') : Blames (tryCatch x handler) E' := by
  intro s e s' h
  cases hresult : x s with
  | ok a t =>
    rw [tryCatch_of_ok hresult] at h
    cases h
  | error cause t =>
    rw [tryCatch_of_error hresult] at h
    exact hh _ (hx _ _ _ hresult) _ e s' h

theorem forM {f : α → EStateM ε τ PUnit} (h : ∀ a, Blames (f a) E) (as : List α) :
    Blames (as.forM f) E := by
  induction as with
  | nil => exact pure _
  | cons a as ih => exact (h a).bind fun _ => ih

theorem onDevice {x : DeviceM α} {E : Error → Prop} (hx : Blames x E) :
    Blames (BlockFS.onDevice x) E := by
  rintro ⟨device, clock, layout, cwd⟩ e v' h
  rw [BlockFS.onDevice] at h
  cases hresult : x device with
  | ok a d =>
    simp only [hresult] at h
    cases h
  | error cause d =>
    simp only [hresult] at h
    cases h
    exact hx _ _ _ hresult

theorem ofVolume {View : Type} {x : VolumeM α} {E : Error → Prop} (hx : Blames x E) :
    Blames (ViewM.onVolume x : ViewM View α) E := by
  rintro ⟨view, v⟩ e held h
  rw [ViewM.onVolume] at h
  cases hresult : x v with
  | ok a v' =>
    simp only [hresult] at h
    cases h
  | error cause v' =>
    simp only [hresult] at h
    cases h
    exact hx _ _ _ hresult

theorem through {View : Type} {view : View} {x : ViewM View α} {E : Error → Prop}
    (hx : Blames x E) : Blames (ViewM.through view x) E := by
  intro v e v' h
  rw [ViewM.through] at h
  cases hresult : x ⟨view, v⟩ with
  | ok a held =>
    simp only [hresult] at h
    cases h
  | error cause held =>
    simp only [hresult] at h
    cases h
    exact hx _ _ _ hresult

end Blames

/-! ### Volumes know of no handles -/

/-- A volume on its own has no cause to speak of handles that are all in use, nor, as long as no
directory is removed, of one that is not empty. -/
abbrev BlamesVolume {τ α : Type} (x : EStateM Error τ α) : Prop :=
  Blames x fun e => e ≠ .tooManyOpenFiles ∧ e ≠ .directoryNotEmpty

namespace Device

theorem blames_readBlock (i : Nat) : BlamesVolume (readBlock i) := by
  have hsector (k : Nat) : BlamesVolume (readSector k) := by
    rintro ⟨disk, faults, history⟩ e d h
    rw [readSector] at h
    split at h
    · cases h
      exact ⟨Error.noConfusion, Error.noConfusion⟩
    · split at h
      · cases h
      · cases h
        exact ⟨Error.noConfusion, Error.noConfusion⟩
  exact (hsector _).bind fun _ => (hsector _).bind fun _ => .pure _

theorem blames_writeBlock (i : Nat) (b : Block) : BlamesVolume (writeBlock i b) := by
  have hsector (k : Nat) (s : Sector) : BlamesVolume (writeSector k s) := by
    rintro ⟨disk, faults, history⟩ e d h
    rw [writeSector] at h
    split at h
    · cases h
      exact ⟨Error.noConfusion, Error.noConfusion⟩
    · cases h
  exact (hsector _ _).bind fun _ => hsector _ _

end Device

namespace Layout

variable (l : Layout)

theorem blames_readBlock (i : Nat) : BlamesVolume (l.readBlock i) := by
  rw [readBlock]
  split
  · exact Device.blames_readBlock i
  · exact .throw ⟨Error.noConfusion, Error.noConfusion⟩

theorem blames_writeBlock (i : Nat) (b : Block) : BlamesVolume (l.writeBlock i b) := by
  rw [writeBlock]
  split
  · exact Device.blames_writeBlock i b
  · exact .throw ⟨Error.noConfusion, Error.noConfusion⟩

theorem blames_inodePlace (i : Nat) :
    BlamesVolume (liftExcept (l.superblock.inodePlace i) : DeviceM (Nat × Nat)) := by
  refine .liftExcept fun e he => ?_
  rw [Superblock.inodePlace] at he
  split at he
  · cases he
  · cases he
    exact ⟨Error.noConfusion, Error.noConfusion⟩

theorem blames_readInode (i : Nat) : BlamesVolume (l.readInode i) := by
  refine (l.blames_inodePlace i).bind fun place => (l.blames_readBlock _).bind fun b => ?_
  dsimp only
  split
  · exact (l.blames_readBlock _).bind fun _ => .pure _
  · exact .pure _

theorem blames_writeInode (i : Nat) (x : Inode) : BlamesVolume (l.writeInode i x) := by
  refine (l.blames_inodePlace i).bind fun place => (l.blames_readBlock _).bind fun b =>
    (l.blames_writeBlock _ _).bind fun _ => ?_
  dsimp only
  split
  · exact .pure _
  · exact (l.blames_readBlock _).bind fun _ => l.blames_writeBlock _ _

end Layout

namespace Volume

theorem blames_getLayout : BlamesVolume getLayout := by
  refine Blames.get.bind fun v => ?_
  split
  · exact .pure _
  · exact .throw ⟨Error.noConfusion, Error.noConfusion⟩

theorem blames_readBitmap (r : Resource) : BlamesVolume (readBitmap r) :=
  blames_getLayout.bind fun l => .onDevice ((l.blames_readBlock _).bind fun _ => .pure _)

theorem blames_readBlock (i : Nat) : BlamesVolume (readBlock i) :=
  blames_getLayout.bind fun l => .onDevice (l.blames_readBlock i)

theorem blames_writeBlock (i : Nat) (b : Block) : BlamesVolume (writeBlock i b) :=
  blames_getLayout.bind fun l => .onDevice (l.blames_writeBlock i b)

theorem blames_readInode (i : Nat) : BlamesVolume (readInode i) := by
  refine (blames_readBitmap .inode).bind fun b => ?_
  split
  · exact blames_getLayout.bind fun l => .onDevice (l.blames_readInode i)
  · exact .throw ⟨Error.noConfusion, Error.noConfusion⟩

theorem blames_writeInode (i : Nat) (x : Inode) : BlamesVolume (writeInode i x) :=
  blames_getLayout.bind fun l => .onDevice (l.blames_writeInode i x)

theorem blames_orUndo {x : VolumeM α} {undo : VolumeM Unit} (hx : BlamesVolume x)
    (hundo : BlamesVolume undo) : BlamesVolume (orUndo x undo) :=
  hx.tryCatch fun _ he => hundo.bind fun _ => .throw he

theorem blames_set (b : Bitmap) (i : Nat) (used : Bool) :
    BlamesVolume (liftExcept (b.set i used) : VolumeM Bitmap) := by
  refine .liftExcept fun e he => ?_
  rw [Bitmap.set] at he
  split at he
  · cases he
  · cases he
    exact ⟨Error.noConfusion, Error.noConfusion⟩

theorem blames_allocate (r : Resource) : BlamesVolume (allocate r) := by
  refine blames_getLayout.bind fun l =>
    (Blames.onDevice ((l.blames_readBlock _).bind fun _ => .pure _)).bind fun b => ?_
  split
  · exact .throw ⟨Error.noConfusion, Error.noConfusion⟩
  · exact (blames_set _ _ _).bind fun _ =>
      (Blames.onDevice (l.blames_writeBlock _ _)).bind fun _ => .pure _

theorem blames_deallocate (r : Resource) (i : Nat) : BlamesVolume (deallocate r i) :=
  blames_getLayout.bind fun l =>
    (Blames.onDevice ((l.blames_readBlock _).bind fun _ => .pure _)).bind fun _ =>
      (blames_set _ _ _).bind fun _ => .onDevice (l.blames_writeBlock _ _)

theorem blames_discardInode (i : Nat) (x : Inode) : BlamesVolume (discardInode i x) :=
  (Blames.forM (blames_deallocate .block) _).bind fun _ => blames_deallocate .inode i

end Volume

theorem Directory.blames_ofInode (i : Nat) : BlamesVolume (Directory.ofInode i) := by
  refine (blames_readInode i).bind fun x => ?_
  by_cases hkind : x.kind = .directory
  · simp only [if_pos hkind]
    split
    · exact .throw ⟨Error.noConfusion, Error.noConfusion⟩
    · exact (blames_readBlock _).bind fun _ => .pure _
  · simp only [if_neg hkind]
    exact .throw_bind ⟨Error.noConfusion, Error.noConfusion⟩

/-- What a directory changes through its table fails where the table refuses it or where the block is
not written. -/
theorem Directory.blames_replaceTable (t : EntryTable) : BlamesVolume (replaceTable t) :=
  (Blames.modify _).bind fun _ => (Blames.get.bind fun _ => .pure _).bind fun _ =>
    .ofVolume (blames_writeBlock _ _)

theorem Directory.blames_link (d : Directory) (name : String) (i : Nat) :
    BlamesVolume (through d (Directory.link name i)) := by
  have hlink (t : EntryTable) {e : Error} (he : t.link name i = .error e) :
      e ≠ .tooManyOpenFiles ∧ e ≠ .directoryNotEmpty := by
    rcases EntryTable.link_error he with rfl | rfl | rfl
    · exact ⟨Error.noConfusion, Error.noConfusion⟩
    · exact ⟨Error.noConfusion, Error.noConfusion⟩
    · exact ⟨Error.noConfusion, Error.noConfusion⟩
  refine .through ((Blames.get.bind fun _ => .pure _).bind fun view =>
    (Blames.liftExcept fun _ he => hlink _ he).bind fun t => blames_replaceTable t)

theorem Directory.blames_unlink (d : Directory) (name : String) :
    BlamesVolume (through d (Directory.unlink name)) := by
  have hunlink (t : EntryTable) {e : Error} (he : t.unlink name = .error e) :
      e ≠ .tooManyOpenFiles ∧ e ≠ .directoryNotEmpty := by
    rw [EntryTable.unlink_error he]
    exact ⟨Error.noConfusion, Error.noConfusion⟩
  exact .through ((Blames.get.bind fun _ => .pure _).bind fun view =>
    (Blames.liftExcept fun _ he => hunlink _ he).bind fun found =>
      (blames_replaceTable found.2).bind fun _ => .pure _)

namespace File

theorem blames_make : BlamesVolume make :=
  (blames_allocate .inode).bind fun _ => Blames.get.bind fun _ =>
    (blames_orUndo (blames_writeInode _ _) (blames_deallocate .inode _)).bind fun _ => .pure _

theorem blames_ofInode (i : Nat) : BlamesVolume (ofInode i) := by
  refine (blames_readInode i).bind fun x => ?_
  split
  · exact .pure _
  · exact .throw ⟨Error.noConfusion, Error.noConfusion⟩
  · exact .throw ⟨Error.noConfusion, Error.noConfusion⟩

end File

namespace Volume

theorem blames_splitPath (path : String) : BlamesVolume (splitPath path) := by
  refine blames_getLayout.bind fun _ => ?_
  split
  · exact .pure _
  · exact Blames.get.bind fun _ => .pure _

theorem blames_find (p : Nat) (name : String) : BlamesVolume (find p name) := by
  refine ((Directory.blames_ofInode p).tryCatch fun e he => ?_).bind fun d => ?_
  · split
    · exact .throw ⟨Error.noConfusion, Error.noConfusion⟩
    · exact .throw he
  · split
    · exact .pure _
    · exact .throw ⟨Error.noConfusion, Error.noConfusion⟩

theorem blames_locate (path : String) : BlamesVolume (locate path) := by
  refine (blames_splitPath path).bind fun place => ?_
  dsimp only
  split
  · exact .pure _
  · exact blames_find _ _

theorem blames_makeFile (p : Nat) (name : String) : BlamesVolume (makeFile p name) := by
  have hname : BlamesVolume (liftExcept (StoredName.encode name) : VolumeM StoredName) := by
    refine .liftExcept fun e he => ?_
    rw [StoredName.encode_error he]
    exact ⟨Error.noConfusion, Error.noConfusion⟩
  refine hname.bind fun _ => (Directory.blames_ofInode p).bind fun d => ?_
  split
  · exact .pure _
  · exact File.blames_make.bind fun f =>
      (blames_orUndo (d.blames_link name _) (blames_discardInode _ _)).bind fun _ => .pure _

theorem blames_inodeToOpen (path : String) (flags : OpenFlags) :
    BlamesVolume (Session.inodeToOpen path flags) := by
  refine (blames_locate path).tryCatch fun e he => ?_
  split
  · exact (blames_splitPath path).bind fun _ => blames_makeFile _ _
  · exact .throw he

end Volume

end BlockFS
