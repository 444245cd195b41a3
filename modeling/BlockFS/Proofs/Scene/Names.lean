import BlockFS.Tree
import BlockFS.Proofs.Scene.Making
import BlockFS.Proofs.Tidy.Names

/-!
# Work on names where no transfer fails

What each operation on a name of a directory answers on exact records, and which scene it leaves
behind, one theorem for each way in which it may end.
-/

namespace BlockFS

open Volume

variable {l : Layout} {s : Scene l} {p i b : Nat} {n m : StoredName} {name old new : String}
  {slot : Fin slotCount} {e : Error}

/-! ## Opening a directory -/

namespace Scene

/-- The view of a directory, or why there is none. -/
def opened (s : Scene l) (p : Nat) : Except Error Directory :=
  if s.records.kind p = .directory then .ok (s.directory p)
  else if s.records.used .inode p then .error .notADirectory
  else .error .notFound

theorem opened_of_directory (hp : s.records.kind p = .directory) :
    s.opened p = .ok (s.directory p) := if_pos hp

theorem directory_of_opened {d : Directory} (h : s.opened p = .ok d) :
    s.records.kind p = .directory ∧ d = s.directory p := by
  rw [opened] at h
  split at h
  · next hp =>
    cases h
    exact ⟨hp, rfl⟩
  · split at h
    · cases h
    · cases h

end Scene

namespace Directory

theorem does_ofInode_opened (hm : s.mounted = true) (h : s.records.Exact l) (p : Nat) :
    Does (ofInode p) s (s.opened p) s := by
  rw [Scene.opened]
  split
  · next hp => exact does_ofInode hm h hp
  · next hp =>
    split
    · next hused => exact does_ofInode_other hm hused hp
    · next hused => exact does_ofInode_free hm (Bool.eq_false_iff.mpr hused)

end Directory

theorem Records.find?_table_of_ne {c : Records} (hp : c.kind p ≠ .directory) :
    (c.table p).find? name = none := by
  rw [Records.table_of_ne_directory hp]
  cases hn : StoredName.encode name with
  | error e => exact EntryTable.find?_of_error hn
  | ok n =>
    rw [EntryTable.find?_eq hn, EntryTable.lookup_empty]

namespace Volume

/-! ## Finding -/

/-- Finding never changes anything, and in what is no directory nothing is found. -/
theorem does_find (hm : s.mounted = true) (h : s.records.Exact l) (p : Nat) (name : String) :
    Does (find p name) s
      (match (s.records.table p).find? name with
        | some i => .ok i
        | none => .error .notFound) s := by
  have hopen := Directory.does_ofInode_opened hm h p
  by_cases hp : s.records.kind p = .directory
  · rw [Scene.opened_of_directory hp] at hopen
    apply hopen.tryCatch_ok.bind
    have hfind : (s.directory p).find? name = (s.records.table p).find? name := rfl
    rw [hfind]
    cases (s.records.table p).find? name with
    | some i => exact Does.pure _ _
    | none => exact Does.throw _ _
  · rw [Records.find?_table_of_ne hp]
    rw [Scene.opened, if_neg hp] at hopen
    split at hopen
    · refine Does.bind_error (hopen.tryCatch_error ?_)
      exact Does.throw _ _
    · refine Does.bind_error (hopen.tryCatch_error ?_)
      exact Does.throw _ _

/-! ## Making a file -/

section makeFile

theorem does_makeFile_badName (hn : StoredName.encode name = .error e) :
    Does (makeFile p name) s (.error e) s := by
  rw [makeFile, hn]
  exact (Does.liftExcept _ _).bind_error

variable (hm : s.mounted = true) (h : s.records.Exact l) (hn : StoredName.encode name = .ok n)

include hm h hn

theorem does_makeFile_notOpened (hp : s.opened p = .error e) :
    Does (makeFile p name) s (.error e) s := by
  rw [makeFile, hn]
  apply (Does.liftExcept _ _).bind
  have hopen := Directory.does_ofInode_opened hm h p
  rw [hp] at hopen
  exact hopen.bind_error

theorem does_makeFile_existing (hp : s.records.kind p = .directory)
    (hi : (s.records.table p).lookup n = some i) : Does (makeFile p name) s (.ok i) s := by
  have hfind : (s.directory p).find? name = some i := (EntryTable.find?_eq hn).trans hi
  rw [makeFile, hn]
  apply (Does.liftExcept _ _).bind
  apply (Directory.does_ofInode hm h hp).bind
  rw [hfind]
  exact Does.pure _ _

variable (hp : s.records.kind p = .directory) (hnone : (s.records.table p).lookup n = none)

include hp hnone

theorem does_makeFile_noInode (hfree : s.records.lowestFree .inode l.inodeCount = none) :
    Does (makeFile p name) s (.error .noSpace) s := by
  have hfind : (s.directory p).find? name = none := (EntryTable.find?_eq hn).trans hnone
  rw [makeFile, hn]
  apply (Does.liftExcept _ _).bind
  apply (Directory.does_ofInode hm h hp).bind
  rw [hfind]
  exact (File.does_make_full hm hfree).bind_error

variable (hfree : s.records.lowestFree .inode l.inodeCount = some i)

include hfree

theorem does_makeFile_noSlot (hslot : (s.records.table p).findFinIdx? Entry.isFree = none) :
    Does (makeFile p name) s (.error .noSpace)
      ((s.addInode i (.new .file s.clock)).discard i) := by
  have hi : i < l.inodeCount := (Records.lowestFree_eq_some_iff.mp hfree).2.1
  have hfind : (s.directory p).find? name = none := (EntryTable.find?_eq hn).trans hnone
  have hlink : (s.directory p).table.link name i = .error .noSpace :=
    EntryTable.link_full (l.small_of_lt (r := .inode) hi) hn hslot
  rw [makeFile, hn]
  apply (Does.liftExcept _ _).bind
  apply (Directory.does_ofInode hm h hp).bind
  rw [hfind]
  apply (File.does_make hm hfree).bind
  have hfail := ViewM.does_through
    (Directory.does_link_error (s := s.addInode i (.new .file s.clock)) hlink)
  have hundo := File.does_discard_made hm hi
  exact (does_orUndo_error hfail hundo).bind_error

theorem does_makeFile (hslot : (s.records.table p).findFinIdx? Entry.isFree = some slot) :
    Does (makeFile p name) s (.ok i)
      ((s.addInode i (.new .file s.clock)).setTable p
        ((s.records.table p).put slot ⟨.ofNat i, n⟩)) := by
  obtain ⟨-, hi, hunused, -⟩ := Records.lowestFree_eq_some_iff.mp hfree
  obtain ⟨hkind, hzero⟩ := h.kind_of_free hunused
  have hpi : p ≠ i := by
    rintro rfl
    rw [hp] at hkind
    cases hkind
  have hfind : (s.directory p).find? name = none := (EntryTable.find?_eq hn).trans hnone
  have hlink : (s.directory p).table.link name i
      = .ok ((s.records.table p).put slot ⟨.ofNat i, n⟩) :=
    EntryTable.link_eq (l.small_of_lt (r := .inode) hi) hn hslot
  have hm' : (s.addInode i (.new .file s.clock)).mounted = true := hm
  have hexact : (s.addInode i (.new .file s.clock)).records.Exact l := by
    rw [Scene.records_addInode _ hi]
    exact h.addFile hkind hzero hi (Inode.kind_new _ _) fun _ => Inode.block?_new _ _
  have hdir : (s.addInode i (.new .file s.clock)).records.kind p = .directory := by
    rw [Scene.records_addInode _ hi, Records.kind_addInode, if_neg hpi, hp]
  have hblock : s.records.tableBlock p
      = (s.addInode i (.new .file s.clock)).records.tableBlock p := by
    rw [Scene.records_addInode _ hi, Records.tableBlock_addInode hpi]
  rw [makeFile, hn]
  apply (Does.liftExcept _ _).bind
  apply (Directory.does_ofInode hm h hp).bind
  rw [hfind]
  apply (File.does_make hm hfree).bind
  have hdone := ViewM.does_through (Directory.does_link hm' hexact hdir hblock hlink)
  exact (does_orUndo_ok hdone).bind (Does.pure _ _)

end makeFile

/-! ## Making a directory -/

section makeDirectory

theorem does_makeDirectory_badName (hn : StoredName.encode name = .error e) :
    Does (makeDirectory p name) s (.error e) s := by
  rw [makeDirectory, hn]
  exact (Does.liftExcept _ _).bind_error

variable (hm : s.mounted = true) (h : s.records.Exact l) (hn : StoredName.encode name = .ok n)

include hm h hn

theorem does_makeDirectory_notOpened (hp : s.opened p = .error e) :
    Does (makeDirectory p name) s (.error e) s := by
  rw [makeDirectory, hn]
  apply (Does.liftExcept _ _).bind
  have hopen := Directory.does_ofInode_opened hm h p
  rw [hp] at hopen
  exact hopen.bind_error

theorem does_makeDirectory_existing (hp : s.records.kind p = .directory)
    (hi : (s.records.table p).lookup n = some i) :
    Does (makeDirectory p name) s (.error .alreadyExists) s := by
  have hfind : (s.directory p).find? name = some i := (EntryTable.find?_eq hn).trans hi
  rw [makeDirectory, hn]
  apply (Does.liftExcept _ _).bind
  apply (Directory.does_ofInode hm h hp).bind
  rw [hfind]
  exact (Does.throw _ _).bind_error

variable (hp : s.records.kind p = .directory) (hnone : (s.records.table p).lookup n = none)

include hp hnone

theorem does_makeDirectory_of_make {r : Except Error Nat} {s' : Scene l}
    (hmake : Does (do
      let child ← Directory.make p
      orUndo (ViewM.through (s.directory p) (Directory.link name child.index)) child.discard
      return child.index) s r s') :
    Does (makeDirectory p name) s r s' := by
  have hfind : (s.directory p).find? name = none := (EntryTable.find?_eq hn).trans hnone
  rw [makeDirectory, hn]
  apply (Does.liftExcept _ _).bind
  apply (Directory.does_ofInode hm h hp).bind
  rw [hfind]
  exact hmake

theorem does_makeDirectory_noInode
    (hfree : s.records.lowestFree .inode l.inodeCount = none) :
    Does (makeDirectory p name) s (.error .noSpace) s :=
  does_makeDirectory_of_make hm h hn hp hnone (Directory.does_make_noInode hm hfree).bind_error

variable (hfree : s.records.lowestFree .inode l.inodeCount = some i)

include hfree

theorem does_makeDirectory_noBlock
    (hblock : s.records.lowestFree .block l.blockCount = none) :
    Does (makeDirectory p name) s (.error .noSpace)
      ((s.mark .inode i true).mark .inode i false) :=
  does_makeDirectory_of_make hm h hn hp hnone
    (Directory.does_make_noBlock hm hfree hblock).bind_error

variable (hblock : s.records.lowestFree .block l.blockCount = some b)

include hblock

theorem does_makeDirectory_noSlot
    (hslot : (s.records.table p).findFinIdx? Entry.isFree = none) :
    Does (makeDirectory p name) s (.error .noSpace)
      ((s.addDirectory i b (Directory.firstRecord s.clock b)
        (Directory.firstEntries i p)).discard i) := by
  have hi : i < l.inodeCount := (Records.lowestFree_eq_some_iff.mp hfree).2.1
  have hsmall : p < UInt16.size :=
    l.small_of_lt (r := .inode) (h.lt_of_live (Records.ne_free_of_directory hp))
  have hlink : (s.directory p).table.link name i = .error .noSpace :=
    EntryTable.link_full (l.small_of_lt (r := .inode) hi) hn hslot
  apply does_makeDirectory_of_make hm h hn hp hnone
  apply (Directory.does_make hm h.reserves hsmall hfree hblock).bind
  have hfail := ViewM.does_through
    (Directory.does_link_error (s := s.addDirectory i b (Directory.firstRecord s.clock b)
      (Directory.firstEntries i p)) hlink)
  have hundo := Directory.does_discard_made hm h hfree hblock (Directory.firstEntries i p)
  exact (does_orUndo_error hfail hundo).bind_error

theorem does_makeDirectory
    (hslot : (s.records.table p).findFinIdx? Entry.isFree = some slot) :
    Does (makeDirectory p name) s (.ok i)
      ((s.addDirectory i b (Directory.firstRecord s.clock b)
        (Directory.firstEntries i p)).setTable p
          ((s.records.table p).put slot ⟨.ofNat i, n⟩)) := by
  obtain ⟨-, hi, hunused, -⟩ := Records.lowestFree_eq_some_iff.mp hfree
  obtain ⟨-, hlt, hfreeBlock, -⟩ := Records.lowestFree_eq_some_iff.mp hblock
  obtain ⟨hkind, hzero⟩ := h.kind_of_free hunused
  have hge := h.reserves.le_of_free hfreeBlock
  have hsmall : p < UInt16.size :=
    l.small_of_lt (r := .inode) (h.lt_of_live (Records.ne_free_of_directory hp))
  have hpi : p ≠ i := by
    rintro rfl
    rw [hp] at hkind
    cases hkind
  have hlink : (s.directory p).table.link name i
      = .ok ((s.records.table p).put slot ⟨.ofNat i, n⟩) :=
    EntryTable.link_eq (l.small_of_lt (r := .inode) hi) hn hslot
  let s' := s.addDirectory i b (Directory.firstRecord s.clock b) (Directory.firstEntries i p)
  have hrecords := s.records_addDirectory (x := Directory.firstRecord s.clock b)
    (t := Directory.firstEntries i p) hi hge hlt
  have hm' : s'.mounted = true := hm
  have hexact : s'.records.Exact l := by
    rw [hrecords]
    exact h.addDirectory hkind hzero hi hfreeBlock hlt (Directory.kind_firstRecord _ _)
      (Directory.block?_firstRecord _ (h.ne_zero_of_free hfreeBlock)
        (l.small_of_lt (r := .block) hlt))
  have hdir : s'.records.kind p = .directory := by
    rw [hrecords, Records.kind_addInode, if_neg hpi, Records.kind_takeBlock, hp]
  have htable : s.records.tableBlock p = s'.records.tableBlock p := by
    rw [hrecords, Records.tableBlock_addInode hpi]
    rfl
  apply does_makeDirectory_of_make hm h hn hp hnone
  apply (Directory.does_make hm h.reserves hsmall hfree hblock).bind
  have hdone := ViewM.does_through (Directory.does_link hm' hexact hdir htable hlink)
  exact (does_orUndo_ok hdone).bind (Does.pure _ _)

end makeDirectory

/-! ## Removing a name -/

section discard

variable (hm : s.mounted = true) (h : s.records.Exact l)

include hm h

theorem does_discard_file (hi : s.records.kind i = .file) :
    Does (discard i) s (.ok ()) (s.discard i) := by
  have hlive := Records.ne_free_of_file hi
  have hused := Records.used_of_kind_ne hlive
  have hkind : (s.records.inode i).kind = .file := (Records.kind_of_used hused).symm.trans hi
  apply (does_readInode hm hused).bind
  simp only [hkind]
  apply (File.does_ofInode hm hi).bind
  exact does_discardInode_of_exact hm h hlive

theorem does_discard_notEmpty (hi : s.records.kind i = .directory)
    (hfull : (s.records.table i).holdsNothing = false) :
    Does (discard i) s (.error .directoryNotEmpty) s := by
  have hused : s.records.used .inode i = true :=
    Records.used_of_kind_ne (Records.ne_free_of_directory hi)
  have hkind : (s.records.inode i).kind = .directory :=
    (Records.kind_of_used hused).symm.trans hi
  have hview : (s.directory i).holdsNothing = false := hfull
  apply (does_readInode hm hused).bind
  simp only [hkind]
  apply (Directory.does_ofInode hm h hi).bind
  simp only [hview]
  exact (Does.throw _ _).bind_error

theorem does_discard_directory (hi : s.records.kind i = .directory)
    (hempty : (s.records.table i).holdsNothing = true) :
    Does (discard i) s (.ok ()) ((s.discard i).leave i) := by
  have hlive := Records.ne_free_of_directory hi
  have hused := Records.used_of_kind_ne hlive
  have hkind : (s.records.inode i).kind = .directory :=
    (Records.kind_of_used hused).symm.trans hi
  have hview : (s.directory i).holdsNothing = true := hempty
  apply (does_readInode hm hused).bind
  simp only [hkind]
  apply (Directory.does_ofInode hm h hi).bind
  simp only [hview]
  apply (does_discardInode_of_exact hm h hlive).bind
  apply Does.get_bind
  intro history
  by_cases hcwd : s.cwd = i
  · have hstate : (Settled.state (s.discard i) history).cwd = i :=
      (Scene.cwd_discard s i).trans hcwd
    rw [if_pos hstate, Scene.leave, Scene.cwd_discard, if_pos hcwd]
    exact Does.modify fun history => ⟨history, rfl⟩
  · have hstate : ¬ (Settled.state (s.discard i) history).cwd = i := by
      intro he
      exact hcwd ((Scene.cwd_discard s i).symm.trans he)
    have hstay : (s.discard i).leave i = s.discard i := by
      rw [Scene.leave, Scene.cwd_discard, if_neg hcwd, ← Scene.cwd_discard s i]
    rw [if_neg hstate, hstay]
    exact Does.pure _ _

end discard

section unlink

theorem does_unlink_selfOrParent (hdot : isSelfOrParent name = true) :
    Does (unlink p name) s (.error .invalidName) s := by
  rw [unlink, if_pos hdot]
  exact (Does.throw _ _).bind_error

variable (hm : s.mounted = true) (h : s.records.Exact l) (hdot : isSelfOrParent name = false)

include hm h hdot

theorem does_unlink_notOpened (hp : s.opened p = .error e) :
    Does (unlink p name) s (.error e) s := by
  rw [unlink, if_neg (Bool.eq_false_iff.mp hdot)]
  have hopen := Directory.does_ofInode_opened hm h p
  rw [hp] at hopen
  exact hopen.bind_error

variable (hp : s.records.kind p = .directory)

include hp

theorem does_unlink_missing (hnone : (s.records.table p).find? name = none) :
    Does (unlink p name) s (.error .notFound) s := by
  have hfind : (s.directory p).find? name = none := hnone
  rw [unlink, if_neg (Bool.eq_false_iff.mp hdot)]
  apply (Directory.does_ofInode hm h hp).bind
  rw [hfind]
  exact Does.throw _ _

variable (hslot : (s.records.table p).slotOf? name = some slot)
  (htarget : ((s.records.table p).entry slot).target = i)

include hslot htarget

theorem does_unlink_refused (hi : Does (discard i) s (.error e) s) :
    Does (unlink p name) s (.error e) s := by
  have hfind : (s.directory p).find? name = some i := by
    rw [← htarget]
    exact congrArg _ hslot
  rw [unlink, if_neg (Bool.eq_false_iff.mp hdot)]
  apply (Directory.does_ofInode hm h hp).bind
  rw [hfind]
  exact hi.bind_error

theorem does_unlink {s' : Scene l} (hi : Does (discard i) s (.ok ()) s')
    (hm' : s'.mounted = true) (h' : s'.records.Exact l) (hp' : s'.records.kind p = .directory)
    (hblock : s.records.tableBlock p = s'.records.tableBlock p) :
    Does (unlink p name) s (.ok ()) (s'.setTable p ((s.records.table p).put slot .empty)) := by
  have hfind : (s.directory p).find? name = some i := by
    rw [← htarget]
    exact congrArg _ hslot
  have htable : (s.directory p).table.unlink name
      = .ok (((s.records.table p).entry slot).target, (s.records.table p).put slot .empty) :=
    EntryTable.unlink_eq hslot
  rw [unlink, if_neg (Bool.eq_false_iff.mp hdot)]
  apply (Directory.does_ofInode hm h hp).bind
  rw [hfind]
  apply hi.bind
  have hdone := ViewM.does_through (Directory.does_unlink hm' h' hp' hblock htable)
  exact hdone.bind (Does.pure _ _)

end unlink

/-! ## Changing a name -/

section relabel

theorem does_relabel_selfOrParent (hdot : (isSelfOrParent old || isSelfOrParent new) = true) :
    Does (relabel p old new) s (.error .invalidName) s := by
  rw [relabel, if_pos hdot]
  exact (Does.throw _ _).bind_error

variable (hdot : (isSelfOrParent old || isSelfOrParent new) = false)

include hdot

theorem does_relabel_badOld (hold : StoredName.encode old = .error e) :
    Does (relabel p old new) s (.error e) s := by
  rw [relabel, if_neg (Bool.eq_false_iff.mp hdot), hold]
  exact (Does.liftExcept _ _).bind_error

theorem does_relabel_badNew (hold : StoredName.encode old = .ok n)
    (hnew : StoredName.encode new = .error e) :
    Does (relabel p old new) s (.error e) s := by
  rw [relabel, if_neg (Bool.eq_false_iff.mp hdot), hold, hnew]
  apply (Does.liftExcept _ _).bind
  exact (Does.liftExcept _ _).bind_error

variable (hm : s.mounted = true) (h : s.records.Exact l) (hold : StoredName.encode old = .ok n)
  (hnew : StoredName.encode new = .ok m)

include hm h hold hnew

theorem does_relabel_notOpened (hp : s.opened p = .error e) :
    Does (relabel p old new) s (.error e) s := by
  have hopen := Directory.does_ofInode_opened hm h p
  rw [hp] at hopen
  rw [relabel, if_neg (Bool.eq_false_iff.mp hdot), hold, hnew]
  apply (Does.liftExcept _ _).bind
  apply (Does.liftExcept _ _).bind
  exact hopen.bind_error

variable (hp : s.records.kind p = .directory)

include hp

theorem does_relabel_missing (hnone : (s.records.table p).lookup n = none) :
    Does (relabel p old new) s (.error .notFound) s := by
  have hfind : (s.directory p).find? old = none := (EntryTable.find?_eq hold).trans hnone
  rw [relabel, if_neg (Bool.eq_false_iff.mp hdot), hold, hnew]
  apply (Does.liftExcept _ _).bind
  apply (Does.liftExcept _ _).bind
  apply (Directory.does_ofInode hm h hp).bind
  rw [hfind]
  exact (Does.throw _ _).bind_error

variable (hi : (s.records.table p).lookup n = some i)

include hi

theorem does_relabel_same (hsame : n = m) : Does (relabel p old new) s (.ok ()) s := by
  have hfind : (s.directory p).find? old = some i := (EntryTable.find?_eq hold).trans hi
  rw [relabel, if_neg (Bool.eq_false_iff.mp hdot), hold, hnew]
  apply (Does.liftExcept _ _).bind
  apply (Does.liftExcept _ _).bind
  apply (Directory.does_ofInode hm h hp).bind
  simp only [hfind, hsame]
  exact Does.pure _ _

theorem does_relabel_existing {j : Nat} (hne : n ≠ m)
    (hj : (s.records.table p).lookup m = some j) :
    Does (relabel p old new) s (.error .alreadyExists) s := by
  have hfind : (s.directory p).find? old = some i := (EntryTable.find?_eq hold).trans hi
  have hfind' : (s.directory p).find? new = some j := (EntryTable.find?_eq hnew).trans hj
  rw [relabel, if_neg (Bool.eq_false_iff.mp hdot), hold, hnew]
  apply (Does.liftExcept _ _).bind
  apply (Does.liftExcept _ _).bind
  apply (Directory.does_ofInode hm h hp).bind
  simp only [hfind, hfind', if_neg hne]
  exact (Does.throw _ _).bind_error

theorem does_relabel (hne : n ≠ m) (hnone : (s.records.table p).lookup m = none)
    (hslot : (s.records.table p).slotOf? old = some slot) :
    Does (relabel p old new) s (.ok ())
      (s.setTable p
        ((s.records.table p).put slot ⟨((s.records.table p).entry slot).inode, m⟩)) := by
  have hfind : (s.directory p).find? old = some i := (EntryTable.find?_eq hold).trans hi
  have hfind' : (s.directory p).find? new = none := (EntryTable.find?_eq hnew).trans hnone
  have htable : (s.directory p).table.relabel old new
      = .ok ((s.records.table p).put slot ⟨((s.records.table p).entry slot).inode, m⟩) :=
    EntryTable.relabel_eq hslot hnew
  rw [relabel, if_neg (Bool.eq_false_iff.mp hdot), hold, hnew]
  apply (Does.liftExcept _ _).bind
  apply (Does.liftExcept _ _).bind
  apply (Directory.does_ofInode hm h hp).bind
  simp only [hfind, hfind', if_neg hne]
  exact ViewM.does_through (Directory.does_relabel hm h hp rfl htable)

end relabel

end Volume

end BlockFS
