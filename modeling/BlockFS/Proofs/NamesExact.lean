import BlockFS.Proofs.DeviceView
import BlockFS.Proofs.Scene.Maps

/-!
# Names are looked up and changed as in maps

On every mounted volume that calls lead to, each operation on a name answers what a finite map from the
first 14 bytes of names to inodes would answer, and changes the maps of the directories in one place or
not at all.
-/

namespace BlockFS

open StoredName (Storable key)

/-! ## What each operation answers -/

namespace Volume

/-- The directories on the device as maps. -/
def maps (v : Volume) (l : Layout) : NameMaps := (v.records l).tree.maps

variable (v : Volume) (l : Layout)

/-- What is asked of a directory is refused where there is none. -/
structure RefusesOthers {α : Type} (x : Nat → VolumeM α) : Prop where
  unused : ∀ p, (v.records l).used .inode p = false → v.Answers (x p) (.error .notFound)
  other : ∀ p, (v.records l).used .inode p = true → (v.records l).kind p ≠ .directory →
    v.Answers (x p) (.error .notADirectory)

/-- A name is found exactly where its key is linked. -/
structure FindsExactly : Prop where
  other : ∀ p name, (v.records l).kind p ≠ .directory →
    v.Answers (find p name) (.error .notFound)
  linked : ∀ p name i, (v.records l).kind p = .directory → Storable name →
    (v.maps l).map p (key name) = some i → v.Answers (find p name) (.ok i)
  missing : ∀ p name, (v.records l).kind p = .directory →
    (Storable name → (v.maps l).map p (key name) = none) →
    v.Answers (find p name) (.error .notFound)

/-- A file is made under a key that is not linked, with the least inode that is not in use. -/
structure MakesFilesExactly : Prop where
  badName : ∀ p name, ¬ Storable name → v.Answers (makeFile p name) (.error .invalidName)
  others : ∀ name, Storable name → v.RefusesOthers l (makeFile · name)
  linked : ∀ p name i, (v.records l).kind p = .directory → Storable name →
    (v.maps l).map p (key name) = some i → v.Answers (makeFile p name) (.ok i)
  full : ∀ p name, (v.records l).kind p = .directory → Storable name →
    (v.maps l).map p (key name) = none →
    (v.records l).AllUsed l .inode ∨ (v.records l).AllSlotsUsed p →
    ∃ v', makeFile p name v = .error .noSpace v' ∧ v'.maps l = v.maps l
  made : ∀ p name i, (v.records l).kind p = .directory → Storable name →
    (v.maps l).map p (key name) = none → (v.records l).LeastFree l i →
    ¬ (v.records l).AllSlotsUsed p →
    ∃ v', makeFile p name v = .ok i v' ∧
      v'.maps l = (v.maps l).link p (key name) i .file NameMaps.nothing ∧
      ((v'.records l).inode i).size = 0 ∧ ∀ slot, ((v'.records l).inode i).block? slot = none

/-- A directory is made under a key that is not linked, with the least inode that is not in use. -/
structure MakesDirectoriesExactly : Prop where
  badName : ∀ p name, ¬ Storable name → v.Answers (makeDirectory p name) (.error .invalidName)
  others : ∀ name, Storable name → v.RefusesOthers l (makeDirectory · name)
  linked : ∀ p name i, (v.records l).kind p = .directory → Storable name →
    (v.maps l).map p (key name) = some i →
    v.Answers (makeDirectory p name) (.error .alreadyExists)
  full : ∀ p name, (v.records l).kind p = .directory → Storable name →
    (v.maps l).map p (key name) = none →
    (v.records l).AllUsed l .inode ∨ (v.records l).AllUsed l .block ∨
      (v.records l).AllSlotsUsed p →
    ∃ v', makeDirectory p name v = .error .noSpace v' ∧ v'.maps l = v.maps l
  made : ∀ p name i, (v.records l).kind p = .directory → Storable name →
    (v.maps l).map p (key name) = none → (v.records l).LeastFree l i →
    ¬ (v.records l).AllUsed l .block → ¬ (v.records l).AllSlotsUsed p →
    ∃ v', makeDirectory p name v = .ok i v' ∧
      v'.maps l = (v.maps l).link p (key name) i .directory (NameMaps.selfAndParent i p)

/-- A key is removed with the file, or the directory without children, that it links. -/
structure UnlinksExactly : Prop where
  selfOrParent : ∀ p name, isSelfOrParent name = true →
    v.Answers (unlink p name) (.error .invalidName)
  others : ∀ name, isSelfOrParent name = false → v.RefusesOthers l (unlink · name)
  missing : ∀ p name, isSelfOrParent name = false → (v.records l).kind p = .directory →
    (Storable name → (v.maps l).map p (key name) = none) →
    v.Answers (unlink p name) (.error .notFound)
  notEmpty : ∀ p name i, isSelfOrParent name = false → (v.records l).kind p = .directory →
    Storable name → (v.maps l).map p (key name) = some i → (v.records l).kind i = .directory →
    (∃ n, n ≠ .here ∧ n ≠ .up ∧ (v.maps l).map i n ≠ none) →
    v.Answers (unlink p name) (.error .directoryNotEmpty)
  removed : ∀ p name i, isSelfOrParent name = false → (v.records l).kind p = .directory →
    Storable name → (v.maps l).map p (key name) = some i →
    ((v.records l).kind i = .directory →
      ∀ n, n ≠ .here → n ≠ .up → (v.maps l).map i n = none) →
    ∃ v', unlink p name v = .ok () v' ∧ v'.maps l = (v.maps l).unlink p (key name) i ∧
      v'.cwd = if v.cwd = i then rootInode else v.cwd

/-- A name that may be changed, and that another may be changed to. -/
structure Changeable (name : String) : Prop where
  other : isSelfOrParent name = false
  storable : Storable name

/-- A key that is linked is replaced by one that is not. -/
structure RelabelsExactly : Prop where
  badName : ∀ p old new, ¬ Changeable old ∨ ¬ Changeable new →
    v.Answers (relabel p old new) (.error .invalidName)
  others : ∀ old new, Changeable old → Changeable new → v.RefusesOthers l (relabel · old new)
  missing : ∀ p old new, Changeable old → Changeable new → (v.records l).kind p = .directory →
    (v.maps l).map p (key old) = none → v.Answers (relabel p old new) (.error .notFound)
  same : ∀ p old new i, Changeable old → Changeable new → (v.records l).kind p = .directory →
    (v.maps l).map p (key old) = some i → key old = key new →
    v.Answers (relabel p old new) (.ok ())
  linked : ∀ p old new i j, Changeable old → Changeable new →
    (v.records l).kind p = .directory → (v.maps l).map p (key old) = some i →
    key old ≠ key new → (v.maps l).map p (key new) = some j →
    v.Answers (relabel p old new) (.error .alreadyExists)
  relabelled : ∀ p old new i, Changeable old → Changeable new →
    (v.records l).kind p = .directory → (v.maps l).map p (key old) = some i →
    key old ≠ key new → (v.maps l).map p (key new) = none →
    ∃ v', relabel p old new v = .ok () v' ∧
      v'.maps l = (v.maps l).relabel p (key old) (key new)

end Volume

/-! ## The operations answer so -/

namespace Scene

open Volume

variable {l : Layout} {s s' : Scene l} {p i : Nat} {name : String} {α : Type} {x : VolumeM α}
  {r : Except Error α}

theorem find?_table_eq (hname : Storable name) :
    (s.records.table p).find? name = s.maps.map p (key name) :=
  EntryTable.find?_eq (StoredName.encode_of_storable hname)

/-- A key that is linked lies in a slot. -/
theorem exists_slot (hname : Storable name) (hi : s.maps.map p (key name) = some i) :
    ∃ slot, (s.records.table p).slotOf? name = some slot ∧
      (s.records.table p).findFinIdx? (fun e => e.isNamed (key name)) = some slot ∧
      ((s.records.table p).entry slot).target = i ∧
      ((s.records.table p).entry slot).name = key name := by
  obtain ⟨slot, hslot, htarget, -, hstored⟩ := EntryTable.exists_slot_of_lookup hi
  exact ⟨slot, (EntryTable.slotOf?_eq (StoredName.encode_of_storable hname)).trans hslot, hslot,
    htarget, hstored⟩

/-- A name that may not be changed, or not be changed to, is refused first. -/
theorem does_relabel_bad {old new : String} (h : ¬ Changeable old ∨ ¬ Changeable new) :
    Does (relabel p old new) s (.error .invalidName) s := by
  by_cases hdot : (isSelfOrParent old || isSelfOrParent new) = true
  · exact does_relabel_selfOrParent hdot
  · rw [Bool.not_eq_true] at hdot
    obtain ⟨hold, hnew⟩ := Bool.or_eq_false_iff.mp hdot
    by_cases hstorable : Storable old
    · have hbad : ¬ Storable new := fun hstorable' =>
        h.elim (fun hnot => hnot ⟨hold, hstorable⟩) fun hnot => hnot ⟨hnew, hstorable'⟩
      exact does_relabel_badNew hdot (StoredName.encode_of_storable hstorable)
        (StoredName.encode_of_not_storable hbad)
    · exact does_relabel_badOld hdot (StoredName.encode_of_not_storable hstorable)

theorem find?_table_eq_none (hname : Storable name → s.maps.map p (key name) = none) :
    (s.records.table p).find? name = none := by
  by_cases hstorable : Storable name
  · rw [find?_table_eq hstorable]
    exact hname hstorable
  · exact EntryTable.find?_of_error (StoredName.encode_of_not_storable hstorable)

/-- What an action takes a scene to is what it leaves on the volume. -/
theorem exists_left (hx : Does x s r s') (history : History) :
    ∃ v' : Volume, x (Settled.state s history) = withState r v' ∧ v'.records l = s'.records ∧
      v'.cwd = s'.cwd := by
  obtain ⟨history', hx⟩ := hx history
  exact ⟨_, hx, rfl, rfl⟩

/-- A failure after which everything in use is as it was leaves the maps as they were. -/
theorem Same.exists_maps_eq {e : Error} (h : Same s s') (hs : s.Good)
    (hx : Does x s (.error e) s') (history : History) :
    ∃ v' : Volume, x (Settled.state s history) = .error e v' ∧
      v'.maps l = (Settled.state s history : Volume).maps l := by
  obtain ⟨v', hv, hrecords, -⟩ := exists_left hx history
  refine ⟨v', hv, ?_⟩
  rw [Volume.maps, hrecords]
  exact h.maps_eq hs

variable (hm : s.mounted = true) (hs : s.Good) (history : History)

/-- An action that fails where a directory cannot be opened refuses what is none. -/
theorem refusesOthers {x : Nat → VolumeM α}
    (hx : ∀ p e, s.opened p = .error e → Does (x p) s (.error e) s) :
    (Settled.state s history).RefusesOthers l x where
  unused := by
    rintro p (hused : s.records.used .inode p = false)
    have hkind : s.records.kind p ≠ .directory := by
      rw [Records.kind_of_not_used hused]
      exact Kind.noConfusion
    refine (hx p .notFound ?_).answers history
    rw [opened, if_neg hkind, hused]
    rfl
  other := by
    rintro p (hused : s.records.used .inode p = true) (hkind : s.records.kind p ≠ .directory)
    refine (hx p .notADirectory ?_).answers history
    rw [opened, if_neg hkind, if_pos hused]

include hm hs

theorem findsExactly : (Settled.state s history).FindsExactly l := by
  have hfind (p : Nat) (name : String) := does_find hm hs.tidy.toExact p name
  constructor
  · rintro p name (hp : s.records.kind p ≠ .directory)
    have hdo := hfind p name
    rw [Records.find?_table_of_ne hp] at hdo
    exact hdo.answers history
  · rintro p name i - hname (hi : s.maps.map p (key name) = some i)
    have hdo := hfind p name
    rw [find?_table_eq hname, hi] at hdo
    exact hdo.answers history
  · intro p name _ hnone
    have hdo := hfind p name
    rw [find?_table_eq_none hnone] at hdo
    exact hdo.answers history

theorem makesFilesExactly : (Settled.state s history).MakesFilesExactly l := by
  have hexact := hs.tidy.toExact
  constructor
  · intro p name hname
    exact (does_makeFile_badName (StoredName.encode_of_not_storable hname)).answers history
  · intro name hname
    apply refusesOthers history
    intro p e hp
    exact does_makeFile_notOpened hm hexact (StoredName.encode_of_storable hname) hp
  · intro p name i hp hname hi
    exact (does_makeFile_existing hm hexact (StoredName.encode_of_storable hname) hp hi).answers
      history
  · rintro p name (hp : s.records.kind p = .directory) hname hnone hfull
    have hn := StoredName.encode_of_storable hname
    match hfree : s.records.lowestFree .inode l.inodeCount with
    | none =>
      have hdo := does_makeFile_noInode hm hexact hn hp hnone hfree
      exact (Same.refl s).exists_maps_eq hs hdo history
    | some i =>
      obtain ⟨-, hi, hunused, -⟩ := Records.lowestFree_eq_some_iff.mp hfree
      have hslots : s.records.AllSlotsUsed p := by
        apply hfull.resolve_left
        intro hall
        exact Bool.false_ne_true (hunused.symm.trans (hall i hi))
      have hdo := does_makeFile_noSlot hm hexact hn hp hnone hfree
        (Records.findFinIdx?_isFree_eq_none_iff.mpr hslots)
      exact (intact_discard_addInode hi hunused).exists_maps_eq hs hdo history
  · rintro p name i (hp : s.records.kind p = .directory) hname hnone hi hslots
    have hfree := hexact.lowestFree_of_leastFree hi
    obtain ⟨slot, hslot⟩ := Records.exists_findFinIdx?_isFree hslots
    obtain ⟨s', hdo, hmakes⟩ := does_makeFile_makes hm hs
      (StoredName.encode_of_storable hname) hp hnone hfree hslot
    obtain ⟨v', hv, hrecords, -⟩ := exists_left hdo history
    refine ⟨v', hv, ?_, ?_⟩
    · rw [Volume.maps, hrecords]
      exact hmakes.maps_eq hs
    · rw [hrecords]
      obtain ⟨hsize, hblank⟩ := hmakes.blank
      exact ⟨hsize, fun k => Records.content_eq_none_iff.mp (hblank k)⟩

theorem makesDirectoriesExactly : (Settled.state s history).MakesDirectoriesExactly l := by
  have hexact := hs.tidy.toExact
  constructor
  · intro p name hname
    exact (does_makeDirectory_badName (StoredName.encode_of_not_storable hname)).answers history
  · intro name hname
    apply refusesOthers history
    intro p e hp
    exact does_makeDirectory_notOpened hm hexact (StoredName.encode_of_storable hname) hp
  · intro p name i hp hname hi
    exact (does_makeDirectory_existing hm hexact (StoredName.encode_of_storable hname) hp
      hi).answers history
  · rintro p name (hp : s.records.kind p = .directory) hname hnone hfull
    have hn := StoredName.encode_of_storable hname
    match hfree : s.records.lowestFree .inode l.inodeCount with
    | none =>
      have hdo := does_makeDirectory_noInode hm hexact hn hp hnone hfree
      exact (Same.refl s).exists_maps_eq hs hdo history
    | some i =>
      obtain ⟨-, hi, hunused, -⟩ := Records.lowestFree_eq_some_iff.mp hfree
      have hrest := hfull.resolve_left fun hall =>
        Bool.false_ne_true (hunused.symm.trans (hall i hi))
      match hblock : s.records.lowestFree .block l.blockCount with
      | none =>
        have hdo := does_makeDirectory_noBlock hm hexact hn hp hnone hfree hblock
        exact (intact_mark_mark hfree).exists_maps_eq hs hdo history
      | some b =>
        obtain ⟨-, hb, hunused', -⟩ := Records.lowestFree_eq_some_iff.mp hblock
        have hslots : s.records.AllSlotsUsed p := hrest.resolve_left fun hall =>
          Bool.false_ne_true (hunused'.symm.trans (hall b hb))
        have hdo := does_makeDirectory_noSlot hm hexact hn hp hnone hfree hblock
          (Records.findFinIdx?_isFree_eq_none_iff.mpr hslots)
        exact (intact_discard_addDirectory hexact hfree hblock _).exists_maps_eq hs hdo history
  · rintro p name i (hp : s.records.kind p = .directory) hname hnone hi hblocks hslots
    have hfree := hexact.lowestFree_of_leastFree hi
    obtain ⟨b, hblock⟩ := hexact.exists_lowestFree hblocks
    obtain ⟨slot, hslot⟩ := Records.exists_findFinIdx?_isFree hslots
    obtain ⟨s', hdo, hmakes⟩ := does_makeDirectory_makes hm hs
      (StoredName.encode_of_storable hname) hp hnone hfree hblock hslot
    obtain ⟨v', hv, hrecords, -⟩ := exists_left hdo history
    refine ⟨v', hv, ?_⟩
    rw [Volume.maps, hrecords]
    exact hmakes.maps_eq hs

theorem unlinksExactly : (Settled.state s history).UnlinksExactly l := by
  have hexact := hs.tidy.toExact
  constructor
  · intro p name hdot
    exact (does_unlink_selfOrParent hdot).answers history
  · intro name hdot
    exact refusesOthers history fun p e hp => does_unlink_notOpened hm hexact hdot hp
  · intro p name hdot hp hnone
    exact (does_unlink_missing hm hexact hdot hp (find?_table_eq_none hnone)).answers history
  · rintro p name i hdot (hp : s.records.kind p = .directory) hname hi
      (hk : s.records.kind i = .directory) ⟨n, hhere, hup, hn⟩
    obtain ⟨slot, hslot, -, htarget, -⟩ := exists_slot hname hi
    have hfull : (s.records.table i).holdsNothing = false := by
      rw [← Bool.not_eq_true]
      intro hnothing
      exact hn ((hs.tidy.tree.holdsNothing_iff hk).mp hnothing n hhere hup)
    exact (does_unlink_refused hm hexact hdot hp hslot htarget
      (does_discard_notEmpty hm hexact hk hfull)).answers history
  · rintro p name i hdot (hp : s.records.kind p = .directory) hname hi hempty
    obtain ⟨slot, hslot, hfind, htarget, hstored⟩ := exists_slot hname hi
    have hlinks := Records.links_of_slot hp hdot (StoredName.encode_of_storable hname) hfind
    rw [htarget] at hlinks
    obtain ⟨s', hdo, hgone⟩ := does_unlink_removes hm hs hdot hslot hlinks fun hk =>
      (hs.tidy.tree.holdsNothing_iff hk).mpr (hempty hk)
    obtain ⟨v', hv, hrecords, hcwd⟩ := exists_left hdo history
    refine ⟨v', hv, ?_, hcwd.trans hgone.cwd⟩
    rw [Volume.maps, hrecords]
    exact hgone.maps_eq hs hstored

theorem relabelsExactly : (Settled.state s history).RelabelsExactly l := by
  have hexact := hs.tidy.toExact
  have hdot {old new : String} (hold : Changeable old) (hnew : Changeable new) :
      (isSelfOrParent old || isSelfOrParent new) = false := by
    rw [hold.other, hnew.other]
    rfl
  have hn {name : String} (hname : Changeable name) := StoredName.encode_of_storable hname.storable
  constructor
  · intro p old new hbad
    exact (does_relabel_bad hbad).answers history
  · intro old new hold hnew
    exact refusesOthers history fun p e hp =>
      does_relabel_notOpened (hdot hold hnew) hm hexact (hn hold) (hn hnew) hp
  · intro p old new hold hnew hp hnone
    exact (does_relabel_missing (hdot hold hnew) hm hexact (hn hold) (hn hnew) hp hnone).answers
      history
  · intro p old new i hold hnew hp hi hsame
    exact (does_relabel_same (hdot hold hnew) hm hexact (hn hold) (hn hnew) hp hi hsame).answers
      history
  · intro p old new i j hold hnew hp hi hne hj
    exact (does_relabel_existing (hdot hold hnew) hm hexact (hn hold) (hn hnew) hp hi hne
      hj).answers history
  · intro p old new i hold hnew hp hi hne hnone
    obtain ⟨slot, s', hslot, hdo, hnewName⟩ := does_relabel_relabels (hdot hold hnew) hm hs
      (hn hold) (hn hnew) hp hi hne hnone
    obtain ⟨hused, hstored⟩ := EntryTable.named_of_findFinIdx? hslot
    obtain ⟨v', hv, hrecords, -⟩ := exists_left hdo history
    refine ⟨v', hv, ?_⟩
    rw [Volume.maps, hrecords]
    exact hnewName.maps_eq hs hused hstored

end Scene

/-- On every mounted volume that calls lead to, names are looked up, linked, removed and changed as in
maps whose keys are the first 14 bytes of the names. -/
theorem Reached.names_exact {g : Geometry} {v : Service} {logs : Logs} {l : Layout}
    (h : Reached g v logs) (hl : Layout.ofGeometry g = .ok l)
    (hm : v.volume.isMounted = true) :
    l.Reads v.volume.device (v.volume.records l) ∧
      (∀ name name', Storable name → Storable name' → (key name = key name' ↔
        name.toUTF8.toList.take nameWidth = name'.toUTF8.toList.take nameWidth)) ∧
      v.volume.FindsExactly l ∧ v.volume.MakesFilesExactly l ∧
      v.volume.MakesDirectoriesExactly l ∧ v.volume.UnlinksExactly l ∧
      v.volume.RelabelsExactly l := by
  obtain ⟨s, history, hvolume, -, hs, -⟩ := h.exists_scene hl
  refine ⟨h.reads hl, fun _ _ => StoredName.key_eq_key_iff, ?_⟩
  rw [hvolume] at hm ⊢
  rw [isMounted_state] at hm
  exact ⟨Scene.findsExactly hm hs history, Scene.makesFilesExactly hm hs history,
    Scene.makesDirectoriesExactly hm hs history, Scene.unlinksExactly hm hs history,
    Scene.relabelsExactly hm hs history⟩

/-- A new floppy disk, on which two names with the same first 14 bytes were given to files. -/
theorem Reached.names_exact_floppy :
    let v := (Call.edit .mount).after ((Call.edit (.makeFile rootInode "fourteen bytes!")).after
      ((Call.edit (.makeFile rootInode "fourteen bytes?")).after Service.floppy))
    ∃ logs, Reached .floppy v logs ∧ Layout.ofGeometry .floppy = .ok .floppy ∧
      v.volume.isMounted = true ∧
      Layout.floppy.Reads v.volume.device (v.volume.records .floppy) ∧
      (∀ name name', Storable name → Storable name' → (key name = key name' ↔
        name.toUTF8.toList.take nameWidth = name'.toUTF8.toList.take nameWidth)) ∧
      v.volume.FindsExactly .floppy ∧ v.volume.MakesFilesExactly .floppy ∧
      v.volume.MakesDirectoriesExactly .floppy ∧ v.volume.UnlinksExactly .floppy ∧
      v.volume.RelabelsExactly .floppy := by
  have hbefore := (reached_floppy.call (.edit (.makeFile rootInode "fourteen bytes?"))).call
    (.edit (.makeFile rootInode "fourteen bytes!"))
  have hmounted := hbefore.isMounted_mount
  have hreached := hbefore.call (.edit .mount)
  exact ⟨_, hreached, Layout.ofGeometry_floppy, hmounted,
    hreached.names_exact Layout.ofGeometry_floppy hmounted⟩

end BlockFS
