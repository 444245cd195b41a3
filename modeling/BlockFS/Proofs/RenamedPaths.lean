import BlockFS.Proofs.Faults.Calls
import BlockFS.Proofs.LossyText
import BlockFS.Proofs.NamesExact

/-!
# What a new name leads to

Changing a name takes both names as they stand: the old one is looked up in the current directory, and
the new one is stored there.  In a path, however, a slash in front leads to the root and is no part of
the name.  Hence a new name leads to the inode of the old one unless it begins with a slash.  Such a
name is stored with its slash, and a path does not lead to it unless it is as long a row of slashes as
a directory can store.
-/

namespace BlockFS

open Volume
open StoredName (Storable key)

variable {l : Layout} {g : Geometry} {v : Service} {logs : Logs} {s s' : Scene l} {p i : Nat}
  {slot : Fin slotCount} {n m : StoredName} {old new path : String}

/-! ## Reading the same -/

/-- An inode in use has the same record and the same blocks. -/
structure Scene.Alike (i : Nat) (s s' : Scene l) : Prop where
  live : s.records.kind i ≠ .free
  kind : s'.records.kind i = s.records.kind i
  inode : s'.records.inode i = s.records.inode i
  content : ∀ k, s'.records.content i k = s.records.content i k

section

variable (ha : s.Alike i s') (hm : s.mounted = true) (hm' : s'.mounted = true)

include ha hm hm'

theorem Volume.does_fileSize_alike : ∃ n, Does (fileSize i) s (.ok n) s ∧
    Does (fileSize i) s' (.ok n) s' := by
  have hlive' : s'.records.kind i ≠ .free := by
    rw [ha.kind]
    exact ha.live
  have hsize' := does_fileSize hm' (Records.used_of_kind_ne hlive')
  rw [ha.inode] at hsize'
  exact ⟨_, does_fileSize hm (Records.used_of_kind_ne ha.live), hsize'⟩

variable (h : s.records.Exact l)

include h

theorem File.does_readSpans_alike (spans : List Span) : ∃ data,
    Does (readSpans (s.records.inode i) spans) s (.ok data) s ∧
      Does (readSpans (s.records.inode i) spans) s' (.ok data) s' := by
  induction spans with
  | nil => exact ⟨[], Does.pure _ _, Does.pure _ _⟩
  | cons span spans ih =>
    obtain ⟨data, hdata, hdata'⟩ := ih
    cases hblock : (s.records.inode i).block? span.slot with
    | none =>
      simp only [readSpans, hblock]
      exact ⟨[], Does.pure _ _, Does.pure _ _⟩
    | some b =>
      have hown : s.records.Owns i span.slot b := ⟨ha.live, hblock⟩
      have hown' : s'.records.Owns i span.slot b :=
        ⟨ha.kind.symm ▸ ha.live, (congrArg (Inode.block? · span.slot) ha.inode).trans hblock⟩
      have hsame : s'.records.block b = s.records.block b := by
        have hcontent := ha.content span.slot
        rw [hown.content_eq, hown'.content_eq] at hcontent
        exact Option.some_inj.mp hcontent
      obtain ⟨hge, hlt⟩ := h.blocks.range i span.slot b hown
      have hread := does_readBlock hm hge hlt
      have hread' := does_readBlock hm' hge hlt
      rw [hsame] at hread'
      simp only [readSpans, hblock]
      exact ⟨_, hread.bind (hdata.bind (Does.pure _ _)), hread'.bind (hdata'.bind (Does.pure _ _))⟩

theorem Volume.does_readAt_alike (offset length : Nat) : ∃ r,
    Does (readAt i offset length) s r s ∧ Does (readAt i offset length) s' r s' := by
  cases hk : s.records.kind i with
  | free => exact absurd hk ha.live
  | directory =>
    have hk' := ha.kind.trans hk
    exact ⟨_, (File.does_ofInode_directory hm hk).bind_error,
      (File.does_ofInode_directory hm' hk').bind_error⟩
  | file =>
    have hopen := File.does_ofInode hm hk
    have hopen' := File.does_ofInode hm' (ha.kind.trans hk)
    have hfile : s'.file i = s.file i := by rw [Scene.file, Scene.file, ha.inode]
    rw [hfile] at hopen'
    by_cases hlt : offset < (s.file i).size
    · obtain ⟨data, hdata, hdata'⟩ := File.does_readSpans_alike ha hm hm' h
        (Span.cover pointerCount (.ofNat offset) (min length ((s.file i).size - offset)))
      refine ⟨.ok data, hopen.bind ?_, hopen'.bind ?_⟩
      · rw [File.read, if_pos hlt]
        exact hdata
      · rw [File.read, if_pos hlt]
        exact hdata'
    · refine ⟨.ok [], hopen.bind ?_, hopen'.bind ?_⟩
      · rw [File.read, if_neg hlt]
        exact Does.pure _ _
      · rw [File.read, if_neg hlt]
        exact Does.pure _ _

end

/-! ## The start of a path -/

namespace Scene

theorem start_of_plain (h : path.toList.head? ≠ some '/') : s.start path = (s.cwd, path) := by
  rw [start]
  split
  · next rest hrest =>
    rw [hrest] at h
    exact absurd rfl h
  · rfl

theorem start_of_slash {rest : List Char} (h : path.toList = '/' :: rest) :
    s.start path = (rootInode, String.ofList rest) := by
  simp only [start, h]

end Scene

/-! ## After a name was changed -/

namespace Scene.Relabels

variable (w : Relabels p slot m s s') (hs : s.Good)
  (hslot : ((s.records.table p).findFinIdx? fun e => e.isNamed n) = some slot)

include w hs hslot

theorem maps_at : s'.maps.map p = Function.update (Function.update (s.maps.map p) n none) m
    (s.maps.map p n) := by
  obtain ⟨hused, hname⟩ := EntryTable.named_of_findFinIdx? hslot
  rw [w.maps_eq hs hused hname, NameMaps.relabel]
  exact Function.update_self ..

/-- The new name leads to the inode of the old one. -/
theorem lookup_new :
    (s'.records.table p).lookup m = some ((s.records.table p).entry slot).target := by
  have hold : s.maps.map p n = some ((s.records.table p).entry slot).target :=
    EntryTable.lookup_of_slot hslot
  have hnew := congrFun (w.maps_at hs hslot) m
  rw [Function.update_self, hold] at hnew
  exact hnew

theorem lookup_old (hne : n ≠ m) : (s'.records.table p).lookup n = none := by
  have hold := congrFun (w.maps_at hs hslot) n
  rw [Function.update_of_ne hne, Function.update_self] at hold
  exact hold

/-- What had the old name is as it was. -/
theorem alike (hdot : isSelfOrParent old = false) (hold : StoredName.encode old = .ok n) :
    Alike ((s.records.table p).entry slot).target s s' := by
  have hlinks := Records.links_of_slot w.allowed.directory hdot hold hslot
  have hlive := (hs.tidy.tree.live _ _ _ hlinks).1
  refine ⟨hlive, ?_, ?_, fun k => ?_⟩
  · rw [w.records]
    rfl
  · rw [w.records]
    rfl
  · rw [w.records, Records.relabel, Records.content_setTable hs.tidy.toExact w.allowed.directory hlive
      (hs.tidy.tree.ne_of_links hlinks).symm]

end Scene.Relabels

/-! ## A path that begins with a slash -/

theorem toUTF8_of_slash {rest : List Char} (hpath : path.toList = '/' :: rest) :
    path.toUTF8.toList = 0x2F :: (String.ofList rest).toUTF8.toList := by
  rw [Text.toList_toUTF8, Text.toList_toUTF8, hpath, String.toList_ofList]
  rfl

theorem toUTF8_empty : (String.ofList []).toUTF8.toList = [] := by
  rw [Text.toList_toUTF8, String.toList_ofList]
  rfl

theorem key_empty_ne (hpath : path.toList = ['/']) : key (String.ofList []) ≠ key path := by
  intro hkey
  have hbyte := congrArg (fun k : StoredName => k.toList[0]?) hkey
  rw [key, key, toUTF8_empty, toUTF8_of_slash hpath, toUTF8_empty] at hbyte
  exact absurd hbyte (by decide)

/-- What follows the slash can be stored if anything follows it. -/
theorem storable_rest {rest : List Char} (hpath : path.toList = '/' :: rest)
    (hstorable : Storable path) (hrest : rest ≠ []) : Storable (String.ofList rest) := by
  have hbytes := toUTF8_of_slash hpath
  refine ⟨fun hempty => hrest ?_, fun hzero => hstorable.2 ?_⟩
  · have hsame := eq_of_toUTF8_toList_eq (hempty.trans toUTF8_empty.symm)
    exact String.ofList_injective hsame
  · rw [hbytes]
    exact List.mem_cons_of_mem _ hzero

/-- A path that begins with a slash and is linked as a name as it stands leads to what it links only in
the root, and if it is stored like the path without the slash. -/
theorem Volume.does_locate_slash (hm : s.mounted = true) (hs : s.Good) {rest : List Char}
    (hpath : path.toList = '/' :: rest) (hstorable : Storable path)
    (hlinks : s.records.tree.Links p slot i)
    (hname : (s.records.tree.entry p slot).name = key path) :
    ∃ r, Does (locate path) s r s ∧
      (r = .ok i ↔ p = rootInode ∧ key (String.ofList rest) = key path) := by
  have hstart : s.start path = _ := Scene.start_of_slash hpath
  have hroot := hs.tidy.tree.root
  have hnot := (hs.tidy.tree.live _ _ _ hlinks).2
  by_cases hempty : rest = []
  · subst hempty
    refine ⟨.ok rootInode, (does_splitPath hm path).bind ?_, ?_⟩
    · rw [hstart]
      exact Does.pure _ _
    · refine iff_of_false ?_ fun h => key_empty_ne hpath h.2
      rintro ⟨⟩
      exact hnot rfl
  · have hn := StoredName.encode_of_storable (storable_rest hpath hstorable hempty)
    refine ⟨_, does_locate hm hs hstart hn, ?_⟩
    rw [EntryTable.find?_eq hn]
    constructor
    · intro hfound
      have hlookup : (s.records.table rootInode).lookup (key (String.ofList rest)) = some i := by
        cases hl : (s.records.table rootInode).lookup (key (String.ofList rest)) with
        | none =>
          rw [hl] at hfound
          cases hfound
        | some j =>
          rw [hl] at hfound
          injection hfound with hj
          rw [hj]
      have hplain : (key (String.ofList rest)).isSelfOrParent = false := by
        rw [Bool.eq_false_iff]
        intro hdot
        rcases hs.tidy.lookup_selfOrParent hroot hdot hlookup with hhere | hup
        · exact hnot hhere
        · exact hnot (hup.trans hs.tidy.tree.rootParent)
      obtain ⟨hp, hkey⟩ := hs.tidy.eq_of_lookup hlinks hroot hplain hlookup
      exact ⟨hp.symm, hkey.symm.trans hname⟩
    · rintro ⟨rfl, hkey⟩
      have hlookup : (s.records.table rootInode).lookup (key path) = some i :=
        (hs.tidy.tree.unique rootInode hroot).lookup_eq_some_iff.mpr
          ⟨slot, hlinks.target, hlinks.used, hname⟩
      rw [hkey, hlookup]

/-! ## What was renamed is found -/

/-- An inode has the same record, the same blocks and the same bytes on two volumes. -/
structure Volume.HoldsSame (l : Layout) (v v' : Volume) (i : Nat) : Prop where
  record : (v'.records l).inode i = (v.records l).inode i
  content : ∀ k, (v'.records l).content i k = (v.records l).content i k
  size : ∃ n, v.Answers (fileSize i) (.ok n) ∧ v'.Answers (fileSize i) (.ok n)
  bytes : ∀ offset length, ∃ r,
    v.Answers (readAt i offset length) r ∧ v'.Answers (readAt i offset length) r

theorem Scene.Alike.holdsSame (ha : s.Alike i s') (hm : s.mounted = true)
    (hm' : s'.mounted = true) (h : s.records.Exact l) (history history' : History) :
    (Settled.state s history : Volume).HoldsSame l (Settled.state s' history') i where
  record := ha.inode
  content := ha.content
  size := by
    obtain ⟨n, hsize, hsize'⟩ := does_fileSize_alike ha hm hm'
    exact ⟨n, hsize.answers history, hsize'.answers history'⟩
  bytes offset length := by
    obtain ⟨r, hread, hread'⟩ := does_readAt_alike ha hm hm' h offset length
    exact ⟨r, hread.answers history, hread'.answers history'⟩

/-- What a change of a name in the current directory that succeeded has done. -/
theorem Scene.relabels_of_ok (hs : s.Good) {history : History} {v' : Volume}
    (hne : old.toUTF8.toList.take nameWidth ≠ new.toUTF8.toList.take nameWidth)
    (hok : relabelHere old new (Settled.state s history) = .ok () v') :
    s.mounted = true ∧ isSelfOrParent old = false ∧ ∃ slot n m, ∃ s' : Scene l, ∃ history',
      StoredName.encode old = .ok n ∧ StoredName.encode new = .ok m ∧ n ≠ m ∧
      ((s.records.table s.cwd).findFinIdx? fun e => e.isNamed n) = some slot ∧
      Relabels s.cwd slot m s s' ∧ v' = Settled.state s' history' := by
  by_cases hm : s.mounted = true
  · obtain ⟨r, s', hdo, hstep⟩ := relabel_step hm hs s.cwd old new
    have hhere : Does (relabelHere old new) s r s' :=
      (does_getLayout hm).bind (Does.get_bind fun _ => hdo)
    obtain rfl := hhere.eq_ok hok
    obtain ⟨history', hdone⟩ := hhere history
    have hv' : v' = Settled.state s' history' := by
      rw [hok] at hdone
      injection hdone
    rcases hstep with ⟨-, hsame⟩ | ⟨-, hdot, slot, n, m, hold, hnew, hnm, hslot, w⟩
    · obtain ⟨n, hold, hnew⟩ := hsame rfl
      obtain ⟨hstorable, hkey⟩ := StoredName.storable_of_encode hold
      obtain ⟨hstorable', hkey'⟩ := StoredName.storable_of_encode hnew
      exact absurd ((StoredName.key_eq_key_iff hstorable hstorable').mp (hkey.symm.trans hkey')) hne
    · exact ⟨hm, hdot, slot, n, m, s', history', hold, hnew, hnm, hslot, w, hv'⟩
  · have hrefuse : Does (relabelHere old new) s (.error .notMounted) s :=
      (does_getLayout_unmounted (Bool.eq_false_iff.mpr hm)).bind_error
    cases hrefuse.eq_ok hok

/-- After a name of the current directory was changed to one that is stored otherwise, the new name
leads there to the inode that the old one led to, which holds what it held, and the old name to
nothing.  As a path the new name leads to that inode unless it begins with a slash, and then it does
only in the root and if it is stored like the path without the slash. -/
theorem Reached.renamed_found (h : Reached g v logs) (hl : Layout.ofGeometry g = .ok l)
    (hne : old.toUTF8.toList.take nameWidth ≠ new.toUTF8.toList.take nameWidth) {v' : Volume}
    (hok : relabelHere old new v.volume = .ok () v') :
    ∃ i, v'.cwd = v.volume.cwd ∧ v.volume.Answers (find v.volume.cwd old) (.ok i) ∧
      v'.Answers (find v'.cwd new) (.ok i) ∧ v'.Answers (find v'.cwd old) (.error .notFound) ∧
      v.volume.HoldsSame l v' i ∧
      (new.toList.head? ≠ some '/' → v'.Answers (locate new) (.ok i)) ∧
      (∀ rest, new.toList = '/' :: rest → (v'.Answers (locate new) (.ok i) ↔
        v'.cwd = rootInode ∧ key (String.ofList rest) = key new)) := by
  obtain ⟨s, history, hvolume, -, hs, -⟩ := h.exists_scene hl
  rw [hvolume] at hok ⊢
  obtain ⟨hm, hdot, slot, n, m, s', history', hold, hnew, hnm, hslot, w, rfl⟩ :=
    Scene.relabels_of_ok hs hne hok
  have hm' : s'.mounted = true := w.mounted.trans hm
  have hs' := w.good hs
  have hcwd : s'.cwd = s.cwd := w.cwd
  have hfind := does_find hm hs.tidy.toExact s.cwd old
  have hfindNew := does_find hm' hs'.tidy.toExact s.cwd new
  have hfindOld := does_find hm' hs'.tidy.toExact s.cwd old
  have hlookup := w.lookup_new hs hslot
  rw [EntryTable.find?_eq hold, EntryTable.lookup_of_slot hslot] at hfind
  rw [EntryTable.find?_eq hnew, hlookup] at hfindNew
  rw [EntryTable.find?_eq hold, w.lookup_old hs hslot hnm] at hfindOld
  have hthere : (Settled.state s' history' : Volume).cwd = s.cwd := hcwd
  rw [hthere]
  refine ⟨((s.records.table s.cwd).entry slot).target, rfl, hfind.answers history,
    hfindNew.answers history', hfindOld.answers history',
    (w.alike hs hslot hdot hold).holdsSame hm hm' hs.tidy.toExact history history',
    fun hplain => ?_, fun rest hslash => ?_⟩
  · have hstart : s'.start new = (s'.cwd, new) := Scene.start_of_plain hplain
    rw [hcwd] at hstart
    exact (does_locate_found hm' hs' hstart hnew
      ((EntryTable.find?_eq hnew).trans hlookup)).answers history'
  · obtain ⟨hstorable, hkey⟩ := StoredName.storable_of_encode hnew
    obtain ⟨slot', -, htarget, hused, hname⟩ := EntryTable.exists_slot_of_lookup hlookup
    have hlinks : s'.records.tree.Links s.cwd slot' ((s.records.table s.cwd).entry slot).target := by
      refine ⟨hcwd ▸ hs'.cwd, htarget, hused, ?_⟩
      rw [Entry.isSelfOrParent, ← w.allowed.named, ← hname]
      rfl
    obtain ⟨r, hlocate, hiff⟩ := does_locate_slash hm' hs' hslash hstorable hlinks
      (hname.trans hkey)
    rw [hlocate.answers_iff history', eq_comm, hiff]

/-! ## A new name with a slash in front -/

theorem StoredName.encode_slash_b : encode "/b" = .ok (.ofList nameWidth [0x2F, 0x62]) :=
  encode_of_bytes (by decide) (by decide) (by decide)

/-- The root of a floppy disk with one file holds no other name. -/
theorem Scene.OneFile.map_eq_none {s : Scene .floppy} {slot : Fin slotCount} (h : s.OneFile slot)
    (hself : m ≠ .here ∧ m ≠ .up) (hne : m ≠ .ofList nameWidth [0x61]) :
    s.maps.map rootInode m = none := by
  rw [h.map, Function.update_of_ne hne, NameMaps.selfAndParent, Function.update_of_ne hself.2,
    Function.update_of_ne hself.1]
  rfl

theorem Scene.OneFile.map_eq_some {s : Scene .floppy} {slot : Fin slotCount} (h : s.OneFile slot) :
    s.maps.map rootInode (.ofList nameWidth [0x61]) = some 2 := by
  rw [h.map, Function.update_self]

/-- The only file of a floppy disk gets a name that is stored otherwise. -/
theorem Scene.OneFile.does_relabelHere {s : Scene .floppy} {slot : Fin slotCount}
    (h : s.OneFile slot) (hdot : isSelfOrParent new = false) (hnew : StoredName.encode new = .ok m)
    (hself : m ≠ .here ∧ m ≠ .up) (hne : m ≠ .ofList nameWidth [0x61]) :
    ∃ slot s', Does (relabelHere "a" new) s (.ok ()) s' ∧ Relabels rootInode slot m s s' ∧
      ((s.records.table rootInode).findFinIdx? fun e => e.isNamed (.ofList nameWidth [0x61]))
        = some slot := by
  have hdots : (isSelfOrParent "a" || isSelfOrParent new) = false :=
    Bool.or_eq_false_iff.mpr ⟨by decide, hdot⟩
  obtain ⟨slot', s', hslot, hdo, w⟩ := does_relabel_relabels hdots h.mounted h.good
    StoredName.encode_a hnew h.good.tidy.tree.root h.map_eq_some hne.symm (h.map_eq_none hself hne)
  rw [← h.cwd] at hdo
  exact ⟨slot', s', (does_getLayout h.mounted).bind (Does.get_bind fun _ => hdo), w, hslot⟩

/-- The file `a` of the root gets the name `/b`, and the path `/b` leads to nothing. -/
theorem Reached.renamed_not_found_floppy :
    let v := (Call.edit (.makeFile rootInode "a")).after Service.floppy
    ∃ logs v', Reached .floppy v logs ∧
      "a".toUTF8.toList.take nameWidth ≠ "/b".toUTF8.toList.take nameWidth ∧
      v.volume.Answers (find v.volume.cwd "a") (.ok 2) ∧
      relabelHere "a" "/b" v.volume = .ok () v' ∧
      v'.Answers (locate "/b") (.error .notFound) := by
  obtain ⟨logs, slot, history, s, hreached, hvolume, hone⟩ := reached_oneFile
  obtain ⟨slot', s', hdo, w, hslot⟩ := hone.does_relabelHere (by decide) StoredName.encode_slash_b
    (by decide) (by decide)
  obtain ⟨history', hok⟩ := hdo history
  rw [← hvolume] at hok
  have hs := hone.good
  have hfind := does_find hone.mounted hs.tidy.toExact s.cwd "a"
  rw [EntryTable.find?_eq StoredName.encode_a, hone.cwd,
    show (s.records.table rootInode).lookup _ = some 2 from hone.map_eq_some, ← hone.cwd] at hfind
  have hstart : s'.start "/b" = (rootInode, String.ofList ['b']) :=
    Scene.start_of_slash (by decide)
  have hnone : s'.maps.map rootInode (.ofList nameWidth [0x62]) = none := by
    rw [w.maps_at hs hslot, Function.update_of_ne (by decide), Function.update_of_ne (by decide),
      hone.map_eq_none (by decide) (by decide)]
  have hlocate := does_locate_missing (w.mounted.trans hone.mounted) (w.good hs) hstart
    StoredName.encode_b ((EntryTable.find?_eq StoredName.encode_b).trans hnone)
  have hne : "a".toUTF8.toList.take nameWidth ≠ "/b".toUTF8.toList.take nameWidth := by
    rw [toList_eq_data_toList, toList_eq_data_toList]
    decide
  exact ⟨logs, _, hreached, hne, hvolume ▸ hfind.answers history, hok, hlocate.answers history'⟩

/-- The same file gets the name `b`, and the path `b` leads to it. -/
theorem Reached.renamed_found_floppy :
    let v := (Call.edit (.makeFile rootInode "a")).after Service.floppy
    ∃ logs v', Reached .floppy v logs ∧ Layout.ofGeometry .floppy = .ok .floppy ∧
      "a".toUTF8.toList.take nameWidth ≠ "b".toUTF8.toList.take nameWidth ∧
      relabelHere "a" "b" v.volume = .ok () v' ∧
      ∃ i, v'.cwd = v.volume.cwd ∧ v.volume.Answers (find v.volume.cwd "a") (.ok i) ∧
        v'.Answers (find v'.cwd "b") (.ok i) ∧ v'.Answers (find v'.cwd "a") (.error .notFound) ∧
        v.volume.HoldsSame .floppy v' i ∧
        ("b".toList.head? ≠ some '/' → v'.Answers (locate "b") (.ok i)) ∧
        (∀ rest, "b".toList = '/' :: rest → (v'.Answers (locate "b") (.ok i) ↔
          v'.cwd = rootInode ∧ key (String.ofList rest) = key "b")) := by
  obtain ⟨logs, slot, history, s, hreached, hvolume, hone⟩ := reached_oneFile
  obtain ⟨slot', s', hdo, -⟩ := hone.does_relabelHere (by decide) StoredName.encode_b
    (by decide) (by decide)
  obtain ⟨history', hok⟩ := hdo history
  rw [← hvolume] at hok
  have hne : "a".toUTF8.toList.take nameWidth ≠ "b".toUTF8.toList.take nameWidth := by
    rw [toList_eq_data_toList, toList_eq_data_toList]
    decide
  exact ⟨logs, _, hreached, Layout.ofGeometry_floppy, hne, hok,
    hreached.renamed_found Layout.ofGeometry_floppy hne hok⟩

end BlockFS
