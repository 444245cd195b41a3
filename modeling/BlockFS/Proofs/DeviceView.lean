import BlockFS.Proofs.Runs

/-!
# What lies on the device

The records of a volume can be read off its device, mounted or not.  Of every volume that calls lead to
they are tidy, and what the records of the inodes and the directories link are the inodes in use.
-/

namespace BlockFS

variable {l : Layout} {g : Geometry} {v : Service} {logs : Logs}

/-- Records are what a device answers: its bitmaps, its inodes, and the blocks behind them. -/
structure Layout.Reads (l : Layout) (d : Device) (c : Records) : Prop where
  bitmap : ∀ r, ∃ b d', l.readBitmap r d = .ok b d' ∧ ∀ i, c.used r i = b.get i
  inode : ∀ i, i < l.inodeCount → ∃ d', l.readInode i d = .ok (c.inode i) d'
  block : ∀ b, l.firstDataBlock ≤ b → b < l.blockCount →
    ∃ d', l.readBlock b d = .ok (c.block b) d'

/-- The records that lie on the device of a volume. -/
def Volume.records (v : Volume) (l : Layout) : Records := l.records v.device.disk.block

/-- An action answers something and changes nothing but the history of transfers. -/
def Volume.Answers {α : Type} (v : Volume) (x : VolumeM α) (r : Except Error α) : Prop :=
  ∃ history, x v = withState r { v with device := { v.device with history := history } }

theorem Does.answers {α : Type} {s : Scene l} {x : VolumeM α} {r : Except Error α}
    (hx : Does x s r s) (history : History) : (Settled.state s history).Answers x r := by
  obtain ⟨history', hx⟩ := hx history
  exact ⟨history', hx⟩

/-- Of what only looks there is one answer. -/
theorem Does.answers_iff {α : Type} {s : Scene l} {x : VolumeM α} {r r' : Except Error α}
    (hx : Does x s r s) (history : History) :
    (Settled.state s history).Answers x r' ↔ r' = r := by
  constructor
  · rintro ⟨history', hanswer⟩
    obtain ⟨history'', hx⟩ := hx history
    rw [hanswer] at hx
    cases r with
    | ok a =>
      cases r' with
      | ok a' =>
        injection hx with ha _
        rw [ha]
      | error e' => cases hx
    | error e =>
      cases r' with
      | ok a' => cases hx
      | error e' =>
        injection hx with he _
        rw [he]
  · rintro rfl
    exact hx.answers history

/-- An inode that can be read is in use on a mounted volume. -/
theorem Scene.used_of_answers {s : Scene l} {i : Nat} {history : History} {x : Inode}
    (hx : (Settled.state s history : Volume).Answers (Volume.readInode i) (.ok x)) :
    s.mounted = true ∧ s.records.used .inode i = true ∧ s.records.inode i = x := by
  by_cases hm : s.mounted = true
  · by_cases hused : s.records.used .inode i = true
    · have hanswer := ((Volume.does_readInode hm hused).answers_iff history).mp hx
      exact ⟨hm, hused, (Except.ok.inj hanswer).symm⟩
    · have hfree := Volume.does_readInode_free hm (Bool.eq_false_iff.mpr hused)
      cases (hfree.answers_iff history).mp hx
  · have hrefused := Volume.does_readInode_unmounted (Bool.eq_false_iff.mpr hm) i
    cases (hrefused.answers_iff history).mp hx

theorem Store.reads (st : Store l) (history : History) :
    l.Reads (Settled.state st history) st.records := by
  constructor
  · intro r
    obtain ⟨history', hread⟩ := st.does_readBitmap r history
    exact ⟨_, _, hread, fun _ => rfl⟩
  · intro i hi
    obtain ⟨history', hread⟩ := st.does_readInode hi history
    rw [← show st.records.inode i = l.inode st.block i from if_pos hi] at hread
    exact ⟨_, hread⟩
  · intro b hb hlt
    obtain ⟨history', hread⟩ := st.does_readBlock hlt history
    rw [← show st.records.block b = st.block b from if_pos ⟨hb, hlt⟩] at hread
    exact ⟨_, hread⟩

/-- What calls lead to is a good scene of the layout that the shape gives. -/
theorem Reached.exists_scene (h : Reached g v logs) (hl : Layout.ofGeometry g = .ok l) :
    ∃ (s : Scene l) (history : History), v.volume = Settled.state s history ∧
      v.volume.records l = s.records ∧ s.Good ∧ s.Recounts logs := by
  obtain ⟨l', hl', s, history, hvolume, hs, hlogs⟩ := h.stands
  obtain rfl := Except.ok.inj (hl'.symm.trans hl)
  exact ⟨s, history, hvolume, by rw [hvolume]; rfl, hs, hlogs⟩

/-- What new volumes have and every edit keeps, all volumes have that calls lead to. -/
theorem Reached.exists_scene_keeping {P : Scene l → Prop} (h : Reached g v logs)
    (hl : Layout.ofGeometry g = .ok l) (hnew : ∀ s : Scene l, s.New → P s)
    (hstep : ∀ {e r} {s s' : Scene l}, s.Good → s.Takes e r s' → P s → P s') :
    ∃ (s : Scene l) (history : History), v.volume = Settled.state s history ∧
      v.volume.records l = s.records ∧ s.Good ∧ P s := by
  suffices hsuff : ∃ (s : Scene l) (history : History), v.volume = Settled.state s history ∧
      s.Good ∧ P s by
    obtain ⟨s, history, hvolume, hs, hP⟩ := hsuff
    exact ⟨s, history, hvolume, by rw [hvolume]; rfl, hs, hP⟩
  induction h with
  | @new d clock v h =>
    obtain ⟨s, history, heq, hs⟩ := Volume.format_eq hl d clock
    rw [heq] at h
    injection h with _ hv
    exact ⟨s, history, hv.symm, hs.good, hnew s hs⟩
  | call c _ ih =>
    obtain ⟨s, history, hvolume, hs, hP⟩ := ih
    obtain ⟨s', history', hvolume', hes⟩ := c.goes hvolume hs
    exact ⟨s', history', hvolume', hes.good, hes.keeps hs hP hstep⟩

theorem Reached.reads (h : Reached g v logs) (hl : Layout.ofGeometry g = .ok l) :
    l.Reads v.volume.device (v.volume.records l) := by
  obtain ⟨s, history, hvolume, hrecords, -⟩ := h.exists_scene hl
  rw [hrecords, hvolume]
  exact s.store.reads history

theorem Reached.tidy (h : Reached g v logs) (hl : Layout.ofGeometry g = .ok l) :
    (v.volume.records l).Tidy l := by
  obtain ⟨s, history, -, hrecords, hs, -⟩ := h.exists_scene hl
  rw [hrecords]
  exact hs.tidy

/-- A volume that calls lead to can always be mounted. -/
theorem Reached.isMounted_mount (h : Reached g v logs) :
    ((Call.edit .mount).after v).volume.isMounted = true := by
  obtain ⟨l, hl, -⟩ := h.stands
  obtain ⟨s, history, hvolume, -⟩ := h.exists_scene hl
  have hmount : Does (Edit.mount).action s (.ok 0) { s with mounted := true, cwd := rootInode } :=
    Volume.does_mount.bind (Does.pure 0 _)
  obtain ⟨history', hleft⟩ := hmount.leftBy_eq history
  change (leftBy _ v.volume).isMounted = true
  rw [hvolume, hleft, isMounted_state]

/-! ## What is linked, whatever the bitmaps say -/

/-- The directories and what they link, as the records of the inodes tell. -/
def Records.written (c : Records) : NameTree where
  kind i := (c.inode i).kind
  table d := .ofBlock (c.block (c.tableBlock d))

namespace Records

variable {c : Records} {d i : Nat} {slot : Fin slotCount}

theorem links_written_iff (hd : c.kind d ≠ .free) :
    c.written.Links d slot i ↔ c.tree.Links d slot i := by
  have hkind : c.kind d = (c.inode d).kind := kind_of_used (used_of_kind_ne hd)
  have hentry (hdir : c.kind d = .directory) : c.written.entry d slot = c.tree.entry d slot := by
    change _ = (c.table d).entry slot
    rw [table_of_directory hdir]
    rfl
  constructor
  · rintro ⟨hdir, htarget, hne, hname⟩
    have hdir' : c.kind d = .directory := hkind.trans hdir
    rw [hentry hdir'] at htarget hname
    exact ⟨hdir', htarget, hne, hname⟩
  · rintro ⟨hdir, htarget, hne, hname⟩
    rw [← hentry hdir] at htarget hname
    exact ⟨hkind.symm.trans hdir, htarget, hne, hname⟩

/-- The inodes in use are those that the records link. -/
theorem Tidy.linked_written_iff (h : c.Tidy l) : c.written.Linked i ↔ c.kind i ≠ .free := by
  constructor
  · intro hi
    induction hi with
    | root => exact ne_free_of_directory h.tree.root
    | child _ hl ih => exact (h.tree.live _ _ _ ((links_written_iff ih).mp hl)).1
  · intro hi
    have hlinked : c.tree.Linked i := h.tree.linked_iff.mpr hi
    induction hlinked with
    | root => exact .root
    | child _ hl ih =>
      have hd := ne_free_of_directory hl.directory
      exact .child (ih hd) ((links_written_iff hd).mpr hl)

end Records

end BlockFS
