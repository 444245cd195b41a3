import BlockFS.Proofs.FileContents
import BlockFS.Proofs.FileLives
import BlockFS.Proofs.OpenFiles

/-!
# What an open handle means

A handle that stays open keeps the inode number of the file that it was opened on.  Reading, writing
and seeking from the end through it act on what has this number.  That is the file itself until the
file is removed, and nothing from then on until the number is handed out again.
-/

namespace BlockFS

open Volume

/-! ## What comes through a handle -/

/-- Where a write into an open file begins. -/
def OpenFile.start (file : OpenFile) (size : Nat) : Nat := if file.append then size else file.cursor

namespace Session

variable {l : Layout} {t : SessionScene l} {handle : Nat} {file : OpenFile}

theorem does_read {length : Nat} {r : Except Error (List UInt8)}
    (hfile : t.files[handle]? = some (some file))
    (hread : Does (readAt file.inode file.cursor length) t.scene r t.scene) :
    ∃ t', Does (read handle length) t r t' := by
  cases r with
  | error e => exact ⟨_, (does_openFile hfile).bind (does_onVolume hread).bind_error⟩
  | ok data =>
    exact ⟨_, (does_openFile hfile).bind ((does_onVolume hread).bind
      ((does_setFile _ _).bind (Does.pure _ _)))⟩

/-- What follows once it is known where a write begins. -/
theorem does_write_from {data : List UInt8} {size : Nat} {r : Except Error Nat}
    {t' : SessionScene l} (hfile : t.files[handle]? = some (some file))
    (hsize : Does (fileSize file.inode) t.scene (.ok size) t.scene)
    (hrest : Does (onVolume (writeAt file.inode (file.start size) data) >>= fun written =>
      setFile handle (some { file with cursor := file.start size + written }) >>= fun _ =>
        pure written) t r t') :
    Does (write handle data) t r t' := by
  refine (does_openFile hfile).bind ?_
  rw [OpenFile.start] at hrest
  by_cases happend : file.append = true
  · rw [if_pos happend] at hrest ⊢
    exact (does_onVolume hsize).bind hrest
  · rw [if_neg happend] at hrest ⊢
    exact (Does.pure _ _).bind hrest

theorem does_write_ok {data : List UInt8} {size count : Nat} {s' : Scene l}
    (hfile : t.files[handle]? = some (some file))
    (hsize : Does (fileSize file.inode) t.scene (.ok size) t.scene)
    (hwrite : Does (writeAt file.inode (file.start size) data) t.scene (.ok count) s') :
    Does (write handle data) t (.ok count) ⟨s', t.files.setIfInBounds handle
      (some { file with cursor := file.start size + count })⟩ :=
  does_write_from hfile hsize ((does_onVolume hwrite).bind ((does_setFile _ _).bind (Does.pure _ _)))

theorem does_write {data : List UInt8} {size : Nat} {r : Except Error Nat} {s' : Scene l}
    (hfile : t.files[handle]? = some (some file))
    (hsize : Does (fileSize file.inode) t.scene (.ok size) t.scene)
    (hwrite : Does (writeAt file.inode (file.start size) data) t.scene r s') :
    ∃ t', Does (write handle data) t r t' := by
  cases r with
  | error e => exact ⟨_, does_write_from hfile hsize (does_onVolume hwrite).bind_error⟩
  | ok count => exact ⟨_, does_write_ok hfile hsize hwrite⟩

theorem ofWrite_eq {data : List UInt8} {size : Nat} (hfile : t.files[handle]? = some (some file))
    (hsize : Does (fileSize file.inode) t.scene (.ok size) t.scene) (history : History) :
    Edit.ofWrite handle data (Settled.state t history)
      = [.write file.inode (file.start size) data] := by
  have hfile' : (Settled.state t history : Session).files[handle]? = some (some file) := hfile
  rw [Edit.ofWrite, hfile', OpenFile.start]
  dsimp only
  by_cases happend : file.append = true
  · obtain ⟨history', heq⟩ := hsize history
    have heq' : fileSize file.inode (Settled.state t history : Session).volume
        = withState (.ok size) (Settled.state t.scene history') := heq
    rw [if_pos happend, if_pos happend, heq']
    rfl
  · rw [if_neg happend, if_neg happend]

/-- Seeking from the end leads to a place of 32 bits, counted from the start of the file. -/
theorem does_seek_finish {distance : Int} {size : Nat}
    (hfile : t.files[handle]? = some (some file))
    (hsize : Does (fileSize file.inode) t.scene (.ok size) t.scene) :
    ∃ r t', Does (seek handle distance .finish) t r t' ∧ ∀ position, r = .ok position ↔
      (position : Int) = size + distance ∧ position < UInt32.size := by
  cases hplace : (size : Int) + distance with
  | ofNat place =>
    by_cases hlt : place < UInt32.size
    · refine ⟨.ok place, ⟨t.scene, t.files.setIfInBounds handle
        (some { file with cursor := place })⟩,
        (does_openFile hfile).bind ((does_onVolume hsize).bind ?_), fun position => ?_⟩
      · simp only [hplace, hlt, if_true]
        exact (does_setFile _ _).bind (Does.pure _ _)
      · constructor
        · rintro ⟨⟩
          exact ⟨rfl, hlt⟩
        · rintro ⟨heq, -⟩
          rw [Int.ofNat.inj heq]
    · refine ⟨.error .invalidSeek, t, (does_openFile hfile).bind ((does_onVolume hsize).bind ?_),
        fun position => ⟨fun h => (by cases h), ?_⟩⟩
      · simp only [hplace, hlt, if_false]
        exact (Does.throw _ _).bind_error
      · rintro ⟨heq, hlt'⟩
        rw [Int.ofNat.inj heq] at hlt'
        exact absurd hlt' hlt
  | negSucc _ =>
    refine ⟨.error .invalidSeek, t, (does_openFile hfile).bind ((does_onVolume hsize).bind ?_),
      fun position => ⟨fun h => (by cases h), ?_⟩⟩
    · simp only [hplace]
      exact Does.throw _ _
    · rintro ⟨heq, -⟩
      cases heq

/-! ### Failures -/

theorem read_fails (hfile : t.files[handle]? = some (some file))
    (hi : t.scene.mounted = true → t.scene.records.kind file.inode ≠ .file) (length : Nat) :
    ∃ e t', Does (read handle length) t (.error e) t' := by
  obtain ⟨e, hload⟩ := does_ofInode_fails hi
  exact ⟨e, does_read hfile hload.bind_error⟩

theorem write_fails (hfile : t.files[handle]? = some (some file))
    (hi : t.scene.mounted = true → t.scene.records.kind file.inode ≠ .file) (data : List UInt8) :
    ∃ e t', Does (write handle data) t (.error e) t' := by
  obtain ⟨e, hload⟩ := does_ofInode_fails hi
  obtain ⟨r, hsize⟩ := quiet_fileSize (s := t.scene) file.inode
  cases r with
  | ok size => exact ⟨e, does_write hfile hsize hload.bind_error⟩
  | error e' =>
    by_cases happend : file.append = true
    · refine ⟨e', t, (does_openFile hfile).bind ?_⟩
      rw [if_pos happend]
      exact (does_onVolume hsize).bind_error
    · refine ⟨e, t, (does_openFile hfile).bind ?_⟩
      rw [if_neg happend]
      exact (Does.pure _ _).bind (does_onVolume hload.bind_error).bind_error

theorem finish_fails (hfile : t.files[handle]? = some (some file))
    (hi : t.scene.mounted = true → t.scene.records.used .inode file.inode = false)
    (distance : Int) : ∃ e t', Does (seek handle distance .finish) t (.error e) t' := by
  have hsize : ∃ e, Does (fileSize file.inode) t.scene (.error e) t.scene := by
    by_cases hm : t.scene.mounted = true
    · exact ⟨_, (does_readInode_free hm (hi hm)).bind_error⟩
    · exact ⟨_, (does_readInode_unmounted (Bool.eq_false_iff.mpr hm) _).bind_error⟩
  obtain ⟨e, hsize⟩ := hsize
  exact ⟨e, t, (does_openFile hfile).bind (does_onVolume hsize).bind_error⟩

end Session

namespace Service

variable (v : Service) (l : Layout) (logs : Logs) (handle : Nat)

/-- A file is open under a handle. -/
def IsOpen : Prop := ∃ file, v.files[handle]? = some (some file)

/-- What is done through a handle acts on the regular file that has the inode of the handle, and fails
where there is none. -/
structure ActsThrough (file : OpenFile) : Prop where
  read : (v.volume.records l).kind file.inode = .file → ∀ length data,
    (∃ t, Session.read handle length v.session = .ok data t) ↔
      v.volume.isMounted = true ∧ ∃ gap, (logs file.inode).FirstGap file.cursor gap ∧
        data = (logs file.inode).bytes file.cursor
          (min (min (file.cursor + length) (logs file.inode).size) (gap * blockSize))
  write : (v.volume.records l).kind file.inode = .file → ∀ data count,
    (∃ t, Session.write handle data v.session = .ok count t) ↔
      ∃ v', writeAt file.inode (file.start (logs file.inode).size) data v.volume = .ok count v'
  written : (v.volume.records l).kind file.inode = .file → ∀ data count t,
    Session.write handle data v.session = .ok count t →
    (Call.writeHandle handle data).logs v logs = Function.update logs file.inode
      (logs file.inode ++ [⟨file.start (logs file.inode).size, data.take count⟩])
  finish : (v.volume.records l).kind file.inode = .file → ∀ distance position,
    (∃ t, Session.seek handle distance .finish v.session = .ok position t) ↔
      v.volume.isMounted = true ∧ (position : Int) = (logs file.inode).size + distance ∧
        position < UInt32.size
  read_fails : (v.volume.records l).kind file.inode ≠ .file → ∀ length,
    ∃ e t, Session.read handle length v.session = .error e t
  write_fails : (v.volume.records l).kind file.inode ≠ .file → ∀ data,
    ∃ e t, Session.write handle data v.session = .error e t
  finish_fails : (v.volume.records l).kind file.inode = .free → ∀ distance,
    ∃ e t, Session.seek handle distance .finish v.session = .error e t

end Service

section

variable {l : Layout} {s : Scene l} {history : History} {v : Service} {logs : Logs} {handle : Nat}
  {file : OpenFile}

section

variable (hv : v.volume = Settled.state s history) (hs : s.Good) (hlogs : s.Recounts logs)
  (hopen : (SessionScene.mk s v.files).files[handle]? = some (some file))
  (hi : s.records.kind file.inode = .file)

include hlogs hopen hi

theorem Session.finish_eq_ok_iff (distance : Int) {position : Nat} :
    (∃ t, Session.seek handle distance .finish
        (Settled.state (SessionScene.mk s v.files) history) = .ok position t) ↔
      s.mounted = true ∧ (position : Int) = (logs file.inode).size + distance ∧
        position < UInt32.size := by
  by_cases hm : s.mounted = true
  · obtain ⟨r, t', hdo, hplace⟩ := Session.does_seek_finish hopen (hlogs.does_fileSize hm hi)
    rw [← hplace, and_iff_right hm]
    constructor
    · rintro ⟨t, hseek⟩
      exact hdo.eq_ok hseek
    · rintro rfl
      exact hdo.exists_ok history
  · obtain ⟨e, t', hfails⟩ := Session.finish_fails hopen (fun h => absurd h hm) distance
    constructor
    · rintro ⟨t, hseek⟩
      cases hfails.eq_ok hseek
    · rintro ⟨hm', -⟩
      exact absurd hm' hm

include hs

theorem Session.read_eq_ok_iff {length : Nat} {data : List UInt8} :
    (∃ t, Session.read handle length (Settled.state (SessionScene.mk s v.files) history)
        = .ok data t) ↔
      s.mounted = true ∧ ∃ gap, (logs file.inode).FirstGap file.cursor gap ∧
        data = (logs file.inode).bytes file.cursor
          (min (min (file.cursor + length) (logs file.inode).size) (gap * blockSize)) := by
  constructor
  · rintro ⟨t, hread⟩
    by_cases hm : s.mounted = true
    · obtain ⟨gap, hgap⟩ := hlogs.exists_firstGap hi file.cursor
      obtain ⟨t', hdo⟩ := Session.does_read hopen (hlogs.does_readAt hm hs hi hgap length)
      exact ⟨hm, gap, hgap, (Except.ok.inj (hdo.eq_ok hread)).symm⟩
    · obtain ⟨e, t', hfails⟩ := Session.read_fails hopen (fun h => absurd h hm) length
      cases hfails.eq_ok hread
  · rintro ⟨hm, gap, hgap, rfl⟩
    obtain ⟨t', hdo⟩ := Session.does_read hopen (hlogs.does_readAt hm hs hi hgap length)
    exact hdo.exists_ok history

theorem Session.write_eq_ok_iff {data : List UInt8} {count : Nat} :
    (∃ t, Session.write handle data (Settled.state (SessionScene.mk s v.files) history)
        = .ok count t) ↔
      ∃ v', writeAt file.inode (file.start (logs file.inode).size) data (Settled.state s history)
        = .ok count v' := by
  obtain ⟨r, s', htakes⟩ :=
    Scene.takes (.write file.inode (file.start (logs file.inode).size) data) hs
  by_cases hm : s.mounted = true
  · obtain ⟨t', hdo⟩ := Session.does_write hopen (hlogs.does_fileSize hm hi) htakes.does
    constructor
    · rintro ⟨t, hwrite⟩
      obtain rfl := hdo.eq_ok hwrite
      exact htakes.does.exists_ok history
    · rintro ⟨v', hwrite⟩
      obtain rfl := htakes.does.eq_ok hwrite
      exact hdo.exists_ok history
  · obtain ⟨e, t', hfails⟩ := Session.write_fails hopen (fun h => absurd h hm) data
    have hfails' := does_writeAt_unmounted (Bool.eq_false_iff.mpr hm) file.inode
      (file.start (logs file.inode).size) data
    constructor
    · rintro ⟨t, hwrite⟩
      cases hfails.eq_ok hwrite
    · rintro ⟨v', hwrite⟩
      cases hfails'.eq_ok hwrite

include hv

/-- A write through a handle is told by the log of the file with the inode of the handle. -/
theorem Call.logs_writeHandle {data : List UInt8} {count : Nat} {t : Session}
    (hwrite : Session.write handle data (Settled.state (SessionScene.mk s v.files) history)
      = .ok count t) :
    (Call.writeHandle handle data).logs v logs = Function.update logs file.inode
      (logs file.inode ++ [⟨file.start (logs file.inode).size, data.take count⟩]) := by
  by_cases hm : s.mounted = true
  · have hsize := hlogs.does_fileSize hm hi
    obtain ⟨r, s', htakes⟩ :=
      Scene.takes (.write file.inode (file.start (logs file.inode).size) data) hs
    obtain ⟨t', hdo⟩ := Session.does_write hopen hsize htakes.does
    obtain rfl := hdo.eq_ok hwrite
    obtain ⟨history', hreplay⟩ := htakes.replay_eq history logs
    have hedits : (Call.writeHandle handle data).edits v
        = [.write file.inode (file.start (logs file.inode).size) data] := by
      rw [Call.edits, ← Service.session, Service.session_eq hv]
      exact Session.ofWrite_eq hopen hsize history
    rw [Call.logs, hedits, hv, Edit.replayAll, List.foldl_cons, hreplay]
    rfl
  · obtain ⟨e, t', hfails⟩ := Session.write_fails hopen (fun h => absurd h hm) data
    cases hfails.eq_ok hwrite

end

/-- What is done through a handle in a good scene acts on the file with the inode of the handle. -/
theorem Service.actsThrough (hv : v.volume = Settled.state s history) (hs : s.Good)
    (hlogs : s.Recounts logs) (hfile : v.files[handle]? = some (some file))
    (hne : file.inode ≠ 0) : v.ActsThrough l logs handle file := by
  have hopen : (SessionScene.mk s v.files).files[handle]? = some (some file) := hfile
  have hrecords : v.volume.records l = s.records := by
    rw [hv]
    rfl
  have hmounted : v.volume.isMounted = s.mounted := by rw [hv, isMounted_state]
  constructor
  · intro hi length data
    rw [hrecords] at hi
    rw [Service.session_eq hv, hmounted]
    exact Session.read_eq_ok_iff hs hlogs hopen hi
  · intro hi data count
    rw [hrecords] at hi
    rw [Service.session_eq hv, hv]
    exact Session.write_eq_ok_iff hs hlogs hopen hi
  · intro hi data count t hwrite
    rw [hrecords] at hi
    rw [Service.session_eq hv] at hwrite
    exact Call.logs_writeHandle hv hs hlogs hopen hi hwrite
  · intro hi distance position
    rw [hrecords] at hi
    rw [Service.session_eq hv, hmounted]
    exact Session.finish_eq_ok_iff hlogs hopen hi distance
  · intro hi length
    rw [hrecords] at hi
    rw [Service.session_eq hv]
    obtain ⟨e, t', hfails⟩ := Session.read_fails hopen (fun _ => hi) length
    exact ⟨e, hfails.exists_error history⟩
  · intro hi data
    rw [hrecords] at hi
    rw [Service.session_eq hv]
    obtain ⟨e, t', hfails⟩ := Session.write_fails hopen (fun _ => hi) data
    exact ⟨e, hfails.exists_error history⟩
  · intro hi distance
    rw [hrecords] at hi
    rw [Service.session_eq hv]
    have hfree : s.records.used .inode file.inode = false := by
      rw [← Bool.not_eq_true, hs.tidy.inodes.used_iff]
      exact not_or.mpr ⟨hne, not_not.mpr hi⟩
    obtain ⟨e, t', hfails⟩ := Session.finish_fails hopen (fun _ => hfree) distance
    exact ⟨e, hfails.exists_error history⟩

end

/-! ## Handles that stay open -/

section

variable {g : Geometry} {l : Layout} {v v' : Service} {logs logs' : Logs} {handle : Nat}
  {file : OpenFile} {path : String} {flags : OpenFlags}

/-- A handle that stays open keeps its file: only the cursor moves. -/
theorem Leads.keeps_file (h : Leads (·.IsOpen handle) v logs v' logs') (hv : Reached g v logs)
    (hfile : v.files[handle]? = some (some file)) :
    ∃ cursor, v'.files[handle]? = some (some { file with cursor := cursor }) := by
  induction h with
  | start _ => exact ⟨file.cursor, hfile⟩
  | @call v' logs' c hrun hopen ih =>
    obtain ⟨cursor, hfile'⟩ := ih
    obtain ⟨file'', hfile''⟩ := hopen
    obtain ⟨l, -, s, history, hvolume, hs, -⟩ := (hrun.reached hv).stands
    have hkept := c.keepsFiles hvolume hs handle _ file'' hfile' hfile''
    exact ⟨file''.cursor, by rw [hfile'', hkept]⟩

/-- A handle that stays open keeps its inode. -/
theorem Leads.keeps_inode (h : Leads (·.IsOpen handle) v logs v' logs') (hv : Reached g v logs)
    (hfile : v.files[handle]? = some (some file)) :
    ∃ file', v'.files[handle]? = some (some file') ∧ file'.inode = file.inode := by
  obtain ⟨cursor, hfile'⟩ := h.keeps_file hv hfile
  exact ⟨_, hfile', rfl⟩

/-- A path that was opened leads to a regular file, which is then under the handle, to be appended to
where the flags say so. -/
theorem Reached.openPath_opens (h : Reached g v logs) (hl : Layout.ofGeometry g = .ok l)
    {t : Session} (hopen : Session.openPath path flags v.session = .ok handle t) :
    ∃ file, ((Call.openPath path flags).after v).files[handle]? = some (some file) ∧
      file.append = flags.append ∧
      (((Call.openPath path flags).after v).volume.records l).kind file.inode = .file ∧
      ((Call.openPath path flags).after v).volume.Answers (locate path) (.ok file.inode) := by
  obtain ⟨s, history, hvolume, -, hs, -⟩ := h.exists_scene hl
  obtain ⟨r, t', hdo, hr⟩ := Session.openPath_step (t := ⟨s, v.files⟩) hs path flags
  rw [Service.session_eq hvolume] at hopen
  obtain rfl := hdo.eq_ok hopen
  rcases hr with ⟨e, he, -⟩ | ⟨handle', file, hhandle, hfiles, hfree, happend, hkind, hleads⟩
  · cases he
  · obtain rfl := Except.ok.inj hhandle
    obtain ⟨history', hvolume', hfiles'⟩ : ∃ history',
        ((Call.openPath path flags).after v).volume = Settled.state t'.scene history' ∧
          ((Call.openPath path flags).after v).files = t'.files := Service.onSession_eq hvolume hdo
    refine ⟨file, ?_, happend, ?_, ?_⟩
    · have hlt : handle < handleCount := by
        by_contra hge
        rw [Vector.getElem?_eq_none (Nat.le_of_not_lt hge)] at hfree
        cases hfree
      rw [hfiles', hfiles, Vector.getElem?_setIfInBounds, if_pos rfl, if_pos hlt]
    · rw [hvolume']
      exact hkind
    · rw [hvolume']
      exact hleads.answers history'

theorem Reached.openPath_eq_ok (h : Reached g v logs) (hl : Layout.ofGeometry g = .ok l)
    {t : Session} (hopen : Session.openPath path flags v.session = .ok handle t) :
    ∃ file, ((Call.openPath path flags).after v).files[handle]? = some (some file) ∧
      (((Call.openPath path flags).after v).volume.records l).kind file.inode = .file ∧
      ((Call.openPath path flags).after v).volume.Answers (locate path) (.ok file.inode) := by
  obtain ⟨file, hfile, -, hkind, hleads⟩ := h.openPath_opens hl hopen
  exact ⟨file, hfile, hkind, hleads⟩

/-- As long as a handle is open it has the inode of the file that was opened, and what is done through
it acts on the file that has this inode.  That is the very file that was opened, with what was written
to it since, as long as the inode was never free. -/
theorem Reached.handle_keeps_inode (h : Reached g v logs) (hl : Layout.ofGeometry g = .ok l)
    {t : Session} (hopen : Session.openPath path flags v.session = .ok handle t) :
    let v₁ := (Call.openPath path flags).after v
    let logs₁ := (Call.openPath path flags).logs v logs
    ∃ f, (v₁.volume.records l).kind f = .file ∧ v₁.volume.Answers (locate path) (.ok f) ∧
      ∀ v₂ logs₂, Leads (·.IsOpen handle) v₁ logs₁ v₂ logs₂ →
        ∃ file, v₂.files[handle]? = some (some file) ∧ file.inode = f ∧
          v₂.ActsThrough l logs₂ handle file ∧
          (Leads (fun v => (v.volume.records l).kind f ≠ .free) v₁ logs₁ v₂ logs₂ →
            (v₂.volume.records l).kind f = .file ∧ logs₁ f <+: logs₂ f) := by
  intro v₁ logs₁
  have hv₁ : Reached g v₁ logs₁ := h.call (.openPath path flags)
  obtain ⟨file, hfile, hkind, hleads⟩ := h.openPath_eq_ok hl hopen
  refine ⟨file.inode, hkind, hleads, fun v₂ logs₂ hrun => ?_⟩
  obtain ⟨file', hfile', hinode⟩ := hrun.keeps_inode hv₁ hfile
  obtain ⟨s, history, hvolume, -, hs, hlogs⟩ := (hrun.reached hv₁).exists_scene hl
  have hne : file'.inode ≠ 0 := by
    rw [hinode]
    intro hzero
    rw [hzero] at hkind
    exact Kind.noConfusion (hkind.symm.trans (hv₁.tidy hl).tree.null)
  exact ⟨file', hfile', hinode, Service.actsThrough hvolume hs hlogs hfile' hne,
    fun hlive => hlive.file_lives hv₁ hl hkind⟩

end

/-! ## A file on a new floppy disk -/

namespace Scene

variable {l : Layout} {s s' s'' : Scene l} {p i : Nat} {n : StoredName} {slot : Fin slotCount}
  {name : String}

/-- What was made beside the root and removed again leaves nothing but the root. -/
theorem OnlyRoot.of_removes (h : s.OnlyRoot) (hs : s.Good) (hmakes : Makes rootInode i n s s')
    (hremoves : Removes rootInode slot i s' s'') : s''.OnlyRoot := by
  intro j
  rw [hremoves.kind_eq, hmakes.kind_eq]
  by_cases hj : j = i
  · rw [if_pos hj, hj, if_neg (hmakes.ne_root hs)]
  · rw [if_neg hj, if_neg hj, h]

/-- A file that was just made can be removed. -/
theorem Makes.does_unlink (w : Makes p i n s s') (hm : s.mounted = true) (hs : s.Good)
    (hn : StoredName.encode name = .ok n) (hdot : isSelfOrParent name = false) :
    ∃ slot s'', Does (unlink p name) s' (.ok ()) s'' ∧ Removes p slot i s' s'' := by
  obtain ⟨slot, hslot, hlinks⟩ := w.exists_slot hs hn
  have hkind : s'.records.kind i = .file := by rw [w.kind_eq, if_pos rfl]
  exact ⟨slot, does_unlink_removes (w.mounted.trans hm) (w.good hs) hdot hslot hlinks fun hdir =>
    Kind.noConfusion (hkind.symm.trans hdir)⟩

/-- A file that was just made is read as empty. -/
theorem Makes.does_readAt (w : Makes p i n s s') (hm : s.mounted = true) (hs : s.Good)
    (length : Nat) : Does (readAt i 0 length) s' (.ok []) s' := by
  have hkind : s'.records.kind i = .file := by rw [w.kind_eq, if_pos rfl]
  have hread := Volume.does_readAt (w.mounted.trans hm) (w.good hs).tidy.toExact hkind
    (Cells.shows_ofContent _) 0 length (Nat.le_refl 0) (w.blank.2 0)
    fun _ _ hlt => absurd hlt (Nat.not_lt_zero _)
  rw [w.blank.1, Nat.zero_mul, Nat.min_zero] at hread
  exact hread

/-- On a volume with nothing but the root, a path without a slash is a name in the root. -/
theorem OnlyRoot.does_locate_missing (h : s.OnlyRoot) (hm : s.mounted = true) (hs : s.Good)
    (hstart : s.start name = (s.cwd, name)) (hn : StoredName.encode name = .ok n)
    (hdot : n.isSelfOrParent = false) : Does (locate name) s (.error .notFound) s := by
  rw [h.cwd_eq hs] at hstart
  refine Volume.does_locate_missing hm hs hstart hn ?_
  rw [EntryTable.find?_eq hn]
  exact (h.holdsNothing hs).lookup_eq_none hdot

/-- A file that was just made beside the root is found by its name. -/
theorem Makes.does_locate (w : Makes rootInode i n s s') (h : s.OnlyRoot) (hm : s.mounted = true)
    (hs : s.Good) (hstart : s'.start name = (s'.cwd, name)) (hn : StoredName.encode name = .ok n) :
    Does (locate name) s' (.ok i) s' := by
  rw [w.cwd, h.cwd_eq hs] at hstart
  exact Volume.does_locate_found (w.mounted.trans hm) (w.good hs) hstart hn (w.find?_eq hs hn)

/-- Opening a file that is missing on a new volume makes it, where the flags say so, and gives the first
handle. -/
theorem New.does_openPath (h : s.New) (hcount : 2 < l.inodeCount) {flags : OpenFlags}
    (hcreate : flags.create = true) :
    ∃ s', Does (Session.openPath "a" flags) (SessionScene.mk s Session.noFiles) (.ok 0)
        (SessionScene.mk s' (Session.noFiles.setIfInBounds 0 (some ⟨2, 0, flags.append⟩))) ∧
      Makes rootInode 2 (.ofList nameWidth [0x61]) s s' := by
  obtain ⟨s', hmake, hmakes⟩ := h.does_makeFile hcount StoredName.encode_a (by decide)
  have hfree : Session.noFiles.findFinIdx? Option.isNone = some 0 :=
    findFinIdx?_eq_some_iff.mpr ⟨rfl, fun j hj => absurd hj (Nat.not_lt_zero _)⟩
  have hmissing : Does (locate "a") s (.error .notFound) s :=
    h.onlyRoot.does_locate_missing h.mounted h.good rfl StoredName.encode_a (by decide)
  have hmakeAt : Does (makeFileAt "a") s (.ok 2) s' := by
    apply (does_splitPath h.mounted "a").bind
    have hstart : s.start "a" = (rootInode, "a") := by
      rw [Scene.start, h.onlyRoot.cwd_eq h.good]
      rfl
    rw [hstart]
    exact hmake
  have hinode : Does (Session.inodeToOpen "a" flags) s (.ok 2) s' := by
    rw [Session.inodeToOpen, hcreate]
    exact hmissing.tryCatch_error hmakeAt
  have hload := File.does_ofInode (hmakes.mounted.trans h.mounted) (i := 2)
    ((hmakes.kind_eq 2).trans (if_pos rfl))
  refine ⟨s', Does.get_bind fun history => ?_, hmakes⟩
  simp only [Settled.state, hfree]
  exact (Session.does_onVolume hinode).bind ((Session.does_onVolume hload).bind
    ((Session.does_setFile 0 _).bind (Does.pure _ _)))

end Scene

section

variable {l : Layout} {s : Scene l} {history : History} {v : Service}

/-- An edit that succeeds leaves its scene behind, with the same open files. -/
theorem Call.edit_eq {e : Edit} {r : Except Error Nat} {s' : Scene l}
    (hv : v.volume = Settled.state s history) (he : Does e.action s r s') :
    ∃ history', ((Call.edit e).after v).volume = Settled.state s' history' ∧
      ((Call.edit e).after v).files = v.files := by
  obtain ⟨history', hleft⟩ := he.leftBy_eq history
  rw [← hv] at hleft
  exact ⟨history', hleft, rfl⟩

/-- A file that is missing on a new volume is made and opened under the first handle. -/
theorem Service.openPath_creates (hv : v.volume = Settled.state s history)
    (hfiles : v.files = Session.noFiles) (hnew : s.New) (hcount : 2 < l.inodeCount)
    (flags : OpenFlags) (hcreate : flags.create = true) :
    (∃ t, Session.openPath "a" flags v.session = .ok 0 t) ∧
      ((Call.openPath "a" flags).after v).files[0]? = some (some ⟨2, 0, flags.append⟩) ∧
      ∃ s' history', ((Call.openPath "a" flags).after v).volume = Settled.state s' history' ∧
        Scene.Makes rootInode 2 (.ofList nameWidth [0x61]) s s' := by
  obtain ⟨s', hopen, hmakes⟩ := hnew.does_openPath hcount hcreate
  rw [← hfiles] at hopen
  obtain ⟨history', hvolume', hfiles'⟩ : ∃ history',
      ((Call.openPath "a" flags).after v).volume = Settled.state s' history' ∧
        ((Call.openPath "a" flags).after v).files
          = v.files.setIfInBounds 0 (some ⟨2, 0, flags.append⟩) := Service.onSession_eq hv hopen
  refine ⟨?_, ?_, s', history', hvolume', hmakes⟩
  · rw [Service.session_eq hv]
    exact hopen.exists_ok history
  · rw [hfiles', hfiles]
    rfl

theorem Service.openPath_new (hv : v.volume = Settled.state s history)
    (hfiles : v.files = Session.noFiles) (hnew : s.New) (hcount : 2 < l.inodeCount) :
    (∃ t, Session.openPath "a" ⟨0x40⟩ v.session = .ok 0 t) ∧
      ((Call.openPath "a" ⟨0x40⟩).after v).files[0]? = some (some ⟨2, 0, false⟩) ∧
      ∃ s' history', ((Call.openPath "a" ⟨0x40⟩).after v).volume = Settled.state s' history' ∧
        Scene.Makes rootInode 2 (.ofList nameWidth [0x61]) s s' :=
  Service.openPath_creates hv hfiles hnew hcount ⟨0x40⟩ rfl

end

/-- On a new floppy disk a file is opened, removed and followed by another, which gets its inode.  The
handle of the first file reads nothing in between, and then the second file. -/
theorem Reached.handle_outlives_file_floppy :
    let v₁ := (Call.openPath "a" ⟨0x40⟩).after Service.floppy
    let v₂ := (Call.edit (.unlink rootInode "a")).after v₁
    let v₃ := (Call.edit (.makeFile rootInode "b")).after v₂
    (∃ t, Session.openPath "a" ⟨0x40⟩ Service.floppy.session = .ok 0 t) ∧
      v₁.volume.Answers (locate "a") (.ok 2) ∧ v₁.IsOpen 0 ∧
      (v₂.volume.records .floppy).kind 2 = .free ∧ v₂.IsOpen 0 ∧
      (∃ e t, Session.read 0 4 v₂.session = .error e t) ∧
      v₃.volume.Answers (locate "b") (.ok 2) ∧ v₃.IsOpen 0 ∧
      ∃ t, Session.read 0 4 v₃.session = .ok [] t := by
  obtain ⟨s, history, hfloppy, hnew⟩ := Service.floppy_eq
  rw [hfloppy]
  intro v₁ v₂ v₃
  obtain ⟨hopened, hfile, s₁, history₁, hv₁, hmakes⟩ :=
    Service.openPath_new (v := .new (Settled.state s history)) rfl rfl hnew (by decide)
  have hs₁ := hmakes.good hnew.good
  have hm₁ := hmakes.mounted.trans hnew.mounted
  obtain ⟨slot, s₂, hunlink, hremoves⟩ :=
    hmakes.does_unlink hnew.mounted hnew.good StoredName.encode_a (by decide)
  have hs₂ := hremoves.good hs₁
  have hm₂ := hremoves.mounted.trans hm₁
  obtain ⟨history₂, hv₂, hfiles₂⟩ := Call.edit_eq (e := .unlink rootInode "a") hv₁
    (hunlink.bind (Does.pure 0 _))
  have honly := hnew.onlyRoot.of_removes hnew.good hmakes hremoves
  have hb : StoredName.encode "b" = .ok (.ofList nameWidth [0x62]) := by
    apply StoredName.encode_eq_ok_iff.mpr
    rw [toList_eq_data_toList]
    decide
  obtain ⟨s₃, hmake, hmakes'⟩ := honly.does_makeFile hm₂ hs₂ (by decide) hb (by decide)
  obtain ⟨history₃, hv₃, hfiles₃⟩ := Call.edit_eq (e := .makeFile rootInode "b") hv₂ hmake
  have hfile₂ : v₂.files[0]? = some (some ⟨2, 0, false⟩) := by rw [hfiles₂, hfile]
  have hfile₃ : v₃.files[0]? = some (some ⟨2, 0, false⟩) := by rw [hfiles₃, hfile₂]
  have hfree : s₂.records.kind 2 = .free := (honly 2).trans (if_neg (by decide))
  have hlocate := hmakes.does_locate hnew.onlyRoot hnew.mounted hnew.good rfl StoredName.encode_a
  have hlocate' := hmakes'.does_locate honly hm₂ hs₂ rfl hb
  obtain ⟨e, t₂, hfails⟩ := Session.read_fails (t := ⟨s₂, v₂.files⟩) hfile₂
    (fun _ => by rw [hfree]; exact Kind.noConfusion) 4
  obtain ⟨t₃, hreads⟩ := Session.does_read (t := ⟨s₃, v₃.files⟩) hfile₃
    (hmakes'.does_readAt hm₂ hs₂ 4)
  refine ⟨hopened, ?_, ⟨_, hfile⟩, ?_, ⟨_, hfile₂⟩, ⟨e, ?_⟩, ?_, ⟨_, hfile₃⟩, ?_⟩
  · rw [hv₁]
    exact hlocate.answers history₁
  · rw [hv₂]
    exact hfree
  · rw [Service.session_eq hv₂]
    exact hfails.exists_error history₂
  · rw [hv₃]
    exact hlocate'.answers history₃
  · rw [Service.session_eq hv₃]
    exact hreads.exists_ok history₃

/-- A file is opened on a new floppy disk. -/
theorem Reached.handle_keeps_inode_floppy :
    let v₁ := (Call.openPath "a" ⟨0x40⟩).after Service.floppy
    let logs₁ := (Call.openPath "a" ⟨0x40⟩).logs Service.floppy fun _ => []
    Reached .floppy Service.floppy (fun _ => []) ∧ Layout.ofGeometry .floppy = .ok .floppy ∧
      (∃ t, Session.openPath "a" ⟨0x40⟩ Service.floppy.session = .ok 0 t) ∧
      ∃ f, (v₁.volume.records .floppy).kind f = .file ∧ v₁.volume.Answers (locate "a") (.ok f) ∧
        ∀ v₂ logs₂, Leads (·.IsOpen 0) v₁ logs₁ v₂ logs₂ →
          ∃ file, v₂.files[0]? = some (some file) ∧ file.inode = f ∧
            v₂.ActsThrough .floppy logs₂ 0 file ∧
            (Leads (fun v => (v.volume.records .floppy).kind f ≠ .free) v₁ logs₁ v₂ logs₂ →
              (v₂.volume.records .floppy).kind f = .file ∧ logs₁ f <+: logs₂ f) := by
  have hopen : ∃ t, Session.openPath "a" ⟨0x40⟩ Service.floppy.session = .ok 0 t := by
    obtain ⟨s, history, hfloppy, hnew⟩ := Service.floppy_eq
    rw [hfloppy]
    exact (Service.openPath_new (v := .new (Settled.state s history)) rfl rfl hnew
      (by decide)).1
  obtain ⟨t, ht⟩ := hopen
  exact ⟨reached_floppy, Layout.ofGeometry_floppy, ⟨t, ht⟩,
    reached_floppy.handle_keeps_inode Layout.ofGeometry_floppy ht⟩

end BlockFS
