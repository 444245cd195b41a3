import BlockFS.Proofs.OpenHandles
import Mathlib.Data.List.Induction

/-!
# Writes behind the end of a file

A write through a handle that was opened to append to begins at the end of the file, wherever the cursor
of this handle or of any other is and whatever was written before.  The last byte of a file was
written, so that the block it lies in is no hole; hence what is appended fills no hole that begins below
the old end, and whatever is read up to there is read as before.
-/

namespace BlockFS

open Volume

/-! ## The end of a log -/

namespace WriteLog

variable {log : WriteLog} {w : Write} {k slot offset gap : Nat} {data : List UInt8}

/-- No byte was written from the end on. -/
theorem lastByte?_of_size_le (h : log.size ≤ k) : log.lastByte? k = none := by
  induction log using List.reverseRecOn with
  | nil => rfl
  | append_singleton log w ih =>
    rw [size_append] at h
    rw [lastByte?_append]
    by_cases hdata : w.data = []
    · rw [if_pos hdata] at h
      rw [hdata, Cells.lay_nil, ih h]
    · rw [if_neg hdata] at h
      rw [Cells.lay_of_ge (by omega), ih (by omega)]

/-- The last byte before the end was written. -/
theorem lastByte?_size_sub_one (h : 0 < log.size) : log.lastByte? (log.size - 1) ≠ none := by
  induction log using List.reverseRecOn with
  | nil => exact absurd h (Nat.lt_irrefl 0)
  | append_singleton log w ih =>
    rw [size_append] at h ⊢
    rw [lastByte?_append]
    by_cases hdata : w.data = []
    · rw [if_pos hdata] at h ⊢
      rw [hdata, Cells.lay_nil]
      exact ih h
    · rw [if_neg hdata] at h ⊢
      have hpos : 0 < w.data.length := List.length_pos_iff.mpr hdata
      rcases Nat.lt_or_ge (w.offset + w.data.length) (size log) with hlt | hge
      · rw [Nat.max_eq_left (Nat.le_of_lt hlt), Cells.lay_of_ge (by omega)]
        exact ih (by omega)
      · have hin : w.offset + w.data.length - 1 - w.offset < w.data.length := by omega
        rw [Nat.max_eq_right hge, Cells.lay, if_pos (by omega), List.getElem?_eq_getElem hin,
          Option.some_or]
        exact Option.some_ne_none _

/-! ## A write behind the end -/

section

variable (hw : log.size ≤ w.offset)

include hw

theorem lastByte?_append_of_lt (hk : k < log.size) :
    (log ++ [w]).lastByte? k = log.lastByte? k := by
  rw [lastByte?_append, Cells.lay_of_lt (Nat.lt_of_lt_of_le hk hw)]

theorem bytes_append_of_le {start stop : Nat} (h : stop ≤ log.size) :
    (log ++ [w]).bytes start stop = log.bytes start stop := by
  refine List.map_congr_left fun k hk => ?_
  have hlt : k < log.size := by
    rw [List.mem_range'_1] at hk
    omega
  rw [lastByte?_append_of_lt hw hlt]

/-- A block that begins below the end is touched by no write behind the end, unless it was touched
before: the end lies behind it, or the last byte lies in it. -/
theorem touches_append_iff (hslot : slot * blockSize < log.size) :
    (log ++ [w]).Touches slot ↔ log.Touches slot := by
  rw [← touches_iff, ← touches_iff]
  constructor
  · rintro ⟨j, hj, hne⟩
    rcases Nat.lt_or_ge (slot * blockSize + j) log.size with hlt | hge
    · rw [lastByte?_append_of_lt hw hlt] at hne
      exact ⟨j, hj, hne⟩
    · refine ⟨log.size - 1 - slot * blockSize, by omega, ?_⟩
      rw [Nat.add_sub_cancel' (by omega)]
      exact lastByte?_size_sub_one (by omega)
  · rintro ⟨j, hj, hne⟩
    have hlt : slot * blockSize + j < log.size :=
      Nat.lt_of_not_le fun hle => hne (lastByte?_of_size_le hle)
    refine ⟨j, hj, ?_⟩
    rwa [lastByte?_append_of_lt hw hlt]

theorem firstGap_append_iff (hgap : gap * blockSize < log.size) :
    (log ++ [w]).FirstGap offset gap ↔ log.FirstGap offset gap := by
  have htouches {slot : Nat} (hlt : slot < gap) : (log ++ [w]).Touches slot ↔ log.Touches slot :=
    touches_append_iff hw (Nat.lt_of_le_of_lt (Nat.mul_le_mul_right _ (Nat.le_of_lt hlt)) hgap)
  constructor
  · rintro ⟨hbehind, huntouched, htouched⟩
    exact ⟨hbehind, mt (touches_append_iff hw hgap).mpr huntouched,
      fun slot hge hlt => (htouches hlt).mp (htouched slot hge hlt)⟩
  · rintro ⟨hbehind, huntouched, htouched⟩
    exact ⟨hbehind, mt (touches_append_iff hw hgap).mp huntouched,
      fun slot hge hlt => (htouches hlt).mpr (htouched slot hge hlt)⟩

end

theorem FirstGap.unique {gap' : Nat} (h : log.FirstGap offset gap) (h' : log.FirstGap offset gap') :
    gap = gap' := by
  rcases Nat.lt_trichotomy gap gap' with hlt | heq | hgt
  · exact absurd (h'.touched gap h.behind hlt) h.untouched
  · exact heq
  · exact absurd (h.touched gap' h'.behind hgt) h'.untouched

/-- Up to the old end, a write behind it does not change how far can be read. -/
theorem min_firstGap_append {gap' stop : Nat} (hw : log.size ≤ w.offset)
    (h : log.FirstGap offset gap) (h' : (log ++ [w]).FirstGap offset gap')
    (hstop : stop ≤ log.size) : min stop (gap * blockSize) = min stop (gap' * blockSize) := by
  rcases Nat.lt_or_ge (gap * blockSize) stop with hlt | hge
  · have hsame := (firstGap_append_iff hw (Nat.lt_of_lt_of_le hlt hstop)).mpr h
    rw [hsame.unique h']
  · rcases Nat.lt_or_ge (gap' * blockSize) stop with hlt' | hge'
    · have hsame := (firstGap_append_iff hw (Nat.lt_of_lt_of_le hlt' hstop)).mp h'
      rw [h.unique hsame]
    · rw [Nat.min_eq_left hge, Nat.min_eq_left hge']

/-- What was written behind the end can be read as a whole. -/
theorem FirstGap.le_of_append (h : (log ++ [Write.mk offset data]).FirstGap offset gap)
    (hdata : data ≠ []) : offset + data.length ≤ gap * blockSize := by
  have hpos : 0 < data.length := List.length_pos_iff.mpr hdata
  by_contra hshort
  refine h.untouched ⟨⟨offset, data⟩, List.mem_append_right _ (List.mem_singleton_self _),
    max offset (gap * blockSize), ?_, ?_⟩
  · have hbehind := h.behind
    simp only [blockSize] at hbehind hshort ⊢
    omega
  · have hin : max offset (gap * blockSize) - offset < data.length := by omega
    rw [Write.byte?, if_pos (Nat.le_max_left _ _), List.getElem?_eq_getElem hin]
    exact Option.some_ne_none _

theorem bytes_append_self (log : WriteLog) (offset : Nat) (data : List UInt8) :
    (log ++ [Write.mk offset data]).bytes offset (offset + data.length) = data := by
  apply List.ext_getElem?
  intro j
  rw [bytes, List.getElem?_map, Nat.add_sub_cancel_left]
  by_cases hj : j < data.length
  · rw [List.getElem?_range' hj, Nat.one_mul, Option.map_some, lastByte?_append, Cells.lay,
      if_pos (Nat.le_add_right _ _), Nat.add_sub_cancel_left, List.getElem?_eq_getElem hj,
      Option.some_or, Option.getD_some]
  · rw [List.getElem?_eq_none (by simpa using hj), List.getElem?_eq_none (Nat.le_of_not_lt hj),
      Option.map_none]

theorem size_append_end (log : WriteLog) (data : List UInt8) :
    (log ++ [Write.mk log.size data]).size = log.size + data.length := by
  rw [size_append]
  split
  · next hdata =>
    rw [show data = [] from hdata]
    rfl
  · exact Nat.max_eq_right (Nat.le_add_right _ _)

end WriteLog

/-- Blocks that show the same cell, and are holes together, hold the same there. -/
theorem Cells.Shows.ofContent_eq {content content' : Nat → Option Block} {cells cells' : Cells}
    {k : Nat} (h : Shows content cells) (h' : Shows content' cells')
    (htouches : cells.Touches (k / blockSize) ↔ cells'.Touches (k / blockSize))
    (hcell : cells k = cells' k) : ofContent content k = ofContent content' k := by
  have hmod := Nat.mod_lt k blockSize_pos
  rw [← Nat.div_add_mod' k blockSize] at hcell ⊢
  rw [ofContent_add content hmod, ofContent_add content' hmod]
  cases hc : content (k / blockSize) with
  | none =>
    have huntouched := mt htouches.mpr (h.hole _ hc)
    cases hc' : content' (k / blockSize) with
    | none => rfl
    | some b' => exact absurd (h'.touched _ b' hc') huntouched
  | some b =>
    have htouched := htouches.mp (h.touched _ b hc)
    cases hc' : content' (k / blockSize) with
    | none => exact absurd htouched (h'.hole _ hc')
    | some b' =>
      have hbyte := h.value _ b hc _ hmod
      have hbyte' := h'.value _ b' hc' _ hmod
      rw [Option.map_some, Option.map_some, hbyte, hbyte', Cells.value, Cells.value, hcell]

/-! ## Appending to a file -/

/-- The volume `v'` is `v` with some data behind the old end of a file.  The file is longer by the data
and no more; below its old end every byte and every hole is as it was and whatever can be read is read
as before; and the data is read from the old end on. -/
structure Volume.Appends (v : Volume) (l : Layout) (f size : Nat) (data : List UInt8)
    (v' : Volume) : Prop where
  before : v.Answers (fileSize f) (.ok size)
  after : v'.Answers (fileSize f) (.ok (size + data.length))
  cells : ∀ k < size, Cells.ofContent ((v'.records l).content f) k
    = Cells.ofContent ((v.records l).content f) k
  reads : ∀ offset length, offset + length ≤ size → ∃ bytes,
    v.Answers (readAt f offset length) (.ok bytes) ∧
      v'.Answers (readAt f offset length) (.ok bytes)
  appended : v'.Answers (readAt f size data.length) (.ok data)

section

variable {l : Layout} {s s' : Scene l} {f : Nat} {logs logs' : Logs} {data : List UInt8}

/-- What the log of a file says after a write behind its end, the volume does. -/
theorem Scene.Recounts.appends (hlogs : s.Recounts logs) (hlogs' : s'.Recounts logs')
    (hlog : logs' f = logs f ++ [⟨(logs f).size, data⟩]) (hm : s.mounted = true)
    (hm' : s'.mounted = true) (hs : s.Good) (hs' : s'.Good) (hf : s.records.kind f = .file)
    (hf' : s'.records.kind f = .file) (history history' : History) :
    (Settled.state s history : Volume).Appends l f (logs f).size data
      (Settled.state s' history') := by
  have hsize : (logs' f).size = (logs f).size + data.length := by
    rw [hlog, WriteLog.size_append_end]
  constructor
  · exact (hlogs.does_fileSize hm hf).answers history
  · rw [← hsize]
    exact (hlogs'.does_fileSize hm' hf').answers history'
  · intro k hk
    refine (hlogs'.shows f hf').ofContent_eq (hlogs.shows f hf) ?_ ?_
    · rw [hlog, WriteLog.touches_iff, WriteLog.touches_iff]
      exact WriteLog.touches_append_iff (Nat.le_refl _)
        (Nat.lt_of_le_of_lt (Nat.div_mul_le_self k blockSize) hk)
    · rw [hlog]
      exact WriteLog.lastByte?_append_of_lt (Nat.le_refl _) hk
  · intro offset length hle
    obtain ⟨gap, hgap⟩ := hlogs.exists_firstGap hf offset
    obtain ⟨gap', hgap'⟩ := hlogs'.exists_firstGap hf' offset
    have hread := (hlogs.does_readAt hm hs hf hgap length).answers history
    have hread' := (hlogs'.does_readAt hm' hs' hf' hgap' length).answers history'
    rw [hlog] at hgap'
    have hsame := WriteLog.min_firstGap_append (Nat.le_refl _) hgap hgap' hle
    rw [hsize, Nat.min_eq_left (Nat.le_trans hle (Nat.le_add_right _ _)), ← hsame, hlog,
      WriteLog.bytes_append_of_le (Nat.le_refl _) (Nat.le_trans (Nat.min_le_left _ _) hle)]
      at hread'
    rw [Nat.min_eq_left hle] at hread
    exact ⟨_, hread, hread'⟩
  · obtain ⟨gap, hgap⟩ := hlogs'.exists_firstGap hf' (logs f).size
    have hread := (hlogs'.does_readAt hm' hs' hf' hgap data.length).answers history'
    rw [hsize, Nat.min_self] at hread
    by_cases hdata : data = []
    · have hnil : (logs' f).bytes (logs f).size
          (min ((logs f).size + data.length) (gap * blockSize)) = [] := by
        rw [hdata, WriteLog.bytes, List.length_nil, Nat.add_zero,
          Nat.sub_eq_zero_of_le (Nat.min_le_left _ _)]
        rfl
      rw [hnil] at hread
      rwa [hdata] at hread ⊢
    · rw [hlog] at hgap
      rwa [Nat.min_eq_left (hgap.le_of_append hdata), hlog, WriteLog.bytes_append_self] at hread

/-- A write through a handle that tells a number of bytes acts on a regular file of a mounted
volume. -/
theorem Session.file_of_write_ok {t : SessionScene l} {handle count : Nat} {file : OpenFile}
    {history : History} {u : Session} (hfile : t.files[handle]? = some (some file))
    (hwrite : Session.write handle data (Settled.state t history) = .ok count u) :
    t.scene.mounted = true ∧ t.scene.records.kind file.inode = .file := by
  by_contra hnot
  obtain ⟨e, t', hfails⟩ :=
    Session.write_fails hfile (fun hm hi => hnot ⟨hm, hi⟩) data
  cases hfails.eq_ok hwrite

end

section

variable {g : Geometry} {l : Layout} {v v₂ : Service} {logs logs₂ : Logs} {handle n : Nat}
  {path : String} {flags : OpenFlags} {file : OpenFile} {t t' : Session} {data : List UInt8}

/-- A write through a handle that is appended to puts what it tells to have written behind the end of
the file, and leaves the cursor of the handle at the new end. -/
theorem Reached.appends_of_write (h : Reached g v logs) (hl : Layout.ofGeometry g = .ok l)
    (hfile : v.files[handle]? = some (some file)) (happend : file.append = true)
    (hwrite : Session.write handle data v.session = .ok n t') :
    n ≤ data.length ∧
      v.volume.Appends l file.inode (logs file.inode).size (data.take n) t'.volume ∧
      t'.files[handle]? = some (some { file with cursor := (logs file.inode).size + n }) := by
  obtain ⟨s, history, hvolume, -, hs, hlogs⟩ := h.exists_scene hl
  have hsession := Service.session_eq hvolume
  have hopen : (SessionScene.mk s v.files).files[handle]? = some (some file) := hfile
  rw [hsession] at hwrite
  obtain ⟨hm, hi⟩ := Session.file_of_write_ok hopen hwrite
  have hsize := hlogs.does_fileSize hm hi
  have hstart : file.start (logs file.inode).size = (logs file.inode).size := if_pos happend
  obtain ⟨r, s', m, hdo, hfills, -, hr⟩ := does_writeAt hm hs.tidy hi (Cells.shows_ofContent _)
    (file.start (logs file.inode).size) data
  rcases hr with ⟨rfl, -⟩ | ⟨rfl, -⟩
  · have hthrough := Session.does_write_ok hopen hsize hdo
    obtain rfl := Except.ok.inj (hthrough.eq_ok hwrite)
    have hlog := Call.logs_writeHandle hvolume hs hlogs hopen hi hwrite
    rw [hstart] at hthrough hlog
    obtain ⟨history', heq⟩ := hthrough history
    rw [hwrite] at heq
    injection heq with _ ht'
    subst ht'
    -- the log tells the same of the volume that the write leaves
    have hleft : ((Call.writeHandle handle data).after v).volume = Settled.state s' history' := by
      change (leftBy (Session.write handle data) v.session).volume = _
      rw [hsession, leftBy, hwrite]
      rfl
    obtain ⟨s'', history'', hvolume'', -, hs', hlogs'⟩ :=
      (h.call (.writeHandle handle data)).exists_scene hl
    obtain rfl := Scene.eq_of_state_eq (hleft.symm.trans hvolume'')
    rw [hlog] at hlogs'
    refine ⟨hfills.le, ?_, ?_⟩
    · rw [hvolume]
      exact hlogs.appends hlogs' (Function.update_self ..) hm (hfills.writes.mounted.trans hm) hs hs'
        hi ((hfills.writes.kind_eq _).trans hi) history history'
    · have hlt : handle < handleCount := by
        by_contra hge
        rw [Vector.getElem?_eq_none (Nat.le_of_not_lt hge)] at hfile
        cases hfile
      change (v.files.setIfInBounds handle _)[handle]? = _
      rw [Vector.getElem?_setIfInBounds, if_pos rfl, if_pos hlt]
  · obtain ⟨_, hthrough⟩ := Session.does_write hopen hsize hdo
    cases hthrough.eq_ok hwrite

/-- A handle was opened to append to, and whatever was called since, it is still open.  Then a write
through it puts what it tells to have written behind the end that the file has by now, and leaves its
cursor at the new end. -/
theorem Reached.append_never_overwrites (h : Reached g v logs) (hl : Layout.ofGeometry g = .ok l)
    (hopen : Session.openPath path flags v.session = .ok handle t) (happend : flags.append = true)
    (hrun : Leads (·.IsOpen handle) ((Call.openPath path flags).after v)
      ((Call.openPath path flags).logs v logs) v₂ logs₂)
    (hwrite : Session.write handle data v₂.session = .ok n t') :
    ∃ file size, v₂.files[handle]? = some (some file) ∧ n ≤ data.length ∧
      v₂.volume.Appends l file.inode size (data.take n) t'.volume ∧
      t'.files[handle]? = some (some { file with cursor := size + n }) := by
  have hv₁ := h.call (.openPath path flags)
  obtain ⟨file, hfile, hflag, -⟩ := h.openPath_opens hl hopen
  obtain ⟨cursor, hfile₂⟩ := hrun.keeps_file hv₁ hfile
  exact ⟨_, _, hfile₂, (hrun.reached hv₁).appends_of_write hl hfile₂ (hflag.trans happend) hwrite⟩

end

/-! ## A file on a new floppy disk -/

/-- A new file on a floppy disk is opened to be appended to, and its first byte is written by its inode.
Then there is room for a second byte behind it. -/
theorem Service.writes_behind_floppy :
    let v₁ := (Call.openPath "a" ⟨0x48⟩).after Service.floppy
    let v₂ := (Call.edit (.write 2 0 [1])).after v₁
    (∃ t, Session.openPath "a" ⟨0x48⟩ Service.floppy.session = .ok 0 t) ∧
      v₁.files[0]? = some (some ⟨2, 0, true⟩) ∧ v₂.files[0]? = some (some ⟨2, 0, true⟩) ∧
      ∃ t', Session.write 0 [2] v₂.session = .ok 1 t' := by
  obtain ⟨s, history, hfloppy, hnew⟩ := Service.floppy_eq
  rw [hfloppy]
  intro v₁ v₂
  obtain ⟨hopen, hfile, s₁, history₁, hv₁, hmakes⟩ :=
    Service.openPath_creates (v := .new (Settled.state s history)) rfl rfl hnew (by decide) ⟨0x48⟩
      rfl
  have hs₁ := hmakes.good hnew.good
  have hm₁ := hmakes.mounted.trans hnew.mounted
  have hkind₁ : s₁.records.kind 2 = .file := (hmakes.kind_eq 2).trans (if_pos rfl)
  have hroom : s₁.records.lowestFree .block Layout.floppy.blockCount ≠ none := by
    rw [hmakes.lowestFree_block_eq.trans (hnew.lowestFree_block (by decide))]
    exact Option.some_ne_none _
  obtain ⟨s₂, hfirst, hwrites, hblock, hsize⟩ := does_writeAt_byte hm₁ hs₁.tidy hkind₁
    (show 0 < pointerCount * blockSize by decide) (.inr hroom) 1
  rw [hmakes.blank.1] at hsize
  obtain ⟨history₂, hv₂, hfiles₂⟩ := Call.edit_eq (e := .write 2 0 [1]) hv₁ hfirst
  have hfile₂ : v₂.files[0]? = some (some ⟨2, 0, true⟩) := by
    rw [hfiles₂]
    exact hfile
  have hkind₂ := (hwrites.kind_eq 2).trans hkind₁
  have hm₂ := hwrites.mounted.trans hm₁
  have hend : Does (fileSize 2) s₂ (.ok 1) s₂ := by
    have hdo := does_fileSize hm₂ (Records.used_of_kind_ne (Records.ne_free_of_file hkind₂))
    rwa [hsize] at hdo
  obtain ⟨s₃, hsecond, -⟩ := does_writeAt_byte hm₂ hwrites.tidy hkind₂
    (show 1 < pointerCount * blockSize by decide) (.inl hblock) 2
  refine ⟨hopen, hfile, hfile₂, ?_⟩
  rw [Service.session_eq hv₂]
  exact (Session.does_write_ok (t := ⟨s₂, v₂.files⟩) hfile₂ hend hsecond).exists_ok history₂

/-- The cursor of the handle stands at the first byte, which is written, and the second is appended. -/
theorem Reached.append_never_overwrites_floppy :
    let v₁ := (Call.openPath "a" ⟨0x48⟩).after Service.floppy
    let logs₁ := (Call.openPath "a" ⟨0x48⟩).logs Service.floppy fun _ => []
    let v₂ := (Call.edit (.write 2 0 [1])).after v₁
    let logs₂ := (Call.edit (.write 2 0 [1])).logs v₁ logs₁
    Reached .floppy Service.floppy (fun _ => []) ∧ Layout.ofGeometry .floppy = .ok .floppy ∧
      (∃ t, Session.openPath "a" ⟨0x48⟩ Service.floppy.session = .ok 0 t) ∧
      (OpenFlags.mk 0x48).append = true ∧ Leads (·.IsOpen 0) v₁ logs₁ v₂ logs₂ ∧
      v₂.files[0]? = some (some ⟨2, 0, true⟩) ∧
      ∃ t', Session.write 0 [2] v₂.session = .ok 1 t' ∧
        ∃ file size, v₂.files[0]? = some (some file) ∧ 1 ≤ [(2 : UInt8)].length ∧
          v₂.volume.Appends .floppy file.inode size ([2].take 1) t'.volume ∧
          t'.files[0]? = some (some { file with cursor := size + 1 }) := by
  intro v₁ logs₁ v₂ logs₂
  obtain ⟨⟨t, hopen⟩, hfile, hfile₂, t', hwrite⟩ := Service.writes_behind_floppy
  have hrun : Leads (·.IsOpen 0) v₁ logs₁ v₂ logs₂ :=
    .call (.edit (.write 2 0 [1])) (.start ⟨_, hfile⟩) ⟨_, hfile₂⟩
  exact ⟨reached_floppy, Layout.ofGeometry_floppy, ⟨t, hopen⟩, rfl, hrun, hfile₂, t', hwrite,
    reached_floppy.append_never_overwrites Layout.ofGeometry_floppy hopen rfl hrun hwrite⟩

end BlockFS
