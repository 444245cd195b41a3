import BlockFS.Proofs.Scene.Looking
import BlockFS.Proofs.Scene.Writing
import BlockFS.Proofs.WriteLogs

/-!
# Edits

An edit is one of the operations through which a volume changes; whatever is asked of a volume acts on
it by a row of edits.  Every edit keeps a scene good, and the logs of the writes into the files go on
telling what the files hold.
-/

namespace BlockFS

open Volume

/-- An operation that may change a volume; also that time passes. -/
inductive Edit where
  | wait (clock : Int)
  | mount
  | unmount
  | makeFile (parent : Nat) (name : String)
  | makeDirectory (parent : Nat) (name : String)
  | write (inode offset : Nat) (data : List UInt8)
  | unlink (parent : Nat) (name : String)
  | relabel (parent : Nat) (old new : String)
  | enter (path : String)
  | enterRoot

/-- The logs of the writes into the files, by inode. -/
abbrev Logs := Nat → WriteLog

namespace Edit

/-- What an edit does, with the number that it answers. -/
def action : Edit → VolumeM Nat
  | .wait clock => (modify fun v => { v with clock := clock }) >>= fun _ => pure 0
  | .mount => Volume.mount >>= fun _ => pure 0
  | .unmount => Volume.unmount >>= fun _ => pure 0
  | .makeFile parent name => Volume.makeFile parent name
  | .makeDirectory parent name => Volume.makeDirectory parent name
  | .write inode offset data => writeAt inode offset data
  | .unlink parent name => Volume.unlink parent name >>= fun _ => pure 0
  | .relabel parent old new => Volume.relabel parent old new >>= fun _ => pure 0
  | .enter path => Volume.enter path
  | .enterRoot => Volume.enterRoot >>= fun _ => pure 0

/-- Whether an edit makes a file whose name is linked already. -/
def existed : Edit → Volume → Bool
  | .makeFile parent name, v =>
    match Volume.find parent name v with
    | .ok _ _ => true
    | .error _ _ => false
  | _, _ => false

/-- The logs after an edit.  What was written is appended to the log of its file, and a file that was
made starts with no writes; `existed` tells that its name was linked before. -/
def note (e : Edit) (existed : Bool) (r : Except Error Nat) (logs : Logs) : Logs :=
  match e, r with
  | .write inode offset data, .ok count =>
    Function.update logs inode (logs inode ++ [⟨offset, data.take count⟩])
  | .makeFile _ _, .ok inode => if existed then logs else Function.update logs inode []
  | _, _ => logs

/-- The volume and the logs after an edit. -/
def replay (e : Edit) : Volume × Logs → Volume × Logs
  | (v, logs) =>
    match e.action v with
    | .ok count v' => (v', e.note (e.existed v) (.ok count) logs)
    | .error failure v' => (v', e.note (e.existed v) (.error failure) logs)

/-- The volume and the logs after a row of edits. -/
def replayAll (es : List Edit) (p : Volume × Logs) : Volume × Logs :=
  es.foldl (fun p e => e.replay p) p

end Edit

namespace Scene

variable {l : Layout} {s s' s'' : Scene l} {logs : Logs} {e : Edit} {es es' : List Edit}
  {r : Except Error Nat}

/-- The logs tell what the files hold. -/
structure Recounts (s : Scene l) (logs : Logs) : Prop where
  shows : ∀ i, s.records.kind i = .file → Cells.Shows (s.records.content i) (logs i).lastByte?
  size : ∀ i, s.records.kind i = .file → (s.records.inode i).size.toNat = (logs i).size

/-- Where all files are kept, the logs go on telling what they hold. -/
theorem Recounts.kept (h : s.Recounts logs)
    (hkept : ∀ i, s'.records.kind i = .file → FileKept s s' i) : s'.Recounts logs := by
  constructor
  · intro i hi
    obtain ⟨hold, -, hcontent⟩ := hkept i hi
    rw [show s'.records.content i = s.records.content i from funext hcontent]
    exact h.shows i hold
  · intro i hi
    obtain ⟨hold, hinode, -⟩ := hkept i hi
    rw [hinode]
    exact h.size i hold

/-- The log of one file changes, and all other files are kept. -/
theorem Recounts.update (h : s.Recounts logs) {i : Nat} {log : WriteLog}
    (hkept : ∀ j, j ≠ i → s'.records.kind j = .file → FileKept s s' j)
    (hshows : Cells.Shows (s'.records.content i) log.lastByte?)
    (hsize : (s'.records.inode i).size.toNat = log.size) :
    s'.Recounts (Function.update logs i log) := by
  constructor
  · intro j hj
    by_cases hji : j = i
    · rw [hji, Function.update_self]
      exact hshows
    · obtain ⟨hold, -, hcontent⟩ := hkept j hji hj
      rw [Function.update_of_ne hji, show s'.records.content j = s.records.content j from
        funext hcontent]
      exact h.shows j hold
  · intro j hj
    by_cases hji : j = i
    · rw [hji, Function.update_self]
      exact hsize
    · obtain ⟨hold, hinode, -⟩ := hkept j hji hj
      rw [Function.update_of_ne hji, hinode]
      exact h.size j hold

theorem Recounts.agree (h : s.Recounts logs) (hs : s.Good)
    (ha : Records.Agree s.records s'.records) : s'.Recounts logs :=
  h.kept fun _ hi => FileKept.of_agree ha hs hi

/-! ## What one edit changes -/

/-- On a mounted volume a name is linked already if the table of the directory tells so. -/
theorem existed_makeFile (hm : s.mounted = true) (hs : s.Good) (p : Nat) (name : String)
    (h : History) :
    (Edit.makeFile p name).existed (Settled.state s h)
      = ((s.records.table p).find? name).isSome := by
  obtain ⟨h', hfind⟩ := does_find hm hs.tidy.toExact p name h
  rw [Edit.existed, hfind]
  cases (s.records.table p).find? name with
  | none => rfl
  | some i => rfl

/-- What an edit changes, with what it answers: nothing that is in use, one file or directory that
comes or goes, the contents of one file, or one name. -/
inductive Alters (s s' : Scene l) : Edit → Except Error Nat → Prop where
  | kept {e : Edit} {r : Except Error Nat} (agree : Records.Agree s.records s'.records)
      (cwd : s.records.kind s'.cwd = .directory)
      (note : ∀ h logs, e.note (e.existed (Settled.state s h)) r logs = logs) : Alters s s' e r
  | makes {p i : Nat} {name : String} {n : StoredName} (named : StoredName.encode name = .ok n)
      (fresh : ∀ h, (Edit.makeFile p name).existed (Settled.state s h) = false)
      (makes : Makes p i n s s') : Alters s s' (.makeFile p name) (.ok i)
  | makesDirectory {p i b : Nat} {name : String} {n : StoredName}
      (named : StoredName.encode name = .ok n) (makes : MakesDirectory p i b n s s') :
      Alters s s' (.makeDirectory p name) (.ok i)
  | writes {i offset : Nat} {data : List UInt8} {r : Except Error Nat} (mounted : s.mounted = true)
      (file : s.records.kind i = .file) (good : s'.Good) (writes : Writes i s s') :
      Alters s s' (.write i offset data) r
  | removes {p i : Nat} {slot : Fin slotCount} {name : String} (removes : Removes p slot i s s') :
      Alters s s' (.unlink p name) (.ok 0)
  | relabels {p : Nat} {slot : Fin slotCount} {old new : String} {n : StoredName}
      (named : StoredName.encode new = .ok n)
      (used : ((s.records.table p).entry slot).target ≠ 0) (relabels : Relabels p slot n s s') :
      Alters s s' (.relabel p old new) (.ok 0)

/-- What looks only alters nothing. -/
theorem alters_nothing (hs : s.Good) (hdo : Does e.action s r s)
    (hnote : ∀ h logs, e.note (e.existed (Settled.state s h)) r logs = logs) :
    ∃ r s', Does e.action s r s' ∧ Alters s s' e r :=
  ⟨r, s, hdo, .kept (.refl _) hs.cwd hnote⟩

/-- What fails alters nothing that is in use. -/
theorem Same.alters {failure : Error} (h : Same s s') (hs : s.Good)
    (hnote : ∀ h logs, e.note (e.existed (Settled.state s h)) (.error failure) logs = logs) :
    Alters s s' e (.error failure) :=
  .kept h.agree (by rw [h.cwd]; exact hs.cwd) hnote

theorem alters_write (hm : s.mounted = true) (hs : s.Good) (i offset : Nat)
    (data : List UInt8) : ∃ r s', Does (Edit.write i offset data).action s r s' ∧
      Alters s s' (.write i offset data) r := by
  by_cases hi : s.records.kind i = .file
  · -- The cells that the blocks show now need not be told by any log.
    have hcells : Cells.Shows (s.records.content i) (Cells.ofContent (s.records.content i)) :=
      Cells.shows_ofContent _
    obtain ⟨r, s', n, hwrite, hputs, -⟩ := does_writeAt hm hs.tidy hi hcells offset data
    exact ⟨r, s', hwrite, .writes hm hi (hputs.good hs) hputs.writes⟩
  · obtain ⟨e, he⟩ := does_ofInode_other hm hi
    exact alters_nothing hs he.bind_error fun _ _ => rfl

theorem alters_makeFile (hs : s.Good) (p : Nat) (name : String) :
    ∃ r s', Does (Edit.makeFile p name).action s r s' ∧ Alters s s' (.makeFile p name) r := by
  by_cases hm : s.mounted = true
  · obtain ⟨r, s', hdo, hr⟩ := makeFile_step hm hs p name
    rcases hr with ⟨e, rfl, hsame⟩ | ⟨i, rfl, rfl, hfound⟩ | ⟨i, n, rfl, hn, hfound, hmakes⟩
    · exact ⟨_, s', hdo, hsame.toSame.alters hs fun _ _ => rfl⟩
    · refine alters_nothing hs hdo fun h logs => ?_
      rw [Edit.note, existed_makeFile hm hs, hfound, if_pos Option.isSome_some]
    · refine ⟨_, s', hdo, .makes hn (fun h => ?_) hmakes⟩
      rw [existed_makeFile hm hs, hfound]
      rfl
  · obtain ⟨e, hdo⟩ := does_makeFile_unmounted (Bool.eq_false_iff.mpr hm) p name
    exact alters_nothing hs hdo fun _ _ => rfl

theorem alters_makeDirectory (hs : s.Good) (p : Nat) (name : String) :
    ∃ r s', Does (Edit.makeDirectory p name).action s r s' ∧
      Alters s s' (.makeDirectory p name) r := by
  by_cases hm : s.mounted = true
  · obtain ⟨r, s', hdo, hr⟩ := makeDirectory_step hm hs p name
    rcases hr with ⟨e, rfl, hsame⟩ | ⟨i, b, n, rfl, hn, hmakes⟩
    · exact ⟨_, s', hdo, hsame.toSame.alters hs fun _ _ => rfl⟩
    · exact ⟨_, s', hdo, .makesDirectory hn hmakes⟩
  · obtain ⟨r, hdo⟩ := quiet_makeDirectory_unmounted (Bool.eq_false_iff.mpr hm) p name
    exact alters_nothing hs hdo fun _ _ => rfl

theorem alters_unlink (hs : s.Good) (p : Nat) (name : String) :
    ∃ r s', Does (Edit.unlink p name).action s r s' ∧ Alters s s' (.unlink p name) r := by
  by_cases hm : s.mounted = true
  · obtain ⟨r, s', hdo, hr⟩ := unlink_step hm hs p name
    rcases hr with ⟨e, rfl, rfl⟩ | ⟨rfl, slot, i, hgone⟩
    · exact alters_nothing hs hdo.bind_error fun _ _ => rfl
    · exact ⟨.ok 0, s', hdo.bind (Does.pure _ _), .removes hgone⟩
  · obtain ⟨r, hdo⟩ := quiet_unlink_unmounted (Bool.eq_false_iff.mpr hm) p name
    obtain ⟨r, hdo⟩ := Quiet.bind ⟨r, hdo⟩ fun _ => Quiet.pure 0 s
    exact alters_nothing hs hdo fun _ _ => rfl

theorem alters_relabel (hs : s.Good) (p : Nat) (old new : String) :
    ∃ r s', Does (Edit.relabel p old new).action s r s' ∧ Alters s s' (.relabel p old new) r := by
  by_cases hm : s.mounted = true
  · obtain ⟨r, s', hdo, hr⟩ := relabel_step hm hs p old new
    rcases hr with ⟨rfl, -⟩ | ⟨rfl, -, slot, n, m, -, hm', -, hslot, hnew⟩
    · obtain ⟨r, hdo⟩ := Quiet.bind ⟨r, hdo⟩ fun _ => Quiet.pure 0 s'
      exact alters_nothing hs hdo fun _ _ => rfl
    · obtain ⟨hused, -⟩ := EntryTable.named_of_findFinIdx? hslot
      exact ⟨.ok 0, s', hdo.bind (Does.pure _ _), .relabels hm' hused hnew⟩
  · obtain ⟨r, hdo⟩ := quiet_relabel_unmounted (Bool.eq_false_iff.mpr hm) p old new
    obtain ⟨r, hdo⟩ := Quiet.bind ⟨r, hdo⟩ fun _ => Quiet.pure 0 s
    exact alters_nothing hs hdo fun _ _ => rfl

theorem alters_enter (hs : s.Good) (path : String) :
    ∃ r s', Does (Edit.enter path).action s r s' ∧ Alters s s' (.enter path) r := by
  obtain ⟨r, s', hdo, hr⟩ := enter_step (s := s) path
  rcases hr with rfl | ⟨i, rfl, rfl, hi⟩
  · exact alters_nothing hs hdo fun _ _ => rfl
  · exact ⟨_, _, hdo, .kept (.refl _) hi fun _ _ => rfl⟩

theorem alters_enterRoot (hs : s.Good) :
    ∃ r s', Does Edit.enterRoot.action s r s' ∧ Alters s s' .enterRoot r := by
  obtain ⟨r, s', hdo, hr⟩ := enterRoot_step (s := s)
  rcases hr with rfl | ⟨rfl, rfl⟩
  · obtain ⟨r, hdo⟩ := Quiet.bind ⟨r, hdo⟩ fun _ => Quiet.pure 0 s'
    exact alters_nothing hs hdo fun _ _ => rfl
  · exact ⟨.ok 0, _, hdo.bind (Does.pure _ _), .kept (.refl _) hs.tidy.tree.root fun _ _ => rfl⟩

theorem does_wait (clock : Int) :
    Does (Edit.wait clock).action s (.ok 0) { s with clock := clock } := by
  have hwait : Does (modify fun v => { v with clock := clock } : VolumeM Unit) s (.ok ())
      { s with clock := clock } := Does.modify fun history => ⟨history, rfl⟩
  exact hwait.bind (Does.pure _ _)

/-- Every edit does something to a good scene, and alters it in one of these ways. -/
theorem alters (e : Edit) (hs : s.Good) : ∃ r s', Does e.action s r s' ∧ Alters s s' e r := by
  cases e with
  | wait clock => exact ⟨.ok 0, _, does_wait clock, .kept (.refl _) hs.cwd fun _ _ => rfl⟩
  | mount =>
    exact ⟨.ok 0, _, does_mount.bind (Does.pure _ _),
      .kept (.refl _) hs.tidy.tree.root fun _ _ => rfl⟩
  | unmount =>
    exact ⟨.ok 0, _, does_unmount.bind (Does.pure _ _), .kept (.refl _) hs.cwd fun _ _ => rfl⟩
  | makeFile p name => exact alters_makeFile hs p name
  | makeDirectory p name => exact alters_makeDirectory hs p name
  | write i offset data =>
    by_cases hm : s.mounted = true
    · exact alters_write hm hs i offset data
    · exact alters_nothing hs
        (does_writeAt_unmounted (Bool.eq_false_iff.mpr hm) i offset data) fun _ _ => rfl
  | unlink p name => exact alters_unlink hs p name
  | relabel p old new => exact alters_relabel hs p old new
  | enter path => exact alters_enter hs path
  | enterRoot => exact alters_enterRoot hs

/-! ## What one edit keeps -/

theorem Alters.good (h : Alters s s' e r) (hs : s.Good) : s'.Good := by
  cases h with
  | kept agree cwd =>
    refine ⟨hs.tidy.agree agree, ?_⟩
    rw [agree.kind_eq]
    exact cwd
  | makes _ _ h => exact h.good hs
  | makesDirectory _ h => exact h.good hs
  | writes _ _ good => exact good
  | removes h => exact h.good hs
  | relabels _ _ h => exact h.good hs

/-- After a write the logs tell what the files hold, with the bytes that were written. -/
theorem Recounts.write (hlogs : s.Recounts logs) (hm : s.mounted = true) (hs : s.Good) {i : Nat}
    (hi : s.records.kind i = .file) {offset : Nat} {data : List UInt8}
    (hdo : Does (Edit.write i offset data).action s r s') (existed : Bool) :
    s'.Recounts ((Edit.write i offset data).note existed r logs) := by
  obtain ⟨r', s'', n, hwrite, hputs, hsize, hr⟩ :=
    does_writeAt hm hs.tidy hi (hlogs.shows i hi) offset data
  obtain ⟨rfl, rfl⟩ := does_unique hdo hwrite
  rcases hr with ⟨rfl, -⟩ | ⟨rfl, -, rfl⟩
  · refine hlogs.update (fun j hji hj => hputs.writes.fileKept hj hji) ?_ ?_
    · rw [WriteLog.lastByte?_append]
      exact hputs.shows
    · rw [hsize, WriteLog.size_append, hlogs.size i hi, List.length_take,
        Nat.min_eq_left hputs.le]
      by_cases hn : n = 0
      · rw [if_pos hn, if_pos (by rw [hn, List.take_zero])]
      · have hne : data.take n ≠ [] := by
          intro he
          have hlen := congrArg List.length he
          rw [List.length_take, Nat.min_eq_left hputs.le] at hlen
          exact hn hlen
        rw [if_neg hn, if_neg hne]
  · exact hlogs

theorem Recounts.make (hlogs : s.Recounts logs) (hs : s.Good) {p i : Nat} {n : StoredName}
    (h : Makes p i n s s') : s'.Recounts (Function.update logs i []) := by
  obtain ⟨hsize, hblank⟩ := h.blank
  refine hlogs.update (fun j hji hj => h.fileKept hs hj hji) ?_ ?_
  · rw [WriteLog.lastByte?_nil, show s'.records.content i = fun _ => none from funext hblank]
    exact Cells.Shows.blank
  · rw [hsize]
    rfl

theorem Alters.recounts (h : Alters s s' e r) (hs : s.Good) (hdo : Does e.action s r s')
    (hlogs : s.Recounts logs) (history : History) :
    s'.Recounts (e.note (e.existed (Settled.state s history)) r logs) := by
  cases h with
  | kept agree _ note =>
    rw [note]
    exact hlogs.agree hs agree
  | makes _ fresh h =>
    rw [Edit.note, fresh, if_neg Bool.false_ne_true]
    exact hlogs.make hs h
  | makesDirectory _ h => exact hlogs.kept fun _ hj => h.fileKept hs hj
  | writes mounted file => exact hlogs.write mounted hs file hdo _
  | removes h => exact hlogs.kept fun _ hj => h.fileKept hs hj
  | relabels _ _ h => exact hlogs.kept fun _ hj => h.fileKept hs hj

/-- An edit does something, alters a good scene in one of its ways, and keeps the logs true. -/
structure Takes (e : Edit) (s : Scene l) (r : Except Error Nat) (s' : Scene l) : Prop where
  does : Does e.action s r s'
  alters : Alters s s' e r
  good : s'.Good
  recounts : ∀ h logs, s.Recounts logs →
    s'.Recounts (e.note (e.existed (Settled.state s h)) r logs)

/-- Every edit does something to a good scene and leaves a good scene behind. -/
theorem takes (e : Edit) (hs : s.Good) : ∃ r s', Takes e s r s' := by
  obtain ⟨r, s', hdo, halters⟩ := alters e hs
  exact ⟨r, s', hdo, halters, halters.good hs, fun history _ hlogs =>
    halters.recounts hs hdo hlogs history⟩

/-! ## Rows of edits -/

/-- Edits do something one after another. -/
inductive TakesAll : List Edit → Scene l → Scene l → Prop where
  | nil {s : Scene l} (hs : s.Good) : TakesAll [] s s
  | cons {s s' s'' : Scene l} {e : Edit} {es : List Edit} {r : Except Error Nat}
      (h : Takes e s r s') (hrest : TakesAll es s' s'') : TakesAll (e :: es) s s''

theorem Takes.all (h : Takes e s r s') : TakesAll [e] s s' := .cons h (.nil h.good)

theorem TakesAll.good (h : TakesAll es s s') : s'.Good := by
  induction h with
  | nil hs => exact hs
  | cons _ _ ih => exact ih

/-- What every edit keeps, a row of edits keeps. -/
theorem TakesAll.keeps {P : Scene l → Prop} (h : TakesAll es s s') (hs : s.Good) (hP : P s)
    (hstep : ∀ {e r} {s s' : Scene l}, s.Good → Takes e s r s' → P s → P s') : P s' := by
  induction h with
  | nil _ => exact hP
  | cons h _ ih => exact ih h.good (hstep hs h hP)

theorem TakesAll.append (h : TakesAll es s s') (h' : TakesAll es' s' s'') :
    TakesAll (es ++ es') s s'' := by
  induction h with
  | nil _ => exact h'
  | cons h _ ih => exact .cons h (ih h')

theorem Takes.replay_eq (h : Takes e s r s') (history : History) (logs : Logs) :
    ∃ history', e.replay (Settled.state s history, logs)
      = (Settled.state s' history', e.note (e.existed (Settled.state s history)) r logs) := by
  obtain ⟨history', hdo⟩ := h.does history
  refine ⟨history', ?_⟩
  cases r with
  | ok count => simp only [Edit.replay, hdo, withState]
  | error failure => simp only [Edit.replay, hdo, withState]

/-- Replaying a row of edits leads to the same scene and to logs that are true there. -/
theorem TakesAll.replayAll_eq (h : TakesAll es s s') (history : History)
    (hlogs : s.Recounts logs) :
    ∃ history' logs', Edit.replayAll es (Settled.state s history, logs)
        = (Settled.state s' history', logs') ∧ s'.Recounts logs' := by
  induction h generalizing history logs with
  | nil _ => exact ⟨history, logs, rfl, hlogs⟩
  | @cons s e r s' es s'' h _ ih =>
    obtain ⟨history', hreplay⟩ := h.replay_eq history logs
    obtain ⟨history'', logs'', hrest, hlogs''⟩ := ih history' (h.recounts history logs hlogs)
    refine ⟨history'', logs'', ?_, hlogs''⟩
    rw [Edit.replayAll, List.foldl_cons, hreplay]
    exact hrest

end Scene

end BlockFS
