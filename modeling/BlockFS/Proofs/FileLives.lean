import BlockFS.Proofs.DeviceView

/-!
# The life of a file

A file lives until an edit removes it.  As long as it lives its inode is in use, and the log of the
writes into it only grows.  No call removes something and makes something, so that between two calls
an inode is either in use by the same file all the time or seen to be free.
-/

namespace BlockFS

open Volume

/-- An edit that may remove something. -/
def Edit.Removes : Edit → Prop
  | .unlink _ _ => True
  | _ => False

namespace Scene

variable {l : Layout} {s s' : Scene l} {e : Edit} {es : List Edit} {r : Except Error Nat} {f : Nat}

/-- An edit removes a file, or the file lives on with the writes that its log told before. -/
theorem Alters.file_cases (h : Alters s s' e r) (hf : s.records.kind f = .file)
    (history : History) (logs : Logs) :
    (s'.records.kind f = .file ∧
        logs f <+: e.note (e.existed (Settled.state s history)) r logs f) ∨
      (s'.records.kind f = .free ∧ e.Removes) := by
  have hne {i : Nat} (hi : s.records.kind i = .free) : f ≠ i := by
    rintro rfl
    cases hf.symm.trans hi
  cases h with
  | kept agree _ note =>
    rw [agree.kind_eq, note]
    exact .inl ⟨hf, List.prefix_rfl⟩
  | makes _ fresh h =>
    have hfi := hne h.unused
    rw [h.kind_eq, if_neg hfi, Edit.note, fresh, if_neg Bool.false_ne_true,
      Function.update_of_ne hfi]
    exact .inl ⟨hf, List.prefix_rfl⟩
  | makesDirectory _ h =>
    have hfi := hne (Records.kind_of_not_used (Records.lowestFree_eq_some_iff.mp h.lowest).2.2.1)
    rw [h.kind_eq, if_neg hfi]
    exact .inl ⟨hf, List.prefix_rfl⟩
  | @writes i offset data r _ _ _ h =>
    rw [h.kind_eq]
    refine .inl ⟨hf, ?_⟩
    cases r with
    | error _ => exact List.prefix_rfl
    | ok count =>
      rw [Edit.note]
      by_cases hfi : f = i
      · rw [hfi, Function.update_self]
        exact List.prefix_append _ _
      · have hother : Function.update logs i (logs i ++ [⟨offset, data.take count⟩]) f = logs f :=
          Function.update_of_ne hfi _ _
        exact hother ▸ List.prefix_rfl
  | @removes p i _ _ h =>
    rw [h.kind_eq]
    by_cases hfi : f = i
    · rw [if_pos hfi]
      exact .inr ⟨rfl, trivial⟩
    · rw [if_neg hfi]
      exact .inl ⟨hf, List.prefix_rfl⟩
  | relabels _ _ h =>
    rw [h.records]
    exact .inl ⟨hf, List.prefix_rfl⟩

/-- Edits that remove nothing let a file live on. -/
theorem TakesAll.file_lives (h : TakesAll es s s') (hno : ∀ e ∈ es, ¬ e.Removes)
    (hf : s.records.kind f = .file) (history : History) (logs : Logs) :
    s'.records.kind f = .file ∧
      logs f <+: (Edit.replayAll es (Settled.state s history, logs)).2 f := by
  induction h generalizing history logs with
  | nil _ => exact ⟨hf, List.prefix_rfl⟩
  | @cons s e r s' es s'' h _ ih =>
    obtain ⟨he, hes⟩ := List.forall_mem_cons.mp hno
    rcases h.alters.file_cases hf history logs with ⟨hf', hlog⟩ | ⟨-, hremoves⟩
    · obtain ⟨history', hreplay⟩ := h.replay_eq history logs
      obtain ⟨hf'', hlog'⟩ := ih hes hf' history' _
      rw [Edit.replayAll, List.foldl_cons, hreplay]
      exact ⟨hf'', hlog.trans hlog'⟩
    · exact absurd hremoves he

end Scene

/-! ## Calls -/

namespace Edit

/-- A row of edits that removes something consists of one edit. -/
def Alone (es : List Edit) : Prop := (∀ e ∈ es, ¬ e.Removes) ∨ ∃ e, es = [e]

theorem alone_nil : Alone [] := .inl fun _ h => absurd h List.not_mem_nil

theorem alone_singleton (e : Edit) : Alone [e] := .inr ⟨e, rfl⟩

theorem alone_ite (p : Prop) [Decidable p] (e : Edit) : Alone (if p then [e] else []) := by
  split
  · exact alone_singleton e
  · exact alone_nil

theorem alone_atPath (e : Nat → String → Edit) (path : String) (v : Volume) :
    Alone (atPath e path v) := by
  rw [atPath]
  split
  · exact alone_singleton _
  · exact alone_nil

theorem not_removes_ofPack (files : List (String × List UInt8)) (v : Volume) :
    ∀ e ∈ ofPack files v, ¬ e.Removes := by
  induction files generalizing v with
  | nil => exact fun e h => absurd h List.not_mem_nil
  | cons file files ih =>
    obtain ⟨name, contents⟩ := file
    rw [ofPack]
    split
    · exact ih _
    · split
      · refine List.forall_mem_cons.mpr ⟨id, List.forall_mem_cons.mpr ⟨id, ?_⟩⟩
        split
        · exact ih _
        · exact fun e h => absurd h List.not_mem_nil
      · exact List.forall_mem_singleton.mpr id
    · exact fun e h => absurd h List.not_mem_nil

theorem alone_ofOpen (path : String) (flags : OpenFlags) (s : Session) :
    Alone (ofOpen path flags s) := by
  rw [ofOpen]
  split
  · exact alone_atPath _ _ _
  · exact alone_nil

theorem alone_ofWrite (handle : Nat) (data : List UInt8) (s : Session) :
    Alone (ofWrite handle data s) := by
  rw [ofWrite]
  split
  · split
    · split
      · exact alone_singleton _
      · exact alone_nil
    · exact alone_singleton _
  · exact alone_nil

theorem alone_ofName (parent : Nat) (raw : List UInt8) {es : Nat → String → List Edit}
    (hes : ∀ p name, Alone (es p name)) : Alone (ofName parent raw es) := by
  rw [ofName]
  split
  · split
    · exact hes _ _
    · exact alone_nil
  · exact alone_nil

theorem alone_ofRemove (expected : Kind) (v : Volume) (parent : Nat) (name : String) :
    Alone (ofRemove expected v parent name) := by
  rw [ofRemove]
  split
  · exact alone_ite _ _
  · exact alone_nil

theorem alone_ofRequest (q : Kernel.Request) (v : Volume) : Alone (ofRequest q v) := by
  cases q with
  | init owner group =>
    rw [ofRequest]
    split
    · exact alone_nil
    · exact alone_singleton _
  | destroy => exact alone_singleton _
  | makeNode parent raw mode =>
    rw [ofRequest]
    split
    · exact alone_ofName _ _ fun _ _ => alone_singleton _
    · exact alone_nil
  | makeDirectory parent raw => exact alone_ofName _ _ fun _ _ => alone_singleton _
  | create parent raw => exact alone_ofName _ _ fun _ _ => alone_singleton _
  | write inode offset data =>
    cases offset with
    | ofNat offset => exact alone_ite _ _
    | negSucc _ => exact alone_nil
  | unlink parent raw => exact alone_ofName _ _ (alone_ofRemove _ v)
  | removeDirectory parent raw => exact alone_ofName _ _ (alone_ofRemove _ v)
  | rename parent raw newParent newRaw =>
    rw [ofRequest]
    split
    · apply alone_ofName
      intro p old
      split
      · exact alone_singleton _
      · exact alone_nil
    · exact alone_nil
  | lookup | getAttributes | setAttributes | openFile | readDirectory | read | statistics =>
    exact alone_nil

end Edit

theorem Call.alone_edits (c : Call) (v : Service) : Edit.Alone (c.edits v) := by
  cases c with
  | reopen => exact Edit.alone_singleton _
  | edit e => exact Edit.alone_singleton _
  | makeFileAt path => exact Edit.alone_atPath _ _ _
  | makeDirectoryAt path => exact Edit.alone_atPath _ _ _
  | unlinkHere name => exact Edit.alone_ite _ _
  | relabelHere old new => exact Edit.alone_ite _ _
  | pack files => exact .inl (Edit.not_removes_ofPack _ _)
  | mountSession => exact Edit.alone_singleton _
  | openPath path flags => exact Edit.alone_ofOpen _ _ _
  | writeHandle handle data => exact Edit.alone_ofWrite _ _ _
  | request q => exact Edit.alone_ofRequest _ _
  | look | newSession | readHandle | seek | close | newServer => exact Edit.alone_nil

/-- A call removes a file, or the file lives on with the writes that its log told before. -/
theorem Call.file_cases {l : Layout} {s : Scene l} {history : History} {v : Service} {f : Nat}
    (c : Call) (hv : v.volume = Settled.state s history) (hs : s.Good)
    (hf : s.records.kind f = .file) (logs : Logs) :
    ∃ (s' : Scene l) (history' : History), (c.after v).volume = Settled.state s' history' ∧
      s'.Good ∧ (s'.records.kind f = .file ∧ logs f <+: c.logs v logs f ∨
        s'.records.kind f = .free) := by
  obtain ⟨s', history', hvolume, hes⟩ := c.goes hv hs
  refine ⟨s', history', hvolume, hes.good, ?_⟩
  rw [Call.logs, hv]
  rcases c.alone_edits v with hno | ⟨e, he⟩
  · exact .inl (hes.file_lives hno hf history logs)
  · rw [he] at hes ⊢
    cases hes with
    | cons htakes hrest =>
      cases hrest with
      | nil _ =>
        obtain ⟨history'', hreplay⟩ := htakes.replay_eq history logs
        rw [Edit.replayAll, List.foldl_cons, hreplay]
        rcases htakes.alters.file_cases hf history logs with hlives | ⟨hgone, -⟩
        · exact .inl hlives
        · exact .inr hgone

/-! ## Runs -/

/-- Calls lead from one service, with its logs, to another, and something holds all the way. -/
inductive Leads (P : Service → Prop) (v : Service) (logs : Logs) : Service → Logs → Prop where
  | start (hP : P v) : Leads P v logs v logs
  | call {v' : Service} {logs' : Logs} (c : Call) (h : Leads P v logs v' logs')
      (hP : P (c.after v')) : Leads P v logs (c.after v') (c.logs v' logs')

namespace Leads

variable {P : Service → Prop} {v v' : Service} {logs logs' : Logs}

theorem reached {g : Geometry} (h : Leads P v logs v' logs') (hv : Reached g v logs) :
    Reached g v' logs' := by
  induction h with
  | start _ => exact hv
  | call c _ _ ih => exact ih.call c

/-- As long as the inode of a file stays in use, it is the same file, and the log of the writes into it
only grows. -/
theorem file_lives {g : Geometry} {l : Layout} {f : Nat}
    (h : Leads (fun v => (v.volume.records l).kind f ≠ .free) v logs v' logs')
    (hv : Reached g v logs) (hl : Layout.ofGeometry g = .ok l)
    (hf : (v.volume.records l).kind f = .file) :
    (v'.volume.records l).kind f = .file ∧ logs f <+: logs' f := by
  induction h with
  | start _ => exact ⟨hf, List.prefix_rfl⟩
  | @call v' logs' c hrun hlive ih =>
    obtain ⟨hf', hlog⟩ := ih
    obtain ⟨s, history, hvolume, hrecords, hs, -⟩ := (hrun.reached hv).exists_scene hl
    rw [hrecords] at hf'
    obtain ⟨s', history', hvolume', -, hcases⟩ := c.file_cases hvolume hs hf' logs'
    have hrecords' : (c.after v').volume.records l = s'.records := by
      rw [hvolume']
      rfl
    rw [hrecords'] at hlive ⊢
    rcases hcases with ⟨hfile, hgrows⟩ | hgone
    · exact ⟨hfile, hlog.trans hgrows⟩
    · exact absurd hgone hlive

end Leads

end BlockFS
