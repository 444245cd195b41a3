import BlockFS.Proofs.Calls.Volumes

/-!
# Requests of a host's kernel

A request performs the edits that are told of it, whatever it is answered.
-/

namespace BlockFS

open Volume

/-- Looking at the members of a list one after another only looks. -/
theorem Quiet.mapM {S τ ε α β : Type} [Settled S τ] {f : α → EStateM ε τ β} {s : S}
    (hf : ∀ a, Quiet (f a) s) (as : List α) : Quiet (as.mapM f) s := by
  induction as with
  | nil =>
    rw [List.mapM_nil]
    exact .pure _ _
  | cons a as ih =>
    rw [List.mapM_cons]
    exact (hf a).bind fun _ => ih.bind fun _ => .pure _ _

namespace Kernel

variable {l : Layout} {t : ServerScene l} {p : Nat} {raw : List UInt8} {name : String}

/-! ## What a request holds -/

theorem does_entryName (hname : String.fromUTF8? ⟨raw.toArray⟩ = some name) :
    Does (entryName raw) t (.ok name) t := by
  rw [entryName, hname]
  exact Does.pure _ _

theorem does_entryName_none (hname : String.fromUTF8? ⟨raw.toArray⟩ = none) :
    Does (entryName raw) t (.error Error.invalidName.errno) t := by
  rw [entryName, hname]
  exact Does.throw _ _

theorem quiet_entryName (raw : List UInt8) : Quiet (entryName raw) t := by
  match hname : String.fromUTF8? ⟨raw.toArray⟩ with
  | some name => exact ⟨_, does_entryName hname⟩
  | none => exact ⟨_, does_entryName_none hname⟩

theorem does_inodeIndex (hp : p < UInt32.size) : Does (inodeIndex p) t (.ok p) t := by
  rw [inodeIndex, if_pos hp]
  exact Does.pure _ _

theorem does_inodeIndex_big (hp : ¬ p < UInt32.size) :
    Does (inodeIndex p) t (.error Error.notFound.errno) t := by
  rw [inodeIndex, if_neg hp]
  exact Does.throw _ _

theorem quiet_inodeIndex (p : Nat) : Quiet (inodeIndex p) t := by
  by_cases hp : p < UInt32.size
  · exact ⟨_, does_inodeIndex hp⟩
  · exact ⟨_, does_inodeIndex_big hp⟩

theorem does_byteOffset {n : Nat} (hn : n < UInt32.size) :
    Does (byteOffset (.ofNat n)) t (.ok n) t := by
  rw [byteOffset, if_pos hn]
  exact Does.pure _ _

theorem does_byteOffset_big {n : Nat} (hn : ¬ n < UInt32.size) :
    Does (byteOffset (.ofNat n)) t (.error Error.invalidSeek.errno) t := by
  rw [byteOffset, if_neg hn]
  exact Does.throw _ _

theorem does_byteOffset_negative (n : Nat) :
    Does (byteOffset (.negSucc n)) t (.error Error.invalidSeek.errno) t :=
  Does.throw _ _

theorem quiet_byteOffset (offset : Int) : Quiet (byteOffset offset) t := by
  match offset with
  | .ofNat n =>
    by_cases hn : n < UInt32.size
    · exact ⟨_, does_byteOffset hn⟩
    · exact ⟨_, does_byteOffset_big hn⟩
  | .negSucc n => exact ⟨_, does_byteOffset_negative n⟩

theorem does_attributesOf (i : Nat) (record : Inode) :
    Does (attributesOf i record) t (.ok (record.attributes i t.owner t.group)) t :=
  Does.get_bind fun _ => Does.pure _ _

theorem quiet_attributesOf (i : Nat) (record : Inode) : Quiet (attributesOf i record) t :=
  ⟨_, does_attributesOf i record⟩

theorem quiet_readAttributes (i : Nat) : Quiet (readAttributes i) t :=
  (quiet_inodeIndex i).bind fun _ =>
    (quiet_onVolume (quiet_readInode _)).bind fun _ => quiet_attributesOf _ _

/-- What follows the name and the directory of a request performs the edits of this place. -/
theorem performs_ofName {α : Type} {x : Nat → String → ServerM α} (hs : t.scene.Good)
    (es : Nat → String → List Edit) (hx : ∀ p name, Performs (x p name) (es p name) t) :
    Performs (entryName raw >>= fun name => inodeIndex p >>= fun p => x p name)
      (Edit.ofName p raw es) t := by
  rw [Edit.ofName]
  match hname : String.fromUTF8? ⟨raw.toArray⟩ with
  | none => exact .of_quiet ⟨_, (does_entryName_none hname).bind_error⟩ hs
  | some name =>
    refine .after (does_entryName hname) rfl ?_
    by_cases hp : p < UInt32.size
    · simp only [if_pos hp]
      exact .after (does_inodeIndex hp) rfl (hx p name)
    · simp only [if_neg hp]
      exact .of_quiet ⟨_, (does_inodeIndex_big hp).bind_error⟩ hs

/-- A name is looked up, or linked, and the inode that it leads to is read. -/
theorem performs_named {x : Nat → String → VolumeM Nat} (hs : t.scene.Good)
    (es : Nat → String → List Edit) (hx : ∀ p name, Performs (x p name) (es p name) t.scene) :
    Performs (named p raw x) (Edit.ofName p raw es) t := by
  apply performs_ofName hs es
  intro p name
  exact (performs_onVolume (hx p name)).bind_quiet fun _ _ =>
    (quiet_onVolume (quiet_readInode _)).bind fun _ => .pure _ _

theorem performs_namedAttributes {x : Nat → String → VolumeM Nat} (hs : t.scene.Good)
    (es : Nat → String → List Edit) (hx : ∀ p name, Performs (x p name) (es p name) t.scene) :
    Performs (namedAttributes p raw x) (Edit.ofName p raw es) t :=
  (performs_named hs es hx).bind_quiet fun _ _ => quiet_attributesOf _ _

theorem ofName_nil (p : Nat) (raw : List UInt8) : (Edit.ofName p raw fun _ _ => []) = [] := by
  rw [Edit.ofName]
  split
  · exact ite_self _
  · rfl

/-! ## Requests -/

theorem performs_takeIntoUse (hs : t.scene.Good) (owner group : Nat) (history : History) :
    Performs (takeIntoUse owner group)
      (if (Settled.state t.scene history).isMounted then [] else [.mount]) t := by
  let t' : ServerScene l := ⟨t.scene, owner, group⟩
  have hset : Does (modify fun s => { s with owner := owner, group := group } : ServerM Unit) t
      (.ok ()) t' := Does.modify fun history => ⟨history, rfl⟩
  have hrest (t : ServerScene l) : Quiet (onVolume (Volume.readInode rootInode) >>= fun root =>
      unless root.kind = .directory do throw Error.corruptVolume.errno) t := by
    apply (quiet_onVolume (quiet_readInode _)).bind
    intro root
    split
    · exact .pure _ _
    · exact .throw _ _
  refine .after hset rfl ?_
  rw [isMounted_state]
  have hmounted (history : History) :
      (Settled.state t' history : Server).volume.isMounted = t.scene.mounted := isMounted_state _
  by_cases hm : t.scene.mounted = true
  · rw [if_pos hm]
    obtain ⟨r, hdo⟩ := hrest t'
    refine .of_quiet ⟨r, Does.get_bind fun history => ?_⟩ hs
    simp only [hmounted, hm, if_true]
    exact (Does.pure _ _).bind hdo
  · rw [if_neg hm]
    have hmount : Performs (onVolume Volume.mount) [.mount] t' :=
      performs_onVolume (performs_of_action .mount hs rfl)
    obtain ⟨r, t'', hdo, hes⟩ := hmount.bind_quiet (β := Unit) (f := fun _ =>
      onVolume (Volume.readInode rootInode) >>= fun root =>
        unless root.kind = .directory do throw Error.corruptVolume.errno) fun _ t => hrest t
    refine ⟨r, t'', Does.get_bind fun history => ?_, hes⟩
    simp only [hmounted, hm]
    exact hdo

theorem quiet_allEntries {s : Scene l} (i : Nat) : Quiet (allEntries i) s :=
  (quiet_find i "..").bind fun _ => (Directory.quiet_ofInode i).bind fun _ =>
    (Quiet.mapM Entry.quiet_child _).bind fun _ => .pure _ _

theorem quiet_answer_openFile (i : Nat) : Quiet (answer (.openFile i)) t := by
  refine (quiet_inodeIndex i).bind fun _ =>
    (quiet_onVolume (quiet_readInode _)).bind fun record => ?_
  split
  · exact (Quiet.pure _ _).bind fun _ => .pure _ _
  · exact ⟨_, (Does.throw _ _).bind_error⟩

theorem quiet_answer_readDirectory (i : Nat) (offset : Int)
    (buffer : ReplyBuffer) : Quiet (answer (.readDirectory i offset buffer)) t :=
  (quiet_inodeIndex i).bind fun _ =>
    (quiet_onVolume (quiet_allEntries _)).bind fun _ => .pure _ _

theorem quiet_answer_read (i : Nat) (offset : Int) (size : Nat) :
    Quiet (answer (.read i offset size)) t :=
  (quiet_inodeIndex i).bind fun _ => (quiet_byteOffset _).bind fun _ =>
    (quiet_onVolume (quiet_readAt _ _ _)).bind fun _ => .pure _ _

theorem quiet_answer_statistics : Quiet (answer .statistics) t :=
  (quiet_onVolume (quiet_readBitmap _)).bind fun _ =>
    (quiet_onVolume (quiet_readBitmap _)).bind fun _ => .pure _ _

/-- A name is removed if it links an inode of the expected kind. -/
theorem performs_removeKind (hs : t.scene.Good) (expected : Kind) (history : History) :
    Performs (removeKind p raw expected)
      (Edit.ofName p raw (Edit.ofRemove expected (Settled.state t.scene history))) t := by
  apply performs_ofName hs _
  intro p name
  obtain ⟨r, hfind⟩ := quiet_find (s := t.scene) p name
  match r with
  | .error e =>
    obtain ⟨history', hread⟩ := hfind.bind_error (f := Volume.readInode) history
    rw [Edit.ofRemove, hread]
    exact .of_quiet ⟨_, (does_onVolume hfind).bind_error⟩ hs
  | .ok i =>
    obtain ⟨r, hrecord⟩ := quiet_readInode (s := t.scene) i
    obtain ⟨history', hread⟩ := (hfind.bind hrecord) history
    rw [Edit.ofRemove, hread]
    refine .after (does_onVolume hfind) rfl ?_
    match r with
    | .error e => exact .of_quiet ⟨_, (does_onVolume hrecord).bind_error⟩ hs
    | .ok record =>
      refine .after (does_onVolume hrecord) rfl ?_
      simp only [withState]
      by_cases hkind : record.kind = expected
      · simp only [if_pos hkind]
        exact performs_onVolume (performs_of_action (.unlink p name) hs rfl)
      · simp only [if_neg hkind]
        split
        · exact .of_quiet (.throw _ _) hs
        · exact .of_quiet (.throw _ _) hs

theorem performs_write (hs : t.scene.Good) (i : Nat) (offset : Int) (data : List UInt8)
    (history : History) :
    Performs (answer (.write i offset data))
      (Edit.ofRequest (.write i offset data) (Settled.state t.scene history)) t := by
  by_cases hi : i < UInt32.size
  · match offset with
    | .negSucc n =>
      exact .of_quiet ⟨_, (does_inodeIndex hi).bind (does_byteOffset_negative n).bind_error⟩ hs
    | .ofNat n =>
      rw [Edit.ofRequest]
      refine .after (does_inodeIndex hi) rfl ?_
      by_cases hn : n < UInt32.size
      · rw [if_pos ⟨hi, hn⟩]
        refine .after (does_byteOffset hn) rfl ?_
        apply (performs_onVolume (performs_edit (.write i n data) hs)).bind_quiet
        intro count t
        split
        · exact ⟨_, (Does.throw _ _).bind_error⟩
        · exact (Quiet.pure _ _).bind fun _ => .pure _ _
      · rw [if_neg fun h => hn h.2]
        exact .of_quiet ⟨_, (does_byteOffset_big hn).bind_error⟩ hs
  · have hnone : Edit.ofRequest (.write i offset data) (Settled.state t.scene history) = [] := by
      match offset with
      | .ofNat n => exact if_neg fun h => hi h.1
      | .negSucc n => rfl
    rw [hnone]
    exact .of_quiet ⟨_, (does_inodeIndex_big hi).bind_error⟩ hs

/-- A request performs its edits. -/
theorem performs_answer (hs : t.scene.Good) (q : Request) (history : History) :
    Performs (answer q) (Edit.ofRequest q (Settled.state t.scene history)) t := by
  have hdone {x : ServerM Unit} {es : List Edit} (hx : Performs x es t) :
      Performs (x >>= fun _ => pure Reply.done) es t := hx.bind_quiet fun _ _ => .pure _ _
  cases q with
  | init owner group => exact hdone (performs_takeIntoUse hs owner group history)
  | destroy => exact hdone (performs_onVolume (performs_of_action .unmount hs rfl))
  | lookup p raw =>
    have hx : Performs (namedAttributes p raw find) (Edit.ofName p raw fun _ _ => []) t :=
      performs_namedAttributes hs _ fun p name => .of_quiet (quiet_find p name) hs
    rw [ofName_nil] at hx
    exact hx.map
  | getAttributes i => exact .of_quiet (quiet_readAttributes i).map hs
  | setAttributes i => exact .of_quiet (quiet_readAttributes i).map hs
  | makeNode p raw mode =>
    rw [answer, Edit.ofRequest]
    split
    · exact (performs_namedAttributes hs _ fun p name => performs_edit (.makeFile p name) hs).map
    · exact .of_quiet (.throw _ _) hs
  | makeDirectory p raw =>
    exact (performs_namedAttributes hs _ fun p name => performs_edit (.makeDirectory p name) hs).map
  | create p raw =>
    refine (performs_named hs _ fun p name => performs_edit (.makeFile p name) hs).bind_quiet
      fun found t => ?_
    obtain ⟨i, record⟩ := found
    by_cases hkind : record.kind = .file
    · simp only [if_pos hkind]
      exact (quiet_attributesOf _ _).bind fun _ => .pure _ _
    · simp only [if_neg hkind]
      exact ⟨_, (Does.throw _ _).bind_error⟩
  | openFile i => exact .of_quiet (quiet_answer_openFile i) hs
  | readDirectory i offset buffer => exact .of_quiet (quiet_answer_readDirectory i offset buffer) hs
  | read i offset size => exact .of_quiet (quiet_answer_read i offset size) hs
  | write i offset data => exact performs_write hs i offset data history
  | unlink p raw => exact hdone (performs_removeKind hs .file history)
  | removeDirectory p raw => exact hdone (performs_removeKind hs .directory history)
  | rename p raw p' raw' =>
    rw [answer, Edit.ofRequest]
    by_cases hp : p = p'
    · simp only [if_pos hp]
      apply performs_ofName hs _
      intro p old
      match hnew : String.fromUTF8? ⟨raw'.toArray⟩ with
      | none => exact .of_quiet ⟨_, (does_entryName_none hnew).bind_error⟩ hs
      | some new =>
        refine .after (does_entryName hnew) rfl (hdone (performs_onVolume ?_))
        exact performs_of_action (.relabel p old new) hs rfl
    · simp only [if_neg hp]
      exact .of_quiet ⟨_, (Does.throw _ _).bind_error⟩ hs
  | statistics => exact .of_quiet quiet_answer_statistics hs

end Kernel

end BlockFS
