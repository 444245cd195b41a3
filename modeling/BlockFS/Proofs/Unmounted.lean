import BlockFS.Proofs.FailedCalls
import BlockFS.Proofs.HostileImages

/-!
# Volumes that are not mounted

A volume that is not mounted refuses every call.  Each call first checks its own arguments, and then
asks for the layout before it does anything else: it fails, no sector is transferred, and nothing
about the volume changes.  Only mounting ends this, which holds for runs of calls by induction.
-/

namespace BlockFS

open Volume ViewM

variable {ε τ α β : Type}

/-! ## Refusing -/

/-- In every state with `P` an action fails for the cause `e` and leaves the state as it was. -/
def Refuses (P : τ → Prop) (x : EStateM ε τ α) (e : ε) : Prop := ∀ s, P s → x s = .error e s

/-- The cause for which a call fails that does its own checks first: each check tells whether it
fails and for what cause.  If none fails, the cause is `e`. -/
def refusal : List (Bool × ε) → ε → ε
  | [], e => e
  | (fails, cause) :: checks, e => if fails then cause else refusal checks e

namespace Refuses

variable {P : τ → Prop} {x : EStateM ε τ α} {e cause : ε} {checks : List (Bool × ε)}

theorem throw : Refuses P (MonadExcept.throw e : EStateM ε τ α) e := fun _ _ => rfl

theorem throw_bind {f : α → EStateM ε τ β} : Refuses P (MonadExcept.throw e >>= f) e :=
  fun _ _ => rfl

theorem bind {f : α → EStateM ε τ β} (hx : Refuses P x e) : Refuses P (x >>= f) e :=
  fun s hs => bind_of_error (hx s hs)

theorem map {f : α → β} (hx : Refuses P x e) : Refuses P (f <$> x) e := by
  intro s hs
  change EStateM.map f x s = _
  rw [EStateM.map, hx s hs]

theorem tryCatch {handler : ε → EStateM ε τ α} (hx : Refuses P x cause)
    (hh : Refuses P (handler cause) e) : Refuses P (tryCatch x handler) e := by
  intro s hs
  rw [tryCatch_of_error (hx s hs)]
  exact hh s hs

/-- A call does a check first. -/
theorem check {fails : Bool} (hfails : fails = true → Refuses P x cause)
    (hpasses : fails = false → Refuses P x (refusal checks e)) :
    Refuses P x (refusal ((fails, cause) :: checks) e) := by
  cases fails with
  | true => exact hfails rfl
  | false => exact hpasses rfl

end Refuses

/-! ## The volume -/

namespace Volume

/-- The layout is not known. -/
def Unmounted (v : Volume) : Prop := v.layout = none

theorem refuses_getLayout : Refuses Unmounted getLayout .notMounted := by
  rintro ⟨device, clock, layout, cwd⟩ rfl
  rfl

theorem refuses_readBitmap (r : Resource) : Refuses Unmounted (readBitmap r) .notMounted :=
  refuses_getLayout.bind

theorem refuses_readBlock (i : Nat) : Refuses Unmounted (readBlock i) .notMounted :=
  refuses_getLayout.bind

theorem refuses_readInode (i : Nat) : Refuses Unmounted (readInode i) .notMounted :=
  (refuses_readBitmap .inode).bind

theorem refuses_fileSize (i : Nat) : Refuses Unmounted (fileSize i) .notMounted :=
  (refuses_readInode i).bind

theorem refuses_loadDirectory (i : Nat) :
    Refuses Unmounted (Directory.ofInode i) .notMounted :=
  (refuses_readInode i).bind

theorem refuses_loadFile (i : Nat) : Refuses Unmounted (File.ofInode i) .notMounted :=
  (refuses_readInode i).bind

theorem refuses_splitPath (path : String) : Refuses Unmounted (splitPath path) .notMounted :=
  refuses_getLayout.bind

theorem refuses_find (p : Nat) (name : String) : Refuses Unmounted (find p name) .notMounted := by
  refine Refuses.bind ((refuses_loadDirectory p).tryCatch ?_)
  exact .throw

theorem refuses_locate (path : String) : Refuses Unmounted (locate path) .notMounted :=
  (refuses_splitPath path).bind

theorem refuses_readAt (i offset length : Nat) :
    Refuses Unmounted (readAt i offset length) .notMounted :=
  (refuses_loadFile i).bind

theorem refuses_writeAt (i offset : Nat) (data : List UInt8) :
    Refuses Unmounted (writeAt i offset data) .notMounted :=
  (refuses_loadFile i).bind

end Volume

/-- Whether a name cannot be stored. -/
def unstorable (name : String) : Bool := !(StoredName.encode name).isOk

/-- The checks that an edit does of its own arguments. -/
def Edit.checks : Edit → List (Bool × Error)
  | .makeFile _ name | .makeDirectory _ name => [(unstorable name, .invalidName)]
  | .unlink _ name => [(isSelfOrParent name, .invalidName)]
  | .relabel _ old new =>
    [(isSelfOrParent old || isSelfOrParent new, .invalidName), (unstorable old, .invalidName),
      (unstorable new, .invalidName)]
  | _ => []

/-- Whether an edit is one of a volume that must be mounted. -/
def Edit.needsMount : Edit → Bool
  | .wait _ | .mount | .unmount => false
  | _ => true

namespace Volume

theorem refuses_encode {name : String} {f : StoredName → VolumeM α} {checks : List (Bool × Error)}
    (hf : ∀ n, Refuses Unmounted (f n) (refusal checks .notMounted)) :
    Refuses Unmounted (liftExcept (StoredName.encode name) >>= f)
      (refusal ((unstorable name, .invalidName) :: checks) .notMounted) := by
  cases hencode : StoredName.encode name with
  | ok n =>
    refine .check (fun hfails => ?_) fun _ => hf n
    rw [unstorable, hencode] at hfails
    cases hfails
  | error cause =>
    cases StoredName.encode_error hencode
    refine .check (fun _ => .throw_bind) fun hpasses => ?_
    rw [unstorable, hencode] at hpasses
    cases hpasses

theorem refuses_makeFile (p : Nat) (name : String) : Refuses Unmounted (makeFile p name)
    (refusal (Edit.checks (.makeFile p name)) .notMounted) :=
  refuses_encode fun _ => (refuses_loadDirectory p).bind

theorem refuses_makeDirectory (p : Nat) (name : String) : Refuses Unmounted (makeDirectory p name)
    (refusal (Edit.checks (.makeDirectory p name)) .notMounted) :=
  refuses_encode fun _ => (refuses_loadDirectory p).bind

theorem refuses_unlink (p : Nat) (name : String) : Refuses Unmounted (unlink p name)
    (refusal (Edit.checks (.unlink p name)) .notMounted) := by
  rw [unlink]
  refine .check (fun hfails => ?_) fun hpasses => ?_
  · rw [if_pos hfails]
    exact .throw_bind
  · rw [if_neg (Bool.eq_false_iff.mp hpasses)]
    exact (refuses_loadDirectory p).bind

theorem refuses_relabel (p : Nat) (old new : String) : Refuses Unmounted (relabel p old new)
    (refusal (Edit.checks (.relabel p old new)) .notMounted) := by
  rw [relabel]
  refine .check (fun hfails => ?_) fun hpasses => ?_
  · rw [if_pos hfails]
    exact .throw_bind
  · rw [if_neg (Bool.eq_false_iff.mp hpasses)]
    exact refuses_encode fun _ => refuses_encode fun _ => (refuses_loadDirectory p).bind

end Volume

theorem Edit.refused {e : Edit} (h : e.needsMount = true) :
    Refuses Unmounted e.action (refusal e.checks .notMounted) := by
  cases e with
  | wait => cases h
  | mount => cases h
  | unmount => cases h
  | makeFile p name => exact refuses_makeFile p name
  | makeDirectory p name => exact refuses_makeDirectory p name
  | write i offset data => exact refuses_writeAt i offset data
  | unlink p name => exact (refuses_unlink p name).bind
  | relabel p old new => exact (refuses_relabel p old new).bind
  | enter path => exact (refuses_locate path).bind
  | enterRoot => exact (refuses_getLayout.bind).bind

theorem Look.refused (q : Look) : Refuses Unmounted q.action .notMounted := by
  cases q with
  | locate path => exact (refuses_locate path).bind
  | find p name => exact (refuses_find p name).bind
  | readAt i offset length => exact (refuses_readAt i offset length).bind
  | fileSize i => exact (refuses_fileSize i).bind
  | record i => exact (refuses_readInode i).bind
  | list i => exact ((refuses_loadDirectory i).map).bind
  | bitmap r => exact (refuses_readBitmap r).bind
  | block i => exact (refuses_readBlock i).bind

/-! ## The server -/

namespace Kernel

open Kernel (Request)

/-- The volume of a server is not mounted. -/
def Server.Unmounted (s : Server) : Prop := s.volume.Unmounted

/-- The check that bytes are text, and then those of the text. -/
def textChecks (raw : List UInt8) (checks : String → List (Bool × Int)) : List (Bool × Int) :=
  match String.fromUTF8? ⟨raw.toArray⟩ with
  | some name => checks name
  | none => [(true, Errno.invalidArgument)]

/-- The check that a number of an inode has at most 32 bits. -/
def inodeCheck (i : Nat) : Bool × Int := (decide (UInt32.size ≤ i), Errno.noEntry)

/-- The check that a place in a file is a number of 32 bits. -/
def offsetCheck (offset : Int) : Bool × Int :=
  (decide (offset < 0 ∨ UInt32.size ≤ offset), Errno.invalidArgument)

/-- The checks of the edit that a request asks for. -/
def editChecks (e : Edit) : List (Bool × Int) := e.checks.map fun c => (c.1, c.2.errno)

/-- The checks that the answer to a request does of what the request tells, in their order. -/
def Request.checks : Request → List (Bool × Int)
  | .lookup p raw => textChecks raw fun _ => [inodeCheck p]
  | .getAttributes i | .setAttributes i | .openFile i | .readDirectory i _ _ => [inodeCheck i]
  | .makeNode p raw mode =>
    (mode &&& typeMask != regularType, Errno.notPermitted) ::
      textChecks raw fun name => inodeCheck p :: editChecks (.makeFile p name)
  | .makeDirectory p raw =>
    textChecks raw fun name => inodeCheck p :: editChecks (.makeDirectory p name)
  | .create p raw => textChecks raw fun name => inodeCheck p :: editChecks (.makeFile p name)
  | .read i offset _ | .write i offset _ => [inodeCheck i, offsetCheck offset]
  | .unlink p raw | .removeDirectory p raw => textChecks raw fun _ => [inodeCheck p]
  | .rename p raw p' raw' =>
    (p != p', Errno.crossDevice) :: textChecks raw fun old =>
      inodeCheck p :: textChecks raw' fun new => editChecks (.relabel p old new)
  | _ => []

/-- Whether a request is one to a volume that must be mounted. -/
def Request.needsMount : Request → Bool
  | .init .. | .destroy => false
  | _ => true

variable {checks : List (Bool × Int)} {e : Int}

theorem errno_refusal (checks : List (Bool × Error)) (e : Error) :
    (refusal checks e).errno = refusal (checks.map fun c => (c.1, c.2.errno)) e.errno := by
  induction checks with
  | nil => rfl
  | cons c checks ih =>
    obtain ⟨fails, cause⟩ := c
    cases fails with
    | true => rfl
    | false => exact ih

theorem refuses_onVolume {x : VolumeM α} {cause : Error} (hx : Refuses Unmounted x cause) :
    Refuses Server.Unmounted (onVolume x) cause.errno := by
  rintro ⟨v, owner, group⟩ hv
  rw [onVolume, hx v hv]

theorem refuses_edit {x : VolumeM α} {edit : Edit}
    (hx : Refuses Unmounted x (refusal edit.checks .notMounted)) :
    Refuses Server.Unmounted (onVolume x) (refusal (editChecks edit) Errno.noDevice) := by
  have hedit := refuses_onVolume hx
  rw [errno_refusal] at hedit
  exact hedit

theorem refuses_entryName {raw : List UInt8} {f : String → ServerM α}
    {checks : String → List (Bool × Int)}
    (hf : ∀ name, Refuses Server.Unmounted (f name) (refusal (checks name) e)) :
    Refuses Server.Unmounted (entryName raw >>= f) (refusal (textChecks raw checks) e) := by
  rw [entryName, textChecks]
  cases String.fromUTF8? ⟨raw.toArray⟩ with
  | none => exact .throw_bind
  | some name => exact hf name

theorem refuses_inodeIndex {i : Nat} {f : Nat → ServerM α}
    (hf : Refuses Server.Unmounted (f i) (refusal checks e)) :
    Refuses Server.Unmounted (inodeIndex i >>= f) (refusal (inodeCheck i :: checks) e) := by
  rw [inodeIndex]
  refine .check (fun hfails => ?_) fun hpasses => ?_
  · rw [if_neg (Nat.not_lt.mpr (of_decide_eq_true hfails))]
    exact .throw_bind
  · rw [if_pos (Nat.lt_of_not_le (of_decide_eq_false hpasses))]
    exact hf

theorem refuses_byteOffset {offset : Int} {f : Nat → ServerM α}
    (hf : ∀ place, Refuses Server.Unmounted (f place) (refusal checks e)) :
    Refuses Server.Unmounted (byteOffset offset >>= f)
      (refusal (offsetCheck offset :: checks) e) := by
  refine .check (fun hfails => ?_) fun hpasses => ?_
  · have hout := of_decide_eq_true hfails
    cases offset with
    | negSucc n => exact .throw_bind
    | ofNat n =>
      rw [byteOffset, if_neg (by simp only [Int.ofNat_eq_natCast] at hout; omega)]
      exact .throw_bind
  · have hin := of_decide_eq_false hpasses
    cases offset with
    | negSucc n => exact absurd (.inl (Int.negSucc_lt_zero n)) hin
    | ofNat n =>
      rw [byteOffset, if_pos (by simp only [Int.ofNat_eq_natCast] at hin; omega)]
      exact hf n

theorem refuses_named {p : Nat} {raw : List UInt8} {x : Nat → String → VolumeM Nat}
    {checks : String → List (Bool × Int)}
    (hx : ∀ name, Refuses Server.Unmounted (onVolume (x p name)) (refusal (checks name) e)) :
    Refuses Server.Unmounted (named p raw x)
      (refusal (textChecks raw fun name => inodeCheck p :: checks name) e) :=
  refuses_entryName fun name => refuses_inodeIndex (hx name).bind

theorem refuses_readAttributes (i : Nat) :
    Refuses Server.Unmounted (readAttributes i) (refusal [inodeCheck i] Errno.noDevice) :=
  refuses_inodeIndex (refuses_onVolume (refuses_readInode i)).bind

theorem refuses_removeKind (p : Nat) (raw : List UInt8) (expected : Kind) :
    Refuses Server.Unmounted (removeKind p raw expected)
      (refusal (textChecks raw fun _ => [inodeCheck p]) Errno.noDevice) :=
  refuses_entryName fun name => refuses_inodeIndex (refuses_onVolume (refuses_find p name)).bind

theorem Request.refused {q : Request} (h : q.needsMount = true) :
    Refuses Server.Unmounted (answer q) (refusal q.checks Errno.noDevice) := by
  cases q with
  | init => cases h
  | destroy => cases h
  | lookup p raw =>
    exact ((refuses_named fun name => refuses_onVolume (refuses_find p name)).bind).map
  | getAttributes i => exact (refuses_readAttributes i).map
  | setAttributes i => exact (refuses_readAttributes i).map
  | makeNode p raw mode =>
    rw [answer]
    refine .check (fun hfails => ?_) fun hpasses => ?_
    · rw [if_neg (bne_iff_ne.mp hfails)]
      exact .throw
    · rw [if_pos (bne_eq_false_iff_eq.mp hpasses)]
      exact ((refuses_named fun name => refuses_edit (refuses_makeFile p name)).bind).map
  | makeDirectory p raw =>
    exact ((refuses_named fun name => refuses_edit (refuses_makeDirectory p name)).bind).map
  | create p raw => exact (refuses_named fun name => refuses_edit (refuses_makeFile p name)).bind
  | openFile i => exact refuses_inodeIndex (refuses_onVolume (refuses_readInode i)).bind
  | readDirectory i offset buffer =>
    exact refuses_inodeIndex (refuses_onVolume (refuses_find i "..").bind).bind
  | read i offset size =>
    exact refuses_inodeIndex (refuses_byteOffset fun place =>
      (refuses_onVolume (refuses_readAt i place size)).bind)
  | write i offset data =>
    exact refuses_inodeIndex (refuses_byteOffset fun place =>
      (refuses_onVolume (refuses_writeAt i place data)).bind)
  | unlink p raw => exact (refuses_removeKind p raw .file).bind
  | removeDirectory p raw => exact (refuses_removeKind p raw .directory).bind
  | rename p raw p' raw' =>
    rw [answer]
    refine .check (fun hfails => ?_) fun hpasses => ?_
    · rw [if_neg (bne_iff_ne.mp hfails)]
      exact .throw_bind
    · rw [if_pos (bne_eq_false_iff_eq.mp hpasses)]
      exact refuses_entryName fun old => refuses_inodeIndex (refuses_entryName fun new =>
        (refuses_edit (refuses_relabel p old new)).bind)
  | statistics => exact (refuses_onVolume (refuses_readBitmap .block)).bind

end Kernel

/-! ## Mounting and unmounting -/

theorem Refuses.keeps {P : τ → Prop} {x : EStateM ε τ α} {e : ε} (hx : Refuses P x e) : Keeps P x :=
  fun s hs => .inr ⟨e, s, hx s hs, hs⟩

/-- What a call does to the layout: it mounts the volume, or it fails to or unmounts it.  Most calls
do neither. -/
def Call.mounting : Call → Service → Option Bool
  | .reopen, s => some !failed Volume.mount (.unmounted s.volume.device s.volume.clock)
  | .edit .mount, s | .mountSession, s => some !failed Volume.mount s.volume
  | .edit .unmount, _ | .request .destroy, _ => some false
  | .request (.init _ _), s =>
    if s.volume.isMounted then none else some !failed Volume.mount s.volume
  | _, _ => none

/-- The last of some calls that mounted the volume, failed to or unmounted it: whether it was
mounted then. -/
def Call.lastMounting : List Call → Service → Option Bool
  | [], _ => none
  | c :: cs, s => (lastMounting cs (c.after s)).or (c.mounting s)

namespace Volume

theorem mount_of_failed {v : Volume} (h : failed mount v = true) :
    ∃ e v', mount v = .error e v' ∧ v'.Unmounted := by
  rw [failed] at h
  rw [mount_eq] at h ⊢
  cases hread : Device.readLayout v.device with
  | ok l d =>
    rw [hread] at h
    cases h
  | error e d => exact ⟨e, _, rfl, rfl⟩

theorem refuses_pack (name : String) (contents : List UInt8) :
    Refuses Unmounted (pack name contents) .notMounted := by
  refine Refuses.bind ((refuses_find _ name).map.tryCatch ?_)
  exact .throw

theorem keeps_packAll (files : List (String × List UInt8)) : Keeps Unmounted (packAll files) := by
  cases files with
  | nil => exact .pure _
  | cons file files => exact (refuses_pack file.1 file.2).bind.keeps

theorem refuses_inodeToOpen (path : String) (flags : OpenFlags) :
    Refuses Unmounted (Session.inodeToOpen path flags) .notMounted := by
  refine (refuses_locate path).tryCatch ?_
  cases flags.create with
  | true => exact .throw
  | false => exact .throw

end Volume

namespace Session

/-- The volume of a session is not mounted. -/
def Unmounted (s : Session) : Prop := s.volume.Unmounted

theorem refuses_onVolume {x : VolumeM α} {cause : Error} (hx : Refuses Volume.Unmounted x cause) :
    Refuses Unmounted (onVolume x) cause := by
  rintro ⟨v, files⟩ hv
  rw [onVolume, hx v hv]

theorem keeps_openPath (path : String) (flags : OpenFlags) :
    Keeps Unmounted (openPath path flags) := by
  refine Keeps.get.bind fun _ => ?_
  split
  · exact .throw _
  · exact (refuses_onVolume (refuses_inodeToOpen path flags)).bind.keeps

theorem keeps_read (handle length : Nat) : Keeps Unmounted (read handle length) :=
  (Caretaker.openFile handle).bind fun file =>
    (refuses_onVolume (refuses_readAt file.inode file.cursor length)).bind.keeps

theorem keeps_write (handle : Nat) (data : List UInt8) : Keeps Unmounted (write handle data) := by
  refine (Caretaker.openFile handle).bind fun file => ?_
  dsimp only
  split
  · exact (refuses_onVolume (refuses_fileSize file.inode)).bind.keeps
  · exact (Keeps.pure _).bind fun start =>
      (refuses_onVolume (refuses_writeAt file.inode start data)).bind.keeps

theorem keeps_seek (handle : Nat) (distance : Int) (whence : Whence) :
    Keeps Unmounted (seek handle distance whence) := by
  refine (Caretaker.openFile handle).bind fun file => ?_
  have hbase : Keeps Volume.Unmounted (base file whence) := by
    cases whence with
    | set => exact .pure _
    | current => exact .pure _
    | finish => exact (refuses_fileSize file.inode).keeps
  refine hbase.onSession.bind fun start => ?_
  split
  · split
    · exact (Caretaker.setFile _ _).bind fun _ => .pure _
    · exact Keeps.throw_bind _ _
  · exact .throw _

end Session

theorem Kernel.takeIntoUse_of_failed {v v' : Volume} {e : Error} {owner group owner' group' : Nat}
    (hv : ¬ v.isMounted = true) (hmount : Volume.mount v = .error e v') :
    takeIntoUse owner group ⟨v, owner', group'⟩ = .error e.errno ⟨v', owner, group⟩ := by
  have hserver : onVolume Volume.mount ⟨v, owner, group⟩ = .error e.errno ⟨v', owner, group⟩ := by
    rw [onVolume, hmount]
  change (if v.isMounted then _ else onVolume Volume.mount >>= fun _ => _ : ServerM Unit)
    ⟨v, owner, group⟩ = _
  rw [if_neg hv]
  exact bind_of_error hserver

/-! ### Runs -/

namespace Call

variable {c : Call} {s : Service}

/-- A volume is not mounted after a call that failed to mount it, or that unmounted it. -/
theorem unmounted_of_mounting (h : c.mounting s = some false) : (c.after s).volume.Unmounted := by
  have hmount {v : Volume} (hfailed : some (!failed Volume.mount v) = some false) :
      ∃ e v', Volume.mount v = .error e v' ∧ v'.Unmounted := by
    refine mount_of_failed ?_
    cases hresult : failed Volume.mount v with
    | true => rfl
    | false =>
      rw [hresult] at hfailed
      cases hfailed
  cases c with
  | reopen =>
    obtain ⟨e, v', hfails, hv'⟩ := hmount h
    rw [after, leftBy, hfails]
    exact hv'
  | edit e =>
    cases e with
    | mount =>
      obtain ⟨e, v', hfails, hv'⟩ := hmount h
      rw [after, Service.onVolume, leftBy, Edit.action, bind_of_error hfails]
      exact hv'
    | unmount => rfl
    | _ => cases h
  | mountSession =>
    obtain ⟨e, v', hfails, hv'⟩ := hmount h
    have hsession : Session.mount ⟨s.volume, s.files⟩ = .error e ⟨v', Session.noFiles⟩ := by
      change Session.onVolume Volume.mount ⟨s.volume, Session.noFiles⟩ = _
      rw [Session.onVolume, hfails]
    rw [after, Service.onSession, leftBy, hsession]
    exact hv'
  | request q =>
    cases q with
    | init owner group =>
      rw [mounting] at h
      split at h
      · cases h
      · next hmounted =>
        obtain ⟨e, v', hfails, hv'⟩ := hmount h
        have hanswer : Kernel.answer (.init owner group) ⟨s.volume, s.owner, s.group⟩
            = .error e.errno ⟨v', owner, group⟩ := by
          rw [Kernel.answer]
          exact bind_of_error (Kernel.takeIntoUse_of_failed hmounted hfails)
        rw [after, Service.onServer, leftBy, hanswer]
        exact hv'
    | destroy => rfl
    | _ => cases h
  | _ => cases h

/-- A call that does not mount a volume leaves it as it is if it is not mounted. -/
theorem unmounted_of_none (h : c.mounting s = none) (hs : s.volume.Unmounted) :
    (c.after s).volume.Unmounted := by
  have hvolume {β : Type} {x : VolumeM β} (hx : Keeps Volume.Unmounted x) :
      (s.onVolume x).volume.Unmounted := hx.leftBy hs
  have hsession {β : Type} {x : SessionM β} (hx : Keeps Session.Unmounted x) :
      (s.onSession x).volume.Unmounted := hx.leftBy (s := ⟨s.volume, s.files⟩) hs
  cases c with
  | reopen => cases h
  | edit e =>
    by_cases hneeds : e.needsMount = true
    · exact hvolume (Edit.refused hneeds).keeps
    · cases e with
      | wait => exact hs
      | mount => cases h
      | unmount => cases h
      | _ => exact absurd rfl hneeds
  | look q => exact hvolume q.refused.keeps
  | makeFileAt path => exact hvolume (refuses_splitPath path).bind.keeps
  | makeDirectoryAt path => exact hvolume (refuses_splitPath path).bind.keeps
  | unlinkHere name => exact hvolume refuses_getLayout.bind.keeps
  | relabelHere old new => exact hvolume refuses_getLayout.bind.keeps
  | pack files => exact hvolume (keeps_packAll files)
  | newSession => exact hs
  | mountSession => cases h
  | openPath path flags => exact hsession (Session.keeps_openPath path flags)
  | readHandle handle length => exact hsession (Session.keeps_read handle length)
  | writeHandle handle data => exact hsession (Session.keeps_write handle data)
  | seek handle distance whence => exact hsession (Session.keeps_seek handle distance whence)
  | close handle => exact hsession (Caretaker.close handle)
  | newServer => exact hs
  | request q =>
    by_cases hneeds : q.needsMount = true
    · exact (Kernel.Request.refused hneeds).keeps.leftBy (s := ⟨s.volume, s.owner, s.group⟩) hs
    · cases q with
      | init owner group =>
        rw [mounting, isMounted, hs] at h
        cases h
      | destroy => cases h
      | _ => exact absurd rfl hneeds

/-- After calls of which the last one that mounts or unmounts the volume leaves it not mounted, it
is not mounted. -/
theorem unmounted_run {cs : List Call} (h : lastMounting cs s = some false ∨
    lastMounting cs s = none ∧ s.volume.Unmounted) : (run cs s).volume.Unmounted := by
  induction cs generalizing s with
  | nil =>
    rcases h with hnone | ⟨-, hs⟩
    · cases hnone
    · exact hs
  | cons c cs ih =>
    refine ih ?_
    rw [lastMounting] at h
    cases hlast : lastMounting cs (c.after s) with
    | some mounted =>
      rw [hlast] at h
      exact h.imp id fun hnone => by cases hnone.1
    | none =>
      rw [hlast] at h
      rcases h with hmounting | ⟨hmounting, hs⟩
      · exact .inr ⟨rfl, unmounted_of_mounting hmounting⟩
      · exact .inr ⟨rfl, unmounted_of_none hmounting hs⟩

end Call

/-- Every call on a volume fails, and so does every request of a server that shows it, for the cause
that its own checks tell, or else because the volume is not mounted.  No sector is transferred, and
nothing about the volume or the server changes. -/
structure Volume.RefusesAll (v : Volume) : Prop where
  layout : getLayout v = .error .notMounted v
  edit : ∀ e : Edit, e.needsMount = true → e.action v = .error (refusal e.checks .notMounted) v
  look : ∀ q : Look, q.action v = .error .notMounted v
  makeFileAt : ∀ path, makeFileAt path v = .error .notMounted v
  makeDirectoryAt : ∀ path, makeDirectoryAt path v = .error .notMounted v
  unlinkHere : ∀ name, unlinkHere name v = .error .notMounted v
  relabelHere : ∀ old new, relabelHere old new v = .error .notMounted v
  request : ∀ (q : Kernel.Request) (owner group : Nat), q.needsMount = true →
    Kernel.answer q ⟨v, owner, group⟩
      = .error (refusal q.checks Errno.noDevice) ⟨v, owner, group⟩

theorem Volume.Unmounted.refusesAll {v : Volume} (hv : v.Unmounted) : v.RefusesAll where
  layout := refuses_getLayout v hv
  edit _ he := Edit.refused he v hv
  look q := q.refused v hv
  makeFileAt path := (refuses_splitPath path).bind v hv
  makeDirectoryAt path := (refuses_splitPath path).bind v hv
  unlinkHere _ := refuses_getLayout.bind v hv
  relabelHere _ _ := refuses_getLayout.bind v hv
  request _ _ _ hq := Kernel.Request.refused hq _ hv

/-- Let any calls be made on any volume, whatever its device holds and whichever transfers fail.  If
the last call that had to do with mounting failed to mount the volume, or unmounted it, then every
further call but mounting is refused, before it does anything. -/
theorem Call.refuses_until_mounted {cs : List Call} {s : Service}
    (h : Call.lastMounting cs s = some false) : (Call.run cs s).volume.RefusesAll :=
  (Call.unmounted_run (.inl h)).refusesAll

/-- A volume was mounted, and cannot be mounted again because its disk is gone.  The calls after
that do not mount it either. -/
theorem Call.refuses_until_mounted_gone :
    let s : Service := .new ⟨.reliable .empty, 0, some .floppy, rootInode⟩
    let cs : List Call := [.mountSession, .edit (.makeFile rootInode "a"), .look (.locate "/"),
      .request .statistics]
    Call.lastMounting cs s = some false ∧ (Call.run cs s).volume.RefusesAll :=
  ⟨rfl, Call.refuses_until_mounted rfl⟩

end BlockFS
