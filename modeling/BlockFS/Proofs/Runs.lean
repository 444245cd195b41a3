import BlockFS.Proofs.Calls.Requests
import BlockFS.Proofs.Calls.Sessions
import BlockFS.Proofs.Formatting

/-!
# Runs of calls

Each call leaves a good scene behind as its edits do.  By induction over the calls, every volume that
is reached from a new one is a good scene, and the logs tell what its files hold.
-/

namespace BlockFS

open Volume

variable {l : Layout} {s : Scene l}

/-- An action leaves behind what it takes a settled state to. -/
theorem Does.leftBy_eq {S τ ε α : Type} [Settled S τ] {x : EStateM ε τ α} {t t' : S}
    {r : Except ε α} (hx : Does x t r t') (history : History) :
    ∃ history', leftBy x (Settled.state t history) = Settled.state t' history' := by
  obtain ⟨history', hx⟩ := hx history
  refine ⟨history', ?_⟩
  rw [leftBy, hx]
  cases r with
  | ok a => rfl
  | error e => rfl

section

variable {α : Type} {es : List Edit} {files : Vector (Option OpenFile) handleCount}
  {owner group : Nat} {history : History}

/-- A service on a scene becomes a service on another scene as edits take one to the other. -/
def Service.Goes (v : Service) (es : List Edit) (s : Scene l) : Prop :=
  ∃ (s' : Scene l) (history' : History), v.volume = Settled.state s' history' ∧
    Scene.TakesAll es s s'

theorem Service.goes_onVolume {x : VolumeM α} (hx : Performs x es s) :
    ((Service.mk (Settled.state s history) files owner group).onVolume x).Goes es s := by
  obtain ⟨r, s', hdo, hes⟩ := hx
  obtain ⟨history', hleft⟩ := hdo.leftBy_eq history
  exact ⟨s', history', hleft, hes⟩

theorem Service.goes_onSession {x : SessionM α} (hx : Performs x es (SessionScene.mk s files)) :
    ((Service.mk (Settled.state s history) files owner group).onSession x).Goes es s := by
  obtain ⟨r, t', hdo, hes⟩ := hx
  obtain ⟨history', hleft⟩ := hdo.leftBy_eq history
  exact ⟨t'.scene, history', congrArg Session.volume hleft, hes⟩

theorem Service.goes_onServer {x : Kernel.ServerM α}
    (hx : Performs x es (ServerScene.mk s owner group)) :
    ((Service.mk (Settled.state s history) files owner group).onServer x).Goes es s := by
  obtain ⟨r, t', hdo, hes⟩ := hx
  obtain ⟨history', hleft⟩ := hdo.leftBy_eq history
  exact ⟨t'.scene, history', congrArg Kernel.Server.volume hleft, hes⟩

/-- A volume that is opened anew on the same device is mounted. -/
theorem Service.goes_reopen (hs : s.Good) :
    (Call.reopen.after ⟨Settled.state s history, files, owner, group⟩).Goes [.mount] s := by
  let s0 : Scene l := { s with mounted := false, cwd := rootInode }
  obtain ⟨history', hleft⟩ := (does_mount (s := s0)).leftBy_eq history
  refine ⟨{ s with mounted := true, cwd := rootInode }, history', hleft, ?_⟩
  obtain ⟨r, s', hmount⟩ := Scene.takes .mount hs
  obtain ⟨rfl, rfl⟩ := Scene.does_unique hmount.does (does_mount.bind (Does.pure 0 _))
  exact hmount.all

/-- Every call changes a good scene as its edits do. -/
theorem Call.goes (c : Call) {v : Service} (hv : v.volume = Settled.state s history)
    (hs : s.Good) : (c.after v).Goes (c.edits v) s := by
  obtain ⟨volume, files, owner, group⟩ := v
  obtain rfl : volume = Settled.state s history := hv
  have hkept {v : Service} (hv : v.volume = Settled.state s history) : v.Goes [] s :=
    ⟨s, history, hv, .nil hs⟩
  cases c with
  | reopen => exact Service.goes_reopen hs
  | edit e => exact Service.goes_onVolume (performs_edit e hs)
  | look q => exact Service.goes_onVolume (.of_quiet q.quiet hs)
  | makeFileAt path => exact Service.goes_onVolume (performs_atPath hs .makeFile path history)
  | makeDirectoryAt path =>
    exact Service.goes_onVolume (performs_atPath hs .makeDirectory path history)
  | unlinkHere name =>
    exact Service.goes_onVolume (performs_here hs (.unlink · name) (fun _ => rfl) history)
  | relabelHere old new =>
    exact Service.goes_onVolume (performs_here hs (.relabel · old new) (fun _ => rfl) history)
  | pack files => exact Service.goes_onVolume (performs_pack hs history)
  | newSession => exact hkept rfl
  | mountSession => exact Service.goes_onSession (Session.performs_mount hs)
  | openPath path flags =>
    exact Service.goes_onSession (Session.performs_openPath hs path flags history)
  | readHandle handle length => exact Service.goes_onSession (Session.performs_read hs length)
  | writeHandle handle data =>
    exact Service.goes_onSession (Session.performs_write hs data history)
  | seek handle distance whence =>
    exact Service.goes_onSession (Session.performs_seek hs distance whence)
  | close handle => exact Service.goes_onSession (Session.performs_close hs)
  | newServer => exact hkept rfl
  | request q => exact Service.goes_onServer (Kernel.performs_answer hs q history)

end

/-! ## What is reached -/

/-- A volume is a good scene, and the logs tell what its files hold. -/
def Volume.Stands (v : Volume) (l : Layout) (logs : Logs) : Prop :=
  ∃ (s : Scene l) (history : History), v = Settled.state s history ∧ s.Good ∧ s.Recounts logs

theorem Volume.stands_format {g : Geometry} {d : Disk} {clock : Int} {v : Volume}
    (hl : Layout.ofGeometry g = .ok l) (h : format g (unmounted (.reliable d) clock) = .ok () v) :
    v.Stands l fun _ => [] := by
  obtain ⟨s, history, heq, hnew⟩ := format_eq hl d clock
  rw [heq] at h
  injection h with _ hv
  exact ⟨s, history, hv.symm, hnew.good, fun i hi => absurd hi (hnew.kind_ne_file i),
    fun i hi => absurd hi (hnew.kind_ne_file i)⟩

/-- A call keeps that the logs tell what the files hold. -/
theorem Call.stands (c : Call) {v : Service} {logs : Logs} (h : v.volume.Stands l logs) :
    (c.after v).volume.Stands l (c.logs v logs) := by
  obtain ⟨s, history, hv, hs, hlogs⟩ := h
  obtain ⟨s', history', hvolume, hes⟩ := c.goes hv hs
  obtain ⟨history'', logs', hreplay, hlogs'⟩ := hes.replayAll_eq history hlogs
  refine ⟨s', history', hvolume, hes.good, ?_⟩
  rw [Call.logs, hv, hreplay]
  exact hlogs'

/-- Whatever calls lead to a volume, it is a good scene and the logs tell what its files hold. -/
theorem Reached.stands {g : Geometry} {v : Service} {logs : Logs} (h : Reached g v logs) :
    ∃ l, Layout.ofGeometry g = .ok l ∧ v.volume.Stands l logs := by
  induction h with
  | new h =>
    obtain ⟨l, hl⟩ := exists_layout_of_format h
    exact ⟨l, hl, stands_format hl h⟩
  | call c _ ih =>
    obtain ⟨l, hl, hv⟩ := ih
    exact ⟨l, hl, c.stands hv⟩

/-! ## A new floppy disk -/

/-- The layout of a floppy disk. -/
def Layout.floppy : Layout := ⟨.ofGeometry .floppy, by decide⟩

theorem Layout.ofGeometry_floppy : Layout.ofGeometry .floppy = .ok .floppy := rfl

/-- A new volume on a floppy disk of which nothing was written before. -/
def Service.floppy : Service :=
  .new (leftBy (format .floppy) (unmounted (.reliable .empty) 0))

theorem Service.floppy_eq : ∃ (s : Scene .floppy) (history : History),
    Service.floppy = .new (Settled.state s history) ∧ s.New := by
  obtain ⟨s, history, heq, hnew⟩ := format_eq Layout.ofGeometry_floppy .empty 0
  refine ⟨s, history, ?_, hnew⟩
  rw [floppy, leftBy, heq]

theorem reached_floppy : Reached .floppy Service.floppy fun _ => [] := by
  obtain ⟨s, history, heq, -⟩ := format_eq Layout.ofGeometry_floppy .empty 0
  have hleft : leftBy (format .floppy) (unmounted (.reliable .empty) 0)
      = Settled.state s history := by rw [leftBy, heq]
  rw [Service.floppy, hleft]
  exact .new heq

end BlockFS
