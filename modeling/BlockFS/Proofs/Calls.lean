import BlockFS.Format
import BlockFS.Proofs.Edits

/-!
# Calls

A volume is used by calls of its own, by the calls of a session that has files open on it, and by the
requests of a host's kernel.  A call may succeed or fail.  It changes the volume by a row of edits,
which depends on how the volume is when the call is made.
-/

namespace BlockFS

/-- A volume with the files that a session has open on it, and the user to whom a server shows it. -/
structure Service where
  volume : Volume
  files : Vector (Option OpenFile) handleCount
  owner : Nat
  group : Nat

/-- A call that only looks at the volume. -/
inductive Look where
  | locate (path : String)
  | find (parent : Nat) (name : String)
  | readAt (inode offset length : Nat)
  | fileSize (inode : Nat)
  | record (inode : Nat)
  | list (inode : Nat)
  | bitmap (r : Resource)
  | block (index : Nat)

/-- A call on a volume, of a session, or of a host's kernel. -/
inductive Call where
  | reopen
  | edit (e : Edit)
  | look (q : Look)
  | makeFileAt (path : String)
  | makeDirectoryAt (path : String)
  | unlinkHere (name : String)
  | relabelHere (old new : String)
  | pack (files : List (String × List UInt8))
  | newSession
  | mountSession
  | openPath (path : String) (flags : OpenFlags)
  | readHandle (handle length : Nat)
  | writeHandle (handle : Nat) (data : List UInt8)
  | seek (handle : Nat) (distance : Int) (whence : Whence)
  | close (handle : Nat)
  | newServer
  | request (q : Kernel.Request)

/-! ## What a call does -/

/-- The state that an action leaves behind, whether it fails or not. -/
def leftBy {ε τ α : Type} (x : EStateM ε τ α) (s : τ) : τ :=
  match x s with
  | .ok _ s' => s'
  | .error _ s' => s'

namespace Look

/-- What a call that only looks does. -/
def action : Look → VolumeM Unit
  | .locate path => Volume.locate path >>= fun _ => pure ()
  | .find parent name => Volume.find parent name >>= fun _ => pure ()
  | .readAt inode offset length => Volume.readAt inode offset length >>= fun _ => pure ()
  | .fileSize inode => Volume.fileSize inode >>= fun _ => pure ()
  | .record inode => Volume.readInode inode >>= fun _ => pure ()
  | .list inode => Volume.walk inode >>= fun l => l.items >>= fun _ => pure ()
  | .bitmap r => Volume.readBitmap r >>= fun _ => pure ()
  | .block index => Volume.readBlock index >>= fun _ => pure ()

end Look

namespace Service

/-- A volume on which nothing is open and which no server shows. -/
def new (v : Volume) : Service := ⟨v, Session.noFiles, 0, 0⟩

/-- The service after an action on its volume. -/
def onVolume {α : Type} (s : Service) (x : VolumeM α) : Service :=
  { s with volume := leftBy x s.volume }

/-- The service after an action on its session. -/
def onSession {α : Type} (s : Service) (x : SessionM α) : Service :=
  let t := leftBy x ⟨s.volume, s.files⟩
  { s with volume := t.volume, files := t.files }

/-- The service after an action of its server. -/
def onServer {α : Type} (s : Service) (x : Kernel.ServerM α) : Service :=
  let t := leftBy x ⟨s.volume, s.owner, s.group⟩
  { s with volume := t.volume, owner := t.owner, group := t.group }

end Service

/-- The service after a call. -/
def Call.after : Call → Service → Service
  | .reopen, s => .new (leftBy Volume.mount (.unmounted s.volume.device s.volume.clock))
  | .edit e, s => s.onVolume e.action
  | .look q, s => s.onVolume q.action
  | .makeFileAt path, s => s.onVolume (Volume.makeFileAt path)
  | .makeDirectoryAt path, s => s.onVolume (Volume.makeDirectoryAt path)
  | .unlinkHere name, s => s.onVolume (Volume.unlinkHere name)
  | .relabelHere old new, s => s.onVolume (Volume.relabelHere old new)
  | .pack files, s => s.onVolume (Volume.packAll files)
  | .newSession, s => { s with files := Session.noFiles }
  | .mountSession, s => s.onSession Session.mount
  | .openPath path flags, s => s.onSession (Session.openPath path flags)
  | .readHandle handle length, s => s.onSession (Session.read handle length)
  | .writeHandle handle data, s => s.onSession (Session.write handle data)
  | .seek handle distance whence, s => s.onSession (Session.seek handle distance whence)
  | .close handle, s => s.onSession (Session.close handle)
  | .newServer, s => { s with owner := 0, group := 0 }
  | .request q, s => s.onServer (Kernel.answer q)

/-! ## The edits of a call -/

namespace Edit

/-- The edit at the place that a path leads to. -/
def atPath (e : Nat → String → Edit) (path : String) (v : Volume) : List Edit :=
  match Volume.splitPath path v with
  | .ok (parent, name) _ => [e parent name]
  | .error _ _ => []

/-- The edit in the current directory. -/
def here (e : Nat → Edit) (v : Volume) : List Edit := if v.isMounted then [e v.cwd] else []

/-- The edits that pack files: a name that is taken is passed over, and the first failure ends it. -/
def ofPack : List (String × List UInt8) → Volume → List Edit
  | [], _ => []
  | (name, contents) :: files, v =>
    match Volume.find rootInode name v with
    | .ok _ v => ofPack files v
    | .error .notFound v =>
      match Volume.makeFile rootInode name v with
      | .ok index v =>
        .makeFile rootInode name :: .write index 0 contents ::
          match Volume.writeAt index 0 contents v with
          | .ok _ v => ofPack files v
          | .error _ _ => []
      | .error _ _ => [.makeFile rootInode name]
    | .error _ _ => []

/-- The edits of opening a path: a file is made if there is a handle for it, it is missing and the
flags ask for it. -/
def ofOpen (path : String) (flags : OpenFlags) (s : Session) : List Edit :=
  match s.files.findFinIdx? Option.isNone, Volume.locate path s.volume, flags.create with
  | some _, .error .notFound v, true => atPath .makeFile path v
  | _, _, _ => []

/-- The edits of writing to an open file: the write goes to the cursor, or to the end. -/
def ofWrite (handle : Nat) (data : List UInt8) (s : Session) : List Edit :=
  match s.files[handle]? with
  | some (some file) =>
    if file.append then
      match Volume.fileSize file.inode s.volume with
      | .ok size _ => [.write file.inode size data]
      | .error _ _ => []
    else [.write file.inode file.cursor data]
  | _ => []

/-- The edits in the directory and under the name of a request, if these are well formed. -/
def ofName (parent : Nat) (raw : List UInt8) (es : Nat → String → List Edit) : List Edit :=
  match String.fromUTF8? ⟨raw.toArray⟩ with
  | some name => if parent < UInt32.size then es parent name else []
  | none => []

/-- The edits that remove a name which links an inode of the expected kind. -/
def ofRemove (expected : Kind) (v : Volume) (parent : Nat) (name : String) : List Edit :=
  match (Volume.find parent name >>= Volume.readInode) v with
  | .ok record _ => if record.kind = expected then [.unlink parent name] else []
  | .error _ _ => []

/-- The edits of a request. -/
def ofRequest : Kernel.Request → Volume → List Edit
  | .init _ _, v => if v.isMounted then [] else [.mount]
  | .destroy, _ => [.unmount]
  | .makeNode parent raw mode, _ =>
    if mode &&& Kernel.typeMask = Kernel.regularType then
      ofName parent raw fun p name => [.makeFile p name]
    else []
  | .makeDirectory parent raw, _ => ofName parent raw fun p name => [.makeDirectory p name]
  | .create parent raw, _ => ofName parent raw fun p name => [.makeFile p name]
  | .write inode (.ofNat offset) data, _ =>
    if inode < UInt32.size ∧ offset < UInt32.size then [.write inode offset data] else []
  | .unlink parent raw, v => ofName parent raw (ofRemove .file v)
  | .removeDirectory parent raw, v => ofName parent raw (ofRemove .directory v)
  | .rename parent raw newParent newRaw, _ =>
    if parent = newParent then
      ofName parent raw fun p old =>
        match String.fromUTF8? ⟨newRaw.toArray⟩ with
        | some new => [.relabel p old new]
        | none => []
    else []
  | _, _ => []

end Edit

/-- The edits that a call makes. -/
def Call.edits : Call → Service → List Edit
  | .reopen, _ => [.mount]
  | .edit e, _ => [e]
  | .makeFileAt path, s => Edit.atPath .makeFile path s.volume
  | .makeDirectoryAt path, s => Edit.atPath .makeDirectory path s.volume
  | .unlinkHere name, s => Edit.here (.unlink · name) s.volume
  | .relabelHere old new, s => Edit.here (.relabel · old new) s.volume
  | .pack files, s => Edit.ofPack files s.volume
  | .mountSession, _ => [.mount]
  | .openPath path flags, s => Edit.ofOpen path flags ⟨s.volume, s.files⟩
  | .writeHandle handle data, s => Edit.ofWrite handle data ⟨s.volume, s.files⟩
  | .request q, s => Edit.ofRequest q s.volume
  | _, _ => []

/-- The logs after a call. -/
def Call.logs (c : Call) (s : Service) (logs : Logs) : Logs :=
  (Edit.replayAll (c.edits s) (s.volume, logs)).2

/-- The services, with the logs of the writes into the files, that calls lead to from a new volume of
a shape, on a device that fails no transfer. -/
inductive Reached (g : Geometry) : Service → Logs → Prop where
  | new {d : Disk} {clock : Int} {v : Volume}
      (h : Volume.format g (.unmounted (.reliable d) clock) = .ok () v) :
      Reached g (.new v) fun _ => []
  | call {s : Service} {logs : Logs} (c : Call) (h : Reached g s logs) :
      Reached g (c.after s) (c.logs s logs)

end BlockFS
