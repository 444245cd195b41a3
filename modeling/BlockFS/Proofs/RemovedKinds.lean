import BlockFS.Proofs.PagedListing

/-!
# Requests remove their own kind

One request removes files and another directories.  The name is looked up and the kind of what it links
is read before the removal looks the name up again.  On every mounted volume that calls lead to, the
outcome is a function of what the parent holds under the name: what was linked goes with its one entry,
or the request is refused with a number that tells why, and nothing changes.
-/

namespace BlockFS

open Volume
open StoredName (Storable key)

/-! ## What a request may do -/

namespace Volume

variable (v : Volume) (l : Layout)

/-- A directory on the device links an inode under a name. -/
structure HoldsName (p : Nat) (name : String) (i : Nat) : Prop where
  directory : (v.records l).kind p = .directory
  storable : Storable name
  linked : (v.maps l).map p (key name) = some i

/-- A directory on the device links nothing but itself and its parent. -/
def HoldsNothing (d : Nat) : Prop := ∀ n, n ≠ .here → n ≠ .up → (v.maps l).map d n = none

end Volume

namespace Service

variable (v : Service) (l : Layout)

/-- The service after other transfers. -/
def withHistory (history : History) : Service :=
  { v with volume := { v.volume with device := { v.volume.device with history := history } } }

/-- A request is refused with a number, and nothing but the history of transfers changes. -/
def Refuses (q : Kernel.Request) (errno : Int) : Prop :=
  (Call.request q).answer v = .error (.refused errno) ∧
    ∃ history, (Call.request q).after v = v.withHistory history

/-- A service loses one entry of a directory, the inode that it linked and the blocks of that inode, and
nothing else. -/
structure Loses (v v' : Service) (l : Layout) (p : Nat) (name : String) (i : Nat) : Prop where
  entry : ∃ slot, (((v.volume.records l).table p).entry slot).target = i ∧
    (((v.volume.records l).table p).entry slot).name = key name ∧
    (v'.volume.records l).table p = ((v.volume.records l).table p).put slot .empty
  tables : ∀ d, d ≠ p → d ≠ i → (v'.volume.records l).table d = (v.volume.records l).table d
  inodes : ∀ j, (v'.volume.records l).used .inode j = true ↔
    (v.volume.records l).used .inode j = true ∧ j ≠ i
  blocks : ∀ b, (v'.volume.records l).used .block b = true ↔
    (v.volume.records l).used .block b = true ∧ b ∉ ((v.volume.records l).inode i).blocks
  record : ∀ j, (v'.volume.records l).inode j = (v.volume.records l).inode j
  contents : ∀ b, b ≠ (v.volume.records l).tableBlock p →
    (v'.volume.records l).block b = (v.volume.records l).block b
  volume : ∃ disk history, v'.volume = ⟨⟨disk, v.volume.device.faults, history⟩, v.volume.clock,
    v.volume.layout, if v.volume.cwd = i then rootInode else v.volume.cwd⟩
  service : v'.files = v.files ∧ v'.owner = v.owner ∧ v'.group = v.group

/-- A request on a name is refused where the name is no text or the parent does not hold it. -/
structure RefusesUnknown (q : Nat → List UInt8 → Kernel.Request) : Prop where
  notText : ∀ p raw, String.fromUTF8? ⟨raw.toArray⟩ = none →
    v.Refuses (q p raw) Errno.invalidArgument
  notDirectory : ∀ p raw name, String.fromUTF8? ⟨raw.toArray⟩ = some name →
    (v.volume.records l).kind p ≠ .directory → v.Refuses (q p raw) Errno.noEntry
  notHeld : ∀ p raw name, String.fromUTF8? ⟨raw.toArray⟩ = some name →
    (∀ i, ¬ v.volume.HoldsName l p name i) → v.Refuses (q p raw) Errno.noEntry

/-- The one request removes a name where it links a file. -/
structure UnlinksFiles : Prop extends v.RefusesUnknown l .unlink where
  done_iff : ∀ p raw, (Call.request (.unlink p raw)).answer v = .ok (.reply .done) ↔
    ∃ name i, String.fromUTF8? ⟨raw.toArray⟩ = some name ∧ v.volume.HoldsName l p name i ∧
      (v.volume.records l).kind i = .file
  removed : ∀ p raw name i, String.fromUTF8? ⟨raw.toArray⟩ = some name →
    v.volume.HoldsName l p name i → (v.volume.records l).kind i = .file →
    v.Loses ((Call.request (.unlink p raw)).after v) l p name i
  directory : ∀ p raw name i, String.fromUTF8? ⟨raw.toArray⟩ = some name →
    v.volume.HoldsName l p name i → (v.volume.records l).kind i = .directory →
    v.Refuses (.unlink p raw) Errno.isADirectory
  selfOrParent : ∀ p raw name, String.fromUTF8? ⟨raw.toArray⟩ = some name →
    (v.volume.records l).kind p = .directory → isSelfOrParent name = true →
    v.Refuses (.unlink p raw) Errno.isADirectory

/-- The other request removes a name where it links a directory without children, and is not one of the
names by which a directory knows itself and its parent. -/
structure RemovesDirectories : Prop extends v.RefusesUnknown l .removeDirectory where
  done_iff : ∀ p raw, (Call.request (.removeDirectory p raw)).answer v = .ok (.reply .done) ↔
    ∃ name i, String.fromUTF8? ⟨raw.toArray⟩ = some name ∧ v.volume.HoldsName l p name i ∧
      isSelfOrParent name = false ∧ (v.volume.records l).kind i = .directory ∧
      v.volume.HoldsNothing l i
  removed : ∀ p raw name i, String.fromUTF8? ⟨raw.toArray⟩ = some name →
    v.volume.HoldsName l p name i → isSelfOrParent name = false →
    (v.volume.records l).kind i = .directory → v.volume.HoldsNothing l i →
    v.Loses ((Call.request (.removeDirectory p raw)).after v) l p name i
  file : ∀ p raw name i, String.fromUTF8? ⟨raw.toArray⟩ = some name →
    v.volume.HoldsName l p name i → (v.volume.records l).kind i = .file →
    v.Refuses (.removeDirectory p raw) Errno.notADirectory
  selfOrParent : ∀ p raw name, String.fromUTF8? ⟨raw.toArray⟩ = some name →
    (v.volume.records l).kind p = .directory → isSelfOrParent name = true →
    v.Refuses (.removeDirectory p raw) Errno.invalidArgument
  notEmpty : ∀ p raw name i, String.fromUTF8? ⟨raw.toArray⟩ = some name →
    v.volume.HoldsName l p name i → isSelfOrParent name = false →
    (v.volume.records l).kind i = .directory → ¬ v.volume.HoldsNothing l i →
    v.Refuses (.removeDirectory p raw) Errno.directoryNotEmpty

end Service

/-! ## What is held -/

namespace Scene

variable {l : Layout} {s s' : Scene l} {p i : Nat} {name : String} {slot : Fin slotCount}

/-- Only a directory finds something. -/
theorem directory_of_find? (hfind : (s.records.table p).find? name = some i) :
    s.records.kind p = .directory := by
  by_contra hp
  rw [Records.find?_table_of_ne hp] at hfind
  cases hfind

/-- A parent holds what is found under the name. -/
theorem holdsName_iff (history : History) : (Settled.state s history : Volume).HoldsName l p name i ↔
    (s.records.table p).find? name = some i := by
  constructor
  · intro h
    rw [find?_table_eq h.storable]
    exact h.linked
  · intro hfind
    have hname : Storable name := by
      by_contra hname
      rw [EntryTable.find?_of_error (StoredName.encode_of_not_storable hname)] at hfind
      cases hfind
    exact ⟨directory_of_find? hfind, hname, (find?_table_eq hname).symm.trans hfind⟩

variable (hs : s.Good)

include hs

/-- A directory finds a directory under each of the names by which it knows itself and its parent. -/
theorem exists_find?_selfOrParent (hp : s.records.kind p = .directory)
    (hdot : isSelfOrParent name = true) :
    ∃ i, (s.records.table p).find? name = some i ∧ s.records.kind i = .directory := by
  have hfind (slot : Fin slotCount)
      (hname : StoredName.encode name = .ok ((s.records.table p).entry slot).name)
      (hlt : slot.val < 2) :
      (s.records.table p).find? name = some ((s.records.table p).entry slot).target := by
    rw [EntryTable.find?_eq hname]
    exact (hs.tidy.tree.unique p hp).lookup_eq_some_iff.mpr
      ⟨slot, rfl, hs.tidy.tree.target_ne_of_lt_two hp hlt, rfl⟩
  obtain ⟨hself, hhere⟩ := hs.tidy.tree.self p hp
  obtain ⟨hparent, hup⟩ := hs.tidy.tree.up p hp
  rw [isSelfOrParent, Bool.or_eq_true, beq_iff_eq, beq_iff_eq] at hdot
  rcases hdot with rfl | rfl
  · refine ⟨_, hfind 0 ?_ (by decide), ?_⟩
    · exact StoredName.encode_here.trans (congrArg _ hhere.symm)
    · exact (congrArg s.records.kind hself).trans hp
  · refine ⟨_, hfind 1 ?_ (by decide), hparent⟩
    exact StoredName.encode_up.trans (congrArg _ hup.symm)

/-- What is found under a name is in use. -/
theorem live_of_find? (hfind : (s.records.table p).find? name = some i) :
    s.records.kind i ≠ .free := by
  have hp := directory_of_find? hfind
  cases hdot : isSelfOrParent name with
  | true =>
    obtain ⟨j, hj, hkind⟩ := exists_find?_selfOrParent hs hp hdot
    obtain rfl := Option.some.inj (hj.symm.trans hfind)
    exact Records.ne_free_of_directory hkind
  | false =>
    obtain ⟨n, slot, hn, -, hslot, htarget⟩ := slot_of_find? hfind
    have hlinks := Records.links_of_slot hp hdot hn hslot
    rw [htarget] at hlinks
    exact (hs.tidy.tree.live p slot i hlinks).1

theorem kind_of_find? (hfind : (s.records.table p).find? name = some i) :
    s.records.kind i = .file ∨ s.records.kind i = .directory := by
  have hlive := live_of_find? hs hfind
  cases hkind : s.records.kind i with
  | free => exact absurd hkind hlive
  | file => exact .inl rfl
  | directory => exact .inr rfl

end Scene

/-! ## What the requests do -/

namespace Kernel

variable {l : Layout} {s : Scene l} {p i owner group : Nat} {raw : List UInt8} {name : String}
  {expected : Kind} (hm : s.mounted = true) (hs : s.Good)

include hm hs

theorem does_removeKind_missing (hname : String.fromUTF8? ⟨raw.toArray⟩ = some name)
    (hnone : (s.records.table p).find? name = none) :
    Does (removeKind p raw expected) (ServerScene.mk s owner group) (.error Errno.noEntry)
      (ServerScene.mk s owner group) := by
  refine (does_entryName hname).bind ?_
  by_cases hp : p < UInt32.size
  · have hfind := does_find hm hs.tidy.toExact p name
    rw [hnone] at hfind
    exact (does_inodeIndex hp).bind (does_onVolume hfind).bind_error
  · exact (does_inodeIndex_big hp).bind_error

/-- Once the name is found, the kind of what it links decides. -/
theorem does_removeKind_held (hname : String.fromUTF8? ⟨raw.toArray⟩ = some name)
    (hfind : (s.records.table p).find? name = some i) {r : Except Int Unit} {t : ServerScene l}
    (hrest : Does (if s.records.kind i = expected then onVolume (Volume.unlink p name)
      else if s.records.kind i = .directory then throw Errno.isADirectory
      else throw Errno.notADirectory) (ServerScene.mk s owner group) r t) :
    Does (removeKind p raw expected) (ServerScene.mk s owner group) r t := by
  have hexact := hs.tidy.toExact
  have hused := Records.used_of_kind_ne (s.live_of_find? hs hfind)
  have hp : p < UInt32.size := by
    have hlt := hexact.lt_of_live (Records.ne_free_of_directory (s.directory_of_find? hfind))
    exact Nat.lt_trans (l.small_of_lt (r := .inode) hlt) (by decide)
  have hdo := does_find hm hexact p name
  rw [hfind] at hdo
  rw [Records.kind_of_used hused] at hrest
  exact does_removeKind_found hname hp hdo (does_readInode hm hused) hrest

theorem does_removeKind_expected (hname : String.fromUTF8? ⟨raw.toArray⟩ = some name)
    (hfind : (s.records.table p).find? name = some i) (hkind : s.records.kind i = expected)
    {r : Except Error Unit} {s' : Scene l} (hunlink : Does (Volume.unlink p name) s r s') :
    Does (removeKind p raw expected) (ServerScene.mk s owner group) (r.mapError Error.errno)
      (ServerScene.mk s' owner group) := by
  refine does_removeKind_held hm hs hname hfind ?_
  rw [if_pos hkind]
  exact does_onVolume hunlink

theorem does_removeKind_directory (hname : String.fromUTF8? ⟨raw.toArray⟩ = some name)
    (hfind : (s.records.table p).find? name = some i) (hkind : s.records.kind i = .directory) :
    Does (removeKind p raw .file) (ServerScene.mk s owner group) (.error Errno.isADirectory)
      (ServerScene.mk s owner group) := by
  refine does_removeKind_held hm hs hname hfind ?_
  rw [hkind]
  exact Does.throw _ _

theorem does_removeKind_file (hname : String.fromUTF8? ⟨raw.toArray⟩ = some name)
    (hfind : (s.records.table p).find? name = some i) (hkind : s.records.kind i = .file) :
    Does (removeKind p raw .directory) (ServerScene.mk s owner group) (.error Errno.notADirectory)
      (ServerScene.mk s owner group) := by
  refine does_removeKind_held hm hs hname hfind ?_
  rw [hkind]
  exact Does.throw _ _

end Kernel

namespace Scene

variable {l : Layout} {s s' : Scene l} {p i : Nat} {name : String} {slot : Fin slotCount}
  (hm : s.mounted = true) (hs : s.Good)

include hm hs

/-- What may go is removed. -/
theorem exists_removes (hfind : (s.records.table p).find? name = some i)
    (hdot : isSelfOrParent name = false)
    (hempty : s.records.kind i = .directory → (s.records.table i).holdsNothing = true) :
    ∃ s' slot, Does (Volume.unlink p name) s (.ok ()) s' ∧ Removes p slot i s s' ∧
      ((s.records.table p).entry slot).name = key name := by
  obtain ⟨n, slot, hn, hslot, hindex, htarget⟩ := slot_of_find? hfind
  have hlinks := Records.links_of_slot (directory_of_find? hfind) hdot hn hindex
  rw [htarget] at hlinks
  obtain ⟨s', hdo, hgone⟩ := does_unlink_removes hm hs hdot hslot hlinks hempty
  have hname := (EntryTable.named_of_findFinIdx? hindex).2
  exact ⟨s', slot, hdo, hgone, hname.trans (StoredName.encode_eq_ok_iff.mp hn).2.2⟩

theorem does_unlink_full (hfind : (s.records.table p).find? name = some i)
    (hdot : isSelfOrParent name = false) (hkind : s.records.kind i = .directory)
    (hfull : (s.records.table i).holdsNothing = false) :
    Does (Volume.unlink p name) s (.error .directoryNotEmpty) s := by
  obtain ⟨n, slot, hn, hslot, hindex, htarget⟩ := slot_of_find? hfind
  exact does_unlink_refused hm hs.tidy.toExact hdot (directory_of_find? hfind) hslot htarget
    (does_discard_notEmpty hm hs.tidy.toExact hkind hfull)

end Scene

namespace Service

variable {l : Layout} {s s' : Scene l} {history : History} {v : Service} {q : Kernel.Request}
  {p i : Nat} {name : String} {slot : Fin slotCount} (hv : v.volume = Settled.state s history)

include hv

/-- A request that fails and leaves the scene as it was is refused. -/
theorem refuses_of_does {errno : Int}
    (hdo : Does (Kernel.answer q) (ServerScene.mk s v.owner v.group) (.error errno)
      (ServerScene.mk s v.owner v.group)) : v.Refuses q errno := by
  obtain ⟨hanswer, history', hafter⟩ := Call.request_service_eq hv hdo
  refine ⟨hanswer, history', ?_⟩
  rw [hafter, withHistory, hv]
  rfl

/-- What a scene loses on the way to another one is lost by the service. -/
theorem loses_of_removes (hs : s.Good) (hgone : Scene.Removes p slot i s s')
    (hname : ((s.records.table p).entry slot).name = key name) (history' : History) :
    v.Loses ⟨Settled.state s' history', v.files, v.owner, v.group⟩ l p name i := by
  have hrecords : v.volume.records l = s.records := by
    rw [hv]
    rfl
  have hrecords' : (Settled.state s' history' : Volume).records l = s.records.unlink p slot i :=
    hgone.records
  have htables (d : Nat) : (s.records.unlink p slot i).table d = if d = i then .empty
      else if d = p then (s.records.table p).put slot .empty else s.records.table d := by
    change (s.records.unlink p slot i).tree.table d = _
    rw [hs.tidy.tree_unlink hgone.removable, NameTree.remove]
    simp only [Function.update_apply]
    rfl
  have hpi : p ≠ i := hgone.removable.ne hs.tidy.tree
  have htarget : ((s.records.table p).entry slot).target = i := hgone.removable.links.target
  constructor
  case entry =>
    refine ⟨slot, ?_, ?_, ?_⟩
    · rw [hrecords, htarget]
    · rw [hrecords, hname]
    · rw [hrecords, hrecords', htables, if_neg hpi, if_pos rfl]
  case tables =>
    intro d hdp hdi
    rw [hrecords, hrecords', htables, if_neg hdi, if_neg hdp]
  case inodes =>
    intro j
    rw [hrecords, hrecords']
    change (s.records.discard i).used .inode j = true ↔ _
    rw [Records.used_inode_discard]
    split
    · next heq => simp [heq]
    · next hne => simp [hne]
  case blocks =>
    intro b
    rw [hrecords, hrecords']
    change (s.records.discard i).used .block b = true ↔ _
    rw [Records.used_block_discard]
    split
    · next hmem => simp [hmem]
    · next hmem => simp [hmem]
  case record =>
    intro j
    rw [hrecords, hrecords']
    rfl
  case contents =>
    intro b hb
    rw [hrecords] at hb
    rw [hrecords, hrecords']
    exact Function.update_of_ne hb _ _
  case volume =>
    refine ⟨s'.store.disk, history', ?_⟩
    simp only [hv, Settled.state, hgone.mounted, hgone.clock, hgone.cwd]
  case service => exact ⟨rfl, rfl, rfl⟩

/-- A request that leaves a scene behind without an entry and what it linked. -/
theorem loses_of_does (hs : s.Good)
    (hdo : Does (Kernel.answer q) (ServerScene.mk s v.owner v.group) (.ok .done)
      (ServerScene.mk s' v.owner v.group)) (hgone : Scene.Removes p slot i s s')
    (hname : ((s.records.table p).entry slot).name = key name) :
    (Call.request q).answer v = .ok (.reply .done) ∧
      v.Loses ((Call.request q).after v) l p name i := by
  obtain ⟨hanswer, history', hafter⟩ := Call.request_service_eq hv hdo
  refine ⟨hanswer, ?_⟩
  rw [hafter]
  exact loses_of_removes hv hs hgone hname history'

end Service

/-! ## The outcome of each request -/

namespace Service

variable {l : Layout} {s : Scene l} {history : History} {v : Service} {q : Kernel.Request}
  {p i : Nat} {raw : List UInt8} {name : String} {expected : Kind}
  (hv : v.volume = Settled.state s history) (hm : s.mounted = true) (hs : s.Good)

include hv

theorem holdsName_of_state :
    v.volume.HoldsName l p name i ↔ (s.records.table p).find? name = some i := by
  rw [hv]
  exact Scene.holdsName_iff history

theorem records_of_state : v.volume.records l = s.records := by
  rw [hv]
  rfl

theorem holdsNothing_of_state (hs : s.Good) (hkind : s.records.kind i = .directory) :
    v.volume.HoldsNothing l i ↔ (s.records.table i).holdsNothing = true := by
  rw [hv]
  exact (hs.tidy.tree.holdsNothing_iff hkind).symm

/-- A directory holds a directory under each of the names by which it knows itself and its parent. -/
theorem exists_held_selfOrParent (hs : s.Good) (hp : s.records.kind p = .directory)
    (hdot : isSelfOrParent name = true) :
    ∃ i, v.volume.HoldsName l p name i ∧ s.records.kind i = .directory := by
  obtain ⟨i, hfind, hkind⟩ := Scene.exists_find?_selfOrParent hs hp hdot
  exact ⟨i, (holdsName_of_state hv).mpr hfind, hkind⟩

/-- A request that is done is on a name that is held. -/
theorem exists_held_of_done (hs : s.Good) {q : Nat → List UInt8 → Kernel.Request}
    (h : v.RefusesUnknown l q)
    (hdone : (Call.request (q p raw)).answer v = .ok (.reply .done)) :
    ∃ name i, String.fromUTF8? ⟨raw.toArray⟩ = some name ∧ v.volume.HoldsName l p name i ∧
      (s.records.kind i = .file ∨ s.records.kind i = .directory) := by
  cases hname : String.fromUTF8? ⟨raw.toArray⟩ with
  | none => cases (h.notText p raw hname).1.symm.trans hdone
  | some name =>
    by_cases hheld : ∃ i, v.volume.HoldsName l p name i
    · obtain ⟨i, hi⟩ := hheld
      exact ⟨name, i, rfl, hi, Scene.kind_of_find? hs ((holdsName_of_state hv).mp hi)⟩
    · cases (h.notHeld p raw name hname (not_exists.mp hheld)).1.symm.trans hdone

include hm hs

/-- A request that removes names of one kind is refused where there is no such name. -/
theorem refusesUnknown {q : Nat → List UInt8 → Kernel.Request}
    (hq : ∀ p raw, Kernel.answer (q p raw)
      = Kernel.removeKind p raw expected >>= fun _ => pure .done) : v.RefusesUnknown l q := by
  have hmissing (p : Nat) (raw : List UInt8) (name : String)
      (hname : String.fromUTF8? ⟨raw.toArray⟩ = some name)
      (hnone : (s.records.table p).find? name = none) : v.Refuses (q p raw) Errno.noEntry := by
    refine refuses_of_does hv ?_
    rw [hq]
    exact (Kernel.does_removeKind_missing hm hs hname hnone).bind_error
  constructor
  case notText =>
    intro p raw hname
    refine refuses_of_does hv ?_
    rw [hq]
    exact (Kernel.does_entryName_none hname).bind_error.bind_error
  case notDirectory =>
    intro p raw name hname hp
    rw [records_of_state hv] at hp
    exact hmissing p raw name hname (Records.find?_table_of_ne hp)
  case notHeld =>
    intro p raw name hname hnone
    refine hmissing p raw name hname (Option.eq_none_iff_forall_ne_some.mpr fun i hfind => ?_)
    exact hnone i ((holdsName_of_state hv).mpr hfind)

/-- A request removes a name of its own kind that may go. -/
theorem removes_held (hq : Kernel.answer q = Kernel.removeKind p raw expected >>= fun _ => pure .done)
    (hname : String.fromUTF8? ⟨raw.toArray⟩ = some name)
    (hfind : (s.records.table p).find? name = some i) (hkind : s.records.kind i = expected)
    (hdot : isSelfOrParent name = false)
    (hempty : s.records.kind i = .directory → (s.records.table i).holdsNothing = true) :
    (Call.request q).answer v = .ok (.reply .done) ∧
      v.Loses ((Call.request q).after v) l p name i := by
  obtain ⟨s', slot, hunlink, hgone, hstored⟩ := Scene.exists_removes hm hs hfind hdot hempty
  refine loses_of_does hv hs ?_ hgone hstored
  rw [hq]
  exact (Kernel.does_removeKind_expected hm hs hname hfind hkind hunlink).bind (Does.pure _ _)

section held

variable (hname : String.fromUTF8? ⟨raw.toArray⟩ = some name)
  (hheld : v.volume.HoldsName l p name i)

include hname hheld

theorem unlink_file (hkind : s.records.kind i = .file) :
    (Call.request (.unlink p raw)).answer v = .ok (.reply .done) ∧
      v.Loses ((Call.request (.unlink p raw)).after v) l p name i := by
  have hfind := (holdsName_of_state hv).mp hheld
  have hdot : isSelfOrParent name = false := by
    rw [Bool.eq_false_iff]
    intro hdot
    obtain ⟨j, hj, hdir⟩ := Scene.exists_find?_selfOrParent hs (Scene.directory_of_find? hfind) hdot
    obtain rfl := Option.some.inj (hj.symm.trans hfind)
    cases hkind.symm.trans hdir
  exact removes_held hv hm hs rfl hname hfind hkind hdot fun hdir =>
    Kind.noConfusion (hkind.symm.trans hdir)

theorem unlink_directory (hkind : s.records.kind i = .directory) :
    v.Refuses (.unlink p raw) Errno.isADirectory :=
  refuses_of_does hv (Kernel.does_removeKind_directory hm hs hname
    ((holdsName_of_state hv).mp hheld) hkind).bind_error

theorem removeDirectory_file (hkind : s.records.kind i = .file) :
    v.Refuses (.removeDirectory p raw) Errno.notADirectory :=
  refuses_of_does hv (Kernel.does_removeKind_file hm hs hname
    ((holdsName_of_state hv).mp hheld) hkind).bind_error

variable (hkind : s.records.kind i = .directory)

include hkind

/-- Of a directory the removal decides. -/
theorem removeDirectory_refused {e : Error} (hunlink : Does (Volume.unlink p name) s (.error e) s) :
    v.Refuses (.removeDirectory p raw) e.errno :=
  refuses_of_does hv (Kernel.does_removeKind_expected hm hs hname
    ((holdsName_of_state hv).mp hheld) hkind hunlink).bind_error

variable (hdot : isSelfOrParent name = false)

include hdot

theorem removeDirectory_empty (hnothing : v.volume.HoldsNothing l i) :
    (Call.request (.removeDirectory p raw)).answer v = .ok (.reply .done) ∧
      v.Loses ((Call.request (.removeDirectory p raw)).after v) l p name i :=
  removes_held hv hm hs rfl hname ((holdsName_of_state hv).mp hheld) hkind hdot fun _ =>
    (holdsNothing_of_state hv hs hkind).mp hnothing

theorem removeDirectory_full (hholds : ¬ v.volume.HoldsNothing l i) :
    v.Refuses (.removeDirectory p raw) Errno.directoryNotEmpty := by
  rw [holdsNothing_of_state hv hs hkind, Bool.not_eq_true] at hholds
  exact removeDirectory_refused hv hm hs hname hheld hkind
    (Scene.does_unlink_full hm hs ((holdsName_of_state hv).mp hheld) hdot hkind hholds)

end held

theorem unlinksFiles : v.UnlinksFiles l := by
  have hrecords := records_of_state hv
  have hunknown : v.RefusesUnknown l .unlink := refusesUnknown hv hm hs fun _ _ => rfl
  refine { toRefusesUnknown := hunknown, done_iff := fun p raw => ⟨fun hdone => ?_, ?_⟩,
           removed := fun p raw name i hname hheld hkind => ?_,
           directory := fun p raw name i hname hheld hkind => ?_,
           selfOrParent := fun p raw name hname hp hdot => ?_ }
  · obtain ⟨name, i, hname, hheld, hkind | hkind⟩ := exists_held_of_done hv hs hunknown hdone
    · exact ⟨name, i, hname, hheld, by rwa [hrecords]⟩
    · cases (unlink_directory hv hm hs hname hheld hkind).1.symm.trans hdone
  · rintro ⟨name, i, hname, hheld, hkind⟩
    rw [hrecords] at hkind
    exact (unlink_file hv hm hs hname hheld hkind).1
  · rw [hrecords] at hkind
    exact (unlink_file hv hm hs hname hheld hkind).2
  · rw [hrecords] at hkind
    exact unlink_directory hv hm hs hname hheld hkind
  · rw [hrecords] at hp
    obtain ⟨i, hheld, hkind⟩ := exists_held_selfOrParent hv hs hp hdot
    exact unlink_directory hv hm hs hname hheld hkind

theorem removeDirectory_selfOrParent (hname : String.fromUTF8? ⟨raw.toArray⟩ = some name)
    (hp : s.records.kind p = .directory) (hdot : isSelfOrParent name = true) :
    v.Refuses (.removeDirectory p raw) Errno.invalidArgument := by
  obtain ⟨i, hheld, hkind⟩ := exists_held_selfOrParent hv hs hp hdot
  exact removeDirectory_refused hv hm hs hname hheld hkind (does_unlink_selfOrParent hdot)

theorem removesDirectories : v.RemovesDirectories l := by
  have hrecords := records_of_state hv
  have hunknown : v.RefusesUnknown l .removeDirectory := refusesUnknown hv hm hs fun _ _ => rfl
  refine { toRefusesUnknown := hunknown, done_iff := fun p raw => ⟨fun hdone => ?_, ?_⟩,
           removed := fun p raw name i hname hheld hdot hkind hnothing => ?_,
           file := fun p raw name i hname hheld hkind => ?_,
           selfOrParent := fun p raw name hname hp hdot => ?_,
           notEmpty := fun p raw name i hname hheld hdot hkind hholds => ?_ }
  · obtain ⟨name, i, hname, hheld, hkind | hkind⟩ := exists_held_of_done hv hs hunknown hdone
    · cases (removeDirectory_file hv hm hs hname hheld hkind).1.symm.trans hdone
    cases hdot : isSelfOrParent name with
    | true =>
      have hp := Scene.directory_of_find? ((holdsName_of_state hv).mp hheld)
      cases (removeDirectory_selfOrParent hv hm hs hname hp hdot).1.symm.trans hdone
    | false =>
      by_cases hnothing : v.volume.HoldsNothing l i
      · exact ⟨name, i, hname, hheld, hdot, by rwa [hrecords], hnothing⟩
      · cases (removeDirectory_full hv hm hs hname hheld hkind hdot hnothing).1.symm.trans hdone
  · rintro ⟨name, i, hname, hheld, hdot, hkind, hnothing⟩
    rw [hrecords] at hkind
    exact (removeDirectory_empty hv hm hs hname hheld hkind hdot hnothing).1
  · rw [hrecords] at hkind
    exact (removeDirectory_empty hv hm hs hname hheld hkind hdot hnothing).2
  · rw [hrecords] at hkind
    exact removeDirectory_file hv hm hs hname hheld hkind
  · rw [hrecords] at hp
    exact removeDirectory_selfOrParent hv hm hs hname hp hdot
  · rw [hrecords] at hkind
    exact removeDirectory_full hv hm hs hname hheld hkind hdot hholds

end Service

/-- On every mounted volume that calls lead to, what a directory holds under a name is a file or a
directory.  The one request removes files and the other directories without children, and each tells
why it does not. -/
theorem Reached.removals_exact {g : Geometry} {v : Service} {logs : Logs} {l : Layout}
    (h : Reached g v logs) (hl : Layout.ofGeometry g = .ok l)
    (hm : v.volume.isMounted = true) :
    l.Reads v.volume.device (v.volume.records l) ∧
      (∀ p name i, v.volume.HoldsName l p name i →
        (v.volume.records l).kind i = .file ∨ (v.volume.records l).kind i = .directory) ∧
      v.UnlinksFiles l ∧ v.RemovesDirectories l := by
  obtain ⟨s, history, hv, hrecords, hs, -⟩ := h.exists_scene hl
  rw [hv, isMounted_state] at hm
  refine ⟨h.reads hl, fun p name i hheld => ?_, Service.unlinksFiles hv hm hs,
    Service.removesDirectories hv hm hs⟩
  rw [hrecords]
  exact Scene.kind_of_find? hs ((Service.holdsName_of_state hv).mp hheld)

/-- A new floppy disk with the files `a` and `b`. -/
theorem Reached.removals_exact_floppy :
    ∃ logs, Reached .floppy Service.bothFiles logs ∧ Layout.ofGeometry .floppy = .ok .floppy ∧
      Service.bothFiles.volume.isMounted = true ∧
      Layout.floppy.Reads Service.bothFiles.volume.device (Service.bothFiles.volume.records .floppy) ∧
      (∀ p name i, Service.bothFiles.volume.HoldsName .floppy p name i →
        (Service.bothFiles.volume.records .floppy).kind i = .file ∨
          (Service.bothFiles.volume.records .floppy).kind i = .directory) ∧
      Service.bothFiles.UnlinksFiles .floppy ∧ Service.bothFiles.RemovesDirectories .floppy := by
  obtain ⟨⟨logs, hreached⟩, s, history, hv, hboth⟩ := Service.bothFiles_eq
  have hmounted : Service.bothFiles.volume.isMounted = true := by
    rw [hv, isMounted_state, hboth.mounted]
  exact ⟨logs, hreached, Layout.ofGeometry_floppy, hmounted,
    hreached.removals_exact Layout.ofGeometry_floppy hmounted⟩

end BlockFS
