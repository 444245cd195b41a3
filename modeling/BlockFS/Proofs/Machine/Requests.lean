import BlockFS.Kernel.Server
import BlockFS.Proofs.Machine.Sessions

/-!
# Requests on a machine

The requests of a host's kernel carry inode numbers of 64 bits and signed offsets.  They are made
smaller before they reach the volume, and what the volume answers is counted in the words of a
reply.
-/

namespace BlockFS.Machine

open Kernel (Server Request Reply ListedEntry)

/-- The attributes of an inode whose record was read. -/
def attributesOf (index : Nat) (record : Inode) : Action Int Server Attributes := do
  let server ← get
  let sectors ← word 64 (record.blocks.length * (blockSize / sectorSize))
  return { record.attributes index server.owner server.group with sectors := sectors }

/-- Reads the attributes of an inode.  The number asked for is shown with 32 bits. -/
def readAttributes (inode : Nat) : Action Int Server Attributes := do
  let index ← plain (Kernel.inodeIndex inode)
  let record ← inServer (loadInode index)
  let shown ← narrow 32 inode
  attributesOf shown record

/-- Does `x` for the directory and the name of a request, and reads the inode that it leads to. -/
def named (parent : Nat) (raw : List UInt8) (x : Nat → String → Action Error Volume Nat) :
    Action Int Server (Nat × Inode) := do
  let name ← plain (Kernel.entryName raw)
  let index ← inServer (x (← plain (Kernel.inodeIndex parent)) name)
  return (index, ← inServer (loadInode index))

/-- As `named`, with the attributes of the inode. -/
def namedAttributes (parent : Nat) (raw : List UInt8) (x : Nat → String → Action Error Volume Nat) :
    Action Int Server Attributes := do
  let (index, record) ← named parent raw x
  attributesOf index record

/-- Takes the volume into use for a user. -/
def takeIntoUse (owner group : Nat) : Action Int Server Unit := do
  plain (modify fun s => { s with owner := owner, group := group })
  unless (← plain get).volume.isMounted do inServer mount
  let root ← inServer (loadInode rootInode)
  unless root.kind = .directory do fail Error.corruptVolume.errno

/-- All entries of a directory, each with the place behind it, which is a signed word of 64 bits. -/
def allEntries (index : Nat) : Action Error Volume (List ListedEntry) := do
  let parent ← find index ".."
  let d ← loadDirectory index
  let children ← (← children d.table).mapM child
  let listed : List (Nat × Bool × String) :=
    (index, true, ".") :: (parent, true, "..")
      :: children.map fun c => (c.inode, c.directory, c.name)
  listed.zipIdx.mapM fun ((inode, directory, name), place) => do
    let next ← word 63 (place + 1)
    return ⟨inode, next, directory, name⟩

/-- Removes a name that links an inode of the expected kind. -/
def removeKind (parent : Nat) (raw : List UInt8) (expected : Kind) : Action Int Server Unit := do
  let name ← plain (Kernel.entryName raw)
  let parent ← plain (Kernel.inodeIndex parent)
  let target ← inServer (find parent name)
  let kind := (← inServer (loadInode target)).kind
  if kind = expected then inServer (unlink parent name)
  else if kind = .directory then fail Errno.isADirectory
  else fail Errno.notADirectory

/-- Answers a request. -/
def answer : Request → Action Int Server Reply
  | .init owner group => do
    takeIntoUse owner group
    return .done
  | .destroy => do
    inServer (plain Volume.unmount)
    return .done
  | .lookup parent name => .entry <$> namedAttributes parent name find
  | .getAttributes inode => .attributes <$> readAttributes inode
  | .setAttributes inode => .attributes <$> readAttributes inode
  | .makeNode parent name mode =>
    if mode &&& Kernel.typeMask = Kernel.regularType then
      .entry <$> namedAttributes parent name makeFile
    else fail Errno.notPermitted
  | .makeDirectory parent name => .entry <$> namedAttributes parent name makeDirectory
  | .create parent name => do
    let (index, record) ← named parent name makeFile
    unless record.kind = .file do fail Errno.isADirectory
    return .created (← attributesOf index record)
  | .openFile inode => do
    let record ← inServer (loadInode (← plain (Kernel.inodeIndex inode)))
    unless record.kind = .file do fail Errno.isADirectory
    return .opened
  | .readDirectory inode offset buffer => do
    let entries ← inServer (allEntries (← plain (Kernel.inodeIndex inode)))
    return .directory (buffer.addAll [] (Kernel.behind offset entries))
  | .read inode offset size => do
    let index ← plain (Kernel.inodeIndex inode)
    let data ← inServer (readAt index (← plain (Kernel.byteOffset offset)) size)
    let _ ← range 0 data.length size
    return .data data
  | .write inode offset data => do
    let index ← plain (Kernel.inodeIndex inode)
    let count ← inServer (writeAt index (← plain (Kernel.byteOffset offset)) data)
    if count = 0 ∧ !data.isEmpty then fail Errno.fileTooBig
    return .written (← narrow 32 count)
  | .unlink parent name => do
    removeKind parent name .file
    return .done
  | .removeDirectory parent name => do
    removeKind parent name .directory
    return .done
  | .rename parent name newParent newName => do
    unless parent = newParent do fail Errno.crossDevice
    let name ← plain (Kernel.entryName name)
    let parent ← plain (Kernel.inodeIndex parent)
    inServer (relabel parent name (← plain (Kernel.entryName newName)))
    return .done
  | .statistics => do
    let blocks ← inServer (loadBitmap .block)
    let inodes ← inServer (loadBitmap .inode)
    return .statistics ⟨blocks.count, ← freeCount blocks, inodes.count, ← freeCount inodes⟩

/-! ## What is answered -/

theorem yields_inodeIndex (inode : Nat) :
    Yields (fun _ => True) (Kernel.inodeIndex inode) fun index =>
      index = inode ∧ inode < 2 ^ 32 := by
  rw [Kernel.inodeIndex]
  split
  · next h => exact .pure ⟨rfl, h⟩
  · exact .throw

theorem yields_byteOffset (offset : Int) :
    Yields (fun _ => True) (Kernel.byteOffset offset) (· < 2 ^ 32) := by
  rw [Kernel.byteOffset.eq_def]
  split
  · split
    · next h => exact .pure h
    · exact .throw
  · exact .throw

theorem yields_inServer {α : Type} {x : VolumeM α} {Q : α → Prop}
    (hx : Yields (fun _ => True) x Q) : Yields (fun _ => True) (Kernel.onVolume x) Q := by
  rintro ⟨v, owner, group⟩ -
  rcases hx v trivial with ⟨a, v', hx, -, hq⟩ | ⟨e, v', hx, -⟩
  · exact .inl ⟨a, ⟨v', owner, group⟩, by simp only [Kernel.onVolume, hx], trivial, hq⟩
  · exact .inr ⟨e.errno, ⟨v', owner, group⟩, by simp only [Kernel.onVolume, hx], trivial⟩

/-- A row of actions answers as many times as there are actions. -/
theorem yields_mapM {α β : Type} (f : α → VolumeM β) (as : List α) :
    Yields (fun _ => True) (as.mapM f) fun bs => bs.length = as.length := by
  induction as with
  | nil => exact .pure rfl
  | cons a as ih =>
    rw [List.mapM_cons]
    refine Yields.bind (yields_true _) fun b _ => ih.bind fun bs hbs => .pure ?_
    rw [List.length_cons, List.length_cons, hbs]

/-! ## The same as on the volume -/

@[simp]
theorem attributesOf_eq (index : Nat) (record : Inode) :
    attributesOf index record = plain (Kernel.attributesOf index record) := by
  have hblocks : record.blocks.length ≤ pointerCount := by
    rw [Inode.blocks, List.length_map]
    exact Nat.le_trans (List.length_filter_le _ _) (Nat.le_of_eq record.pointers.length_toList)
  have hsectors : record.blocks.length * (blockSize / sectorSize) < 2 ^ 64 := by
    simp only [pointerCount, blockSize, sectorSize] at hblocks ⊢
    omega
  simp only [attributesOf, Kernel.attributesOf, word_eq hsectors, pure_bind, plain_bind, plain_get,
    plain_pure]
  rfl

@[simp]
theorem readAttributes_eq (inode : Nat) :
    readAttributes inode = plain (Kernel.readAttributes inode) := by
  rw [readAttributes, Kernel.readAttributes, plain_bind]
  refine bind_congr_of_yields (yields_inodeIndex inode) fun index hindex => ?_
  obtain ⟨rfl, hword⟩ := hindex
  simp only [loadInode_eq, narrow_eq hword, pure_bind, attributesOf_eq, plain_bind, plain_inServer]

section

variable {x : Nat → String → Action Error Volume Nat} {y : Nat → String → VolumeM Nat}

theorem named_eq (h : ∀ p name, x p name = plain (y p name)) (parent : Nat) (raw : List UInt8) :
    named parent raw x = plain (Kernel.named parent raw y) := by
  simp only [named, Kernel.named, h, loadInode_eq, plain_bind, plain_inServer, plain_pure]

theorem namedAttributes_eq (h : ∀ p name, x p name = plain (y p name)) (parent : Nat)
    (raw : List UInt8) :
    namedAttributes parent raw x = plain (Kernel.namedAttributes parent raw y) := by
  simp only [namedAttributes, Kernel.namedAttributes, named_eq h, attributesOf_eq, plain_bind]

end

@[simp]
theorem takeIntoUse_eq (owner group : Nat) :
    takeIntoUse owner group = plain (Kernel.takeIntoUse owner group) := by
  simp only [takeIntoUse, Kernel.takeIntoUse, mount_eq, loadInode_eq, plain_bind, plain_get,
    plain_modify, plain_ite, plain_inServer, plain_throw, plain_pure]

theorem mapM_eq_pure {ε τ α β : Type} {f : α → Action ε τ β} {g : α → β} {as : List α}
    (h : ∀ a ∈ as, f a = pure (g a)) : as.mapM f = pure (as.map g) := by
  induction as with
  | nil => rfl
  | cons a as ih =>
    rw [List.mapM_cons, h a (List.mem_cons_self ..), pure_bind,
      ih fun b hb => h b (List.mem_cons_of_mem _ hb), pure_bind, List.map_cons]

/-- A directory has no more children than slots. -/
theorem length_children_le (t : EntryTable) : t.children.length ≤ slotCount :=
  Nat.le_trans (List.length_filter_le _ _) (Nat.le_of_eq t.length_toList)

@[simp]
theorem allEntries_eq (i : Nat) : allEntries i = plain (Kernel.allEntries i) := by
  have hchild : child = fun e => plain e.child := funext child_eq
  simp only [allEntries, Kernel.allEntries, find_eq, loadDirectory_eq, children_eq, pure_bind,
    hchild, plain_bind]
  refine bind_congr fun parent => bind_congr fun d => ?_
  rw [← plain_mapM]
  refine bind_congr_of_yields (yields_mapM _ _) fun children hchildren => ?_
  rw [plain_pure]
  refine mapM_eq_pure fun listed hlisted => ?_
  obtain ⟨⟨inode, directory, name⟩, place⟩ := listed
  have hplace := List.snd_lt_of_mem_zipIdx hlisted
  have hslots := length_children_le d.table
  simp only [List.length_cons, List.length_map, slotCount] at hplace hslots
  dsimp only
  rw [word_eq (by omega), pure_bind]

@[simp]
theorem removeKind_eq (parent : Nat) (raw : List UInt8) (expected : Kind) :
    removeKind parent raw expected = plain (Kernel.removeKind parent raw expected) := by
  simp only [removeKind, Kernel.removeKind, find_eq, loadInode_eq, unlink_eq, plain_bind, plain_ite,
    plain_inServer, plain_throw]

/-- A reply holds no more bytes than were asked for. -/
theorem answer_read_eq (inode : Nat) (offset : Int) (size : Nat) :
    answer (.read inode offset size) = plain (Kernel.answer (.read inode offset size)) := by
  simp only [answer, Kernel.answer, readAt_eq, plain_bind]
  refine bind_congr fun index => bind_congr fun start => ?_
  rw [← plain_inServer]
  refine bind_congr_of_yields (yields_inServer (yields_readAt _ _ _)) fun data hdata => ?_
  rw [range_eq (Nat.zero_le _) hdata.1, pure_bind, plain_pure]

/-- A file takes fewer bytes than a reply can count. -/
theorem answer_write_eq (inode : Nat) (offset : Int) (data : List UInt8) :
    answer (.write inode offset data) = plain (Kernel.answer (.write inode offset data)) := by
  simp only [answer, Kernel.answer, plain_bind]
  refine bind_congr fun index => ?_
  refine bind_congr_of_yields (yields_byteOffset offset) fun start hstart => ?_
  rw [writeAt_eq _ hstart, ← plain_inServer]
  refine bind_congr_of_yields (yields_inServer (yields_writeAt _ _ _)) fun count hcount => ?_
  simp only [narrow_eq (hcount.lt_word hstart).1, pure_bind, plain_ite, plain_bind, plain_throw,
    plain_pure]

theorem answer_statistics_eq : answer .statistics = plain (Kernel.answer .statistics) := by
  simp only [answer, Kernel.answer, loadBitmap_eq, plain_bind]
  rw [← plain_inServer]
  refine bind_congr_of_yields (yields_inServer (yields_readBitmap .block)) fun blocks hblocks => ?_
  rw [← plain_inServer]
  refine bind_congr_of_yields (yields_inServer (yields_readBitmap .inode)) fun inodes hinodes => ?_
  rw [freeCount_eq hblocks, pure_bind, freeCount_eq hinodes, pure_bind, plain_pure]

/-- Every request is answered as on unbounded numbers. -/
theorem answer_eq (q : Request) : answer q = plain (Kernel.answer q) := by
  cases q with
  | init owner group =>
    simp only [answer, Kernel.answer, takeIntoUse_eq, plain_bind, plain_pure]
  | destroy => simp only [answer, Kernel.answer, plain_bind, plain_inServer, plain_pure]
  | lookup parent name =>
    simp only [answer, Kernel.answer, namedAttributes_eq find_eq, plain_map]
  | getAttributes inode => simp only [answer, Kernel.answer, readAttributes_eq, plain_map]
  | setAttributes inode => simp only [answer, Kernel.answer, readAttributes_eq, plain_map]
  | makeNode parent name mode =>
    simp only [answer, Kernel.answer, namedAttributes_eq makeFile_eq, plain_ite, plain_map,
      plain_throw]
  | makeDirectory parent name =>
    simp only [answer, Kernel.answer, namedAttributes_eq makeDirectory_eq, plain_map]
  | create parent name =>
    simp only [answer, Kernel.answer, named_eq makeFile_eq, attributesOf_eq, plain_bind, plain_ite,
      plain_throw, plain_pure]
  | openFile inode =>
    simp only [answer, Kernel.answer, loadInode_eq, plain_bind, plain_ite, plain_inServer,
      plain_throw, plain_pure]
  | readDirectory inode offset buffer =>
    simp only [answer, Kernel.answer, allEntries_eq, plain_bind, plain_inServer, plain_pure]
  | read inode offset size => exact answer_read_eq inode offset size
  | write inode offset data => exact answer_write_eq inode offset data
  | unlink parent name =>
    simp only [answer, Kernel.answer, removeKind_eq, plain_bind, plain_pure]
  | removeDirectory parent name =>
    simp only [answer, Kernel.answer, removeKind_eq, plain_bind, plain_pure]
  | rename parent name newParent newName =>
    simp only [answer, Kernel.answer, relabel_eq, plain_bind, plain_ite, plain_inServer,
      plain_throw, plain_pure]
  | statistics => exact answer_statistics_eq

end BlockFS.Machine
