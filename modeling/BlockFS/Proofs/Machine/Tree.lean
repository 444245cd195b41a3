import BlockFS.Format
import BlockFS.Proofs.Machine.Directories

/-!
# The tree of names on a machine

Files and directories are made, found, renamed and removed by steps that were looked at one by one;
what is added here are the few places where a number is stored with fewer bits, and the counting of
packed files.  Each action is the plain one of the volume.
-/

namespace BlockFS.Machine

open ViewM (current change)

/-! ## Files and directories -/

/-- Makes an empty file that no directory links yet. -/
def newFile : Action Error Volume File := do
  let index ← allocate .inode
  let record := Inode.new .file (← get).clock
  orUndo (saveInode index record) (deallocate .inode index)
  return ⟨index, record⟩

/-- Reads the inode of a file. -/
def loadFile (index : Nat) : Action Error Volume File := do
  let record ← loadInode index
  match record.kind with
  | .file => return ⟨index, record⟩
  | .directory => fail .notAFile
  | .free => fail .notFound

/-- Makes a directory without children that no directory links yet.  The number of its block is
stored with 16 bits. -/
def newDirectory (parent : Nat) : Action Error Volume Directory := do
  let index ← allocate .inode
  let block ← orUndo allocateBlock (deallocate .inode index)
  let record := { Inode.new .directory (← get).clock with size := .ofNat blockSize }
  let pointer ← narrow 16 block
  let record := record.setPointer 0 pointer
  let write : Action Error Volume EntryTable := do
    let table ← firstTable index parent
    saveBlock block table.toBlock
    saveInode index record
    return table
  let table ← orUndo write do
    deallocate .block block
    deallocate .inode index
  return ⟨index, record, block, table⟩

/-- Reads a directory. -/
def loadDirectory (index : Nat) : Action Error Volume Directory := do
  let record ← loadInode index
  unless record.kind = .directory do fail .notADirectory
  match record.block? 0 with
  | none => fail .corruptVolume
  | some block => return ⟨index, record, block, .ofBlock (← loadBlock block)⟩

/-- Puts another table into the view, then writes it. -/
def replaceTable (table : EntryTable) : Action Error (Held Directory) Unit := do
  plain (change fun d => { d with table := table })
  ofVolume (saveBlock (← plain current).block table.toBlock)

/-- Links an inode under a name in the first free slot. -/
def linkName (name : String) (target : Nat) : Action Error (Held Directory) Unit := do
  replaceTable (← linkIn (← plain current).table name target)

/-- Frees the slot of a name and tells which inode it linked. -/
def unlinkName (name : String) : Action Error (Held Directory) Nat := do
  let (target, table) ← unlinkIn (← plain current).table name
  replaceTable table
  return target

/-- Puts another name into the slot of a name. -/
def relabelName (old new : String) : Action Error (Held Directory) Unit := do
  replaceTable (← relabelIn (← plain current).table old new)

@[simp]
theorem newFile_eq : newFile = plain File.make := by
  simp only [newFile, File.make, allocate_eq, saveInode_eq, deallocate_eq, plain_bind, plain_get,
    plain_orUndo, plain_pure]

@[simp]
theorem loadFile_eq (i : Nat) : loadFile i = plain (File.ofInode i) := by
  rw [loadFile, File.ofInode, loadInode_eq, plain_bind]
  refine bind_congr fun record => ?_
  cases record.kind <;> rfl

theorem yields_orUndo {α : Type} {x : VolumeM α} {Q : α → Prop}
    (hx : Yields (fun _ => True) x Q) (undo : VolumeM Unit) :
    Yields (fun _ => True) (Volume.orUndo x undo) Q :=
  hx.tryCatch fun _ => Yields.bind (yields_true _) fun _ _ => .throw

@[simp]
theorem newDirectory_eq (parent : Nat) : newDirectory parent = plain (Directory.make parent) := by
  simp only [newDirectory, Directory.make, allocate_eq, allocateBlock_eq, deallocate_eq,
    firstTable_eq, saveBlock_eq, saveInode_eq, plain_bind, plain_get, plain_orUndo, plain_pure]
  refine bind_congr fun index => ?_
  rw [← plain_orUndo]
  refine bind_congr_of_yields (yields_orUndo yields_allocateBlock _) fun block hblock => ?_
  refine bind_congr fun v => ?_
  have hblock' : block < 2 ^ 16 := hblock
  simp only [narrow_eq hblock', pure_bind]

@[simp]
theorem loadDirectory_eq (i : Nat) : loadDirectory i = plain (Directory.ofInode i) := by
  rw [loadDirectory, Directory.ofInode, loadInode_eq, plain_bind]
  refine bind_congr fun record => ?_
  dsimp only
  rw [plain_ite]
  split
  · cases record.block? 0 with
    | none => rfl
    | some block => simp only [loadBlock_eq, plain_bind, plain_pure]
  · rfl

@[simp]
theorem replaceTable_eq (table : EntryTable) :
    replaceTable table = plain (Directory.replaceTable table) := by
  simp only [replaceTable, Directory.replaceTable, saveBlock_eq, plain_bind, plain_ofVolume]

@[simp]
theorem linkName_eq (name : String) (target : Nat) :
    linkName name target = plain (Directory.link name target) := by
  simp only [linkName, Directory.link, linkIn_eq, replaceTable_eq, plain_bind]

@[simp]
theorem unlinkName_eq (name : String) : unlinkName name = plain (Directory.unlink name) := by
  simp only [unlinkName, Directory.unlink, unlinkIn_eq, replaceTable_eq, plain_bind, plain_pure]

@[simp]
theorem relabelName_eq (old new : String) :
    relabelName old new = plain (Directory.relabel old new) := by
  simp only [relabelName, Directory.relabel, relabelIn_eq, replaceTable_eq, plain_bind]

/-! ## Names -/

/-- The inode that a directory links under a name.  What is no directory links nothing. -/
def find (parent : Nat) (name : String) : Action Error Volume Nat := do
  let d ← recover (loadDirectory parent) fun e =>
    match e with
    | .notADirectory => fail .notFound
    | e => fail e
  match ← lookup d.table name with
  | some index => return index
  | none => fail .notFound

/-- The inode of a path; the empty name is the directory itself. -/
def locate (path : String) : Action Error Volume Nat := do
  let (parent, name) ← plain (Volume.splitPath path)
  if name.isEmpty then return parent else find parent name

/-- Makes an empty file, unless the name is linked already; then it is that inode. -/
def makeFile (parent : Nat) (name : String) : Action Error Volume Nat := do
  let _ ← encodeName name
  let d ← loadDirectory parent
  match ← lookup d.table name with
  | some index => return index
  | none =>
    let f ← newFile
    orUndo (through d (linkName name f.index)) (discardInode f.index f.record)
    return f.index

/-- Makes an empty file under a path, unless the path is linked already. -/
def makeFileAt (path : String) : Action Error Volume Nat := do
  let (parent, name) ← plain (Volume.splitPath path)
  makeFile parent name

/-- Makes a directory without children. -/
def makeDirectory (parent : Nat) (name : String) : Action Error Volume Nat := do
  let _ ← encodeName name
  let d ← loadDirectory parent
  if (← lookup d.table name).isSome then fail .alreadyExists
  let child ← newDirectory parent
  orUndo (through d (linkName name child.index)) (discardInode child.index child.record)
  return child.index

/-- Makes a directory without children under a path. -/
def makeDirectoryAt (path : String) : Action Error Volume Nat := do
  let (parent, name) ← plain (Volume.splitPath path)
  makeDirectory parent name

/-- Reads up to `length` bytes of a file from byte `offset` on. -/
def readAt (index offset length : Nat) : Action Error Volume (List UInt8) := do
  let f ← loadFile index
  readFile f offset length

/-- Writes data into a file from byte `offset` on and tells how many bytes were written. -/
def writeAt (index offset : Nat) (data : List UInt8) : Action Error Volume Nat := do
  let f ← loadFile index
  through f (writeFile offset data)

/-- Takes back what an inode owns and the inode itself, if it is a file or a directory without
children. -/
def discard (target : Nat) : Action Error Volume Unit := do
  match (← loadInode target).kind with
  | .directory =>
    let child ← loadDirectory target
    unless ← holdsNothing child.table do fail .directoryNotEmpty
    discardInode child.index child.record
    if (← get).cwd = target then plain (Volume.setCwd rootInode)
  | .file =>
    let f ← loadFile target
    discardInode f.index f.record
  | .free => fail .corruptVolume

/-- Takes back what a name links, then unlinks the name. -/
def unlink (parent : Nat) (name : String) : Action Error Volume Unit := do
  if isSelfOrParent name then fail .invalidName
  let d ← loadDirectory parent
  match ← lookup d.table name with
  | none => fail .notFound
  | some target =>
    discard target
    let _ ← through d (unlinkName name)

/-- Removes a name of the current directory. -/
def unlinkHere (name : String) : Action Error Volume Unit := do
  let _ ← plain Volume.getLayout
  unlink (← get).cwd name

/-- Puts another name in the place of a name. -/
def relabel (parent : Nat) (old new : String) : Action Error Volume Unit := do
  if isSelfOrParent old || isSelfOrParent new then fail .invalidName
  let storedOld ← encodeName old
  let storedNew ← encodeName new
  let d ← loadDirectory parent
  if (← lookup d.table old).isNone then fail .notFound
  if storedOld = storedNew then return
  if (← lookup d.table new).isSome then fail .alreadyExists
  through d (relabelName old new)

/-- Renames a name of the current directory. -/
def relabelHere (old new : String) : Action Error Volume Unit := do
  let _ ← plain Volume.getLayout
  relabel (← get).cwd old new

/-- Makes a directory the current one. -/
def enter (path : String) : Action Error Volume Nat := do
  let index ← locate path
  unless (← loadInode index).kind = .directory do fail .notADirectory
  plain (Volume.setCwd index)
  return index

section

variable (d : Directory) (f : File)

theorem lookup_directory (name : String) :
    (lookup d.table name : Action Error Volume (Option Nat)) = pure (d.find? name) := lookup_eq ..

theorem holdsNothing_directory :
    (holdsNothing d.table : Action Error Volume Bool) = pure d.holdsNothing := holdsNothing_eq ..

theorem discardInode_directory : discardInode d.index d.record = plain d.discard :=
  discardInode_eq ..

theorem discardInode_file : discardInode f.index f.record = plain f.discard := discardInode_eq ..

end

@[simp]
theorem find_eq (parent : Nat) (name : String) :
    find parent name = plain (Volume.find parent name) := by
  rw [find, Volume.find, loadDirectory_eq, plain_bind]
  refine congrArg₂ (· >>= ·) (recover_eq fun e => ?_) (funext fun d => ?_)
  · cases e <;> rfl
  · rw [lookup_directory, pure_bind]
    cases d.find? name <;> rfl

@[simp]
theorem locate_eq (path : String) : locate path = plain (Volume.locate path) := by
  simp only [locate, Volume.locate, find_eq, plain_bind, plain_ite, plain_pure]

@[simp]
theorem makeFile_eq (parent : Nat) (name : String) :
    makeFile parent name = plain (Volume.makeFile parent name) := by
  simp only [makeFile, Volume.makeFile, encodeName_eq, loadDirectory_eq, lookup_directory,
    pure_bind, newFile_eq, linkName_eq, discardInode_file, plain_bind]
  refine bind_congr fun _ => bind_congr fun d => ?_
  cases d.find? name with
  | some index => rfl
  | none => simp only [plain_bind, plain_orUndo, plain_through, plain_pure]

@[simp]
theorem makeFileAt_eq (path : String) : makeFileAt path = plain (Volume.makeFileAt path) := by
  simp only [makeFileAt, Volume.makeFileAt, makeFile_eq, plain_bind]

@[simp]
theorem makeDirectory_eq (parent : Nat) (name : String) :
    makeDirectory parent name = plain (Volume.makeDirectory parent name) := by
  simp only [makeDirectory, Volume.makeDirectory, encodeName_eq, loadDirectory_eq,
    lookup_directory, pure_bind, newDirectory_eq, linkName_eq, discardInode_directory, plain_bind,
    plain_ite, plain_throw, plain_orUndo, plain_through, plain_pure]

@[simp]
theorem makeDirectoryAt_eq (path : String) :
    makeDirectoryAt path = plain (Volume.makeDirectoryAt path) := by
  simp only [makeDirectoryAt, Volume.makeDirectoryAt, makeDirectory_eq, plain_bind]

@[simp]
theorem readAt_eq (i offset length : Nat) :
    readAt i offset length = plain (Volume.readAt i offset length) := by
  simp only [readAt, Volume.readAt, loadFile_eq, readFile_eq, plain_bind]

theorem writeAt_eq (i : Nat) {offset : Nat} (h : offset < 2 ^ 32) (data : List UInt8) :
    writeAt i offset data = plain (Volume.writeAt i offset data) := by
  have hoffset : offset < 2 ^ 64 := Nat.lt_trans h (by decide)
  simp only [writeAt, Volume.writeAt, loadFile_eq, writeFile_eq hoffset, plain_bind, plain_through]

@[simp]
theorem discard_eq (target : Nat) : discard target = plain (Volume.discard target) := by
  simp only [discard, Volume.discard, loadInode_eq, loadDirectory_eq, loadFile_eq, plain_bind]
  refine bind_congr fun record => ?_
  cases record.kind with
  | free => rfl
  | file => simp only [discardInode_file, plain_bind]
  | directory =>
    simp only [holdsNothing_directory, pure_bind, discardInode_directory, plain_bind, plain_ite,
      plain_throw, plain_get, plain_pure]

@[simp]
theorem unlink_eq (parent : Nat) (name : String) :
    unlink parent name = plain (Volume.unlink parent name) := by
  simp only [unlink, Volume.unlink, loadDirectory_eq, lookup_directory, pure_bind, discard_eq,
    unlinkName_eq, plain_bind, plain_ite, plain_throw, fail_bind]
  split
  · rfl
  · refine bind_congr fun d => ?_
    cases d.find? name with
    | none => rfl
    | some target => simp only [plain_bind, plain_through, plain_pure]

@[simp]
theorem unlinkHere_eq (name : String) : unlinkHere name = plain (Volume.unlinkHere name) := by
  simp only [unlinkHere, Volume.unlinkHere, unlink_eq, plain_bind, plain_get]

@[simp]
theorem relabel_eq (parent : Nat) (old new : String) :
    relabel parent old new = plain (Volume.relabel parent old new) := by
  simp only [relabel, Volume.relabel, encodeName_eq, loadDirectory_eq, lookup_directory,
    pure_bind, relabelName_eq, plain_bind, plain_ite, plain_throw, plain_through, plain_pure]

@[simp]
theorem relabelHere_eq (old new : String) :
    relabelHere old new = plain (Volume.relabelHere old new) := by
  simp only [relabelHere, Volume.relabelHere, relabel_eq, plain_bind, plain_get]

@[simp]
theorem enter_eq (path : String) : enter path = plain (Volume.enter path) := by
  simp only [enter, Volume.enter, locate_eq, loadInode_eq, plain_bind, plain_ite, plain_throw,
    plain_pure]

/-! ## Listings -/

/-- The child that an entry links. -/
def child (e : Entry) : Action Error Volume Child := do
  let record ← loadInode e.target
  let name ← nameText e
  return ⟨name, e.target, record.kind = .directory⟩

/-- A walk over the children of a directory. -/
def walk (index : Nat) : Action Error Volume Listing := do
  let d ← loadDirectory index
  let listed ← children d.table
  return ⟨listed, listed⟩

/-- Takes a step of a walk. -/
def nextOf (l : Listing) : Action Error Volume (Option (Except Error Child) × Listing) :=
  match l.rest with
  | [] => return (none, l)
  | e :: rest => do
    let item ← recover (.ok <$> child e) fun failure => return .error failure
    return (some item, ⟨l.all, rest⟩)

/-- Takes a number of steps of a walk. -/
def stepsOf : Nat → Listing → Action Error Volume (List (Option (Except Error Child)) × Listing)
  | 0, l => return ([], l)
  | n + 1, l => do
    let (item, l) ← nextOf l
    let (items, l) ← stepsOf n l
    return (item :: items, l)

/-- Walks to the end. -/
def itemsOf (l : Listing) : Action Error Volume (List (Except Error Child)) := do
  return ((← stepsOf l.rest.length l).1).filterMap id

@[simp]
theorem child_eq (e : Entry) : child e = plain e.child := by
  simp only [child, Entry.child, loadInode_eq, nameText_eq, pure_bind, plain_bind, plain_pure]

@[simp]
theorem walk_eq (i : Nat) : walk i = plain (Volume.walk i) := by
  simp only [walk, Volume.walk, loadDirectory_eq, children_eq, pure_bind, plain_map]
  rfl

@[simp]
theorem nextOf_eq (l : Listing) : nextOf l = plain l.next := by
  rw [nextOf, Listing.next]
  cases l.rest with
  | nil => rfl
  | cons e rest => simp only [child_eq, plain_bind, plain_tryCatch, plain_map, plain_pure]

theorem stepsOf_eq (n : Nat) : ∀ l, stepsOf n l = plain (Listing.steps n l) := by
  induction n with
  | zero => exact fun _ => rfl
  | succ n ih =>
    intro l
    simp only [stepsOf, Listing.steps, nextOf_eq, ih, plain_bind, plain_pure]

@[simp]
theorem itemsOf_eq (l : Listing) : itemsOf l = plain l.items := by
  simp only [itemsOf, Listing.items, stepsOf_eq, plain_bind, plain_pure]

/-! ## Packing files -/

/-- Copies one file into the root directory, unless its stored name is taken there. -/
def pack (name : String) (contents : List UInt8) : Action Error Volume Bool := do
  let taken ← recover (some <$> find rootInode name) fun e =>
    match e with
    | .notFound => return none
    | e => fail e
  match taken with
  | some _ => return false
  | none =>
    let index ← makeFile rootInode name
    let _ ← writeAt index 0 contents
    return true

/-- Copies files into the root directory and counts those that were copied. -/
def packAll : List (String × List UInt8) → Action Error Volume Nat
  | [] => return 0
  | (name, contents) :: files => do
    let packed ← pack name contents
    word 64 ((← packAll files) + (if packed then 1 else 0))

@[simp]
theorem pack_eq (name : String) (contents : List UInt8) :
    pack name contents = plain (Volume.pack name contents) := by
  rw [pack, Volume.pack, find_eq, plain_bind, ← plain_map]
  refine congrArg₂ (· >>= ·) (recover_eq fun e => ?_) (funext fun taken => ?_)
  · cases e <;> rfl
  · cases taken with
    | some index => rfl
    | none =>
      simp only [makeFile_eq, writeAt_eq _ (show 0 < 2 ^ 32 by decide), plain_bind, plain_pure]

/-- No more files are copied than there are. -/
theorem yields_packAll (files : List (String × List UInt8)) :
    Yields (fun _ => True) (Volume.packAll files) (· ≤ files.length) := by
  induction files with
  | nil => exact .pure (Nat.le_refl 0)
  | cons file files ih =>
    refine Yields.bind (yields_true _) fun packed _ => ih.bind fun n hn => .pure ?_
    rw [List.length_cons]
    split <;> omega

theorem packAll_eq {files : List (String × List UInt8)} (h : files.length < 2 ^ 64) :
    packAll files = plain (Volume.packAll files) := by
  induction files with
  | nil => rfl
  | cons file files ih =>
    rw [List.length_cons] at h
    simp only [packAll, Volume.packAll, pack_eq, ih (by omega), plain_bind, plain_pure]
    refine bind_congr fun packed => bind_congr_of_yields (yields_packAll files) fun n hn => ?_
    exact word_eq (by split <;> omega)

/-! ## Making a volume -/

/-- The layout of a new volume. -/
def layoutOf (g : Geometry) : Action Error Volume Layout := do
  recover (validate (.ofGeometry g)) fun _ => fail .invalidGeometry
  plain (liftExcept (Layout.ofGeometry g))

/-- Writes everything that a new volume holds except its root directory. -/
def writeEmpty (l : Layout) : Action Error Device Unit := do
  (List.range' 0 l.blockCount).forM fun index => storeBlock (2 * l.blockCount) index .zero
  storeBlock (2 * l.blockCount) superblockBlock l.superblock.toBlock
  writeBitmap l .inode (← mark (.allFree l.inodeCount) 0 true)
  writeBitmap l .block (← (List.range l.firstDataBlock).foldlM (fun b index => mark b index true)
    (.allFree l.blockCount))

/-- Makes an empty volume on the device and mounts it. -/
def format (g : Geometry) : Action Error Volume Unit := do
  let layout ← layoutOf g
  onDevice (writeEmpty layout)
  mount
  let root ← newDirectory rootInode
  unless root.index = rootInode do fail .corruptVolume

@[simp]
theorem layoutOf_eq (g : Geometry) : layoutOf g = plain (liftExcept (Layout.ofGeometry g)) := by
  rw [layoutOf, validate_eq, Layout.ofGeometry]
  split
  · rfl
  · rfl

theorem foldlM_mark_eq {is : List Nat} {b : Bitmap} (h : b.count ≤ itemsPerBitmap) :
    (is.foldlM (fun b index => mark b index true) b : Action Error Device Bitmap)
      = plain (liftExcept (is.foldlM (fun b index => b.set index true) b)) := by
  induction is generalizing b with
  | nil => rfl
  | cons i is ih =>
    rw [List.foldlM_cons, List.foldlM_cons, mark_eq h]
    cases hb : b.set i true with
    | error e => rfl
    | ok b' =>
      have hcount : b'.count = b.count := by
        rw [Bitmap.set] at hb
        split at hb
        · injection hb with hb
          rw [← hb]
        · cases hb
      exact ih (hcount ▸ h)

/-- Each block of the volume is cleared inside of the volume. -/
theorem clearBlocks_eq {l : Layout} {is : List Nat} (h : ∀ i ∈ is, i < l.blockCount) :
    (is.forM fun index => storeBlock (2 * l.blockCount) index .zero)
      = is.forM fun index => plain (Device.writeBlock index .zero) := by
  induction is with
  | nil => rfl
  | cons i is ih =>
    have hi := storeBlock_eq (h i (List.mem_cons_self ..)) l.valid.blocks .zero
    have his := ih fun j hj => h j (List.mem_cons_of_mem _ hj)
    change (storeBlock (2 * l.blockCount) i .zero >>= fun _ => is.forM _) = _
    rw [hi, his]
    rfl

@[simp]
theorem writeEmpty_eq (l : Layout) : writeEmpty l = plain l.writeEmpty := by
  have hinside (i : Nat) (hi : i ∈ List.range' 0 l.blockCount) : i < l.blockCount := by
    rw [List.mem_range'_1] at hi
    omega
  have hinodes : (Bitmap.allFree l.inodeCount).count ≤ itemsPerBitmap := l.valid.inodes
  have hblocks : (Bitmap.allFree l.blockCount).count ≤ itemsPerBitmap := l.valid.blocks
  simp only [writeEmpty, Layout.writeEmpty, Device.clearBlocks, Device.writeLayout,
    Layout.firstInodes, Layout.firstBlocks, clearBlocks_eq hinside,
    storeBlock_eq (superblock_lt_blockCount l) l.valid.blocks, mark_eq hinodes,
    foldlM_mark_eq hblocks, writeBitmap_eq, plain_bind, plain_forM]

@[simp]
theorem format_eq (g : Geometry) : format g = plain (Volume.format g) := by
  simp only [format, Volume.format, layoutOf_eq, writeEmpty_eq, mount_eq, newDirectory_eq,
    plain_bind, plain_onDevice, plain_ite, plain_pure, plain_throw]

end BlockFS.Machine
