import BlockFS.Proofs.Machine.Files
import BlockFS.Proofs.TornWrites

/-!
# Directories on a machine

A machine keeps the block of a directory and cuts an entry out of it each time it looks at a slot.
Names are cut to the bytes that are stored, and the text of a stored name to the bytes before its
padding.  What the bytes of the block are does not matter.
-/

namespace BlockFS.Machine

variable {ε τ : Type}

/-! ## Names -/

/-- The stored form of a name. -/
def encodeName (name : String) : Action Error τ StoredName :=
  let raw := name.toUTF8.toList
  if raw.isEmpty ∨ raw.contains 0 then fail .invalidName
  else do
    let length := min raw.length nameWidth
    let head ← cut raw 0 length
    copyOver (Bytes.zero nameWidth) 0 length head

/-- The entry that links an inode under a name. -/
def newEntry (inode : Nat) (name : String) : Action Error τ Entry :=
  if inode < UInt16.size then do
    let stored ← encodeName name
    return ⟨.ofNat inode, stored⟩
  else fail .notFound

/-- The name of an entry as text: its bytes before the first zero. -/
def nameText (e : Entry) : Action ε τ String := do
  let raw := e.name.toList
  let length := (raw.findIdx? (· == 0)).getD nameWidth
  let text ← cut raw 0 length
  return Text.decodeLossy text

@[simp]
theorem encodeName_eq (name : String) :
    (encodeName name : Action Error τ StoredName)
      = plain (liftExcept (StoredName.encode name)) := by
  rw [encodeName, StoredName.encode]
  dsimp only
  generalize name.toUTF8.toList = raw
  split
  · rfl
  · have hhead : (raw.take (min raw.length nameWidth)).length = min raw.length nameWidth := by
      rw [List.length_take]
      omega
    rw [cut_eq (Nat.zero_le _) (Nat.min_le_left _ _), pure_bind, List.drop_zero, Nat.sub_zero,
      copyOver_eq (by rw [hhead, Nat.zero_add]) (Nat.min_le_right _ _)]
    exact congrArg pure (write_take (Bytes.zero nameWidth) raw)

@[simp]
theorem newEntry_eq (inode : Nat) (name : String) :
    (newEntry inode name : Action Error τ Entry) = plain (liftExcept (Entry.new inode name)) := by
  rw [newEntry, Entry.new]
  split
  · rw [encodeName_eq]
    cases StoredName.encode name <;> rfl
  · rfl

theorem nameText_eq (e : Entry) : (nameText e : Action ε τ String) = pure e.nameText := by
  have hwidth : e.name.toList.length = nameWidth := e.name.length_toList
  have hlength : (e.name.toList.findIdx? (· == 0)).getD nameWidth
      = e.name.toList.findIdx (· == 0) := by
    rw [List.findIdx_eq_getD_findIdx?, hwidth]
  have htext : e.name.toList.take (e.name.toList.findIdx (· == 0)) = e.name.bytes := by
    rw [StoredName.bytes, List.takeWhile_eq_take_findIdx_not]
    congr 2
    funext b
    rw [Bool.eq_iff_iff]
    simp
  rw [nameText, hlength, cut_eq (Nat.zero_le _) List.findIdx_le_length, pure_bind, List.drop_zero,
    Nat.sub_zero, htext, Entry.nameText]

/-! ## Slots -/

/-- The entry in a slot. -/
def readSlot (t : EntryTable) (slot : Nat) : Action ε τ Entry := do
  let start ← word 64 (slot * Entry.recordSize)
  let stop ← word 64 (start + Entry.recordSize)
  let raw ← cut t.toBlock.toList start stop
  return .decode (.ofList Entry.recordSize raw)

/-- The table with another entry in a slot. -/
def writeSlot (t : EntryTable) (slot : Nat) (e : Entry) : Action ε τ EntryTable := do
  let start ← word 64 (slot * Entry.recordSize)
  let stop ← word 64 (start + Entry.recordSize)
  let b ← copyOver t.toBlock start stop e.encode.toList
  return .ofBlock b

/-- The first slot whose entry satisfies `p`. -/
def firstSlot (t : EntryTable) (p : Entry → Bool) : Action ε τ (Option (Fin slotCount)) :=
  (List.finRange slotCount).findM? fun slot : Fin slotCount => do return p (← readSlot t slot)

/-- The entries of all slots. -/
def entries (t : EntryTable) : Action ε τ (List Entry) :=
  (List.finRange slotCount).mapM fun slot : Fin slotCount => do
    let e ← readSlot t slot
    let _ ← word 64 (slot.val + 1)
    return e

section

variable (t : EntryTable) (slot : Fin slotCount)

/-- A slot lies in the block. -/
theorem slot_le : slot.val * Entry.recordSize + Entry.recordSize ≤ blockSize := by
  have := slot.isLt
  simp only [slotCount, Entry.recordSize, blockSize] at this ⊢
  omega

theorem slot_lt_word : slot.val * Entry.recordSize + Entry.recordSize < 2 ^ 64 :=
  Nat.lt_of_le_of_lt (slot_le slot) (by decide)

/-- The bytes of a slot are those of its entry. -/
theorem getElem_slot {k : Nat} (hk : k < Entry.recordSize)
    (hin : slot.val * Entry.recordSize + k < blockSize) :
    t.toBlock[slot.val * Entry.recordSize + k] = (t.entry slot).encode[k] := by
  have hslot : (slot.val * Entry.recordSize + k) / Entry.recordSize = slot.val := by
    simp only [Entry.recordSize] at hk ⊢
    omega
  have hbyte : (slot.val * Entry.recordSize + k) % Entry.recordSize = k := by
    simp only [Entry.recordSize] at hk ⊢
    omega
  rw [EntryTable.getElem_toBlock]
  simp only [hslot, hbyte]
  rfl

theorem readSlot_eq : (readSlot t slot : Action ε τ Entry) = pure (t.entry slot) := by
  have hle := slot_le slot
  have hword := slot_lt_word slot
  have hlength : t.toBlock.toList.length = blockSize := t.toBlock.length_toList
  have hraw : Bytes.ofList Entry.recordSize
      ((t.toBlock.toList.drop (slot.val * Entry.recordSize)).take Entry.recordSize)
      = (t.entry slot).encode := by
    refine Vector.ext fun k hk => ?_
    rw [Bytes.getElem_ofList, List.getElem?_take_of_lt hk, List.getElem?_drop,
      Vector.getElem?_toList, Vector.getElem?_eq_getElem (by omega), Option.getD_some,
      getElem_slot t slot hk]
  rw [readSlot, word_eq (by omega), pure_bind, word_eq hword, pure_bind,
    cut_eq (Nat.le_add_right _ _) (by omega), pure_bind, Nat.add_sub_cancel_left, hraw,
    Entry.decode_encode]

theorem writeSlot_eq (e : Entry) :
    (writeSlot t slot e : Action ε τ EntryTable) = pure (t.put slot e) := by
  have hle := slot_le slot
  have hword := slot_lt_word slot
  have hlength : e.encode.toList.length = Entry.recordSize := e.encode.length_toList
  have hwrite : t.toBlock.write (slot.val * Entry.recordSize) e.encode.toList
      = (t.put slot e).toBlock := by
    refine Vector.ext fun k hk => ?_
    rw [Bytes.getElem_write]
    by_cases hin : slot.val * Entry.recordSize ≤ k
        ∧ k - slot.val * Entry.recordSize < Entry.recordSize
    · obtain ⟨j, rfl⟩ := Nat.exists_eq_add_of_le hin.1
      rw [if_pos hin.1, Vector.getElem?_toList, Vector.getElem?_eq_getElem hin.2, Option.getD_some,
        getElem_slot _ slot (by omega), EntryTable.entry_put, if_pos rfl]
      simp only [Nat.add_sub_cancel_left]
    · have hne : k / Entry.recordSize ≠ slot.val := by
        simp only [Entry.recordSize] at hin ⊢
        omega
      rw [EntryTable.getElem_toBlock_put hk hne]
      split
      · rw [List.getElem?_eq_none (by omega), Option.getD_none]
      · rfl
  rw [writeSlot, word_eq (by omega), pure_bind, word_eq hword, pure_bind,
    copyOver_eq (by rw [hlength]) hle, pure_bind, hwrite, EntryTable.ofBlock_toBlock]

theorem firstSlot_eq (p : Entry → Bool) :
    (firstSlot t p : Action ε τ (Option (Fin slotCount))) = pure (t.findFinIdx? p) := by
  have hfind :
      (List.finRange slotCount).find? (fun slot => p (t.entry slot)) = t.findFinIdx? p := by
    cases hp : t.findFinIdx? p with
    | none =>
      rw [List.find?_eq_none]
      intro slot _
      rw [Bool.not_eq_true]
      exact findFinIdx?_eq_none_iff.mp hp slot
    | some slot =>
      obtain ⟨hslot, hbefore⟩ := findFinIdx?_eq_some_iff.mp hp
      rw [List.find?_eq_some_iff_getElem]
      refine ⟨hslot, slot.val, by rw [List.length_finRange]; exact slot.isLt, ?_, ?_⟩
      · rw [List.getElem_finRange]
        rfl
      · intro j hj
        rw [List.getElem_finRange, Bool.not_eq_true']
        exact hbefore _ hj
  simp only [firstSlot, readSlot_eq, pure_bind]
  rw [List.findM?_pure, hfind]

theorem entries_eq : (entries t : Action ε τ (List Entry)) = pure t.toList := by
  have hslot (slot : Fin slotCount) : (do
      let e ← readSlot t slot
      let _ ← word 64 (slot.val + 1)
      return e : Action ε τ Entry) = pure (t.entry slot) := by
    have hlt : slot.val + 1 < 2 ^ 64 := Nat.lt_of_le_of_lt slot.isLt (by decide)
    rw [readSlot_eq, pure_bind, word_eq hlt, pure_bind]
  simp only [entries, hslot]
  rw [List.mapM_pure, t.map_entry_finRange]

end

/-! ## Tables -/

/-- The first slot that links something under a name; a name that cannot be stored is under none. -/
def slotOf? (t : EntryTable) (name : String) : Action Error τ (Option (Fin slotCount)) := do
  match ← recover (some <$> encodeName name) fun _ => return none with
  | some stored => firstSlot t fun e => e.isNamed stored
  | none => return none

/-- The inode that is linked under a name. -/
def lookup (t : EntryTable) (name : String) : Action Error τ (Option Nat) := do
  match ← slotOf? t name with
  | some slot => return some (← readSlot t slot).target
  | none => return none

/-- Links an inode under a name in the first free slot. -/
def linkIn (t : EntryTable) (name : String) (target : Nat) : Action Error τ EntryTable := do
  let e ← newEntry target name
  match ← firstSlot t Entry.isFree with
  | some slot => writeSlot t slot e
  | none => fail .noSpace

/-- Frees the slot of a name and tells which inode it linked. -/
def unlinkIn (t : EntryTable) (name : String) : Action Error τ (Nat × EntryTable) := do
  match ← slotOf? t name with
  | some slot =>
    let e ← readSlot t slot
    return (e.target, ← writeSlot t slot .empty)
  | none => fail .notFound

/-- Puts another name into the slot of a name. -/
def relabelIn (t : EntryTable) (old new : String) : Action Error τ EntryTable := do
  match ← slotOf? t old with
  | some slot =>
    let e ← readSlot t slot
    writeSlot t slot (← newEntry e.target new)
  | none => fail .notFound

/-- Whether nothing but `.` and `..` is linked. -/
def holdsNothing (t : EntryTable) : Action ε τ Bool := do
  return ((← entries t).filter fun e => !e.isFree).all Entry.isSelfOrParent

/-- The entries that link something other than `.` and `..`, in slot order. -/
def children (t : EntryTable) : Action ε τ (List Entry) := do
  return (← entries t).filter fun e => !e.isFree && !e.isSelfOrParent

/-- The table of a new directory: `.` and `..`. -/
def firstTable (index parent : Nat) : Action Error τ EntryTable := do
  let self ← newEntry index "."
  let t ← writeSlot .empty 0 self
  let up ← newEntry parent ".."
  writeSlot t 1 up

section

variable (t : EntryTable)

@[simp]
theorem slotOf?_eq (name : String) :
    (slotOf? t name : Action Error τ (Option (Fin slotCount))) = pure (t.slotOf? name) := by
  rw [slotOf?, encodeName_eq, EntryTable.slotOf?]
  cases StoredName.encode name with
  | ok stored => exact firstSlot_eq t _
  | error e => rfl

@[simp]
theorem lookup_eq (name : String) :
    (lookup t name : Action Error τ (Option Nat)) = pure (t.find? name) := by
  rw [lookup, slotOf?_eq, pure_bind, EntryTable.find?]
  cases t.slotOf? name with
  | none => rfl
  | some slot => exact congrArg (· >>= _) (readSlot_eq t slot)

@[simp]
theorem linkIn_eq (name : String) (target : Nat) :
    (linkIn t name target : Action Error τ EntryTable)
      = plain (liftExcept (t.link name target)) := by
  rw [linkIn, newEntry_eq, EntryTable.link]
  cases Entry.new target name with
  | error e => rfl
  | ok e =>
    change firstSlot t Entry.isFree >>= _ = _
    rw [firstSlot_eq, pure_bind]
    cases t.findFinIdx? Entry.isFree with
    | none => rfl
    | some slot => exact writeSlot_eq t slot e

@[simp]
theorem unlinkIn_eq (name : String) :
    (unlinkIn t name : Action Error τ (Nat × EntryTable))
      = plain (liftExcept (t.unlink name)) := by
  rw [unlinkIn, slotOf?_eq, pure_bind, EntryTable.unlink]
  cases t.slotOf? name with
  | none => rfl
  | some slot =>
    simp only [readSlot_eq, writeSlot_eq, pure_bind]
    rfl

@[simp]
theorem relabelIn_eq (old new : String) :
    (relabelIn t old new : Action Error τ EntryTable)
      = plain (liftExcept (t.relabel old new)) := by
  rw [relabelIn, slotOf?_eq, pure_bind, EntryTable.relabel]
  cases t.slotOf? old with
  | none => rfl
  | some slot =>
    simp only [readSlot_eq, pure_bind, newEntry_eq, writeSlot_eq]
    change _ = plain (liftExcept ((Entry.new (t.entry slot).target new).map _))
    cases Entry.new (t.entry slot).target new <;> rfl

@[simp]
theorem holdsNothing_eq : (holdsNothing t : Action ε τ Bool) = pure t.holdsNothing := by
  have hall : (t.toList.filter fun e => !e.isFree).all Entry.isSelfOrParent = t.holdsNothing := by
    rw [Bool.eq_iff_iff, EntryTable.holdsNothing_iff, List.all_eq_true]
    simp only [List.mem_filter, Bool.not_eq_true']
    constructor
    · intro h slot hused
      refine h _ ⟨List.mem_of_getElem? (EntryTable.getElem?_toList slot), ?_⟩
      exact Entry.isFree_eq_false_iff.mpr hused
    · rintro h e ⟨hmem, hused⟩
      obtain ⟨k, hk⟩ := List.getElem?_of_mem hmem
      obtain ⟨slot, -, rfl⟩ := EntryTable.exists_slot hk
      exact h slot (Entry.isFree_eq_false_iff.mp hused)
  rw [holdsNothing, entries_eq, pure_bind, hall]

@[simp]
theorem children_eq : (children t : Action ε τ (List Entry)) = pure t.children := by
  rw [children, entries_eq, pure_bind, EntryTable.children]

@[simp]
theorem firstTable_eq (index parent : Nat) :
    (firstTable index parent : Action Error τ EntryTable)
      = plain (liftExcept (Directory.firstTable index parent)) := by
  have hfirst (t : EntryTable) (e : Entry) :
      (writeSlot t 0 e : Action Error τ EntryTable) = pure (t.set 0 e) :=
    writeSlot_eq t ⟨0, slotCount_pos⟩ e
  have hsecond (t : EntryTable) (e : Entry) :
      (writeSlot t 1 e : Action Error τ EntryTable) = pure (t.set 1 e) :=
    writeSlot_eq t ⟨1, one_lt_slotCount⟩ e
  simp only [firstTable, newEntry_eq, hfirst, hsecond, pure_bind, Directory.firstTable]
  cases Entry.new index "." with
  | error e => rfl
  | ok self => cases Entry.new parent ".." <;> rfl

end

end BlockFS.Machine
