import BlockFS.File
import BlockFS.Directory
import BlockFS.Proofs.Tidy.Operations

/-!
# Views where no transfer fails

A view and a scene together are the settled state of work through the view.  On tidy records a view of
a directory or a file holds what the records say, and making one puts the next free inode into use.
-/

namespace BlockFS

open Volume

instance {S V : Type} [Settled S Volume] : Settled (V × S) (Held V) where
  state s history := ⟨s.1, Settled.state s.2 history⟩

/-! ## Acting through a view -/

namespace ViewM

variable {S V α : Type} [Settled S Volume] {s s' : S} {v v' : V} {r : Except Error α}

theorem does_onVolume {x : VolumeM α} (h : Does x s r s') :
    Does (onVolume x : ViewM V α) (v, s) r (v, s') := by
  intro history
  obtain ⟨history', h⟩ := h history
  refine ⟨history', ?_⟩
  simp only [Settled.state, onVolume, h]
  cases r with
  | ok a => rfl
  | error e => rfl

theorem does_current : Does (current : ViewM V V) (v, s) (.ok v) (v, s) := by
  intro history
  exact ⟨history, rfl⟩

theorem does_change (f : V → V) : Does (change f : ViewM V Unit) (v, s) (.ok ()) (f v, s) := by
  intro history
  exact ⟨history, rfl⟩

theorem does_through {x : ViewM V α} (h : Does x (v, s) r (v', s')) :
    Does (through v x) s r s' := by
  intro history
  obtain ⟨history', h⟩ := h history
  refine ⟨history', ?_⟩
  simp only [Settled.state] at h
  simp only [through, h]
  cases r with
  | ok a => rfl
  | error e => rfl

end ViewM

section

variable {l : Layout} {s : Scene l}

/-! ## Views of a directory -/

namespace Scene

/-- The view of a directory. -/
def directory (s : Scene l) (d : Nat) : Directory :=
  ⟨d, s.records.inode d, s.records.tableBlock d, s.records.table d⟩

/-- The view of a file. -/
def file (s : Scene l) (i : Nat) : File := ⟨i, s.records.inode i⟩

/-- The scene with another table of a directory. -/
def setTable (s : Scene l) (p : Nat) (t : EntryTable) : Scene l :=
  s.putBlock (s.records.tableBlock p) t.toBlock

theorem records_setTable (h : s.records.Exact l) {p : Nat}
    (hp : s.records.kind p = .directory) (t : EntryTable) :
    (s.setTable p t).records = s.records.setTable p t := by
  obtain ⟨hge, hlt⟩ := h.blocks.range p 0 _ (h.owns_tableBlock hp)
  exact s.records_putBlock hge hlt t.toBlock

end Scene

namespace Directory

variable {d p i b : Nat} {n : StoredName} {name : String} {slot : Fin slotCount} {e : Error}
  {t : EntryTable}

theorem does_ofInode (hm : s.mounted = true) (h : s.records.Exact l)
    (hd : s.records.kind d = .directory) :
    Does (ofInode d) s (.ok (s.directory d)) s := by
  have hused : s.records.used .inode d = true :=
    Records.used_of_kind_ne (Records.ne_free_of_directory hd)
  have hkind : (s.records.inode d).kind = .directory := by
    rw [← Records.kind_of_used hused]
    exact hd
  have hown := h.owns_tableBlock hd
  obtain ⟨hge, hlt⟩ := h.blocks.range d 0 _ hown
  apply (does_readInode hm hused).bind
  simp only [hkind, if_true, hown.points]
  apply (does_readBlock hm hge hlt).bind
  rw [Scene.directory, Records.table_of_directory hd]
  exact Does.pure _ _

theorem does_ofInode_free (hm : s.mounted = true) (hd : s.records.used .inode d = false) :
    Does (ofInode d) s (.error .notFound) s :=
  (does_readInode_free hm hd).bind_error

theorem does_ofInode_other (hm : s.mounted = true) (hused : s.records.used .inode d = true)
    (hd : s.records.kind d ≠ .directory) :
    Does (ofInode d) s (.error .notADirectory) s := by
  rw [Records.kind_of_used hused] at hd
  apply (does_readInode hm hused).bind
  simp only [hd, if_false]
  exact (Does.throw _ _).bind_error

theorem does_replaceTable (hm : s.mounted = true) (h : s.records.Exact l)
    (hd : s.records.kind d = .directory) {v : Directory} (hv : v.block = s.records.tableBlock d)
    (t : EntryTable) :
    Does (replaceTable t) (v, s) (.ok ()) ({ v with table := t }, s.setTable d t) := by
  obtain ⟨hge, hlt⟩ := h.blocks.range d 0 _ (h.owns_tableBlock hd)
  apply (ViewM.does_change _).bind
  apply ViewM.does_current.bind
  rw [hv]
  exact ViewM.does_onVolume (does_writeBlock hm hge hlt t.toBlock)

theorem does_link (hm : s.mounted = true) (h : s.records.Exact l)
    (hd : s.records.kind d = .directory) {v : Directory} (hv : v.block = s.records.tableBlock d)
    (hlink : v.table.link name i = .ok t) :
    Does (link name i) (v, s) (.ok ()) ({ v with table := t }, s.setTable d t) := by
  apply ViewM.does_current.bind
  rw [hlink]
  apply (Does.liftExcept _ _).bind
  exact does_replaceTable hm h hd hv t

theorem does_link_error {v : Directory} (hlink : v.table.link name i = .error e) :
    Does (link name i) (v, s) (.error e) (v, s) := by
  apply ViewM.does_current.bind
  rw [hlink]
  exact (Does.liftExcept _ _).bind_error

theorem does_unlink (hm : s.mounted = true) (h : s.records.Exact l)
    (hd : s.records.kind d = .directory) {v : Directory} (hv : v.block = s.records.tableBlock d)
    (hunlink : v.table.unlink name = .ok (i, t)) :
    Does (unlink name) (v, s) (.ok i) ({ v with table := t }, s.setTable d t) := by
  apply ViewM.does_current.bind
  rw [hunlink]
  apply (Does.liftExcept _ _).bind
  apply (does_replaceTable hm h hd hv t).bind
  exact Does.pure _ _

theorem does_relabel (hm : s.mounted = true) (h : s.records.Exact l)
    (hd : s.records.kind d = .directory) {v : Directory} (hv : v.block = s.records.tableBlock d)
    {new : String} (hrelabel : v.table.relabel name new = .ok t) :
    Does (relabel name new) (v, s) (.ok ()) ({ v with table := t }, s.setTable d t) := by
  apply ViewM.does_current.bind
  rw [hrelabel]
  apply (Does.liftExcept _ _).bind
  exact does_replaceTable hm h hd hv t

/-- The record of a new directory. -/
def firstRecord (clock : Int) (b : Nat) : Inode :=
  { Inode.new .directory clock with size := .ofNat blockSize }.setPointer 0 b

/-- The table of a new directory, as it is stored. -/
def firstEntries (i p : Nat) : EntryTable :=
  (EntryTable.empty.put ⟨0, slotCount_pos⟩ ⟨.ofNat i, .here⟩).put ⟨1, one_lt_slotCount⟩
    ⟨.ofNat p, .up⟩

theorem firstTable_eq (hi : i < UInt16.size) (hp : p < UInt16.size) :
    firstTable i p = .ok (firstEntries i p) := by
  simp only [firstTable, Entry.new_eq hi StoredName.encode_here,
    Entry.new_eq hp StoredName.encode_up]
  rfl

theorem holdsNothing_firstEntries (hi : i < UInt16.size) (hp : p < UInt16.size) :
    NameTree.HoldsNothing (firstEntries i p) i p := by
  constructor
  · exact ⟨Entry.target_mk hi _, rfl⟩
  · exact ⟨Entry.target_mk hp _, rfl⟩
  · intro slot hslot
    have h1 : slot ≠ ⟨1, one_lt_slotCount⟩ := Fin.ne_of_gt hslot
    have h0 : slot ≠ ⟨0, slotCount_pos⟩ := Fin.ne_of_gt (Nat.lt_of_succ_lt hslot)
    rw [firstEntries, EntryTable.entry_put, if_neg h1, EntryTable.entry_put, if_neg h0,
      EntryTable.entry_empty, Entry.target_empty]

theorem kind_firstRecord (clock : Int) (b : Nat) : (firstRecord clock b).kind = .directory := rfl

theorem blocks_firstRecord (clock : Int) (hb : b ≠ 0) (hlt : b < UInt16.size) :
    (firstRecord clock b).blocks = [b] := by
  have hne := Inode.ofNat_ne_zero hb hlt
  have hpointers : (firstRecord clock b).pointers.toList
      = .ofNat b :: List.replicate (pointerCount - 1) 0 := rfl
  rw [Inode.blocks, hpointers, List.filter_cons_of_pos (by exact decide_eq_true hne),
    List.filter_replicate_of_neg (by decide), List.map_cons, UInt16.toNat_ofNat_of_lt' hlt,
    List.map_nil]

theorem block?_firstRecord (clock : Int) (hb : b ≠ 0) (hlt : b < UInt16.size) (k : Nat) :
    (firstRecord clock b).block? k = if k = 0 then some b else none := by
  rw [firstRecord, Inode.block?_setPointer (by decide) hb hlt]
  split
  · rfl
  · exact Inode.block?_new .directory clock

end Directory

end

end BlockFS
