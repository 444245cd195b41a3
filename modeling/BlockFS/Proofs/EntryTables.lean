import BlockFS.Entry
import BlockFS.Proofs.StoredNames

/-!
# Tables of entries

What the operations on a table of entries do, told slot by slot, and the table seen as a partial map
from stored names to inode numbers.
-/

namespace BlockFS

namespace Entry

theorem isFree_iff {e : Entry} : e.isFree = true ↔ e.target = 0 := by
  rw [isFree, target, beq_iff_eq]
  constructor
  · intro h
    rw [h]
    rfl
  · intro h
    exact UInt16.toNat_inj.mp h

theorem isFree_eq_false_iff {e : Entry} : e.isFree = false ↔ e.target ≠ 0 := by
  rw [Ne, ← isFree_iff, Bool.not_eq_true]

theorem target_empty : Entry.empty.target = 0 := rfl

theorem isNamed_iff {e : Entry} {n : StoredName} :
    e.isNamed n = true ↔ e.target ≠ 0 ∧ e.name = n := by
  rw [isNamed, Bool.and_eq_true, Bool.not_eq_true', isFree_eq_false_iff, beq_iff_eq]

theorem isNamed_eq_false_iff {e : Entry} {n : StoredName} :
    e.isNamed n = false ↔ (e.target ≠ 0 → e.name ≠ n) := by
  rw [← Bool.not_eq_true, isNamed_iff, not_and]

theorem new_eq {i : Nat} {name : String} {n : StoredName} (hi : i < UInt16.size)
    (hn : StoredName.encode name = .ok n) : Entry.new i name = .ok ⟨.ofNat i, n⟩ := by
  rw [Entry.new, if_pos hi, hn]
  rfl

theorem new_error {i : Nat} {name : String} {e : Error} (h : Entry.new i name = .error e) :
    e = .invalidName ∨ e = .notFound := by
  rw [Entry.new] at h
  split at h
  · cases hname : StoredName.encode name with
    | error e' =>
      rw [hname] at h
      cases h
      exact .inl (StoredName.encode_error hname)
    | ok n =>
      rw [hname] at h
      cases h
  · cases h
    exact .inr rfl

theorem target_mk {i : Nat} (hi : i < UInt16.size) (n : StoredName) :
    (Entry.mk (.ofNat i) n).target = i := by
  rw [target, UInt16.toNat_ofNat']
  exact Nat.mod_eq_of_lt hi

theorem target_lt (e : Entry) : e.target < UInt16.size := e.inode.toNat_lt

theorem mk_target (e : Entry) (n : StoredName) :
    Entry.mk (.ofNat e.target) n = ⟨e.inode, n⟩ := by
  rw [target, UInt16.ofNat_toNat]

end Entry

/-! ## Searching a vector -/

theorem findFinIdx?_eq_some_iff {α : Type} {m : Nat} {xs : Vector α m} {p : α → Bool} {i : Fin m} :
    xs.findFinIdx? p = some i ↔
      p (xs.get i) = true ∧ ∀ j : Fin m, j < i → p (xs.get j) = false := by
  obtain ⟨xs, rfl⟩ := xs
  simp only [Vector.findFinIdx?_mk, Fin.cast_refl, Option.map_id, id_eq]
  rw [Array.findFinIdx?_eq_some_iff]
  refine and_congr Iff.rfl ⟨fun h j hj => ?_, fun h j hj => ?_⟩
  · exact Bool.not_eq_true _ ▸ h j hj
  · exact Bool.not_eq_true _ ▸ h ⟨j, Nat.lt_trans hj i.isLt⟩ hj

theorem findFinIdx?_eq_none_iff {α : Type} {m : Nat} {xs : Vector α m} {p : α → Bool} :
    xs.findFinIdx? p = none ↔ ∀ i, p (xs.get i) = false := by
  rw [Vector.findFinIdx?_eq_none_iff]
  constructor
  · intro h i
    exact Bool.eq_false_iff.mpr (h _ (Vector.getElem_mem i.isLt))
  · intro h x hx
    obtain ⟨i, hi, rfl⟩ := Vector.getElem_of_mem hx
    exact Bool.eq_false_iff.mp (h ⟨i, hi⟩)

namespace EntryTable

variable {t : EntryTable}

/-! ## Slots -/

/-- The entry in a slot. -/
def entry (t : EntryTable) (slot : Fin slotCount) : Entry := t.get slot

/-- The table with another entry in a slot. -/
def put (t : EntryTable) (slot : Fin slotCount) (e : Entry) : EntryTable := t.set slot e slot.isLt

theorem entry_put (slot j : Fin slotCount) (e : Entry) :
    (t.put slot e).entry j = if j = slot then e else t.entry j := by
  change (t.set slot.val e slot.isLt)[j.val] = _
  simp only [Vector.getElem_set, Fin.ext_iff, eq_comm]
  rfl

theorem put_entry (t : EntryTable) (slot : Fin slotCount) : t.put slot (t.entry slot) = t :=
  Vector.set_getElem_self slot.isLt

theorem entry_empty (slot : Fin slotCount) : entry .empty slot = .empty :=
  Vector.getElem_replicate slot.isLt

theorem getElem?_toList (slot : Fin slotCount) : t.toList[slot.val]? = some (t.entry slot) := by
  rw [Vector.getElem?_toList, Vector.getElem?_eq_getElem slot.isLt]
  rfl

theorem exists_slot {e : Entry} {i : Nat} (h : t.toList[i]? = some e) :
    ∃ slot : Fin slotCount, slot.val = i ∧ t.entry slot = e := by
  obtain ⟨hi, -⟩ := List.getElem?_eq_some_iff.mp h
  rw [Vector.length_toList] at hi
  refine ⟨⟨i, hi⟩, rfl, Option.some_inj.mp ?_⟩
  rw [← getElem?_toList, h]

theorem map_entry_finRange (t : EntryTable) : (List.finRange slotCount).map t.entry = t.toList := by
  refine List.ext_getElem (by simp) fun k _ _ => ?_
  rw [List.getElem_map, List.getElem_finRange, Vector.getElem_toList]
  rfl

/-! ## Names -/

/-- The inode number that the table holds under a stored name. -/
def lookup (t : EntryTable) (n : StoredName) : Option Nat :=
  (t.findFinIdx? fun e => e.isNamed n).map fun slot => (t.entry slot).target

/-- No two slots in use hold the same stored name. -/
def Unique (t : EntryTable) : Prop :=
  ∀ i j : Fin slotCount, (t.entry i).target ≠ 0 → (t.entry j).target ≠ 0 →
    (t.entry i).name = (t.entry j).name → i = j

theorem slotOf?_eq {name : String} {n : StoredName} (hn : StoredName.encode name = .ok n) :
    t.slotOf? name = t.findFinIdx? fun e => e.isNamed n := by
  rw [slotOf?, hn]

theorem find?_eq {name : String} {n : StoredName} (hn : StoredName.encode name = .ok n) :
    t.find? name = t.lookup n := by
  rw [find?, slotOf?_eq hn]
  rfl

theorem find?_of_error {name : String} {e : Error} (hn : StoredName.encode name = .error e) :
    t.find? name = none := by
  rw [find?, slotOf?, hn]
  rfl

theorem lookup_eq_none_iff {n : StoredName} :
    t.lookup n = none ↔
      ∀ slot : Fin slotCount, (t.entry slot).target ≠ 0 → (t.entry slot).name ≠ n := by
  rw [lookup, Option.map_eq_none_iff, findFinIdx?_eq_none_iff]
  exact forall_congr' fun _ => Entry.isNamed_eq_false_iff

theorem lookup_empty (n : StoredName) : lookup .empty n = none := by
  refine lookup_eq_none_iff.mpr fun slot hused => absurd ?_ hused
  rw [entry_empty, Entry.target_empty]

theorem named_of_findFinIdx? {n : StoredName} {slot : Fin slotCount}
    (h : (t.findFinIdx? fun e => e.isNamed n) = some slot) :
    (t.entry slot).target ≠ 0 ∧ (t.entry slot).name = n :=
  Entry.isNamed_iff.mp (findFinIdx?_eq_some_iff.mp h).1

theorem lookup_of_slot {n : StoredName} {slot : Fin slotCount}
    (h : (t.findFinIdx? fun e => e.isNamed n) = some slot) :
    t.lookup n = some (t.entry slot).target := by
  rw [lookup, h]
  rfl

/-- A stored name that is found lies in a slot of the table. -/
theorem exists_slot_of_lookup {n : StoredName} {i : Nat} (h : t.lookup n = some i) :
    ∃ slot : Fin slotCount, (t.findFinIdx? fun e => e.isNamed n) = some slot ∧
      (t.entry slot).target = i ∧ i ≠ 0 ∧ (t.entry slot).name = n := by
  obtain ⟨slot, hslot, rfl⟩ := Option.map_eq_some_iff.mp h
  obtain ⟨hne, hname⟩ := named_of_findFinIdx? hslot
  exact ⟨slot, hslot, rfl, hne, hname⟩

theorem Unique.findFinIdx?_eq (h : t.Unique) {slot : Fin slotCount}
    (hne : (t.entry slot).target ≠ 0) :
    (t.findFinIdx? fun e => e.isNamed (t.entry slot).name) = some slot := by
  refine findFinIdx?_eq_some_iff.mpr ⟨Entry.isNamed_iff.mpr ⟨hne, rfl⟩, ?_⟩
  intro j hj
  apply Entry.isNamed_eq_false_iff.mpr
  intro hused hname
  exact absurd (h j slot hused hne hname) (Fin.ne_of_lt hj)

/-- In a table without repeated names, a name is found exactly where some slot holds it. -/
theorem Unique.lookup_eq_some_iff (h : t.Unique) {n : StoredName} {i : Nat} :
    t.lookup n = some i ↔
      ∃ slot : Fin slotCount, (t.entry slot).target = i ∧ i ≠ 0 ∧ (t.entry slot).name = n := by
  constructor
  · intro hfound
    obtain ⟨slot, -, hslot⟩ := exists_slot_of_lookup hfound
    exact ⟨slot, hslot⟩
  · rintro ⟨slot, rfl, hne, rfl⟩
    exact lookup_of_slot (h.findFinIdx?_eq hne)

theorem link_eq {name : String} {n : StoredName} {i : Nat} {slot : Fin slotCount}
    (hi : i < UInt16.size) (hn : StoredName.encode name = .ok n)
    (hslot : t.findFinIdx? Entry.isFree = some slot) :
    t.link name i = .ok (t.put slot ⟨.ofNat i, n⟩) := by
  rw [link, Entry.new_eq hi hn]
  simp only [hslot]
  rfl

theorem link_full {name : String} {n : StoredName} {i : Nat}
    (hi : i < UInt16.size) (hn : StoredName.encode name = .ok n)
    (hslot : t.findFinIdx? Entry.isFree = none) : t.link name i = .error .noSpace := by
  rw [link, Entry.new_eq hi hn]
  simp only [hslot]
  rfl

theorem unlink_eq {name : String} {slot : Fin slotCount} (h : t.slotOf? name = some slot) :
    t.unlink name = .ok ((t.entry slot).target, t.put slot .empty) := by
  rw [unlink, h]
  rfl

theorem relabel_eq {old new : String} {n : StoredName} {slot : Fin slotCount}
    (h : t.slotOf? old = some slot) (hn : StoredName.encode new = .ok n) :
    t.relabel old new = .ok (t.put slot ⟨(t.entry slot).inode, n⟩) := by
  have hnew := Entry.new_eq (t.entry slot).target_lt hn
  rw [Entry.mk_target] at hnew
  rw [relabel, h]
  change (Entry.new (t.entry slot).target new).map (t.put slot) = _
  rw [hnew]
  rfl

theorem holdsNothing_iff :
    t.holdsNothing = true ↔
      ∀ slot : Fin slotCount, (t.entry slot).target ≠ 0 → (t.entry slot).isSelfOrParent = true := by
  simp only [holdsNothing, occupied, List.all_eq_true, List.mem_filter, List.mem_map,
    Bool.not_eq_true']
  constructor
  · intro h slot hne
    refine h (slot, t.entry slot) ⟨⟨(t.entry slot, slot), ?_, rfl⟩, ?_⟩
    · exact List.mk_mem_zipIdx_iff_getElem?.mpr (getElem?_toList slot)
    · exact Entry.isFree_eq_false_iff.mpr hne
  · rintro h _ ⟨⟨⟨e, i⟩, hmem, rfl⟩, hused⟩
    obtain ⟨slot, rfl, rfl⟩ := exists_slot (List.mk_mem_zipIdx_iff_getElem?.mp hmem)
    exact h slot (Entry.isFree_eq_false_iff.mp hused)

/-! ## What a table refuses -/

section

variable {name old new : String} {i : Nat} {e : Error}

theorem link_error (h : t.link name i = .error e) :
    e = .invalidName ∨ e = .notFound ∨ e = .noSpace := by
  rw [link] at h
  cases hnew : Entry.new i name with
  | error e' =>
    rw [hnew] at h
    cases h
    exact (Entry.new_error hnew).imp_right .inl
  | ok entry =>
    rw [hnew] at h
    simp only [bind, Except.bind] at h
    cases hfree : t.findFinIdx? Entry.isFree with
    | some slot =>
      rw [hfree] at h
      cases h
    | none =>
      rw [hfree] at h
      cases h
      exact .inr (.inr rfl)

theorem unlink_error (h : t.unlink name = .error e) : e = .notFound := by
  rw [unlink] at h
  split at h
  · cases h
  · cases h
    rfl

theorem relabel_error (h : t.relabel old new = .error e) : e = .invalidName ∨ e = .notFound := by
  rw [relabel] at h
  split at h
  · next slot hslot =>
    cases hnew : Entry.new t[slot].target new with
    | error e' =>
      rw [hnew] at h
      cases h
      exact Entry.new_error hnew
    | ok entry =>
      rw [hnew] at h
      cases h
  · cases h
    exact .inr rfl

end

end EntryTable

end BlockFS
