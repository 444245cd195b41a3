import BlockFS.Proofs.Tidy.Names

/-!
# Directories as maps

A directory is a finite map from stored names to inodes.  Adding an inode, removing one and changing a
name change the maps in one place each, whatever the slots are in which the names are kept.
-/

namespace BlockFS

/-! ## Keys -/

namespace StoredName

variable {name name' : String}

/-- A name that can be stored: it is not empty and holds no zero byte. -/
def Storable (name : String) : Prop := name.toUTF8.toList ≠ [] ∧ 0 ∉ name.toUTF8.toList

/-- The first 14 bytes of a name, filled up with zeros. -/
def key (name : String) : StoredName := .ofList nameWidth name.toUTF8.toList

theorem encode_of_storable (h : Storable name) : encode name = .ok (key name) :=
  encode_eq_ok_iff.mpr ⟨h.1, h.2, rfl⟩

theorem encode_of_not_storable (h : ¬ Storable name) : encode name = .error .invalidName := by
  match hn : encode name with
  | .ok n =>
    obtain ⟨hne, hzero, -⟩ := encode_eq_ok_iff.mp hn
    exact absurd ⟨hne, hzero⟩ h
  | .error e => rw [encode_error hn]

theorem storable_of_encode {n : StoredName} (h : encode name = .ok n) :
    Storable name ∧ n = key name := by
  obtain ⟨hne, hzero, hn⟩ := encode_eq_ok_iff.mp h
  exact ⟨⟨hne, hzero⟩, hn⟩

/-- Names have the same key if their first 14 bytes are the same: the padding is no part of a
name. -/
theorem key_eq_key_iff (h : Storable name) (h' : Storable name') :
    key name = key name' ↔
      name.toUTF8.toList.take nameWidth = name'.toUTF8.toList.take nameWidth := by
  have hget {a : String} (i : Nat) (hi : i < nameWidth) :
      (key a)[i] = a.toUTF8.toList[i]?.getD 0 := by rw [key, Bytes.getElem_ofList]
  have hnone {a : String} (ha : Storable a) (i : Nat) :
      a.toUTF8.toList[i]? = none ↔ a.toUTF8.toList[i]?.getD 0 = 0 := by
    match hb : a.toUTF8.toList[i]? with
    | none => exact iff_of_true rfl rfl
    | some b =>
      refine iff_of_false (Option.some_ne_none b) fun hzero => ha.2 ?_
      rw [← show b = 0 from hzero]
      exact List.mem_of_getElem? hb
  constructor
  · intro hkey
    refine List.ext_getElem? fun i => ?_
    rw [List.getElem?_take, List.getElem?_take]
    split
    · next hi =>
      have hbyte : name.toUTF8.toList[i]?.getD 0 = name'.toUTF8.toList[i]?.getD 0 := by
        rw [← hget i hi, ← hget i hi, hkey]
      by_cases hb : name.toUTF8.toList[i]? = none
      · have hzero := (hnone h i).mp hb
        rw [hbyte] at hzero
        rw [hb, (hnone h' i).mpr hzero]
      · have hb' : name'.toUTF8.toList[i]? ≠ none := fun hb' =>
          hb ((hnone h i).mpr (hbyte.trans ((hnone h' i).mp hb')))
        obtain ⟨x, hx⟩ := Option.ne_none_iff_exists'.mp hb
        obtain ⟨y, hy⟩ := Option.ne_none_iff_exists'.mp hb'
        rw [hx, hy] at hbyte ⊢
        exact congrArg some hbyte
    · rfl
  · intro htake
    apply Vector.ext
    intro i hi
    have hbyte := congrArg (fun bs => bs[i]?) htake
    simp only [List.getElem?_take, if_pos hi] at hbyte
    rw [hget i hi, hget i hi, hbyte]

end StoredName

/-! ## Tables -/

namespace EntryTable

variable {t : EntryTable} {slot : Fin slotCount} {e : Entry}

/-- A name that no slot holds may be put into any slot. -/
theorem Unique.put_name {m : StoredName} (h : t.Unique) (hm : t.lookup m = none)
    (he : e.name = m) : (t.put slot e).Unique := by
  have hother := lookup_eq_none_iff.mp hm
  intro i j hi hj hname
  simp only [entry_put] at hi hj hname
  by_cases hislot : i = slot
  · by_cases hjslot : j = slot
    · exact hislot.trans hjslot.symm
    · rw [if_neg hjslot] at hj
      rw [if_pos hislot, if_neg hjslot, he] at hname
      exact absurd hname.symm (hother j hj)
  · rw [if_neg hislot] at hi
    by_cases hjslot : j = slot
    · rw [if_neg hislot, if_pos hjslot, he] at hname
      exact absurd hname (hother i hi)
    · rw [if_neg hjslot] at hj
      rw [if_neg hislot, if_neg hjslot] at hname
      exact h i j hi hj hname

/-- A table in which one slot was replaced, as a map. -/
theorem Unique.lookup_set (h : t.Unique) (h' : Unique (t.put slot e)) (m : StoredName) :
    lookup (t.put slot e) m =
      if e.target ≠ 0 ∧ e.name = m then some e.target
      else if (t.entry slot).target ≠ 0 ∧ (t.entry slot).name = m then none else t.lookup m := by
  have hself : (t.put slot e).entry slot = e := by rw [entry_put, if_pos rfl]
  have hother {x : Fin slotCount} (hx : x ≠ slot) : (t.put slot e).entry x = t.entry x := by
    rw [entry_put, if_neg hx]
  split
  · next he =>
    refine h'.lookup_eq_some_iff.mpr ⟨slot, ?_, he.1, ?_⟩
    · rw [hself]
    · rw [hself]
      exact he.2
  · next he =>
    have hnew {x : Fin slotCount} (hused : ((t.put slot e).entry x).target ≠ 0)
        (hname : ((t.put slot e).entry x).name = m) : x ≠ slot := by
      rintro rfl
      rw [hself] at hused hname
      exact he ⟨hused, hname⟩
    split
    · next hold =>
      apply lookup_eq_none_iff.mpr
      intro x hused hname
      have hx := hnew hused hname
      rw [hother hx] at hused hname
      exact hx (h x slot hused hold.1 (hname.trans hold.2.symm))
    · next hold =>
      apply Option.ext
      intro i
      rw [h'.lookup_eq_some_iff, h.lookup_eq_some_iff]
      apply exists_congr
      intro x
      by_cases hx : x = slot
      · subst hx
        rw [hself]
        refine iff_of_false ?_ ?_
        · rintro ⟨rfl, hused, hname⟩
          exact he ⟨hused, hname⟩
        · rintro ⟨rfl, hused, hname⟩
          exact hold ⟨hused, hname⟩
      · rw [hother hx]

/-- An inode that is linked in a free slot under a name that no slot holds is found by that name, and
every other name as before. -/
theorem Unique.lookup_put_free {i : Nat} {n : StoredName} (h : t.Unique)
    (hfree : t.findFinIdx? Entry.isFree = some slot) (hmissing : t.lookup n = none)
    (hi : i < UInt16.size) (hne : i ≠ 0) :
    Unique (t.put slot ⟨.ofNat i, n⟩) ∧
      ∀ m, lookup (t.put slot ⟨.ofNat i, n⟩) m = if n = m then some i else t.lookup m := by
  have hunique : Unique (t.put slot ⟨.ofNat i, n⟩) := h.put_name hmissing rfl
  have htarget := Entry.target_mk hi n
  have hslot : (t.entry slot).target = 0 :=
    Entry.isFree_iff.mp (findFinIdx?_eq_some_iff.mp hfree).1
  refine ⟨hunique, fun m => ?_⟩
  rw [h.lookup_set hunique, htarget, hslot]
  by_cases hm : n = m
  · rw [if_pos ⟨hne, hm⟩, if_pos hm]
  · rw [if_neg fun hnew => hm hnew.2, if_neg fun hold => hold.1 rfl, if_neg hm]

end EntryTable

/-! ## Maps -/

/-- What the inodes are, and the directories as maps. -/
@[ext]
structure NameMaps where
  kind : Nat → Kind
  map : Nat → StoredName → Option Nat

namespace NameMaps

/-- The map that links nothing. -/
def nothing : StoredName → Option Nat := fun _ => none

/-- The map of a directory without children. -/
def selfAndParent (i p : Nat) : StoredName → Option Nat :=
  Function.update (Function.update nothing .here (some i)) .up (some p)

/-- The maps with a new inode, linked under a name, that links something itself. -/
def link (t : NameMaps) (p : Nat) (n : StoredName) (i : Nat) (k : Kind)
    (own : StoredName → Option Nat) : NameMaps where
  kind := Function.update t.kind i k
  map := Function.update (Function.update t.map p (Function.update (t.map p) n (some i))) i own

/-- The maps without a name and the inode that it linked. -/
def unlink (t : NameMaps) (p : Nat) (n : StoredName) (i : Nat) : NameMaps where
  kind := Function.update t.kind i .free
  map := Function.update (Function.update t.map p (Function.update (t.map p) n none)) i nothing

/-- The maps with one name in the place of another. -/
def relabel (t : NameMaps) (p : Nat) (n m : StoredName) : NameMaps :=
  { t with
    map := Function.update t.map p
      (Function.update (Function.update (t.map p) n none) m (t.map p n)) }

end NameMaps

namespace NameTree

variable {t : NameTree} {p i : Nat} {slot : Fin slotCount} {n m : StoredName} {k : Kind}
  {table : EntryTable}

/-- The directories of a tree as maps. -/
def maps (t : NameTree) : NameMaps := ⟨t.kind, fun d => (t.table d).lookup⟩

theorem HoldsNothing.lookup_eq (h : HoldsNothing table i p) (hi : i ≠ 0) (hp : p ≠ 0) :
    table.lookup = NameMaps.selfAndParent i p := by
  have hunique : table.Unique := h.unique
  funext m
  rw [NameMaps.selfAndParent, Function.update_apply]
  split
  · next hup =>
    refine hunique.lookup_eq_some_iff.mpr ⟨1, h.up.1, hp, ?_⟩
    rw [hup]
    exact h.up.2
  · next hup =>
    rw [Function.update_apply]
    split
    · next hhere =>
      refine hunique.lookup_eq_some_iff.mpr ⟨0, h.self.1, hi, ?_⟩
      rw [hhere]
      exact h.self.2
    · next hhere =>
      apply EntryTable.lookup_eq_none_iff.mpr
      intro slot hused hname
      match slot with
      | ⟨0, _⟩ => exact hhere (hname.symm.trans h.self.2)
      | ⟨1, _⟩ => exact hup (hname.symm.trans h.up.2)
      | ⟨x + 2, hx⟩ => exact hused (h.rest ⟨x + 2, hx⟩ (Nat.le_add_left 2 x))

theorem lookup_update (tables : Nat → EntryTable) (d : Nat) :
    (fun x => (Function.update tables d table x).lookup)
      = Function.update (fun x => (tables x).lookup) d table.lookup :=
  Function.comp_update EntryTable.lookup tables d table

namespace Sound

variable (h : t.Sound)

include h

theorem maps_add (ha : t.CanAdd p slot i n) (hk : Addable k table i p) :
    (t.add p slot i n k table).maps = t.maps.link p n i k table.lookup := by
  have hunique : EntryTable.Unique ((t.table p).put slot ⟨.ofNat i, n⟩) := by
    have hp := (h.add ha hk).unique p (ha.kind_add_of_directory ha.directory)
    simp only [NameTree.add, Function.update_of_ne ha.ne, Function.update_self] at hp
    exact hp
  have hfree : ((t.table p).entry slot).target = 0 := ha.free
  have hset : EntryTable.lookup ((t.table p).put slot ⟨.ofNat i, n⟩)
      = Function.update (t.table p).lookup n (some i) := by
    funext m
    rw [(h.unique p ha.directory).lookup_set hunique, Entry.target_mk ha.small,
      Function.update_apply]
    simp only [hfree, ne_eq, ha.ne_zero, not_false_eq_true, true_and, not_true_eq_false, false_and,
      if_false, eq_comm (a := n)]
  refine NameMaps.ext rfl ?_
  change (fun d => (Function.update (Function.update t.table p _) i table d).lookup) = _
  rw [lookup_update, lookup_update, hset]
  rfl

theorem maps_remove (hr : t.CanRemove p slot i) (hn : (t.entry p slot).name = n) :
    (t.remove p slot i).maps = t.maps.unlink p n i := by
  have hpi := hr.ne h
  have hunique : EntryTable.Unique ((t.table p).put slot .empty) := by
    have hkind : (t.remove p slot i).kind p = .directory :=
      (kind_remove_of_ne hpi).trans hr.links.directory
    have hp := (h.remove hr).unique p hkind
    simp only [NameTree.remove, Function.update_of_ne hpi, Function.update_self] at hp
    exact hp
  have hname : ((t.table p).entry slot).name = n := hn
  have hused : ((t.table p).entry slot).target ≠ 0 := by
    have htarget : ((t.table p).entry slot).target = i := hr.links.target
    rw [htarget]
    exact hr.links.used
  have hset : EntryTable.lookup ((t.table p).put slot .empty)
      = Function.update (t.table p).lookup n none := by
    funext m
    rw [(h.unique p hr.links.directory).lookup_set hunique, Function.update_apply]
    simp only [Entry.target_empty, ne_eq, not_true_eq_false, false_and, if_false, hused,
      not_false_eq_true, true_and, hname, eq_comm (a := n)]
  refine NameMaps.ext rfl ?_
  change (fun d => (Function.update (Function.update t.table p _) i .empty d).lookup) = _
  rw [lookup_update, lookup_update, hset, funext EntryTable.lookup_empty]
  rfl

theorem maps_relabel (hr : t.CanRelabel p slot m) (hused : (t.entry p slot).target ≠ 0)
    (hn : (t.entry p slot).name = n) :
    (t.relabel p slot m).maps = t.maps.relabel p n m := by
  have hunique : EntryTable.Unique ((t.table p).put slot ⟨(t.entry p slot).inode, m⟩) := by
    have hp := (h.relabel hr).unique p hr.directory
    simp only [NameTree.relabel, Function.update_self] at hp
    exact hp
  have hname : ((t.table p).entry slot).name = n := hn
  have hused' : ((t.table p).entry slot).target ≠ 0 := hused
  have hfound : (t.table p).lookup n = some (t.entry p slot).target :=
    (h.unique p hr.directory).lookup_eq_some_iff.mpr ⟨slot, rfl, hused, hn⟩
  have hset : EntryTable.lookup ((t.table p).put slot ⟨(t.entry p slot).inode, m⟩)
      = Function.update (Function.update (t.table p).lookup n none) m ((t.table p).lookup n) := by
    funext x
    rw [(h.unique p hr.directory).lookup_set hunique, Function.update_apply,
      Function.update_apply, hfound]
    have htarget : (Entry.mk (t.entry p slot).inode m).target = (t.entry p slot).target := rfl
    simp only [htarget, ne_eq, hused, hused', not_false_eq_true, true_and, hname, eq_comm (a := m),
      eq_comm (a := n)]
  refine NameMaps.ext rfl ?_
  change (fun d => (Function.update t.table p _ d).lookup) = _
  rw [lookup_update, hset]
  rfl

/-- A directory from which everything may be removed links nothing but `.` and `..`. -/
theorem holdsNothing_iff (hi : t.kind i = .directory) :
    (t.table i).holdsNothing = true ↔ ∀ n, n ≠ .here → n ≠ .up → t.maps.map i n = none := by
  rw [EntryTable.holdsNothing_iff]
  constructor
  · intro hall n hhere hup
    apply EntryTable.lookup_eq_none_iff.mpr
    intro slot hused hname
    have hslot : ¬ 2 ≤ slot.val := by
      rw [h.two_le_iff hi hused]
      exact fun hnot => Bool.false_ne_true (hnot.symm.trans (hall slot hused))
    match slot with
    | ⟨0, _⟩ => exact hhere (hname.symm.trans (h.self i hi).2)
    | ⟨1, _⟩ => exact hup (hname.symm.trans (h.up i hi).2)
    | ⟨x + 2, _⟩ => exact hslot (Nat.le_add_left 2 x)
  · intro hnone slot hused
    by_contra hself
    rw [Bool.not_eq_true] at hself
    have hname (x : StoredName) (hx : x.isSelfOrParent = true) :
        ((t.table i).entry slot).name ≠ x := by
      rintro rfl
      exact Bool.false_ne_true (hself.symm.trans hx)
    exact EntryTable.lookup_eq_none_iff.mp
      (hnone _ (hname _ StoredName.isSelfOrParent_here) (hname _ StoredName.isSelfOrParent_up))
      slot hused rfl

end Sound

end NameTree

end BlockFS
