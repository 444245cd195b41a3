import BlockFS.Proofs.DiskContents
import BlockFS.Proofs.FencedVolumes
import BlockFS.Proofs.Faults.Calls
import BlockFS.Proofs.NameMaps
import Mathlib.Logic.Basic

/-!
# A name is changed in one step

Changing a name rewrites a whole block, one sector after the other, and either sector may be refused.
But a slot never crosses from one sector to the other, and all other bytes are written as they were.
Hence the disk is as it was, or the bytes of one name are those of the new name.
-/

namespace BlockFS

open Volume

/-! ## A name in a block -/

theorem Entry.encode_mk (e : Entry) (m : StoredName) :
    (Entry.mk e.inode m).encode = e.encode.write 2 m.toList := by
  apply Vector.ext
  intro j hj
  rw [Bytes.getElem_write]
  by_cases hnumber : j < 2
  · have hbefore : ¬ 2 ≤ j := Nat.not_le_of_lt hnumber
    have hlow (e : Entry) : e.encode[j] = (Bytes.ofUInt16 e.inode)[j] :=
      Vector.getElem_append_left hnumber
    rw [if_neg hbefore, hlow, hlow]
  · have hbehind : 2 ≤ j := Nat.le_of_not_lt hnumber
    have hname : j - 2 < nameWidth := by
      simp only [recordSize, nameWidth] at hj ⊢
      omega
    have hin : j - 2 < m.toList.length := by
      rw [Vector.length_toList]
      exact hname
    have hhigh : (Entry.mk e.inode m).encode[j] = m[j - 2] :=
      Vector.getElem_append_right _ hbehind
    rw [if_pos hbehind, hhigh, List.getElem?_eq_getElem hin, Option.getD_some,
      Vector.getElem_toList]

namespace EntryTable

variable {t : EntryTable} {slot : Fin slotCount} {m n : StoredName}

/-- Where the name in a slot begins in the block of the table. -/
def nameOffset (slot : Fin slotCount) : Nat := Entry.recordSize * slot.val + 2

theorem nameOffset_le (slot : Fin slotCount) : nameOffset slot + nameWidth ≤ blockSize := by
  have := slot.isLt
  simp only [nameOffset, Entry.recordSize, nameWidth, blockSize, slotCount] at this ⊢
  omega

/-- Putting another name into a slot writes its bytes over those of the old one. -/
theorem toBlock_put_name (t : EntryTable) (slot : Fin slotCount) (m : StoredName) :
    (t.put slot ⟨(t.entry slot).inode, m⟩).toBlock
      = t.toBlock.write (nameOffset slot) m.toList := by
  apply Vector.ext
  intro k hk
  have hk' : k < blockSize := hk
  rw [Bytes.getElem_write, nameOffset]
  by_cases hslot : k / Entry.recordSize = slot
  · have hfin : (⟨k / Entry.recordSize, slot_lt hk'⟩ : Fin slotCount) = slot := Fin.ext hslot
    have hmod : k = Entry.recordSize * slot.val + k % Entry.recordSize := by
      rw [← hslot, Nat.div_add_mod]
    have hle : Entry.recordSize * slot.val + 2 ≤ k ↔ 2 ≤ k % Entry.recordSize := by omega
    have hsub : k - (Entry.recordSize * slot.val + 2) = k % Entry.recordSize - 2 := by omega
    rw [getElem_toBlock k hk', getElem_toBlock k hk', hfin, entry_put, if_pos rfl,
      Entry.encode_mk, hsub]
    simp only [hle]
    exact Bytes.getElem_write ..
  · rw [getElem_toBlock_put hk' hslot]
    split
    · next hbehind =>
      have hout : m.toList.length ≤ k - (Entry.recordSize * slot.val + 2) := by
        rw [Vector.length_toList]
        simp only [Entry.recordSize, nameWidth] at hslot hbehind ⊢
        omega
      rw [List.getElem?_eq_none hout, Option.getD_none]
    · rfl

end EntryTable

/-! ## A name on a disk -/

namespace Disk

variable {d d' : Disk} {b : Nat}

/-- Where the name in a slot of the table in a block begins on a disk. -/
def nameStart (b : Nat) (slot : Fin slotCount) : Nat :=
  blockSize * b + EntryTable.nameOffset slot

/-- The second disk has the bytes of another name in the place where the first one has those of a
name, and is the same everywhere else. -/
structure Renamed (d d' : Disk) (start : Nat) (n m : StoredName) : Prop where
  before : (d.contents.drop start).take nameWidth = n.toList
  after : d'.contents = d.contents.take start ++ m.toList ++ d.contents.drop (start + nameWidth)

theorem renamed_putBlock (h : 2 * b + 1 < d.sectors.size) {t : EntryTable}
    (ht : t.toBlock = d.block b) (slot : Fin slotCount) (m : StoredName) :
    d.Renamed (d.putBlock b (t.put slot ⟨(t.entry slot).inode, m⟩).toBlock) (nameStart b slot)
      (t.entry slot).name m := by
  have hlen (n : StoredName) : n.toList.length = nameWidth := Vector.length_toList
  have hfits := EntryTable.nameOffset_le slot
  have hcontents (n : StoredName) :
      (d.putBlock b (t.put slot ⟨(t.entry slot).inode, n⟩).toBlock).contents
        = d.contents.take (nameStart b slot) ++ n.toList
          ++ d.contents.drop (nameStart b slot + nameWidth) := by
    have hin : EntryTable.nameOffset slot + n.toList.length ≤ blockSize := by rwa [hlen]
    have hend : blockSize * b + EntryTable.nameOffset slot + n.toList.length
        ≤ blockSize * (b + 1) := by
      rw [Nat.mul_succ]
      omega
    rw [EntryTable.toBlock_put_name, ht, ← writeOver_of_fits hin,
      contents_writeOver (n := b + 1) (by omega)
        (Nat.lt_of_lt_of_le (Nat.lt_add_of_pos_right (by decide)) hfits) (by omega) hend
        (Nat.lt_succ_self b), hlen]
    rfl
  refine ⟨?_, hcontents m⟩
  have hself := hcontents (t.entry slot).name
  rw [show Entry.mk (t.entry slot).inode (t.entry slot).name = t.entry slot from rfl,
    EntryTable.put_entry, ht, putBlock_block h] at hself
  have hstart : (d.contents.take (nameStart b slot)).length = nameStart b slot := by
    have hcovers := Nat.mul_le_mul_left sectorSize (Nat.succ_le_of_lt h)
    rw [List.length_take, length_contents, size, nameStart]
    simp only [blockSize, sectorSize] at hcovers hfits ⊢
    omega
  rw [hself, List.append_assoc, List.drop_left' hstart, List.take_left' (hlen _)]

end Disk

/-! ## Opening and finding on a fenced volume -/

variable {l : Layout} {g : Geometry} {v : Service} {plan : FaultPlan} {c : Records} {s s' : Scene l}
  {p i : Nat} {slot : Fin slotCount} {n m : StoredName} {old new name : String}

/-- A name links an inode in a directory that can be opened. -/
structure Records.Finds (l : Layout) (c : Records) (p : Nat) (name : String) (i : Nat) : Prop where
  opens : c.Opens l p
  linked : (c.table p).find? name = some i

section

variable (hm : s.mounted = true) (hs : s.records.Fenced l)

include hm hs

/-- A name is found where it links something, unless a read fails. -/
theorem Volume.views_find (p : Nat) (name : String) :
    Views plan (find p name) s (s.records.Finds l p name)
      (fun e => (∀ i, ¬ s.records.Finds l p name i) ∨ plan.Strikes Transfer.IsRead e) := by
  refine Views.bind (Q := fun d => s.records.Opens l p ∧ d = s.directory p) ?_ fun d hd => ?_
  · refine Ends.tryCatch (Directory.views_ofInode_opens hm hs.pointsToData p) fun e s' he => ?_
    obtain ⟨rfl, he⟩ := he
    have hclosed : (∀ i, ¬ s'.records.Finds l p name i) ∨ plan.Strikes Transfer.IsRead e :=
      he.imp_left fun hnot _ hfinds => hnot hfinds.opens
    split
    · refine .throw ⟨rfl, hclosed.imp_right fun hstrikes => ?_⟩
      obtain ⟨_, _, _, _, _, hcause⟩ := hstrikes
      cases hcause
    · exact .throw ⟨rfl, hclosed⟩
  · obtain ⟨hopens, rfl⟩ := hd
    have htable : (s.directory p).find? name = (s.records.table p).find? name := rfl
    rw [htable]
    cases hfound : (s.records.table p).find? name with
    | some i => exact .pure ⟨hopens, hfound⟩
    | none =>
      refine .throw (.inl fun i hfinds => ?_)
      rw [hfinds.linked] at hfound
      cases hfound

end

/-- Where no transfer fails, a name is found exactly if it links something. -/
theorem Volume.answers_find_iff (hs : s.records.Fenced l) (history : History) :
    (Settled.state s history).Answers (find p name) (.ok i) ↔
      s.mounted = true ∧ s.records.Finds l p name i := by
  by_cases hm : s.mounted = true
  · have hviews : Views .never (find p name) s _ _ := views_find hm hs p name
    rcases hviews history with
      ⟨j, _, history', hfind, rfl, hfinds⟩ | ⟨e, _, history', hfind, rfl, he⟩
    · constructor
      · rintro ⟨_, hanswer⟩
        have hsame := hfind.symm.trans hanswer
        injection hsame with hij _
        exact ⟨hm, hij ▸ hfinds⟩
      · rintro ⟨-, hfinds'⟩
        have hij := hfinds.linked.symm.trans hfinds'.linked
        rw [← Option.some_inj.mp hij]
        exact ⟨history', hfind⟩
    · constructor
      · rintro ⟨_, hanswer⟩
        have hsame := hfind.symm.trans hanswer
        cases hsame
      · rintro ⟨-, hfinds⟩
        exact absurd hfinds (he.resolve_right FaultPlan.not_strikes_never i)
  · have hopen := Directory.does_ofInode_unmounted (Bool.eq_false_iff.mpr hm) p
    have hfind : Does (find p name) s (.error .notMounted) s := by
      refine (hopen.tryCatch_error ?_).bind_error
      exact Does.throw _ _
    refine iff_of_false ?_ fun h => hm h.1
    rintro ⟨_, hanswer⟩
    obtain ⟨_, hfind⟩ := hfind history
    cases hfind.symm.trans hanswer

/-! ## Changing a name -/

/-- The second scene is the first one with another name in the slot of a name, which no slot held. -/
structure Scene.Renames (s : Scene l) (p : Nat) (old new : String) (slot : Fin slotCount)
    (n m : StoredName) (s' : Scene l) : Prop where
  opens : s.records.Opens l p
  old : StoredName.encode old = .ok n
  new : StoredName.encode new = .ok m
  named : ((s.records.table p).findFinIdx? fun e => e.isNamed n) = some slot
  missing : (s.records.table p).lookup m = none
  done : s' = s.setTable p
    ((s.records.table p).put slot ⟨((s.records.table p).entry slot).inode, m⟩)

/-- Whatever transfers fail, a name is changed or nothing is. -/
theorem Volume.ends_relabel (hs : s.records.Fenced l) (p : Nat) (old new : String) :
    Ends plan (relabel p old new) s
      (fun _ s' => (s' = s ∧ StoredName.encode old = StoredName.encode new) ∨
        ∃ slot n m, s.Renames p old new slot n m s')
      (fun _ s' => s' = s ∨ ∃ slot n m, s.Renames p old new slot n m s') := by
  by_cases hdot : (isSelfOrParent old || isSelfOrParent new) = true
  · rw [relabel, if_pos hdot]
    exact .throw_bind (.inl rfl)
  rw [relabel, if_neg hdot]
  cases hold : StoredName.encode old with
  | error e => exact .error_bind (.inl rfl)
  | ok n =>
  refine .ok_bind ?_
  cases hnew : StoredName.encode new with
  | error e => exact .error_bind (.inl rfl)
  | ok m =>
  refine .ok_bind ?_
  by_cases hm : s.mounted = true
  · refine (Directory.views_ofInode_opens hm hs.pointsToData p).bind_ends (fun _ _ => .inl rfl)
      fun d hd => ?_
    obtain ⟨hopens, rfl⟩ := hd
    have hfindOld : (s.directory p).find? old = (s.records.table p).lookup n :=
      EntryTable.find?_eq hold
    have hfindNew : (s.directory p).find? new = (s.records.table p).lookup m :=
      EntryTable.find?_eq hnew
    rw [hfindOld, hfindNew]
    cases hn : (s.records.table p).lookup n with
    | none => exact .throw_bind (.inl rfl)
    | some i =>
    by_cases hsame : n = m
    · simp only [if_pos hsame]
      exact .pure (.inl ⟨rfl, by rw [hsame]⟩)
    cases hmissing : (s.records.table p).lookup m with
    | some j =>
      simp only [if_neg hsame]
      exact .throw_bind (.inl rfl)
    | none =>
    simp only [if_neg hsame]
    obtain ⟨slot, hslot, -⟩ := EntryTable.exists_slot_of_lookup hn
    have hrelabel : (s.directory p).table.relabel old new = .ok _ :=
      EntryTable.relabel_eq ((EntryTable.slotOf?_eq hold).trans hslot) hnew
    refine ViewM.ends_through (ViewM.current_bind ?_)
    rw [hrelabel]
    refine .ok_bind ((Directory.ends_replaceTable hm hopens rfl).mono (fun _ t ht => ?_)
      fun e t ht => ?_)
    · exact .inr ⟨slot, n, m, hopens, hold, hnew, hslot, hmissing, ht.1⟩
    · rcases ht with ⟨rfl, -⟩ | ⟨ht, -⟩
      · exact .inl rfl
      · exact .inr ⟨slot, n, m, hopens, hold, hnew, hslot, hmissing, ht⟩
  · have hopen : Views plan (Directory.ofInode p) s _ _ :=
      Directory.views_ofInode_unmounted (Bool.eq_false_iff.mpr hm) p
    exact hopen.bind_ends (fun _ _ => .inl rfl) fun _ => False.elim

namespace Scene.Renames

variable (h : s.Renames p old new slot n m s')

include h

/-- Only the bytes of the name change on the disk. -/
theorem renamed : s.store.disk.Renamed s'.store.disk
    (Disk.nameStart (s.records.tableBlock p) slot) n m := by
  obtain ⟨hdir, -, hge, hlt⟩ := h.opens
  have htable : (s.records.table p).toBlock = s.store.disk.block (s.records.tableBlock p) := by
    rw [Records.table_of_directory hdir, EntryTable.toBlock_ofBlock, Scene.records_block hge hlt]
    rfl
  obtain ⟨-, hname⟩ := EntryTable.named_of_findFinIdx? h.named
  have hdisk := s.store.disk_putBlock
    ((s.records.table p).put slot ⟨((s.records.table p).entry slot).inode, m⟩).toBlock
    (l.superblock_lt_of_le hge)
  have hput := Disk.renamed_putBlock (s.store.lt_size hlt) htable slot m
  rw [hname, ← hdisk] at hput
  rw [h.done]
  exact hput

theorem mounted : s'.mounted = s.mounted := by
  rw [h.done]
  rfl

theorem records_eq : s'.records = s.records.setTable p
    ((s.records.table p).put slot ⟨((s.records.table p).entry slot).inode, m⟩) := by
  rw [h.done]
  exact Scene.records_setTable_of_opens h.opens _

/-- The name that is replaced links the inode of its slot. -/
theorem finds_old : s.records.Finds l p old ((s.records.table p).entry slot).target :=
  ⟨h.opens, (EntryTable.find?_eq h.old).trans (EntryTable.lookup_of_slot h.named)⟩

theorem not_finds_new : ¬ s.records.Finds l p new i := by
  intro hfinds
  have hlookup := (EntryTable.find?_eq h.new).symm.trans hfinds.linked
  rw [h.missing] at hlookup
  cases hlookup

theorem opens' : s'.records.Opens l p := by
  rw [h.records_eq]
  exact ⟨h.opens.directory, h.opens.points, h.opens.ge, h.opens.lt⟩

theorem table_eq : s'.records.table p
    = (s.records.table p).put slot ⟨((s.records.table p).entry slot).inode, m⟩ := by
  have hblock : s'.records.tableBlock p = s.records.tableBlock p := by
    rw [h.records_eq]
    rfl
  rw [Records.table_of_directory h.opens'.directory, hblock, h.records_eq, Records.setTable,
    Records.putBlock]
  dsimp only
  rw [Function.update_self, EntryTable.ofBlock_toBlock]

theorem fenced (hs : s.records.Fenced l) : s'.records.Fenced l := by
  rw [h.records_eq]
  exact hs.putBlock _ _

/-- Where no name is held twice, the inode has one of the two names before and the other one
afterwards. -/
theorem finds_once (hunique : (s.records.table p).Unique)
    (honce : Xor (s.records.Finds l p old i) (s.records.Finds l p new i)) :
    Xor (s'.records.Finds l p old i) (s'.records.Finds l p new i) := by
  obtain ⟨hused, hname⟩ := EntryTable.named_of_findFinIdx? h.named
  have htarget : i = ((s.records.table p).entry slot).target := by
    obtain ⟨hfinds, -⟩ := honce.resolve_right fun hnew => h.not_finds_new hnew.1
    exact Option.some_inj.mp (hfinds.linked.symm.trans h.finds_old.linked)
  have hne : m ≠ n := by
    rintro rfl
    have hlookup := EntryTable.lookup_of_slot h.named
    rw [h.missing] at hlookup
    cases hlookup
  have hunique' : EntryTable.Unique
      ((s.records.table p).put slot ⟨((s.records.table p).entry slot).inode, m⟩) :=
    hunique.put_name h.missing rfl
  refine .inr ⟨⟨h.opens', ?_⟩, fun hfinds => ?_⟩
  · rw [h.table_eq, EntryTable.find?_eq h.new, hunique.lookup_set hunique', htarget]
    exact if_pos ⟨hused, rfl⟩
  · have hold := hfinds.linked
    rw [h.table_eq, EntryTable.find?_eq h.old, hunique.lookup_set hunique',
      if_neg fun hm => hne hm.2, if_pos ⟨hused, hname⟩] at hold
    cases hold

end Scene.Renames

/-- Of tidy records no directory links an inode under two names, of which the first is neither `.`
nor `..`. -/
theorem Records.Tidy.not_finds (h : c.Tidy l) (hdot : isSelfOrParent old = false)
    (hne : StoredName.encode old ≠ StoredName.encode new) (hold : c.Finds l p old i) :
    ¬ c.Finds l p new i := by
  intro hnew
  have hdir := hold.opens.directory
  obtain ⟨n, slot, hn, -, hfind, rfl⟩ := Scene.slot_of_find? hold.linked
  obtain ⟨m, -, hm, -⟩ := Scene.slot_of_find? hnew.linked
  have hlinks := Records.links_of_slot hdir hdot hn hfind
  have hlookup := (EntryTable.find?_eq hm).symm.trans hnew.linked
  cases hself : m.isSelfOrParent with
  | false =>
    obtain ⟨-, hname⟩ := EntryTable.named_of_findFinIdx? hfind
    have hsame := (h.eq_of_lookup hlinks hdir hself hlookup).2
    rw [hn, hm, ← hname, ← hsame] at hne
    exact hne rfl
  | true =>
    rcases h.lookup_selfOrParent hdir hself hlookup with hhere | hup
    · exact h.tree.ne_of_links hlinks hhere.symm
    · exact h.tree.parent_ne_of_links hlinks hup.symm

/-! ## What is left of the volume -/

/-- On the disk, the slot of a directory that held a name holds another one, and nothing else
differs. -/
def Volume.Relabelled (l : Layout) (v v' : Volume) (p : Nat) (old new : String) : Prop :=
  ∃ slot n m, ((v.records l).table p).slotOf? old = some slot ∧ StoredName.encode old = .ok n ∧
    StoredName.encode new = .ok m ∧ v.device.disk.Renamed v'.device.disk
      (Disk.nameStart ((v.records l).tableBlock p) slot) n m

/-- Once no transfer fails any more, an inode is found under exactly one of two names. -/
def Volume.FindsOnce (v : Volume) (p : Nat) (old new : String) (i : Nat) : Prop :=
  Xor ((v.withFaults .never).Answers (find p old) (.ok i))
    ((v.withFaults .never).Answers (find p new) (.ok i))

theorem Volume.findsOnce_iff (hs : s.records.Fenced l) (history : History) :
    (Exposed.under plan s history : Volume).FindsOnce p old new i ↔
      s.mounted = true ∧ Xor (s.records.Finds l p old i) (s.records.Finds l p new i) := by
  have hnever : (Exposed.under plan s history : Volume).withFaults .never
      = Settled.state s ⟨0, 0⟩ := rfl
  rw [FindsOnce, hnever, answers_find_iff hs, answers_find_iff hs]
  by_cases hm : s.mounted = true
  · simp only [hm, true_and]
  · refine iff_of_false (fun hxor => ?_) fun h => hm h.1
    exact hxor.or.elim (fun h => hm h.1) fun h => hm h.1

theorem Scene.Renames.relabelled (h : s.Renames p old new slot n m s') (history history' : History)
    {plan' : FaultPlan} : (Exposed.under plan s history : Volume).Relabelled l
      (Exposed.under plan' s' history') p old new :=
  ⟨slot, n, m, (EntryTable.slotOf?_eq h.old).trans h.named, h.old, h.new, h.renamed⟩

/-- What a change of a name leaves of a volume, whether it failed or not. -/
theorem Volume.exists_scene_relabel (hs : s.records.Fenced l) (plan : FaultPlan) (p : Nat)
    (old new : String) (history : History) :
    let v := leftBy (relabel p old new) (Exposed.under plan s history)
    ∃ (s' : Scene l) (history' : History), v = Exposed.under plan s' history' ∧
      ((s' = s ∧ (relabel p old new (Exposed.under plan s history) = .ok () v →
          StoredName.encode old = StoredName.encode new)) ∨
        ∃ slot n m, s.Renames p old new slot n m s') := by
  intro v
  have hends : Ends plan (relabel p old new) s _ _ := ends_relabel hs p old new
  rcases hends history with
    ⟨_, s', history', hdone, hs'⟩ | ⟨e, s', history', hfailed, hs'⟩
  · refine ⟨s', history', by simp only [v, leftBy, hdone], hs'.imp_left fun hsame => ?_⟩
    exact ⟨hsame.1, fun _ => hsame.2⟩
  · refine ⟨s', history', by simp only [v, leftBy, hfailed], hs'.imp_left fun hsame => ⟨hsame, ?_⟩⟩
    intro hok
    rw [hfailed] at hok
    cases hok

/-- Whatever transfers fail while a name is changed, and whatever calls and failures led to the
volume: the disk is as it was, or differs in the bytes of the name and holds the new one.  When the
change succeeded, it holds the new one.  An inode that was found under exactly one of the names is
still, where the directory holds no name twice, as it never does unless transfers failed before. -/
theorem ReachedFailing.relabel_atomic (h : ReachedFailing g v) (hl : Layout.ofGeometry g = .ok l)
    (plan : FaultPlan) (p : Nat) (old new : String) :
    let v' := leftBy (relabel p old new) (v.volume.withFaults plan)
    l.Reads (v.volume.device.withFaults .never) (v.volume.records l) ∧
      (v'.device.disk = v.volume.device.disk ∨ v.volume.Relabelled l v' p old new) ∧
      (relabel p old new (v.volume.withFaults plan) = .ok () v' →
        StoredName.encode old ≠ StoredName.encode new → v.volume.Relabelled l v' p old new) ∧
      (((v.volume.records l).table p).Unique → ∀ i, v.volume.FindsOnce p old new i →
        v'.FindsOnce p old new i) ∧
      (∀ logs, Reached g v logs → isSelfOrParent old = false →
        StoredName.encode old ≠ StoredName.encode new →
        ∀ i, (v.volume.withFaults .never).Answers (find p old) (.ok i) →
          v'.FindsOnce p old new i) := by
  obtain ⟨s, plan', history, hvolume, hs, hfaults⟩ := h.exists_scene hl
  have htidy (logs : Logs) (hreached : Reached g v logs) : s.records.Tidy l := by
    have htidy := hreached.tidy hl
    rw [hvolume] at htidy
    exact htidy
  have hreads := s.store.reads ⟨0, 0⟩
  obtain ⟨s', history', hleft, hcases⟩ := exists_scene_relabel hs plan p old new ⟨0, 0⟩
  intro v'
  have hv' : v' = Exposed.under plan s' history' := (congrArg _ (hfaults plan)).trans hleft
  have honce (i : Nat) (hunique : (s.records.table p).Unique)
      (hxor : s.mounted = true ∧ Xor (s.records.Finds l p old i) (s.records.Finds l p new i)) :
      v'.FindsOnce p old new i := by
    rw [hv']
    rcases hcases with ⟨rfl, -⟩ | ⟨slot, n, m, hrenames⟩
    · exact (findsOnce_iff hs history').mpr hxor
    · refine (findsOnce_iff (hrenames.fenced hs) history').mpr ⟨?_, ?_⟩
      · rw [hrenames.mounted]
        exact hxor.1
      · exact hrenames.finds_once hunique hxor.2
  refine ⟨?_, ?_, fun hok hne => ?_, fun hunique i honce' => ?_,
    fun logs hreached hdot hne i hi => ?_⟩
  · rw [hvolume]
    exact hreads
  · rw [hvolume, hv']
    rcases hcases with ⟨rfl, -⟩ | ⟨slot, n, m, hrenames⟩
    · exact .inl rfl
    · exact .inr (hrenames.relabelled history history')
  · rcases hcases with ⟨-, hsame⟩ | ⟨slot, n, m, hrenames⟩
    · rw [← hfaults plan] at hsame
      exact absurd (hsame hok) hne
    · rw [hvolume, hv']
      exact hrenames.relabelled history history'
  · rw [hvolume] at hunique honce'
    exact honce i hunique ((findsOnce_iff hs history).mp honce')
  · rw [hfaults] at hi
    obtain ⟨hm, hfinds⟩ := (answers_find_iff hs ⟨0, 0⟩).mp hi
    have hexact := htidy logs hreached
    exact honce i (hexact.tree.unique p hfinds.opens.directory)
      ⟨hm, .inl ⟨hfinds, hexact.not_finds hdot hne hfinds⟩⟩

/-- A file of a new floppy disk gets another name, while the second half of the table of the root is
refused. -/
theorem ReachedFailing.relabel_atomic_floppy :
    let v := (Call.edit (.makeFile rootInode "a")).after Service.floppy
    let v' := leftBy (relabel rootInode "a" "b") (v.volume.withFaults (.refusing [25]))
    ReachedFailing .floppy v ∧ Layout.ofGeometry .floppy = .ok .floppy ∧
      Layout.floppy.Reads (v.volume.device.withFaults .never) (v.volume.records .floppy) ∧
      (v'.device.disk = v.volume.device.disk ∨
        v.volume.Relabelled .floppy v' rootInode "a" "b") ∧
      (relabel rootInode "a" "b" (v.volume.withFaults (.refusing [25])) = .ok () v' →
        StoredName.encode "a" ≠ StoredName.encode "b" →
        v.volume.Relabelled .floppy v' rootInode "a" "b") ∧
      (((v.volume.records .floppy).table rootInode).Unique → ∀ i,
        v.volume.FindsOnce rootInode "a" "b" i → v'.FindsOnce rootInode "a" "b" i) ∧
      (∀ logs, Reached .floppy v logs → isSelfOrParent "a" = false →
        StoredName.encode "a" ≠ StoredName.encode "b" →
        ∀ i, (v.volume.withFaults .never).Answers (find rootInode "a") (.ok i) →
          v'.FindsOnce rootInode "a" "b" i) := by
  have hreached := (reached_floppy.call (.edit (.makeFile rootInode "a"))).reachedFailing
  exact ⟨hreached, Layout.ofGeometry_floppy,
    hreached.relabel_atomic Layout.ofGeometry_floppy (.refusing [25]) rootInode "a" "b"⟩

end BlockFS
